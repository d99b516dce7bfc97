/-
Module: ConceptualGraph.Proofs.Copy.Place
Purpose: A concept that is begun takes its place in its graph, and its label is read.
Main exports: Tracks.placed, Read.join_achieves, Read.conceptLabels_outcome
-/
import ConceptualGraph.Proofs.Copy.Parts

namespace ConceptualGraph

/-! ## Places -/

section

variable {model : Model} {unfinished : Unfinished} {writer : Writer} {reader : Reader}
  {graph place : GraphId} {outer : List GraphId} {concept : ConceptId} {data : Concept}

theorem Concept.IsPlain.not_hidden {goal : Prop} (plain : data.IsPlain)
    (hidden : data.hidden = true) : goal := by
  rw [plain.1] at hidden
  cases hidden

/-- What is unfinished once a concept is begun. -/
def Unfinished.begin (unfinished : Unfinished) (model copy : Model) (concept : ConceptId)
    (data : Concept) (place : GraphId) : Unfinished :=
  { unfinished with
    drafts := (⟨copy.concepts.size⟩, ({ data with graph := some place } : Concept).bare) ::
      unfinished.drafts
    waiting := (model.descriptor? concept).toList }

/-- The copy of a graph that has been begun is in the arena. -/
theorem Tracks.lt_graphs (tracks : Tracks model unfinished writer reader)
    (ready : unfinished.waiting = []) (there : (writer.ledger model).Graph graph place) :
    place.index < reader.model.graphs.size := by
  obtain ⟨begun, split, count⟩ := tracks.nodes.waiting
  rw [ready, List.append_nil] at split
  rw [← count, ← split]
  exact there.lt

/-- A concept is written in a graph in which nothing outside is written. -/
theorem Tracks.apart {source form : Notation} (tracks : Tracks model unfinished writer reader)
    (copyable : model.Copyable source form) (within : unfinished.graphs = graph :: outer)
    (stands : (model.concept concept).graph = some graph) :
    ∀ id ∈ outer, (model.concept concept).graph ≠ some id := by
  intro id member same
  rw [stands] at same
  cases same
  exact (within ▸ tracks.houses).not_mem copyable.toRooted member

/-- The copy of a concept that is begun. -/
theorem Tracks.names_begun (tracks : Tracks model unfinished writer reader)
    (label : Option String) :
    ((writer.emit concept label).ledger model).Concept concept
      ⟨reader.model.concepts.size⟩ := by
  rw [Ledger.Concept, Writer.concepts_emit, tracks.nodes.size]
  simp

/-- The copy of a concept that has been opened. -/
theorem Tracks.names_opened {opened : Writer} {use : Option LabelUse}
    (tracks : Tracks model unfinished writer reader)
    (opens : model.Opens writer concept use opened) :
    ((opened.emit concept (use.map LabelUse.label)).ledger model).Concept concept
      ⟨reader.model.concepts.size⟩ := by
  obtain ⟨labels, rfl⟩ := opens.exists_labels
  exact tracks.names_begun (use.map LabelUse.label)

/-- A concept that is begun, apart from its label. -/
theorem Tracks.placed {label : Option String} {opened : Writer} {labels : LabelTable}
    {copy : Model} (tracks : Tracks model unfinished writer reader)
    (within : unfinished.graphs = graph :: outer)
    (ready : unfinished.waiting = []) (fresh : concept ∉ writer.order)
    (stands : (model.concept concept).graph = some graph)
    (wrapped : (model.concept concept).hidden = true →
      ∀ relation, concept ∈ (model.relation relation).args → relation ∈ writer.written)
    (there : (writer.ledger model).Graph graph place)
    (emitted : opened.emitted = writer.emitted) (markers : opened.markers = writer.markers)
    (written : opened.written = writer.written)
    (first : model.DefinedFirst (concept :: writer.order))
    (same : (reader.model.placed data place).SameButSets copy)
    (unset : model.corefSets = #[] → copy.corefSets = reader.model.corefSets)
    (known : model.Labels unfinished.graphs (opened.emit concept label) copy labels) :
    Tracks model (unfinished.begin model reader.model concept data place)
      (opened.emit concept label) ((reader.withModel copy).withLabels labels) := by
  have order : (opened.emit concept label).order = concept :: writer.order := by
    rw [Writer.order_emit, Writer.order, emitted, Writer.order]
  have ledger : (opened.emit concept label).ledger model =
      (writer.emit concept label).ledger model := by
    unfold Writer.ledger
    rw [order, Writer.order_emit, Writer.markers_emit, Writer.markers_emit, markers]
  constructor
  · rw [order]
    exact first
  · rw [order, Writer.written_emit, written]
    have houses := within ▸ tracks.houses
    exact (show (unfinished.begin model reader.model concept data place).graphs = graph :: outer
      from within) ▸ houses.emit fresh stands wrapped
  · rw [ledger, Writer.written_emit, written]
    exact (tracks.nodes.placed ready (Writer.concepts_emit model) (Writer.graphs_emit model) rfl
      stands there).sameButSets same
  · exact known
  · rw [Writer.markers_emit, markers]
    have count : copy.markers = reader.model.markers := same.markers
    exact (show ((reader.withModel copy).withLabels labels).model.markers = _ from count) ▸
      tracks.markers
  · have hierarchy : copy.hierarchy = reader.model.hierarchy := same.hierarchy
    exact (show ((reader.withModel copy).withLabels labels).model.hierarchy = _ from hierarchy) ▸
      tracks.ready
  · exact fun setless => (unset setless).trans (tracks.setless setless)

/-- The data of a concept whose bracket is open are changed. -/
theorem Tracks.redrafted {copy : ConceptId} {drafts : List (ConceptId × Concept)}
    (change : Concept → Concept) (tracks : Tracks model unfinished writer reader)
    (open_ : unfinished.drafts = (copy, data) :: drafts)
    (keeps : ∀ data, (change data).graph = data.graph)
    (hidden : ∀ data, (change data).hidden = data.hidden)
    (special : ∀ data, (change data).special = data.special)
    (bare : ∀ data, (change data).bare = change data.bare) :
    Tracks model { unfinished with drafts := (copy, change data) :: drafts } writer
      (reader.withModel (reader.model.modifyConcept copy change)) where
  first := tracks.first
  houses := tracks.houses
  nodes := by
    have same : unfinished = { unfinished with drafts := (copy, data) :: drafts } := by
      cases unfinished; cases open_; rfl
    exact (same ▸ tracks.nodes).redrafted keeps hidden special bare
  labels := ⟨tracks.labels.labelled, tracks.labels.bound,
    tracks.labels.framed.mono (.refl _) (.of_eq rfl)⟩
  markers := tracks.markers
  ready := tracks.ready
  setless := tracks.setless

/-- A concept whose data are those of a copy is ended. -/
theorem Tracks.settled {copy : ConceptId} {drafts : List (ConceptId × Concept)}
    (tracks : Tracks model unfinished writer reader)
    (open_ : unfinished.drafts = (copy, data) :: drafts)
    (copies : (writer.ledger model).Concept concept copy)
    (copied : model.CopiedConcept reader.model (writer.ledger model) concept copy) :
    Tracks model { unfinished with drafts } writer reader where
  first := tracks.first
  houses := tracks.houses
  nodes := by
    have same : unfinished = { unfinished with drafts := (copy, data) :: drafts } := by
      cases unfinished; cases open_; rfl
    refine (same ▸ tracks.nodes).settled fun other also => ?_
    obtain rfl : other = concept := Option.some.inj (also.symm.trans copies)
    exact copied
  labels := tracks.labels
  markers := tracks.markers
  ready := tracks.ready
  setless := tracks.setless

end

/-! ## Joining a coreference set -/

namespace Model

variable {copy : Model} {set : CorefSetId} {concept other : ConceptId} {place : GraphId}

theorem SetsKept.trans {first later last : Model} (kept : first.SetsKept later)
    (also : later.SetsKept last) : first.SetsKept last := by
  intro set inside
  obtain ⟨within, same⟩ := kept set inside
  obtain ⟨last, equal⟩ := also set within
  exact ⟨last, equal.trans same⟩

/-- A new set keeps those that were there. -/
theorem SetsKept.newCorefSet : copy.SetsKept (copy.newCorefSet concept).2 := by
  intro set inside
  refine ⟨by rw [size_newCorefSet]; exact Nat.lt_succ_of_lt inside, ?_⟩
  rw [corefSet_newCorefSet, if_neg (Nat.ne_of_lt inside)]

/-- A set takes in a concept that stands in the graph of its defining member. -/
theorem addToCorefSet_eq_ok (inside : set.index < copy.corefSets.size)
    (within : concept.index < copy.concepts.size)
    (stands : (copy.concept concept).graph = some place)
    (beside : (copy.concept (copy.corefSet set).defining).graph = some place) :
    ∃ later, copy.addToCorefSet set concept = .ok later ∧ copy.SameButSets later ∧
      copy.SetsKept later := by
  have scope : copy.inScope (copy.corefSet set) concept = true := by
    unfold inScope isNestedIn
    rw [stands, beside]
    cases copy.graphs.size <;> simp [climbsTo]
  have success : ∃ later, copy.addToCorefSet set concept = .ok later := by
    unfold addToCorefSet
    simp only [scope, Bool.not_true, Bool.and_false, Bool.false_eq_true, if_false]
    split
    · exact ⟨_, rfl⟩
    · exact ⟨_, rfl⟩
  obtain ⟨later, added⟩ := success
  refine ⟨later, added, .addToCorefSet within added, ?_⟩
  rcases eq_of_addToCorefSet added with ⟨-, rfl⟩ | ⟨-, rfl⟩
  · exact .refl _
  · intro id here
    refine ⟨by simpa [noteMembership, modifyConcept, modifyCorefSet] using here, ?_⟩
    change ((copy.modifyCorefSet set _).corefSet id).defining = _
    rw [corefSet_modifyCorefSet inside]
    split
    · next same => rw [same]
    · rfl

end Model

namespace Read

variable {reader : Reader} {label : String} {found : Located} {concept other : ConceptId}
  {place : GraphId}

/-- A concept joins the set of a label that denotes a concept of its graph. -/
theorem join_achieves (denotes : reader.model.Denotes reader.labels.scope label other)
    (within : concept.index < reader.model.concepts.size)
    (known : other.index < reader.model.concepts.size)
    (stands : (reader.model.concept concept).graph = some place)
    (beside : (reader.model.concept other).graph = some place) :
    Achieves (join found label concept) reader fun _ later =>
      ∃ copy labels, later = (reader.withModel copy).withLabels labels ∧
        reader.model.SameButSets copy ∧ reader.model.SetsKept copy ∧
        (labels = reader.labels ∨ ∃ id, labels.scope = reader.labels.scope.map
          (LabelTable.retarget label (.set id)) ∧ copy.Represents (.set id) other) := by
  obtain ⟨target, bound, represents⟩ := denotes
  simp only [join, achieves_bind, setFor, achieves_labels, LabelTable.target?_eq, bound]
  -- Either the label stands for a set already, or what it stands for defines a new one.
  cases target with
  | set set =>
      obtain ⟨inside, defines⟩ := represents
      obtain ⟨later, added, same, kept⟩ :=
        Model.addToCorefSet_eq_ok inside within stands (defines ▸ beside)
      simp only [achieves_pure, achieves_model, added]
      exact ⟨later, reader.labels, rfl, same, kept, .inl rfl⟩
  | concept defining =>
      obtain rfl : defining = other := represents
      have began : reader.model.SameButSets (reader.model.newCorefSet defining).2 :=
        .newCorefSet known
      have fresh : (reader.model.newCorefSet defining).2.corefSet ⟨reader.model.corefSets.size⟩ =
          { defining, members := [defining]
            scopeChecked := (reader.model.concept defining).graph.isSome } := by
        rw [Model.corefSet_newCorefSet, if_pos rfl]
      obtain ⟨later, added, same, kept⟩ : ∃ later,
          (reader.model.newCorefSet defining).2.addToCorefSet ⟨reader.model.corefSets.size⟩
              concept = .ok later ∧
            (reader.model.newCorefSet defining).2.SameButSets later ∧
            (reader.model.newCorefSet defining).2.SetsKept later :=
        Model.addToCorefSet_eq_ok (by simp) (by rw [began.size]; exact within)
          (by rw [began.field Concept.graph fun _ => rfl]; exact stands)
          (by rw [fresh, began.field Concept.graph fun _ => rfl]; exact beside)
      simp only [achieves_bind, achieves_make, achieves_bindLabel, achieves_pure, achieves_model,
        Reader.withLabels_model, Reader.withModel_model, Model.newCorefSet_fst, added]
      refine ⟨later, _, rfl, ?_, Model.SetsKept.newCorefSet.trans kept, .inr
        ⟨⟨reader.model.corefSets.size⟩, LabelTable.scope_bind_of_bound bound, ?_⟩⟩
      · exact began.trans same
      · obtain ⟨inside, defines⟩ := kept ⟨reader.model.corefSets.size⟩ (by simp)
        exact ⟨inside, by rw [defines, fresh]⟩

/-- No concept joins the set of a label that denotes nothing. -/
theorem join_ensures_not (unbound : reader.labels.isBound label = false) :
    Ensures (join found label concept) reader fun _ _ => False := by
  have missing : LabelTable.seek reader.labels.scope label = none := by
    rw [LabelTable.isBound_eq_seek] at unbound
    exact Option.isNone_iff_eq_none.mp (by simpa using unbound)
  simp [join, setFor, LabelTable.target?_eq, missing]

/-! ## Labels -/

/-- No label is read where what follows begins none. -/
theorem boundLabels_achieves_nil (next : From 3 reader.tokens) (count : Nat) :
    Achieves (boundLabels concept count) reader fun _ later => later = reader := by
  obtain ⟨first, others, starts, high⟩ := next
  cases count with
  | zero => exact rfl
  | succ count =>
      simp only [boundLabels, achieves_bind, achieves_peek, Reader.token_ahead_zero starts]
      split
      · exact absurd high (by simp [Token.rank])
      · exact rfl

/-- Where no label follows, none is read. -/
theorem conceptLabels_eq (next : From 3 reader.tokens) :
    Achieves (conceptLabels concept) reader fun _ later => later = reader := by
  obtain ⟨first, others, starts, high⟩ := next
  simp only [conceptLabels, achieves_bind, achieves_peek, Reader.token_ahead_zero starts]
  split
  · exact absurd high (by simp [Token.rank])
  · exact boundLabels_achieves_nil ⟨first, others, starts, high⟩ _

/-- A label that is not bound is defined. -/
theorem conceptLabels_defines {rest : List Token} (starts : reader.tokens = .defLabel label :: rest)
    (unbound : reader.labels.isBound label = false) :
    Achieves (conceptLabels concept) reader fun _ later =>
      later = reader.next.withLabels (reader.labels.bind label (.concept concept)) := by
  simp only [conceptLabels, achieves_bind, achieves_peek, Reader.token_ahead_zero starts,
    achieves_labels, unbound, Bool.false_eq_true, if_false, achieves_advance, achieves_bindLabel]
  exact rfl

/-- A label that denotes a concept of the same graph is joined. -/
theorem conceptLabels_joins {rest : List Token}
    (starts : reader.tokens = .boundLabel label :: rest) (next : From 3 rest)
    (denotes : reader.model.Denotes reader.labels.scope label other)
    (within : concept.index < reader.model.concepts.size)
    (known : other.index < reader.model.concepts.size)
    (stands : (reader.model.concept concept).graph = some place)
    (beside : (reader.model.concept other).graph = some place) :
    Achieves (conceptLabels concept) reader fun _ later =>
      ∃ copy labels, later = (reader.next.withModel copy).withLabels labels ∧
        reader.model.SameButSets copy ∧ reader.model.SetsKept copy ∧
        (labels = reader.labels ∨ ∃ id, labels.scope = reader.labels.scope.map
          (LabelTable.retarget label (.set id)) ∧ copy.Represents (.set id) other) := by
  have many : reader.rest.length = rest.length + 1 := by
    rw [Reader.length_rest, starts, List.length_cons]
  simp only [conceptLabels, achieves_bind, achieves_peek, Reader.token_ahead_zero starts,
    achieves_get, many, boundLabels, achieves_located, achieves_advance]
  have joined : Achieves (join (reader.ahead 0) label concept) reader.next fun _ later =>
      ∃ copy labels, later = (reader.next.withModel copy).withLabels labels ∧
        reader.model.SameButSets copy ∧ reader.model.SetsKept copy ∧
        (labels = reader.labels ∨ ∃ id, labels.scope = reader.labels.scope.map
          (LabelTable.retarget label (.set id)) ∧ copy.Represents (.set id) other) :=
    join_achieves denotes within known stands beside
  refine joined.mono fun _ later read => ?_
  obtain ⟨copy, labels, rfl, facts⟩ := read
  refine (boundLabels_achieves_nil ?_ _).mono fun _ last equal => ?_
  · exact (Reader.tail_tokens starts).symm ▸ next
  · subst equal
    exact ⟨copy, labels, rfl, facts⟩

section Labels

variable {model : Model} {source form : Notation} {unfinished : Unfinished}
  {writer opened : Writer} {graph : GraphId} {outer : List GraphId} {data : Concept}
  {use : Option LabelUse} {rest : List Token}

/-- A concept that does not define the label of its set joins the set, if the defining member
has been written before. -/
theorem conceptLabels_member {set : CorefSetId} {after : LabelTable}
    (copyable : model.Copyable source form)
    (tracks : Tracks model unfinished writer reader) (within : unfinished.graphs = [graph])
    (ready : unfinished.waiting = []) (fresh : concept ∉ writer.order)
    (stands : (model.concept concept).graph = some graph)
    (plain : (model.concept concept).IsPlain)
    (there : (writer.ledger model).Graph graph place)
    (shares : model.sharedSet? concept = some set)
    (apart : (model.corefSet set).defining ≠ concept)
    (gives : writer.labels.Gives (.set set) label after)
    (starts : reader.tokens = .boundLabel label :: rest) (next : From 3 rest) :
    Outcome (model.DefinedFirst (concept :: writer.order))
      (conceptLabels ⟨reader.model.concepts.size⟩)
      (reader.withModel (reader.model.placed data place)) fun _ later =>
        Reads model (unfinished.begin model reader.model concept data place)
          ((writer.withLabels after).emit concept (some label)) reader rest later := by
  -- Sets are found in the outermost graph only, so that all that has been written stands there.
  have stand : ∀ id ∈ writer.order, (model.concept id).graph = some graph := by
    intro id before
    obtain ⟨home, here, -⟩ := tracks.houses.housed id before
    have shared : model.corefSets ≠ #[] := fun setless => by
      rw [Model.sharedSet?_of_setless setless] at shares
      cases shares
    rw [here, copyable.root_of_graph shared here, copyable.root_of_graph shared stands]
  obtain ⟨known, unknown⟩ := (within ▸ tracks.labels).seek_member copyable tracks.first stand
    shares gives
  have kept : reader.model.SetsKept (reader.model.placed data place) := .of_eq rfl
  have unfolded : (reader.withModel (reader.model.placed data place)).tokens =
      .boundLabel label :: rest := starts
  constructor
  · intro first
    -- The one that defines the set has been written: its label is bound, and the set is joined.
    have before : (model.corefSet set).defining ∈ writer.order := by
      rcases first.1 with same | before
      · rw [Model.spokesman_of_sharedSet? shares] at same
        exact absurd same apart
      · rwa [Model.spokesman_of_sharedSet? shares] at before
    obtain ⟨rfl, named, other, names, denotes⟩ := known before
    obtain ⟨home, copied, beside⟩ := tracks.nodes.stands _ other names graph (by
      rw [Model.spokesman_of_sharedSet? shares]
      exact stand _ before)
    have inside := tracks.nodes.lt_size names
    obtain rfl : home = place := tracks.graph_unique copyable copied there
    have standing : ((reader.model.placed data home).concept ⟨reader.model.concepts.size⟩).graph =
        some home := by
      rw [Model.concept_placed, if_pos rfl]
    have joins := conceptLabels_joins unfolded next (denotes.mono kept) (by simp) (by simp; omega)
      standing (by rw [Reader.withModel_model, Model.concept_placed_of_lt inside, beside])
    refine joins.mono fun _ later ⟨copy, labels, left, same, also, begun⟩ => ?_
    subst left
    refine ⟨Reader.tail_tokens starts, ?_, ?_⟩
    · have shared : model.corefSets ≠ #[] := fun setless => by
        rw [Model.sharedSet?_of_setless setless] at shares
        cases shares
      exact (tracks.placed within ready fresh stands plain.not_hidden there rfl rfl rfl first same
        (fun setless => absurd setless shared)
          (within ▸ (within ▸ tracks.labels).joined shares named names denotes (kept.trans also)
          begun)).past ⟨rfl, rfl, rfl, rfl⟩
    · exact (show copy.hierarchy = reader.model.hierarchy from same.hierarchy) ▸ .refl _
  · intro late
    -- It has not been written: its label is not bound, and the reference is refused.
    have missing : (model.corefSet set).defining ∉ writer.order := by
      intro before
      refine late ⟨.inr ?_, tracks.first⟩
      rwa [Model.spokesman_of_sharedSet? shares]
    have unbound := unknown missing
    have many : reader.rest.length = (rest.length + 1) := by
      rw [Reader.length_rest, starts, List.length_cons]
    simp only [conceptLabels, ensures_bind, ensures_peek, Reader.token_ahead_zero unfolded,
      ensures_get, Reader.withModel_rest, many, boundLabels, ensures_located, ensures_advance]
    have refused : Ensures (join ((reader.withModel (reader.model.placed data place)).ahead 0)
        label ⟨reader.model.concepts.size⟩)
        (reader.withModel (reader.model.placed data place)).next fun _ _ => False :=
      join_ensures_not unbound
    exact refused.mono fun _ _ => False.elim

/-- The place of a concept that is begun, and its label, are read back. -/
theorem conceptLabels_outcome (copyable : model.Copyable source form)
    (tracks : Tracks model unfinished writer reader) (within : unfinished.graphs = graph :: outer)
    (ready : unfinished.waiting = []) (fresh : concept ∉ writer.order)
    (stands : (model.concept concept).graph = some graph)
    (plain : (model.concept concept).IsPlain)
    (there : (writer.ledger model).Graph graph place)
    (opens : model.Opens writer concept use opened)
    (starts : reader.tokens = (use.map LabelUse.token).toList ++ rest) (next : From 3 rest) :
    Outcome (model.DefinedFirst (concept :: writer.order))
      (conceptLabels ⟨reader.model.concepts.size⟩)
      (reader.withModel (reader.model.placed data place)) fun _ later =>
        Reads model (unfinished.begin model reader.model concept data place)
          (opened.emit concept (use.map LabelUse.label)) reader rest later := by
  have itself : (reader.model.placed data place).SameButSets (reader.model.placed data place) :=
    ⟨rfl, rfl, rfl, rfl, rfl, fun _ => rfl⟩
  have kept : reader.model.SetsKept (reader.model.placed data place) := .of_eq rfl
  -- A label that is written for the first time is bound to the concept.
  have owned : ∀ target label after, model.Owns writer concept target →
      writer.labels.Gives target label after → use = some (.defining label) →
      opened = writer.withLabels after →
      Outcome (model.DefinedFirst (concept :: writer.order))
        (conceptLabels ⟨reader.model.concepts.size⟩)
        (reader.withModel (reader.model.placed data place)) fun _ later =>
          Reads model (unfinished.begin model reader.model concept data place)
            (opened.emit concept (use.map LabelUse.label)) reader rest later := by
    intro target label after owns gives used left
    subst used left
    have first : model.DefinedFirst (concept :: writer.order) := ⟨.inl owns.names, tracks.first⟩
    obtain ⟨unbound, labels⟩ := (within ▸ tracks.labels).defined owns fresh gives
      (tracks.apart copyable within stands) (tracks.names_begun none) kept
    have defines : Achieves (conceptLabels ⟨reader.model.concepts.size⟩)
        (reader.withModel (reader.model.placed data place)) fun _ later => later =
          (reader.withModel (reader.model.placed data place)).next.withLabels
            (reader.labels.bind label (.concept ⟨reader.model.concepts.size⟩)) :=
      conceptLabels_defines starts unbound
    refine .of_achieves first (defines.mono fun _ later same => ?_)
    subst same
    have placed : Tracks model (unfinished.begin model reader.model concept data place)
        ((writer.withLabels after).emit concept (some label))
        ((reader.withModel (reader.model.placed data place)).withLabels
          (reader.labels.bind label (.concept ⟨reader.model.concepts.size⟩))) :=
      tracks.placed within ready fresh stands plain.not_hidden there rfl rfl rfl first itself
        (fun _ => rfl) (within ▸ labels)
    exact ⟨Reader.tail_tokens starts, placed.past ⟨rfl, rfl, rfl, rfl⟩, .refl _⟩
  cases opens with
  | unlabelled alone =>
      have first : model.DefinedFirst (concept :: writer.order) :=
        ⟨.inl (Model.spokesman_of_none alone), tracks.first⟩
      refine .of_achieves first ((conceptLabels_eq (starts ▸ next)).mono fun _ later same => ?_)
      subst same
      refine ⟨starts, ?_, .refl _⟩
      exact tracks.placed within ready fresh stands plain.not_hidden there rfl rfl rfl first
        itself (fun _ => rfl) (tracks.labels.unlabelled alone kept)
  | alone alone gives => exact owned (.concept concept) _ _ ⟨rfl, alone⟩ gives rfl rfl
  | defining shares defines gives =>
      refine owned (.set _) _ _ ⟨shares, defines, fun id before also => fresh ?_⟩ gives rfl rfl
      have earlier := tracks.first.spokesman_mem before
      rwa [Model.spokesman_of_sharedSet? also, defines] at earlier
  | @member set label after shares other gives =>
      have outermost : graph = ⟨0⟩ := copyable.root_of_graph (fun setless => by
        rw [Model.sharedSet?_of_setless setless] at shares
        cases shares) stands
      have alone : outer = [] := copyable.outermost (outermost ▸ within ▸ tracks.houses.nests)
      subst alone
      exact conceptLabels_member copyable tracks within ready fresh stands plain there shares
        other gives starts next

end Labels

end Read

end ConceptualGraph
