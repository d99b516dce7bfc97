/-
Module: ConceptualGraph.Proofs.Reading.Sound.Nodes
Purpose: Concepts, relations and actors are read soundly.
Main exports: Read.keeps_descriptor, Read.keeps_concept, Read.keeps_arcs,
  Read.relation_ensures, Read.actor_ensures
-/
import ConceptualGraph.Proofs.Reading.Sound.Types

namespace ConceptualGraph.Read

variable {form : Notation} {unfinished : List ConceptId} {reader : Reader}
  {setting : Setting}

/-! ## Referents -/

/-- A word for a quantifier can be read again. -/
theorem quantifierOfWord_sound {word : String} (name : Token.IsName form word) :
    (quantifierOfWord word).Sound form := by
  unfold quantifierOfWord
  simp only
  split
  · trivial
  · split
    · trivial
    · next every some =>
      refine ⟨name, ?_⟩
      simp [quantifierOfWord, every, some]

/-- A quantifier that has been read can be read again. -/
theorem keeps_quantifier :
    Keeps form unfinished quantifier reader fun quantifier _ =>
      ∀ known, quantifier = some known → known.Sound form := by
  refine .eat (fun _ => .peek fun token found => .assuming fun sound => ?_) fun _ =>
    .pure fun _ => nofun
  split
  · next word =>
    have name : Token.IsName form word := sound.scanned_ahead found
    refine .advance (.pure fun _ known same => ?_)
    cases same
    exact quantifierOfWord_sound name
  · next number =>
    have small : (Int.ofNat number).natAbs ≤ Text.largestSigned := sound.scanned_ahead found
    refine .advance (.pure fun _ known same => ?_)
    cases same
    exact small
  · exact .fail

theorem keeps_encodedLiteral :
    Keeps form unfinished encodedLiteral reader fun literal later =>
      (Designator.literal literal).Sound form later.model.markers := by
  refine .peek fun token found => .assuming fun sound => ?_
  split
  · next encoding =>
    have name : Token.IsName form encoding := sound.scanned_ahead found
    refine .advance (.peek fun token _ => ?_)
    split
    · exact .advance (.pure fun _ => name)
    · exact .fail
  · exact .fail

/-- What a designator given by one token does to the state: it makes one marker at most,
and none if there is no designator. -/
structure Designates (form : Notation) (unfinished : List ConceptId) (reader : Reader)
    (designator : Option Designator) (later : Reader) : Prop where
  sound : later.Sound form unfinished
  frame : reader.model.Frame [] later.model
  sets : later.model.corefSets = reader.model.corefSets
  rest : later.rest = reader.rest
  absent : designator = none → later = reader
  markers : later.model.markers ≤ reader.model.markers + 1
  known : ∀ known, designator = some known → known.Sound form later.model.markers
  more : designator ≠ none → (reader.ahead 0).token ≠ .endOfInput

theorem Designates.refl (sound : reader.Sound form unfinished) {designator : Option Designator}
    (known : ∀ known, designator = some known → known.Sound form reader.model.markers)
    (more : designator ≠ Option.none → (reader.ahead 0).token ≠ .endOfInput) :
    Designates form unfinished reader designator reader :=
  ⟨sound, .refl _, rfl, rfl, fun _ => rfl, Nat.le_succ _, known, more⟩

theorem mem_pair {table : MarkerTable} {foreign : String} {marker : MarkerId}
    {pair : String × MarkerId} (member : pair ∈ (table.pair foreign marker).pairs) :
    pair = (foreign, marker) ∨ pair ∈ table.pairs := by
  rcases List.mem_cons.mp member with same | former
  · exact .inl same
  · exact .inr (List.mem_of_mem_filter former)

/-- The model with one more marker. -/
theorem sound_newMarker (sound : reader.Sound form unfinished) (pairs : MarkerTable)
    (paired : ∀ pair ∈ pairs.pairs, pair ∈ reader.markers.pairs ∨
      pair.2 = ⟨reader.model.markers⟩) :
    Reader.Sound form unfinished
        { reader with markers := pairs, model := reader.model.newMarker.2 } ∧
      reader.model.Frame [] reader.model.newMarker.2 := by
  obtain ⟨frame, after⟩ := sound.model.elsewhere reader.model.hierarchy
    (reader.model.markers + 1) (Nat.le_succ _) (.refl _) (.refl _) sound.model.conceptTypes
    sound.model.relationTypes
  refine ⟨⟨after, sound.scanned, fun label target bound =>
    (sound.labels label target bound).frame frame (Nat.le_refl _), fun pair member => ?_⟩, frame⟩
  rcases paired pair member with former | new
  · exact Nat.lt_succ_of_lt (sound.markers pair former)
  · rw [new]
    exact Nat.lt_succ_self _

/-- A marker that is read designates, and is new where its identifier is. -/
theorem markerOf_ensures (sound : reader.Sound form unfinished) (digits : Option String)
    (more : (reader.ahead 0).token ≠ .endOfInput) :
    Ensures (markerOf digits) reader fun marker later =>
      Designates form unfinished reader (some (.marker marker)) later := by
  cases digits with
  | none =>
      obtain ⟨after, frame⟩ := sound_newMarker sound reader.markers
        fun pair member => .inl member
      simp only [markerOf, ensures_make]
      refine ⟨after, frame, rfl, rfl, by simp, Nat.le_refl _, fun known same => ?_,
        fun _ => more⟩
      cases same
      exact Nat.lt_succ_self _
  | some foreign =>
      simp only [markerOf, ensures_bind, ensures_get]
      unfold MarkerTable.markerFor
      cases known : reader.markers.marker? foreign with
      | some marker =>
          simp only [MarkerTable.marker?, Option.map_eq_some_iff] at known
          obtain ⟨pair, here, rfl⟩ := known
          have member := List.mem_of_find?_eq_some here
          refine .refl sound (fun known same => ?_) fun _ => more
          cases same
          exact sound.markers pair member
      | none =>
          obtain ⟨after, frame⟩ := sound_newMarker sound
            (reader.markers.pair foreign ⟨reader.model.markers⟩) fun pair member =>
              (mem_pair member).symm.imp id fun same => by rw [same]
          refine ⟨after, frame, rfl, rfl, by simp, Nat.le_refl _, fun known same => ?_,
            fun _ => more⟩
          cases same
          exact Nat.lt_succ_self _

/-- What a token designates can be read again. -/
theorem designatorOf_ensures (sound : reader.Sound form unfinished) :
    Ensures (designatorOf (reader.ahead 0)) reader
      (Designates form unfinished reader) := by
  have plain : ∀ designator : Designator, designator.Sound form reader.model.markers →
      (reader.ahead 0).token ≠ .endOfInput →
      Designates form unfinished reader (some designator) reader := by
    intro designator known more
    refine .refl sound (fun other same => ?_) fun _ => more
    cases same
    exact known
  unfold designatorOf
  split
  · next value found =>
    exact plain (.literal (.number (.int value))) (sound.scanned_ahead found) (by simp [found])
  · next text found =>
    exact plain (.literal (.number (.float (.ofDecimal text)))) trivial (by simp [found])
  · next text found => exact plain (.literal (.string text)) trivial (by simp [found])
  · next text found => exact plain (.name text) trivial (by simp [found])
  · next text found => exact plain (.name text) trivial (by simp [found])
  · next digits found =>
    rw [ensures_bind]
    exact (markerOf_ensures sound digits (by simp [found])).mono fun _ _ designates => designates
  · next label found =>
    rw [ensures_bind]
    refine (keeps_definingConcept? label sound).mono fun concept later known => ?_
    obtain ⟨-, -, same, -⟩ := known
    cases concept with
    | none => trivial
    | some concept =>
        rw [same]
        exact plain (.defined concept) trivial (by simp [found])
  · exact .refl sound nofun fun absent => absurd rfl absent

/-- A designator that has been read can be read again. -/
theorem keeps_designator :
    Keeps form unfinished designator reader fun designator later =>
      ∀ known, designator = some known → known.Sound form later.model.markers := by
  refine .eat (fun _ => ?_) fun _ => ?_
  · rw [if_pos rfl]
    intro sound
    rw [ensures_bind]
    refine (keeps_encodedLiteral sound).mono fun literal later ⟨after, advances, known⟩ =>
      ⟨after, advances, fun other same => ?_⟩
    cases same
    exact known
  · rw [if_neg nofun]
    refine .located ?_
    intro sound
    rw [ensures_bind]
    refine (designatorOf_ensures sound).mono fun designator later designates => ?_
    dsimp only
    rw [ensures_ite]
    refine ⟨fun present => ?_, fun absent => ?_⟩
    · have some : designator ≠ none := Option.isSome_iff_ne_none.mp present
      have member := Reader.ahead_mem rfl (designates.more some)
      have longer : reader.rest.length = reader.rest.tail.length + 1 := by
        have := List.length_pos_of_mem member
        simp
        omega
      simp only [ensures_bind, ensures_advance, ensures_pure]
      refine ⟨designates.sound.next, ⟨?_, ?_, designates.frame, ?_⟩, designates.known⟩
      · rw [Reader.next_rest, designates.rest]
        exact List.tail_suffix _
      · have := designates.markers
        rw [Reader.next_rest, designates.rest, Reader.next_model]
        omega
      · rw [Reader.next_model, designates.sets]
    · have none : designator = none := by simpa using absent
      simp only [ensures_pure]
      refine ⟨designates.sound, ?_, designates.known⟩
      rw [designates.absent none]
      exact .refl _

/-- A graph that has just been read to describe a concept, complete unless another item
follows. -/
structure Describes (reader : Reader) (owner : ConceptId) (graph : GraphId) (later : Reader) :
    Prop where
  inside : graph.index < later.model.graphs.size
  owner : (later.model.graph graph).owner = some owner
  new : ∀ other, (later.model.concept other).graph = some graph →
    reader.model.concepts.size ≤ other.index
  inhabited : startsItem (later.ahead 0).token = true ∨ later.model.IsInhabited graph

/-- A graph in a concept is described by it. -/
theorem keeps_descriptor {inside : Inside} (insideSound : InsideSound form inside)
    (owner : ConceptId) :
    Keeps form unfinished (descriptor inside owner) reader fun graph later =>
      ∀ found, graph = some found → Describes reader owner found later := by
  refine .assuming fun sound => .peek fun token found => .ite (fun starts => ?_) fun _ =>
    .pure fun _ => nofun
  refine .newGraph ?_
  have within : (⟨reader.model.graphs.size⟩ : GraphId).index <
      (reader.model.newGraph (some owner)).2.graphs.size := by simp
  have read : Keeps form unfinished (inContext (inside.items ⟨reader.model.graphs.size⟩))
      (reader.withModel (reader.model.newGraph (some owner)).2) fun _ later =>
        startsItem (later.ahead 0).token = true ∨
          later.model.IsInhabited ⟨reader.model.graphs.size⟩ := by
    refine .inContext ((insideSound.items within).mono fun _ later _ _ settles => ?_)
      fun _ _ _ holds => holds
    exact settles (by simpa [found] using starts)
  refine read.bind fun _ later advances settled => .pure fun _ graph same => ?_
  cases same
  refine ⟨Nat.lt_of_lt_of_le within advances.frame.graphs_le, ?_, fun other stands => ?_,
    settled⟩
  · rw [advances.frame.owner _ within]
    exact congrArg Graph.owner Model.graph_newGraph
  · by_contra old
    have known : other.index < reader.model.concepts.size := Nat.lt_of_not_le old
    have former := advances.frame.graph other known
    rw [stands] at former
    exact absurd (sound.model.listed.concept_graph other _ former.symm) (Nat.lt_irrefl _)

/-- The referent of a concept is read before it is given to the concept. -/
theorem referent_ensures {inside : Inside} (insideSound : InsideSound form inside)
    (concept : ConceptId) (sound : reader.Sound form unfinished) :
    Ensures (referent inside concept) reader fun _ later =>
      ∃ (middle : Reader) (value : Referent), middle.Sound form unfinished ∧
        reader.Advances middle ∧
        (∀ quantifier, value.quantifier = some quantifier → quantifier.Sound form) ∧
        (∀ designator, value.designator = some designator →
          designator.Sound form middle.model.markers) ∧
        (∀ graph, value.descriptor = some graph → ∃ former : Reader,
          reader.Advances former ∧ former.Advances middle ∧
            Describes former concept graph middle) ∧
        later = if value.isEmpty then middle
          else middle.withModel (middle.model.setReferent concept value) := by
  unfold referent
  rw [ensures_bind]
  refine (keeps_quantifier sound).mono fun quantifier first ⟨firstSound, firstAdvances, known⟩ =>
    ?_
  rw [ensures_bind]
  refine (keeps_designator firstSound).mono fun designator second
    ⟨secondSound, secondAdvances, designates⟩ => ?_
  rw [ensures_bind]
  refine (keeps_descriptor insideSound concept secondSound).mono fun descriptor middle
    ⟨middleSound, middleAdvances, describes⟩ => ?_
  refine (Ensures.intro fun value later ran => ⟨middle, { quantifier, designator, descriptor },
    middleSound, (firstAdvances.trans secondAdvances).trans middleAdvances, known,
    fun value same => (designates value same).mono middleAdvances.frame.markers_le,
    fun graph same => ⟨second, firstAdvances.trans secondAdvances, middleAdvances,
      describes graph same⟩, ?_⟩)
  split at ran <;> next empty =>
    cases ran
    simp [empty]
    try rfl

/-! ## Labels -/

/-- A concept that shows itself may take on labels. -/
theorem keeps_boundLabels {concept : ConceptId} (tokens : Nat)
    (shows : reader.model.Shows concept) :
    Keeps form unfinished (boundLabels concept tokens) reader fun _ _ => True := by
  induction tokens generalizing reader with
  | zero => exact .pure fun _ => trivial
  | succ tokens ih =>
      refine .peek fun token found => ?_
      split
      · refine .located (.advance ?_)
        refine (keeps_join (by exact shows)).bind fun _ later advances _ => ?_
        exact ih (shows.frame advances.frame)
      · exact .pure fun _ => trivial

/-- A concept that shows itself may have labels. -/
theorem keeps_conceptLabels {concept : ConceptId} (shows : reader.model.Shows concept) :
    Keeps form unfinished (conceptLabels concept) reader fun _ _ => True := by
  refine .peek fun token found => ?_
  split
  · next label =>
    refine .labels (.ite (fun _ => .fail) fun _ => .advance ?_)
    intro sound
    rw [ensures_bindLabel]
    exact ⟨sound.bind (by exact shows), .withLabels _ _, trivial⟩
  · exact .get (keeps_boundLabels _ shows)

/-! ## Concepts -/

/-- The comment of a node is read as the scanner has found it, or there is none. -/
theorem nodeComment_ensures {node : NodeKind} (scanned : (reader.ahead 0).token.Scanned form) :
    Ensures (nodeComment node) reader fun comment later =>
      (comment = none ∧ later = reader) ∨
        ∃ text, comment = some text ∧ later = reader.next ∧ Token.IsNodeComment text ∧
          (reader.ahead 0).token = .nodeComment node text := by
  unfold nodeComment
  rw [ensures_bind, ensures_peek]
  split
  · next kind text found =>
    rw [ensures_ite]
    refine ⟨fun same => ?_, fun _ => .inl ⟨rfl, rfl⟩⟩
    subst same
    rw [found] at scanned
    exact .inr ⟨text, rfl, rfl, scanned, found⟩
  · exact .inl ⟨rfl, rfl⟩

theorem keeps_nodeComment {node : NodeKind} :
    Keeps form unfinished (nodeComment node) reader fun comment _ =>
      ∀ text, comment = some text → Token.IsNodeComment text := fun sound =>
  (nodeComment_ensures (sound.scanned_ahead rfl)).mono fun comment later found => by
    rcases found with ⟨rfl, rfl⟩ | ⟨text, rfl, rfl, readable, -⟩
    · exact ⟨sound, .refl _, nofun⟩
    · exact ⟨sound.next, .next _, fun other same => by cases same; exact readable⟩

/-- The data of a concept after its referent and its comment have been read. -/
def withParts (referent : Referent) (comment : Option String) (data : Concept) : Concept :=
  { data with
    referent := if referent.isEmpty then data.referent else some referent
    comment := if comment.isSome then comment else data.comment }

/-- A concept that says nothing yet may be given a referent and a comment. -/
theorem sound_withParts {model : Model} {concept : ConceptId} (value : Referent)
    (comment : Option String) (sound : model.Sound form unfinished)
    (inside : concept.index < model.concepts.size)
    (visible : (model.concept concept).hidden = false)
    (plain : (model.concept concept).referent = none ∧ (model.concept concept).comment = none)
    (special : ∀ label, (model.concept concept).special = some label →
      value.quantifier = none ∧ value.designator = none ∧ comment = none)
    (quantifier : ∀ quantifier, value.quantifier = some quantifier → quantifier.Sound form)
    (designator : ∀ designator, value.designator = some designator →
      designator.Sound form model.markers)
    (descriptor : ∀ graph, value.descriptor = some graph → model.DescribedBy concept graph)
    (readable : ∀ text, comment = some text → Token.IsNodeComment text) :
    (model.modifyConcept concept (withParts value comment)).Sound form unfinished := by
  -- A concept that is hidden is unfinished, and this one is not hidden.
  have unhidden : concept ∉ unfinished := by
    intro member
    have hidden := (sound.unfinished concept member).1
    rw [visible] at hidden
    cases hidden
  have former := sound.concepts concept inside unhidden
  have here : (model.modifyConcept concept (withParts value comment)).concept concept =
      withParts value comment (model.concept concept) := Model.concept_modifyConcept inside
  have frame : model.Frame [concept] (model.modifyConcept concept (withParts value comment)) :=
    .modifyConcept (fun _ => rfl) (fun _ => rfl) fun _ => rfl
  obtain ⟨unreferring, uncommented⟩ := plain
  refine sound.modified inside (fun _ => rfl) (fun _ => rfl) (fun _ => rfl) (fun _ => rfl)
    fun _ => ?_
  constructor
  · intro type typed
    rw [here] at typed
    exact former.type type typed
  · intro referent refers
    rw [here] at refers
    simp only [withParts, unreferring] at refers
    split at refers
    · cases refers
    · next nonempty =>
      cases refers
      exact ⟨quantifier, designator, by simpa using nonempty⟩
  · intro graph describes
    simp only [Model.descriptor?, here, withParts, unreferring] at describes
    split at describes
    · cases describes
    · exact frame.describedBy inside (descriptor graph describes)
  · intro text commented
    rw [here] at commented
    simp only [withParts, uncommented] at commented
    split at commented
    · exact readable text commented
    · cases commented
  · intro label labelled
    rw [here] at labelled
    obtain ⟨unquantified, undesignated, rfl⟩ := special label labelled
    obtain ⟨known, spelled, context⟩ := former.special label labelled
    refine ⟨known, spelled, context.allowed, ?_, ?_, ?_, fun referent refers => ?_,
      fun referent refers => ?_⟩
    · rw [here]
      exact context.type
    · rw [here]
      exact context.comment
    · rw [here]
      exact context.visible
    all_goals
      rw [here] at refers
      simp only [withParts, unreferring] at refers
      split at refers
      · cases refers
      · cases refers
        assumption
  · intro hidden
    rw [here] at hidden
    rw [show (withParts value comment (model.concept concept)).hidden =
      (model.concept concept).hidden from rfl, visible] at hidden
    cases hidden

/-- Two changes of one concept are one. -/
theorem modifyConcept_modifyConcept {model : Model} {concept : ConceptId}
    {first second : Concept → Concept} :
    (model.modifyConcept concept first).modifyConcept concept second =
      model.modifyConcept concept (second ∘ first) := by
  unfold Model.modifyConcept
  simp only [Model.mk.injEq, true_and, and_true]
  apply Array.ext_getElem?
  intro place
  simp only [Array.getElem?_modify]
  by_cases here : concept.index = place
  · simp [here]
  · simp [here]

end ConceptualGraph.Read

namespace ConceptualGraph.Reader

variable {form : Notation} {unfinished : List ConceptId} {base middle later : Reader}
  {concept : ConceptId} {change : Concept → Concept}

/-- A concept made since a state may be changed without touching what was there. -/
theorem Advances.modified (advances : base.Advances middle)
    (model : later.model = middle.model.modifyConcept concept change)
    (new : base.model.concepts.size ≤ concept.index)
    (graph : ∀ data, (change data).graph = data.graph)
    (hidden : ∀ data, (change data).hidden = data.hidden)
    (special : ∀ data, (change data).special = data.special)
    (rest : later.rest <:+ middle.rest) : base.Advances later where
  rest := rest.trans advances.rest
  markers := by
    have shorter := rest.length_le
    have former := advances.markers
    rw [model, Model.markers_modifyConcept]
    omega
  frame := by
    rw [model]
    refine (advances.frame.weaken.trans (.modifyConcept graph hidden special)).of_new
      fun id member => ?_
    rw [List.mem_singleton.mp member]
    exact new
  sets := by
    rw [model]
    exact advances.sets

/-- A concept that is changed elsewhere than in its place keeps the state of reading sound. -/
theorem Sound.modified {unfinishedLater : List ConceptId} (sound : middle.Sound form unfinished)
    (kept : (middle.model.modifyConcept concept change).Sound form unfinishedLater)
    (graph : ∀ data, (change data).graph = data.graph)
    (hidden : ∀ data, (change data).hidden = data.hidden)
    (special : ∀ data, (change data).special = data.special)
    (model : later.model = middle.model.modifyConcept concept change)
    (rest : later.rest <:+ middle.rest) (labels : later.labels = middle.labels)
    (markers : later.markers = middle.markers) : later.Sound form unfinishedLater where
  model := by
    rw [model]
    exact kept
  scanned located member := sound.scanned located (rest.subset member)
  labels label target bound := by
    rw [labels] at bound
    rw [model]
    exact (sound.labels label target bound).frame (.modifyConcept graph hidden special)
      (Nat.le_refl _)
  markers := by
    rw [model, markers]
    exact sound.markers

end ConceptualGraph.Reader

namespace ConceptualGraph.Read

variable {form : Notation} {unfinished : List ConceptId} {reader : Reader}
  {setting : Setting}

/-- What a concept amounts to whose labels, referent and comment have been read: it has
been changed last, and its closing bracket follows whatever describes it. -/
structure Closes (form : Notation) (unfinished : List ConceptId) (concept : ConceptId)
    (opened later : Reader) : Prop where
  closed : ∃ (middle : Reader) (value : Referent) (comment : Option String),
    middle.Sound form unfinished ∧ opened.Advances middle ∧
    (∀ quantifier, value.quantifier = some quantifier → quantifier.Sound form) ∧
    (∀ designator, value.designator = some designator →
      designator.Sound form middle.model.markers) ∧
    (∀ graph, value.descriptor = some graph → middle.model.DescribedBy concept graph) ∧
    (∀ text, comment = some text → Token.IsNodeComment text) ∧
    later.model = middle.model.modifyConcept concept (withParts value comment) ∧
    later.rest <:+ middle.rest ∧ later.labels = middle.labels ∧
    later.markers = middle.markers

/-- The description of a concept is complete where the concept can be closed. -/
theorem Describes.describedBy {former later : Reader} {concept : ConceptId} {graph : GraphId}
    (describes : Describes former concept graph later)
    (old : concept.index < former.model.concepts.size)
    (closes : startsItem (later.ahead 0).token = false) :
    later.model.DescribedBy concept graph where
  inside := describes.inside
  owner := describes.owner
  later other stands := Nat.lt_of_lt_of_le old (describes.new other stands)
  inhabited _ := by
    rcases describes.inhabited with starts | inhabited
    · rw [closes] at starts
      cases starts
    · exact inhabited

/-- A referent that describes what it owns is set without any other change. -/
theorem setReferent_of_describes {former later : Reader} (concept : ConceptId)
    (value : Referent)
    (describes : ∀ graph, value.descriptor = some graph →
      Describes former concept graph later) :
    later.model.setReferent concept value =
      later.model.modifyConcept concept fun data => { data with referent := some value } :=
  Model.setReferent_eq fun graph same => ⟨(describes graph same).inside,
    (describes graph same).owner⟩

theorem withParts_of_isEmpty {value : Referent} (empty : value.isEmpty = true) (data : Concept) :
    withParts value none data = data := by
  simp [withParts, empty]

theorem withParts_comment (value : Referent) (text : String) :
    (fun data => { data with comment := some text }) ∘ withParts value none =
      withParts value (some text) := rfl

/-- The end of a concept, from its referent on. -/
theorem closes_ensures {inside : Inside} (insideSound : InsideSound form inside)
    {concept : ConceptId} (sound : reader.Sound form unfinished)
    (shows : reader.model.Shows concept) :
    Ensures (do
      referent inside concept
      if let some comment ← nodeComment .concept then
        Read.edit (·.modifyConcept concept fun data => { data with comment := some comment })
      Read.expect (.punct .rightBracket) .conceptClosing
      return concept) reader fun result later =>
        result = concept ∧ Closes form unfinished concept reader later := by
  rw [ensures_bind]
  refine (referent_ensures insideSound concept sound).mono fun _ referred known => ?_
  obtain ⟨middle, value, middleSound, advances, quantifier, designator, describes, same⟩ := known
  have model : referred.model = middle.model.modifyConcept concept (withParts value none) := by
    rw [same]
    split
    · next empty => rw [Model.modifyConcept_eq_self _ (withParts_of_isEmpty empty _)]
    · next full =>
      refine (Model.setReferent_eq fun graph describing => ?_).trans ?_
      · obtain ⟨former, -, -, described⟩ := describes graph describing
        exact ⟨described.inside, described.owner⟩
      · unfold withParts
        simp [full]
  have rest : referred.rest = middle.rest := by
    rw [same]
    split <;> rfl
  have labels : referred.labels = middle.labels := by
    rw [same]
    split <;> rfl
  have markers : referred.markers = middle.markers := by
    rw [same]
    split <;> rfl
  have aheadSame : ∀ places, referred.ahead places = middle.ahead places := by
    intro places
    rw [same]
    split <;> rfl
  have described : startsItem (middle.ahead 0).token = false → ∀ graph,
      value.descriptor = some graph → middle.model.DescribedBy concept graph := by
    intro closes graph describing
    obtain ⟨former, formerAdvances, -, complete⟩ := describes graph describing
    exact complete.describedBy (shows.frame formerAdvances.frame).1 closes
  have scanned : (referred.ahead 0).token.Scanned form := by
    rw [aheadSame]
    exact middleSound.scanned_ahead rfl
  rw [ensures_bind]
  refine (nodeComment_ensures scanned).mono fun comment commented found => ?_
  -- With a comment or without, referent and comment are set by one modification in the end.
  rcases found with ⟨rfl, rfl⟩ | ⟨text, rfl, rfl, readable, next⟩
  · dsimp only
    simp only [ensures_bind, ensures_expect, ensures_pure, true_and]
    intro bracket
    rw [aheadSame] at bracket
    refine ⟨middle, value, none, middleSound, advances, quantifier, designator,
      described (by simp [bracket, startsItem]), by simp, model, ?_, labels, markers⟩
    rw [Reader.next_rest, rest]
    exact List.tail_suffix _
  · dsimp only
    simp only [ensures_bind, ensures_edit, ensures_expect, ensures_pure, true_and]
    intro bracket
    rw [aheadSame] at next
    refine ⟨middle, value, some text, middleSound, advances, quantifier, designator,
      described (by simp [next, startsItem]), fun other same => by cases same; exact readable,
      ?_, ?_, labels, markers⟩
    · rw [Reader.next_model, Reader.withModel_model, Reader.next_model, model,
        modifyConcept_modifyConcept, withParts_comment]
    · rw [Reader.next_rest, Reader.withModel_rest, Reader.next_rest, rest]
      exact (List.tail_suffix _).trans (List.tail_suffix _)

/-- A concept whose labels are read next, put into its graph. -/
theorem keeps_closes {inside : Inside} (insideSound : InsideSound form inside)
    {data : Concept} {graph : GraphId} {opened : Reader}
    (within : graph.index < reader.model.graphs.size)
    (plain : data.special = none ∧ data.referent = none ∧ data.comment = none ∧
      data.hidden = false)
    (openedSound : opened.Sound form unfinished)
    (placed : (reader.withModel (reader.model.placed data graph)).Advances opened) :
    Ensures (do
      conceptLabels ⟨reader.model.concepts.size⟩
      referent inside ⟨reader.model.concepts.size⟩
      if let some comment ← nodeComment .concept then
        Read.edit (·.modifyConcept ⟨reader.model.concepts.size⟩ fun data =>
          { data with comment := some comment })
      Read.expect (.punct .rightBracket) .conceptClosing
      return (⟨reader.model.concepts.size⟩ : ConceptId)) opened fun concept later =>
        later.Sound form unfinished ∧ reader.Advances later ∧
          later.model.Stands graph concept := by
  obtain ⟨unlabelled, unreferring, uncommented, visible⟩ := plain
  have frame : reader.model.Frame [] (reader.model.placed data graph) := .placed within
  have inside : (⟨reader.model.concepts.size⟩ : ConceptId).index <
      (reader.model.placed data graph).concepts.size := by simp
  have here : (reader.model.placed data graph).concept ⟨reader.model.concepts.size⟩ =
      { data with graph := some graph } := by simp [Model.concept_placed]
  have shows : (reader.model.placed data graph).Shows ⟨reader.model.concepts.size⟩ :=
    ⟨inside, by rw [here]; exact ⟨visible, unlabelled⟩⟩
  rw [ensures_bind]
  refine (keeps_conceptLabels (shows.frame placed.frame) openedSound).mono
    fun _ labelled ⟨labelledSound, labelledAdvances, _⟩ => ?_
  have labelledFrame := placed.frame.trans labelledAdvances.frame
  refine (closes_ensures insideSound labelledSound (shows.frame labelledFrame)).mono
    fun concept later ⟨same, ⟨closed⟩⟩ => ?_
  subst same
  obtain ⟨middle, value, comment, middleSound, advances, quantifier, designator, described,
    readable, model, rest, labels, markers⟩ := closed
  have middleFrame := labelledFrame.trans advances.frame
  have bare : (middle.model.concept ⟨reader.model.concepts.size⟩).bare =
      ({ data with graph := some graph } : Concept).bare := by
    rw [middleFrame.concept _ inside List.not_mem_nil, ← here]
    rfl
  -- The concept is as bare as it was placed, so that its parts are set for the first time.
  have middleShows := shows.frame middleFrame
  have kept := sound_withParts value comment middleSound.model middleShows.1 middleShows.2.1
    ⟨(congrArg Concept.referent bare).trans unreferring,
      (congrArg Concept.comment bare).trans uncommented⟩
    (fun label labelled => absurd
      (labelled.symm.trans ((congrArg Concept.special bare).trans unlabelled)) nofun)
    quantifier designator described readable
  have stands : middle.model.Stands graph ⟨reader.model.concepts.size⟩ :=
    ⟨congrArg Concept.graph bare, middleShows.2⟩
  refine ⟨middleSound.modified kept (fun _ => rfl) (fun _ => rfl)
    (fun _ => rfl) model rest labels markers,
    ?_, ?_⟩
  · have through : reader.Advances middle :=
      ((Reader.Advances.withModel frame rfl (Nat.le_refl _)).trans placed).trans
        (labelledAdvances.trans advances)
    exact through.modified model (Nat.le_refl _) (fun _ => rfl) (fun _ => rfl) (fun _ => rfl)
      rest
  · rw [model]
    have touched : middle.model.Frame [⟨reader.model.concepts.size⟩]
        (middle.model.modifyConcept ⟨reader.model.concepts.size⟩ (withParts value comment)) :=
      .modifyConcept (fun _ => rfl) (fun _ => rfl) fun _ => rfl
    exact stands.frame touched

/-- A concept that has been read stands in its graph, with a type and a referent that can be
written. -/
theorem keeps_conceptBody {inside : Inside} (insideSound : InsideSound form inside)
    {graph : GraphId} (within : graph.index < reader.model.graphs.size) :
    Keeps form unfinished (conceptBody setting inside (some graph)) reader
      fun concept later => later.model.Stands graph concept := by
  refine (keeps_conceptType fun _ => insideSound.lambda).bind fun type first advances typed => ?_
  intro sound
  have room := Nat.lt_of_lt_of_le within advances.frame.graphs_le
  have frame : first.model.Frame [] (first.model.placed { type } graph) := .placed room
  have placed : (first.withModel (first.model.placed { type } graph)).Sound form unfinished :=
    sound.withModel (sound.model.placed room typed ⟨rfl, rfl, rfl, rfl⟩ (by simp)) frame
      (Nat.le_refl _)
  rw [ensures_bind, ensures_make]
  dsimp only
  rw [ensures_bind, ensures_edit, Reader.withModel_model, Model.newConcept_fst,
    Model.addConcept_newConcept sound.model.listed _, ensures_bind, ensures_eat]
  constructor
  · intro _
    exact keeps_closes insideSound room ⟨rfl, rfl, rfl, rfl⟩ placed.next (.next _)
  · intro _
    exact keeps_closes insideSound room ⟨rfl, rfl, rfl, rfl⟩ placed (.refl _)

/-- A concept that is read stands in its graph; where none is found, nothing is read. -/
def Finds (graph : GraphId) (reader : Reader) (concept : Option ConceptId) (later : Reader) :
    Prop :=
  (∀ found, concept = some found → later.model.Stands graph found) ∧
    (concept = none → later = reader)

/-- A concept that is found has been read whole. -/
theorem keeps_concept {room : Option Inside} (roomSound : RoomSound form room)
    {graph : GraphId} (within : graph.index < reader.model.graphs.size) :
    Keeps form unfinished (concept setting room (some graph)) reader (Finds graph reader) := by
  have nothing : Keeps form unfinished (pure none : Read (Option ConceptId)) reader
      (Finds graph reader) := .pure fun _ => ⟨nofun, fun _ => rfl⟩
  refine .peek fun first _ => .ahead fun second _ => ?_
  split
  · exact nothing
  · exact .located .failAt
  · exact .located .failAt
  · refine .descend roomSound fun inside insideSound => .advance ?_
    refine (keeps_conceptBody insideSound (by exact within)).bind fun concept later _ stands => ?_
    exact .pure fun _ => ⟨fun found same => by cases same; exact stands, nofun⟩
  · exact nothing

/-! ## Arguments -/

/-- An argument of a relation stands in its graph. -/
theorem keeps_arc {concept : Option GraphId → Read (Option ConceptId)} {graph : GraphId}
    (within : graph.index < reader.model.graphs.size)
    (keeps : ∀ reader : Reader, graph.index < reader.model.graphs.size →
      Keeps form unfinished (concept (some graph)) reader fun found later =>
        ∀ known, found = some known → later.model.Stands graph known) :
    Keeps form unfinished (arc concept (some graph)) reader fun argument later =>
      ∀ known, argument = some known → later.model.Stands graph known := by
  refine .peek fun token found => ?_
  split
  · refine .located
      (.advance ((keeps_resolve (by exact within)).bind fun argument later _ stands => ?_))
    exact .pure fun _ => fun known same => by cases same; exact stands
  · exact keeps reader within
  · exact .pure fun _ => nofun

/-- All arguments of a relation stand in its graph. -/
theorem keeps_arcs {concept : Option GraphId → Read (Option ConceptId)} {graph : GraphId}
    (within : graph.index < reader.model.graphs.size)
    (keeps : ∀ reader : Reader, graph.index < reader.model.graphs.size →
      Keeps form unfinished (concept (some graph)) reader fun found later =>
        ∀ known, found = some known → later.model.Stands graph known)
    (tokens : Nat) :
    Keeps form unfinished (arcs concept (some graph) tokens) reader fun arguments later =>
      ∀ argument ∈ arguments, later.model.Stands graph argument := by
  induction tokens generalizing reader with
  | zero => exact .pure fun _ => nofun
  | succ tokens ih =>
      refine (keeps_arc within keeps).bind fun argument later advances stands => ?_
      cases argument with
      | none => exact .pure fun _ => nofun
      | some argument =>
          refine (ih (Nat.lt_of_lt_of_le within advances.frame.graphs_le)).bind
            fun others last further rest => .pure fun _ => ?_
          intro known member
          rcases List.mem_cons.mp member with rfl | member
          · exact (stands known rfl).frame further.frame
          · exact rest known member

/-! ## Relations and actors -/

theorem ensures_relationTypeAhead (places : Nat) (reader : Reader) :
    Ensures (relationTypeAhead places) reader fun _ later => later = reader := by
  unfold relationTypeAhead
  rw [ensures_bind, ensures_ahead]
  split
  · exact rfl
  · exact rfl

/-- The data of a relation or actor that can be put into a graph. -/
structure Relates (form : Notation) (model : Model) (graph : GraphId) (data : Relation) :
    Prop where
  type : ∃ type, data.type = some type ∧ type.index < model.hierarchy.relations.size
  args : ∀ concept ∈ data.args, model.Stands graph concept
  role : ∀ outputsFrom, data.role = .actor outputsFrom → outputsFrom ≤ data.args.length
  comment : ∀ text, data.comment = some text → Token.IsNodeComment text

/-- A relation that has been read and stands in no graph yet; where none is found, nothing
is read. -/
def Drafts (form : Notation) (unfinished : List ConceptId) (graph : GraphId) (reader : Reader)
    (relation : Option RelationId) (later : Reader) : Prop :=
  (relation = none ∧ later = reader) ∨
    ∃ (middle : Reader) (data : Relation), middle.Sound form unfinished ∧
      reader.Advances middle ∧ Relates form middle.model graph data ∧
      relation = some ⟨middle.model.relations.size⟩ ∧
      later = middle.withModel (middle.model.drafted data)

/-- A valence that fits changes nothing. -/
theorem checkValence_ensures {found : Located} {type : RelationType} {count : Nat} :
    Ensures (checkValence found type count) reader fun _ later => later = reader := by
  unfold checkValence
  rw [ensures_bind, ensures_model]
  dsimp only
  split
  · split
    · trivial
    · exact rfl
  · exact rfl

/-- A relation is drafted with what was read of it, once its valence has been checked. -/
theorem makeRelation_ensures {found : Located} {type : RelationType} {args : List ConceptId}
    {role : RelationRole} {comment : Option String} :
    Ensures (makeRelation found type args role comment) reader fun relation later =>
      relation = ⟨reader.model.relations.size⟩ ∧
        later = reader.withModel
          (reader.model.drafted { type := some type, args, comment, role }) := by
  unfold makeRelation
  rw [ensures_bind]
  refine checkValence_ensures.mono fun _ later same => ?_
  subst same
  simp only [ensures_bind, ensures_make, ensures_edit, ensures_pure, Reader.withModel_model,
    Model.newRelation_fst, Model.modifyRelation_newRelation, true_and]
  rfl

/-- A relation is drafted from a type and arguments that stand in the graph. -/
theorem drafts_makeRelation {found : Located} {graph : GraphId} {type : RelationType}
    {args : List ConceptId} {role : RelationRole} {comment : Option String}
    {middle : Reader} (sound : middle.Sound form unfinished) (advances : reader.Advances middle)
    (relates : Relates form middle.model graph { type := some type, args, comment, role }) :
    Ensures (makeRelation found type args role comment) middle fun relation later =>
      Drafts form unfinished graph reader (some relation) later :=
  makeRelation_ensures.mono fun _ _ ⟨named, same⟩ =>
    .inr ⟨middle, _, sound, advances, relates, congrArg some named, same⟩

/-- Arguments inside a bracket. -/
theorem InsideSound.arcs {inside : Inside} (insideSound : InsideSound form inside)
    {graph : GraphId} (within : graph.index < reader.model.graphs.size) (tokens : Nat) :
    Keeps form unfinished (Read.arcs inside.concept (some graph) tokens) reader
      fun arguments later => ∀ argument ∈ arguments, later.model.Stands graph argument :=
  keeps_arcs within (fun _ known => insideSound.concept known) tokens

/-- A relation that is found has been drafted with arguments of its graph. -/
theorem relation_ensures {room : Option Inside} (roomSound : RoomSound form room)
    {graph : GraphId} (within : graph.index < reader.model.graphs.size)
    (sound : reader.Sound form unfinished) :
    Ensures (relation setting room (some graph)) reader
      (Drafts form unfinished graph reader) := by
  have nothing : Drafts form unfinished graph reader none reader := .inl ⟨rfl, rfl⟩
  unfold relation
  rw [ensures_bind, ensures_peek, ensures_bind]
  refine Ensures.mono (ensures_relationTypeAhead 1 reader) fun answer _ same => ?_
  rw [same]
  rw [ensures_ite]
  refine ⟨fun _ => ?_, fun _ => nothing⟩
  rw [ensures_bind, ensures_descend]
  intro inside roomy
  have insideSound := roomSound inside roomy
  rw [ensures_bind, ensures_located, ensures_bind, ensures_advance, ensures_bind]
  refine (keeps_relationType (fun _ => insideSound.lambda) sound.next).mono
    fun type first ⟨firstSound, firstAdvances, typed⟩ => ?_
  have firstWithin := Nat.lt_of_lt_of_le within firstAdvances.frame.graphs_le
  rw [ensures_bind, ensures_get, ensures_bind]
  refine (insideSound.arcs firstWithin _ firstSound).mono
    fun args second ⟨secondSound, secondAdvances, stands⟩ => ?_
  rw [ensures_bind]
  refine (keeps_nodeComment secondSound).mono
    fun comment third ⟨thirdSound, thirdAdvances, readable⟩ => ?_
  rw [ensures_bind, ensures_expect]
  intro _
  rw [ensures_bind]
  have advances : reader.Advances third.next :=
    (((Reader.Advances.next reader).trans firstAdvances).trans
      (secondAdvances.trans thirdAdvances)).trans (.next third)
  refine (drafts_makeRelation thirdSound.next advances ?_).mono fun _ _ drafts => drafts
  have later := (secondAdvances.trans thirdAdvances).frame
  exact ⟨⟨type, rfl, later.relationTypes.lt_size typed⟩,
    fun argument member => (stands argument member).frame thirdAdvances.frame, nofun, readable⟩

/-- An actor is drafted with the inputs and the outputs that were read. -/
theorem actorBody_ensures {inside : Inside} (insideSound : InsideSound form inside)
    {found : Located} {graph : GraphId} {opened : Reader}
    (within : graph.index < opened.model.graphs.size) (sound : opened.Sound form unfinished)
    (before : reader.Advances opened) :
    Ensures (actorBody setting inside found (some graph)) opened fun relation later =>
      Drafts form unfinished graph reader (some relation) later := by
  unfold actorBody
  rw [ensures_bind]
  refine Ensures.mono (ensures_relationTypeAhead 0 opened) fun answer _ same => ?_
  rw [same]
  dsimp only
  rw [ensures_ite]
  refine ⟨fun _ => ?_, fun _ => trivial⟩
  rw [ensures_bind]
  refine (keeps_relationType (fun _ => insideSound.lambda) sound).mono
    fun type first ⟨firstSound, firstAdvances, typed⟩ => ?_
  have firstWithin := Nat.lt_of_lt_of_le within firstAdvances.frame.graphs_le
  rw [ensures_bind, ensures_get, ensures_bind]
  refine (insideSound.arcs firstWithin _ firstSound).mono
    fun inputs second ⟨secondSound, secondAdvances, inputsStand⟩ => ?_
  have secondWithin := Nat.lt_of_lt_of_le firstWithin secondAdvances.frame.graphs_le
  rw [ensures_bind, ensures_expect]
  intro _
  rw [ensures_bind, ensures_get, ensures_bind]
  refine (insideSound.arcs (by exact secondWithin) _ secondSound.next).mono
    fun outputs third ⟨thirdSound, thirdAdvances, outputsStand⟩ => ?_
  rw [ensures_bind]
  refine (keeps_nodeComment thirdSound).mono
    fun comment fourth ⟨fourthSound, fourthAdvances, readable⟩ => ?_
  rw [ensures_bind, ensures_expect]
  intro _
  -- What stood in the graph after the inputs still does after the outputs.
  have afterOutputs : second.Advances fourth.next :=
    ((Reader.Advances.next second).trans thirdAdvances).trans
      (fourthAdvances.trans (.next fourth))
  have advances : reader.Advances fourth.next :=
    (before.trans firstAdvances).trans (secondAdvances.trans afterOutputs)
  refine drafts_makeRelation fourthSound.next advances ⟨⟨type, rfl, ?_⟩, ?_, ?_, readable⟩
  · exact (secondAdvances.trans afterOutputs).frame.relationTypes.lt_size typed
  · intro argument member
    rcases List.mem_append.mp member with input | output
    · exact (inputsStand argument input).frame afterOutputs.frame
    · exact (outputsStand argument output).frame fourthAdvances.frame
  · intro outputsFrom same
    cases same
    simp

/-- An actor that is found has been drafted with arguments of its graph. -/
theorem actor_ensures {room : Option Inside} (roomSound : RoomSound form room)
    {graph : GraphId} (within : graph.index < reader.model.graphs.size)
    (sound : reader.Sound form unfinished) :
    Ensures (actor setting room (some graph)) reader
      (Drafts form unfinished graph reader) := by
  unfold actor
  rw [ensures_bind, ensures_peek, ensures_ite]
  refine ⟨fun _ => ?_, fun _ => .inl ⟨rfl, rfl⟩⟩
  rw [ensures_bind, ensures_descend]
  intro inside roomy
  rw [ensures_bind, ensures_located, ensures_bind, ensures_advance, ensures_bind]
  exact actorBody_ensures (roomSound inside roomy) (by exact within) sound.next (.next reader)

end ConceptualGraph.Read
