/-
Module: ConceptualGraph.Proofs.Copy.Context
Purpose: Contexts under a label and negations are read back.
Main exports: Read.specialContext_achieves, Read.negation_achieves
-/
import ConceptualGraph.Proofs.Copy.Concept
import ConceptualGraph.Proofs.Reading.Declines
import ConceptualGraph.Proofs.Reading.Sound.Contexts

namespace ConceptualGraph

open Phrase (join mark ofToken space)

/-! ## Contexts under a label -/

namespace Write

variable {model : Model} {inner : Inner} {writer : Writer} {concept : ConceptId}
  {label : Option String} {use : Option LabelUse}

/-- A context under a label is written in its parts. -/
theorem specialContext_ensures (form : Notation) (special : String) :
    Ensures (specialContext inner special (model.descriptor? concept)) writer
      fun phrase after => ∃ nested,
        nestedGraphs inner (model.descriptor? concept) writer = .ok nested after ∧
          phrase.reread form = .punct .leftBracket :: Token.reread form (.ident special) ::
            (nested.flatMap (Phrase.reread form) ++ [.punct .rightBracket]) := by
  unfold specialContext
  cases describes : model.descriptor? concept with
  | none =>
      simp only [ensures_bind, ensures_pure]
      exact ⟨[], rfl, by simp⟩
  | some graph =>
      simp only [ensures_bind, ensures_pure]
      refine .intro fun nested after ran => ⟨[nested], ?_, by simp⟩
      unfold nestedGraphs
      rw [Option.toList_some, concat_singleton]
      exact bind_of_ok ran

/-- A concept that is a context is written in its parts. -/
theorem emitContext_ensures (form : Notation) {special : String}
    (context : (model.concept concept).special = some special) :
    Ensures (emitConcept model inner concept use) writer fun phrase after => ∃ nested,
      nestedGraphs inner (model.descriptor? concept)
          (writer.emit concept (use.map LabelUse.label)) = .ok nested after ∧
        phrase.reread form = .punct .leftBracket :: Token.reread form (.ident special) ::
          (nested.flatMap (Phrase.reread form) ++ [.punct .rightBracket]) := by
  unfold emitConcept
  rw [ensures_bind]
  simp only [emit, ensures_modify, context]
  exact specialContext_ensures form special

end Write

namespace Read

open Write

variable {model : Model} {source form : Notation} {setting : Setting} {inner : Inner}
  {unfinished : Unfinished} {writer opened after : Writer} {reader : Reader} {graph place : GraphId}
  {outer : List GraphId} {concept : ConceptId} {inside : Inside} {brackets : Nat}
  {use : Option LabelUse} {rest : List Token} {phrase : Phrase} {nested : List Phrase}

/-- The spelling of a context label is read as that label. -/
theorem reread_contextLabel (label : ContextLabel) :
    Token.reread .cgif (.ident label.spelling) = .keyword (.context label) := by
  cases label <;> decide +kernel

/-- A concept about which nothing is said but what describes it, and its copy. -/
theorem referent_of_descriptor {ledger : Ledger} {data : Concept} {read : Option GraphId}
    (nonempty : ∀ referent, data.referent = some referent → referent.isEmpty = false)
    (quantifier : ∀ referent, data.referent = some referent → referent.quantifier = none)
    (designator : ∀ referent, data.referent = some referent → referent.designator = none)
    (described : Option.Rel ledger.Graph (data.referent.bind Referent.descriptor) read) :
    Option.Rel (Referent.Copied ledger) data.referent
      (read.map fun graph => { descriptor := some graph }) := by
  cases known : data.referent with
  | none =>
      rw [known] at described
      cases described
      exact .none
  | some referent =>
      have quantified := quantifier referent known
      have designated := designator referent known
      have full := nonempty referent known
      rw [known, Option.bind_some] at described
      cases describes : referent.descriptor with
      | none => simp [Referent.isEmpty, quantified, designated, describes] at full
      | some graph =>
          rw [describes] at described
          cases described with
          | some copies =>
              exact .some ⟨quantified.symm, by rw [designated]; exact .none,
                by rw [describes]; exact .some copies⟩

/-- The label of a context does not reach any other concept. -/
theorem labels_context (copyable : model.Copyable source form) {copy : Model}
    (tracks : Tracks model unfinished writer reader) (fresh : concept ∉ writer.order)
    (context : (model.concept concept).special ≠ none)
    (opens : model.Opens writer concept use opened) (kept : reader.model.SetsKept copy) :
    model.sharedSet? concept = none ∧
      model.Labels unfinished.graphs (opened.emit concept (use.map LabelUse.label)) copy
        reader.labels := by
  have unshared : ∀ set, model.sharedSet? concept ≠ some set := fun set shares =>
    context (copyable.isPlain_of_sharedSet? shares).2
  cases opens with
  | unlabelled alone => exact ⟨alone, tracks.labels.unlabelled alone kept⟩
  | alone alone gives =>
      have owns : model.Owns writer concept (.concept concept) := ⟨rfl, alone⟩
      exact ⟨alone, tracks.labels.unheard owns fresh gives context kept⟩
  | defining shares _ _ => exact absurd shares (unshared _)
  | member shares _ _ => exact absurd shares (unshared _)

/-- A context after its label. -/
theorem contextBody_achieves {label : ContextLabel} (copyable : model.Copyable source form)
    (mirrors : Mirrors model form setting inner (graph :: outer))
    (tracks : Tracks model unfinished writer reader) (within : unfinished.graphs = graph :: outer)
    (ready : unfinished.waiting = []) (fresh : concept ∉ writer.order)
    (stands : (model.concept concept).graph = some graph)
    (context : (model.concept concept).special = some label.spelling)
    (contextual : model.IsContext concept label)
    (there : (writer.ledger model).Graph graph place)
    (opens : model.Opens writer concept use opened)
    (room : ∀ id, inside.items id = items setting (roomFor setting brackets) id)
    (ran : nestedGraphs inner (model.descriptor? concept)
      (opened.emit concept (use.map LabelUse.label)) = .ok nested after)
    (starts : reader.tokens = nested.flatMap (Phrase.reread form) ++ .punct .rightBracket :: rest)
    (fits : reader.tokens.length ≤ brackets) :
    Achieves (contextBody inside place label) reader fun copy later =>
      Reads model unfinished after reader rest later ∧ writer.Onward after ∧
        (after.ledger model).Concept concept copy := by
  obtain ⟨labels, left⟩ := opens.exists_labels
  have inArena := tracks.lt_graphs ready there
  have listed := tracks.nodes.listed
  have kept : reader.model.SetsKept
      (reader.model.placed { special := some label.spelling } place) := .of_eq rfl
  obtain ⟨alone, known⟩ := labels_context copyable tracks fresh (by rw [context]; simp) opens kept
  have order := opens.order_emit
  have untouched := untouched_of_opens copyable tracks within fresh stands opens
  have placed : Tracks model (unfinished.begin model reader.model concept
      { special := some label.spelling } place) (opened.emit concept (use.map LabelUse.label))
      (reader.withModel (reader.model.placed { special := some label.spelling } place)) :=
    tracks.placed within ready fresh stands
      (fun hidden => absurd (contextual.visible.symm.trans hidden) (by simp)) there
      (by rw [left]; rfl) (by rw [left]; rfl) (by rw [left]; rfl)
      ⟨.inl (Model.spokesman_of_none alone), tracks.first⟩ ⟨rfl, rfl, rfl, rfl, rfl, fun _ => rfl⟩
      (fun _ => rfl) known
  have copies := tracks.names_opened opens
  have nests := opens_of_nestedGraphs mirrors ((within ▸ placed.houses :
    model.Houses (graph :: outer) _ _)) (by rw [order]; exact List.mem_cons_self ..) stands
      untouched ran
  have bracket : From 6 (.punct .rightBracket :: rest) := ⟨_, _, rfl, by decide⟩
  obtain ⟨first, others, begins, high⟩ := nested_from nests bracket
  -- The label is not followed by a colon, with which a context may also be written.
  have noColon : (reader.ahead 0).token ≠ .punct .colon := by
    rw [Reader.token_ahead_zero (starts.trans begins)]
    rintro rfl
    exact absurd high (by decide)
  unfold contextBody
  rw [achieves_bind, achieves_eat]
  refine ⟨fun found => absurd found noColon, fun _ => ?_⟩
  rw [achieves_bind, achieves_make, achieves_bind, achieves_edit, achieves_bind, achieves_edit,
    Reader.withModel_model, Reader.withModel_model, Model.newConcept_fst,
    Model.addConcept_newConcept listed place none, modifyConcept_placed rfl, achieves_bind]
  refine (descriptor_achieves copyable mirrors placed within stands contextual.visible rfl copies
    untouched room ran starts bracket fits).mono fun body middle facts => ?_
  obtain ⟨reads, onward, described, owned⟩ := facts
  have grown : writer.Onward after := by
    rw [left] at onward
    exact (Writer.Onward.emit writer concept _).trans
      ⟨onward.emitted, onward.markers, onward.written⟩
  -- With a descriptor or without, the bracket closes over the same draft.
  have ended : ∀ (data : Concept) (last : Reader), last.tokens = .punct .rightBracket :: rest →
      Tracks model { unfinished with
        waiting := [], drafts := (⟨reader.model.concepts.size⟩, data) :: unfinished.drafts }
          after last → last.model.hierarchy = middle.model.hierarchy →
      data.type = none → data.comment = none → data.special = some label.spelling →
      data.hidden = false → data.referent = body.map (fun id => { descriptor := some id }) →
      Achieves (do
        expect (.punct .rightBracket) .contextClosing
        return (⟨reader.model.concepts.size⟩ : ConceptId)) last fun copy later =>
          Reads model unfinished after reader rest later ∧ writer.Onward after ∧
            (after.ledger model).Concept concept copy := by
    intro data last tokens drafted hierarchy type comment special hidden referent
    have bare := (drafted.nodes.draft _ (List.mem_cons_self ..)).2
    have sound := copyable.conceptSound (Model.lt_of_graph stands)
    have whole : ({ unfinished with waiting := [], drafts := unfinished.drafts } : Unfinished) =
        unfinished := by
      cases unfinished; cases ready; rfl
    rw [achieves_bind, achieves_expect, achieves_pure, Reader.token_ahead_zero tokens]
    refine ⟨rfl, ⟨Reader.tail_tokens tokens, ?_, ?_⟩, grown, copies.mono (onward.continues model)⟩
    · refine whole ▸ (drafted.settled rfl (copies.mono (onward.continues model)) (.of_bare bare
        (fun _ => ?_) (fun _ => ?_) ?_ ?_ ?_)).past (.next last)
      · rw [contextual.type, type]
        exact .none
      · rw [referent]
        exact referent_of_descriptor (fun value same => (sound.referent value same).nonempty)
          contextual.quantifier contextual.designator described
      · rw [comment, contextual.comment]
      · rw [special, context]
      · rw [hidden, contextual.visible]
    · rw [Reader.next_model, hierarchy]
      exact reads.types
  cases body with
  | none =>
      exact ended { special := some label.spelling, graph := some place } middle reads.tokens
        reads.tracks rfl rfl rfl rfl rfl rfl
  | some id =>
      have edited := reads.tracks.redrafted (fun data => { data with
        referent := some { descriptor := some id } }) rfl (fun _ => rfl) (fun _ => rfl)
          (fun _ => rfl) fun _ => rfl
      dsimp only
      rw [achieves_bind, achieves_edit, Model.setReferent_eq fun other same => by
        cases same
        exact owned id rfl]
      exact ended { special := some label.spelling, graph := some place
                    referent := some { descriptor := some id } } _ reads.tokens edited
        rfl rfl rfl rfl rfl rfl

/-- A context is read back. -/
theorem specialContext_achieves {special : String} (copyable : model.Copyable source .cgif)
    (mirrors : Mirrors model .cgif setting inner (graph :: outer))
    (tracks : Tracks model unfinished writer reader) (within : unfinished.graphs = graph :: outer)
    (ready : unfinished.waiting = []) (fresh : concept ∉ writer.order)
    (stands : (model.concept concept).graph = some graph)
    (context : (model.concept concept).special = some special)
    (there : (writer.ledger model).Graph graph place)
    (opens : model.Opens writer concept use opened)
    (ran : emitConcept model inner concept use opened = .ok phrase after)
    (starts : reader.tokens = phrase.reread .cgif ++ rest)
    (fits : reader.tokens.length ≤ brackets) :
    (∃ label others, reader.tokens =
      .punct .leftBracket :: .keyword (.context label) :: others) ∧
    Achieves (specialContext setting (roomFor setting brackets) place) reader
      fun copy later => ∃ id, copy = some id ∧ Reads model unfinished after reader rest later ∧
        writer.Onward after ∧ (after.ledger model).Concept concept id := by
  obtain ⟨label, rfl, contextual⟩ :=
    (copyable.conceptSound (Model.lt_of_graph stands)).special special context
  obtain ⟨nested, wrote, tokens⟩ := (emitContext_ensures .cgif context).of_ok ran
  rw [tokens, reread_contextLabel, List.cons_append, List.cons_append, List.append_assoc,
    List.singleton_append] at starts
  refine ⟨⟨label, _, starts⟩, ?_⟩
  have first : (reader.ahead 0).token = .punct .leftBracket := Reader.token_ahead_zero starts
  have second : (reader.ahead 1).token = .keyword (.context label) := by
    rw [Reader.token_ahead_succ, Reader.token_ahead_zero (Reader.tail_tokens starts)]
  cases brackets with
  | zero =>
      rw [starts] at fits
      exact absurd fits (Nat.not_succ_le_zero _)
  | succ brackets =>
      have body : reader.next.next.tokens =
          nested.flatMap (Phrase.reread .cgif) ++ .punct .rightBracket :: rest :=
        Reader.tail_tokens (Reader.tail_tokens starts)
      have shorter : reader.next.next.tokens.length ≤ brackets := by
        rw [body]
        rw [starts] at fits
        simp only [List.length_cons] at fits ⊢
        omega
      have past : reader.Past reader.next.next := (Reader.Past.next reader).trans (.next _)
      have achieved : ∀ inside : Inside,
          (∀ id, inside.items id = items setting (roomFor setting brackets) id) →
          Achieves (contextBody inside place label) reader.next.next fun copy later =>
            Reads model unfinished after reader rest later ∧ writer.Onward after ∧
              (after.ledger model).Concept concept copy := fun inside room =>
        (contextBody_achieves copyable mirrors (tracks.past past) within ready fresh stands context
          contextual there opens room wrote body shorter).mono fun copy later facts =>
            ⟨facts.1.from_earlier (.refl _), facts.2⟩
      unfold specialContext
      simp only [achieves_bind, achieves_peek, achieves_ahead, first, second]
      cases label with
      -- The label that is reserved for alternatives is never written.
      | elseLabel => exact absurd rfl contextual.allowed
      | _ =>
          simp only [achieves_bind, achieves_descend, roomFor_succ, achieves_advance,
            ascend_scoped, achieves_pure]
          exact ⟨_, rfl, (achieved _ fun _ => rfl).mono fun copy later facts => ⟨copy, rfl, facts⟩⟩

end Read

/-! ## Negations -/

namespace Write

variable {model : Model} {inner : Inner} {writer : Writer} {wrapper : ConceptId}
  {relation : RelationId} {id : GraphId}

/-- A negation is written in its parts. -/
theorem negation_ensures (form : Notation) (negates : model.Negates relation wrapper)
    (describes : model.descriptor? wrapper = some id) :
    Ensures (negation model inner relation) writer fun phrase after => ∃ nested,
      nestedGraphs inner (some id) ((writer.begin relation).emit wrapper none) = .ok nested after ∧
        phrase.reread form = .punct .tilde :: .punct .leftBracket ::
          (nested.flatMap (Phrase.reread form) ++ [.punct .rightBracket]) := by
  unfold negation
  simp only [negates.args, List.take_succ_cons, List.take_zero, concat_singleton, describes,
    Option.toList_some, ensures_bind, markWritten, emit, ensures_modify, ensures_pure]
  refine .intro fun nested after ran => ⟨[nested], ?_, by simp⟩
  unfold nestedGraphs
  rw [Option.toList_some, concat_singleton]
  exact bind_of_ok ran

end Write

/-- A wrapper of a negation describes a graph. -/
theorem Model.IsWrapper.descriptor? {model : Model} {concept : ConceptId}
    (wrapper : model.IsWrapper concept) : ∃ id, model.descriptor? concept = some id ∧
      (model.concept concept).referent = some { descriptor := some id } := by
  obtain ⟨id, described⟩ := wrapper.referent
  exact ⟨id, by simp [Model.descriptor?, described], described⟩

/-- A negation has one wrapper, which has no other relation. -/
theorem Model.Rooted.exists_wrapper {model : Model} {source : Notation}
    {relation : RelationId} (rooted : model.Rooted source)
    (negative : model.isNegation relation = true) :
    ∃ wrapper, (model.concept wrapper).hidden = true ∧ model.Negates relation wrapper ∧
      model.IsWrapper wrapper ∧
        ∀ other, wrapper ∈ (model.relation other).args → other = relation := by
  unfold Model.isNegation at negative
  split at negative
  · next wrapper args =>
    have wraps := rooted.isWrapper negative
    obtain ⟨known, negates, unique⟩ := wraps.negation
    obtain rfl := unique relation (by rw [args]; exact List.mem_singleton.mpr rfl)
    exact ⟨wrapper, negative, negates, wraps, unique⟩
  · cases negative

namespace Read

open Write

variable {model : Model} {source form : Notation} {setting : Setting} {inner : Inner}
  {unfinished : Unfinished} {writer opened after : Writer} {reader : Reader} {graph place : GraphId}
  {outer : List GraphId} {wrapper : ConceptId} {inside : Inside} {brackets : Nat}
  {rest : List Token} {phrase : Phrase} {nested : List Phrase} {relation : RelationId}

/-- The type of negations is found or made. -/
theorem negationType_achieves (tracks : Tracks model unfinished writer reader)
    (nested : ¬model.graphs.size ≤ 1) :
    Achieves negationType reader fun type later =>
      Reads model unfinished writer reader reader.tokens later ∧
        later.model.hierarchy.relations.label? type = some negationLabel := by
  simp only [negationType, achieves_bind, achieves_model]
  cases known : reader.model.hierarchy.relations.find? negationLabel with
  | some type => exact ⟨⟨rfl, tracks, .refl _⟩, Lattice.find?_eq_some known⟩
  | none =>
      have named : (reader.model.hierarchy.relations.withType negationLabel).label?
          ⟨reader.model.hierarchy.relations.size⟩ = some negationLabel := Lattice.label?_withType
      have created : ({ reader.model.hierarchy with
          relations := reader.model.hierarchy.relations.withType negationLabel } : Hierarchy).Ready
            (model.graphs.size ≤ 1) := Ready.withType tracks.ready
      have ready := Ready.setValence created nested named 1
      have types : reader.model.hierarchy.relations.Extends
          ((reader.model.hierarchy.relations.withType negationLabel).setValence
            ⟨reader.model.hierarchy.relations.size⟩ 1) :=
        Lattice.Extends.withType.trans (.setValence 1)
      simp only [Lattice.createOnDemand_eq known tracks.ready.relations, achieves_bind,
        achieves_edit, achieves_pure]
      refine ⟨⟨Reader.withModel_tokens, tracks.retyped ⟨.refl _, types⟩ ready, ?_, ?_⟩, ?_⟩
      all_goals dsimp only [Reader.withModel_model]
      · exact .refl _
      · exact types
      · exact Lattice.label?_setValence.trans named

/-- The end of a negation, from the time on when its graph is known. -/
theorem negationEnd_achieves {copy : ConceptId} {id body : GraphId}
    (tracks : Tracks model { unfinished with
      waiting := [], drafts := (copy, { hidden := true, graph := some place }) ::
        unfinished.drafts } after reader)
    (hidden : (model.concept wrapper).hidden = true) (wraps : model.IsWrapper wrapper)
    (referent : (model.concept wrapper).referent = some { descriptor := some id })
    (copies : (after.ledger model).Concept wrapper copy)
    (described : (after.ledger model).Graph id body)
    (inside : body.index < reader.model.graphs.size)
    (owned : (reader.model.graph body).owner = some copy) (several : ¬model.graphs.size ≤ 1)
    (starts : reader.tokens = .punct .rightBracket :: rest) :
    Achieves (do
      edit (·.setReferent copy { descriptor := some body })
      expect (.punct .rightBracket) .negationClosing
      let type ← negationType
      make (·.newRelation (some type) [copy] .relation)) reader fun known later =>
        ∃ last type, Reads model { unfinished with waiting := [] } after reader rest last ∧
          last.model.hierarchy.relations.label? type = some negationLabel ∧
          known = ⟨last.model.relations.size⟩ ∧
          later = last.withModel (last.model.drafted { type := some type, args := [copy] }) := by
  have edited := tracks.redrafted (fun data => { data with
    referent := some { descriptor := some body } }) rfl (fun _ => rfl) (fun _ => rfl)
      (fun _ => rfl) fun _ => rfl
  have bare := (edited.nodes.draft _ (List.mem_cons_self ..)).2
  have settled :=
    edited.settled rfl copies (.of_bare bare (fun _ => by rw [wraps.type]; exact .none)
    (fun _ => by
      rw [referent]
      exact .some ⟨rfl, .none, .some described⟩) wraps.comment.symm wraps.special.symm hidden.symm)
  rw [achieves_bind, achieves_edit, Model.setReferent_eq fun other same => by
    cases same
    exact ⟨inside, owned⟩, achieves_bind, achieves_expect, Reader.ahead_withModel,
    Reader.token_ahead_zero starts, achieves_bind]
  refine ⟨rfl, (negationType_achieves (settled.past (.next _)) several).mono
    fun type last facts => ?_⟩
  obtain ⟨reads, named⟩ := facts
  rw [achieves_make]
  exact ⟨last, type, ⟨reads.tokens.trans (Reader.tail_tokens starts), reads.tracks, reads.types⟩,
    named, rfl, rfl⟩

/-- A negation after its tilde and its bracket. -/
theorem negationBody_achieves {id : GraphId} (copyable : model.Copyable source form)
    (mirrors : Mirrors model form setting inner (graph :: outer))
    (tracks : Tracks model unfinished writer reader) (within : unfinished.graphs = graph :: outer)
    (ready : unfinished.waiting = []) (fresh : wrapper ∉ writer.order)
    (stands : (model.concept wrapper).graph = some graph)
    (hidden : (model.concept wrapper).hidden = true) (wraps : model.IsWrapper wrapper)
    (written : ∀ relation, wrapper ∈ (model.relation relation).args → relation ∈ writer.written)
    (describes : model.descriptor? wrapper = some id)
    (referent : (model.concept wrapper).referent = some { descriptor := some id })
    (there : (writer.ledger model).Graph graph place)
    (room : ∀ id, inside.items id = items setting (roomFor setting brackets) id)
    (ran : nestedGraphs inner (some id) (writer.emit wrapper none) = .ok nested after)
    (starts : reader.tokens = nested.flatMap (Phrase.reread form) ++ .punct .rightBracket :: rest)
    (fits : reader.tokens.length ≤ brackets) :
    Achieves (negationBody inside place) reader fun known later =>
      writer.Onward after ∧ ∃ last type copy, Reads model unfinished after reader rest last ∧
        last.model.hierarchy.relations.label? type = some negationLabel ∧
        (after.ledger model).Concept wrapper copy ∧ known = ⟨last.model.relations.size⟩ ∧
        later = last.withModel (last.model.drafted { type := some type, args := [copy] }) := by
  have inArena := tracks.lt_graphs ready there
  have setless := copyable.setless_of_descriptor? describes
  have alone := Model.sharedSet?_of_setless setless wrapper
  have several : ¬model.graphs.size ≤ 1 := by
    have inside := (copyable.describedBy describes).inside
    have nested : id.index ≠ 0 := fun same => copyable.ne_root describes (congrArg GraphId.mk same)
    omega
  have placed : Tracks model (unfinished.begin model reader.model wrapper { hidden := true } place)
      (writer.emit wrapper none)
      (reader.withModel (reader.model.placed { hidden := true } place)) :=
    tracks.placed within ready fresh stands (fun _ => written) there rfl rfl rfl
      ⟨.inl (Model.spokesman_of_none alone), tracks.first⟩ ⟨rfl, rfl, rfl, rfl, rfl, fun _ => rfl⟩
      (fun _ => rfl) (tracks.labels.unlabelled alone (.of_eq rfl))
  have copies : ((writer.emit wrapper none).ledger model).Concept wrapper
      ⟨reader.model.concepts.size⟩ := tracks.names_begun none
  have untouched :=
    untouched_of_houses copyable.toRooted none (within ▸ tracks.houses) fresh stands describes
  have waits : (unfinished.begin model reader.model wrapper { hidden := true } place).waiting =
      [id] := by
    simp [Unfinished.begin, describes]
  have nests := opens_of_nestedGraphs mirrors ((within ▸ placed.houses :
    model.Houses (graph :: outer) _ _)) (List.mem_cons_self ..) stands
      (fun other same => by
        cases describes.symm.trans same
        exact untouched) (by rw [describes]; exact ran)
  have whole : ({ unfinished with waiting := [] } : Unfinished) = unfinished := by
    cases unfinished; cases ready; rfl
  have begun : writer.Onward (writer.emit wrapper none) := .emit ..
  have bracket : From 6 (.punct .rightBracket :: rest) := ⟨_, _, rfl, by decide⟩
  unfold negationBody
  rw [achieves_bind, achieves_make]
  dsimp only
  rw [achieves_bind, achieves_edit, achieves_bind, achieves_edit, Reader.withModel_model,
    Reader.withModel_model, Model.newConcept_fst, addConcept_hidden tracks.nodes.listed,
    achieves_bind]
  -- The empty graph is not read as a nested one: the negation makes it on its own.
  rcases nests with empty | opening
  · have tokens : reader.tokens = .punct .rightBracket :: rest := by rw [starts, empty]; rfl
    obtain ⟨emptied, onward, copied⟩ :=
      nestedGraph_empty copyable mirrors placed within stands describes waits
      copies untouched ran empty tokens
    refine (descriptor_achieves_none (tokens ▸ bracket)).mono fun body middle facts => ?_
    obtain ⟨rfl, rfl⟩ := facts
    dsimp only
    rw [achieves_bind, achieves_make]
    refine (negationEnd_achieves emptied hidden wraps referent
      (copies.mono (onward.continues model))
      copied (by simp) (congrArg Graph.owner Model.graph_newGraph) several tokens).mono
        fun known later facts => ?_
    obtain ⟨last, type, reads, named, rfl, rfl⟩ := facts
    exact ⟨begun.trans onward, last, type, _, whole ▸ ⟨reads.tokens, reads.tracks, reads.types⟩,
      named, copies.mono (onward.continues model), rfl, rfl⟩
  · refine (nestedGraph_achieves copyable mirrors placed within stands describes waits copies
      untouched room ran opening starts bracket fits).mono fun body middle facts => ?_
    obtain ⟨body, rfl, parts, onward, copied, inside, owned⟩ := facts
    dsimp only
    rw [pure_bind]
    refine (negationEnd_achieves parts.tracks hidden wraps referent
      (copies.mono (onward.continues model)) copied inside owned several parts.tokens).mono
        fun known later facts => ?_
    obtain ⟨last, type, reads, named, rfl, rfl⟩ := facts
    exact ⟨begun.trans onward, last, type, _,
      whole ▸ ⟨reads.tokens, reads.tracks, parts.types.trans reads.types⟩,
      named, copies.mono (onward.continues model), rfl, rfl⟩

/-- A negation is read back. -/
theorem negation_achieves (copyable : model.Copyable source form)
    (mirrors : Mirrors model form setting inner (graph :: outer))
    (tracks : Tracks model unfinished writer reader) (within : unfinished.graphs = graph :: outer)
    (idle : unfinished.Idle model graph) (unwritten : relation ∉ writer.written)
    (stands : (model.relation relation).graph = some graph)
    (negative : model.isNegation relation = true)
    (there : (writer.ledger model).Graph graph place)
    (ran : Write.negation model inner relation writer = .ok phrase after)
    (starts : reader.tokens = phrase.reread form ++ rest)
    (fits : reader.tokens.length ≤ brackets) :
    Achieves (relationInto place (negation setting (roomFor setting brackets) place)) reader
      fun found later => found = true ∧ Reads model unfinished after reader rest later := by
  obtain ⟨wrapper, hidden, negates, wraps, unique⟩ := copyable.exists_wrapper negative
  obtain ⟨id, describes, referent⟩ := wraps.descriptor?
  obtain ⟨nested, wrote, tokens⟩ := (Write.negation_ensures form negates describes).of_ok ran
  rw [tokens, List.cons_append, List.cons_append, List.append_assoc, List.singleton_append]
    at starts
  have first : (reader.ahead 0).token = .punct .tilde := Reader.token_ahead_zero starts
  have second : (reader.ahead 1).token = .punct .leftBracket := by
    rw [Reader.token_ahead_succ, Reader.token_ahead_zero (Reader.tail_tokens starts)]
  have fresh : wrapper ∉ writer.order := fun before =>
    unwritten (tracks.houses.wrapped wrapper before hidden relation (by simp [negates.args]))
  have standing : (model.concept wrapper).graph = some graph := negates.graph.symm.trans stands
  have begun := tracks.begun within stands
  -- The fuel for brackets is at least the number of tokens, and there is an opening bracket.
  cases brackets with
  | zero =>
      rw [starts] at fits
      exact absurd fits (Nat.not_succ_le_zero _)
  | succ brackets =>
      have past : reader.Past reader.next.next := (Reader.Past.next reader).trans (.next _)
      have body : reader.next.next.tokens =
          nested.flatMap (Phrase.reread form) ++ .punct .rightBracket :: rest :=
        Reader.tail_tokens (Reader.tail_tokens starts)
      have shorter : reader.next.next.tokens.length ≤ brackets := by
        rw [body]
        rw [starts] at fits
        simp only [List.length_cons] at fits ⊢
        omega
      simp only [relationInto, negation, achieves_bind, achieves_peek, achieves_ahead, first,
        second, roomFor_succ, achieves_descend, achieves_advance, ascend_scoped, achieves_pure]
      refine ⟨_, rfl,
        (negationBody_achieves copyable mirrors (begun.past past) within idle.waiting fresh
        standing hidden wraps (fun other argument => by
          rw [unique other argument]
          exact List.mem_cons_self ..) describes referent there (fun _ => rfl) wrote body
            shorter).mono fun known later facts => ?_⟩
      obtain ⟨onward, last, type, copy, reads, named, copies, rfl, rfl⟩ := facts
      have location := reads.tracks.lt_graphs idle.waiting (there.mono (onward.continues model))
      obtain ⟨own, typed, label⟩ := negates.type
      have copied : model.CopiedRelation (last.model.related { type := some type, args := [copy] }
          place) (after.ledger model) relation ⟨last.model.relations.size⟩ :=
        .of_related rfl ⟨own, typed, _, label, named⟩
          (by rw [negates.args]; exact .cons (.inl copies) .nil) negates.comment.symm
          negates.role.symm stands (there.mono (onward.continues model))
      simp only [achieves_edit, Reader.withModel_model,
        Model.addRelation_drafted reads.tracks.nodes.listed]
      exact ⟨trivial, reads.tokens, reads.tracks.related rfl stands idle.pending location copied,
        reads.types⟩

end Read

end ConceptualGraph
