/-
Module: ConceptualGraph.Proofs.Reversal.Concept
Purpose: Concepts and relations of a chain are read one by one, and each adds to the model what it
  says.
Main exports: Read.target_draws, Read.relationNode_draws, Read.connect_draws
-/
import ConceptualGraph.Proofs.Copy.Chain
import ConceptualGraph.Proofs.Reversal.Drawn

namespace ConceptualGraph.Read

variable {setting : Setting} {reader : Reader} {rest : List Token} {inside : Inside}
  {written : InlineConcept} {arc : ChainArc} {drawn : List (InlineConcept × MarkerId)}
  {arcs : List ChainArc}

/-! ## The parts of a concept -/

/-- A quantifier of an inline concept is read. -/
theorem quantifier_inline {value : Option InlineQuantifier}
    (starts : reader.tokens = value.elim [] InlineQuantifier.tokens ++ rest)
    (next : From 4 rest) :
    Achieves quantifier reader fun read later =>
      read = value.map InlineQuantifier.value ∧ later.tokens = rest ∧ reader.Past later := by
  cases value with
  | none =>
      refine (quantifier_achieves_none (starts ▸ next)).mono fun read later facts => ?_
      obtain ⟨rfl, rfl⟩ := facts
      exact ⟨rfl, starts, .refl _⟩
  | some value =>
      cases value with
      | word text => exact quantifier_achieves_word starts
      | count number => exact quantifier_achieves_count starts

/-- Reading a marker changes nothing in a model but the number of its markers. -/
theorem marks_read (table : MarkerTable) (digits : Option String) (model : Model) :
    ∃ more, (table.read digits model).2.2 = { model with markers := more } ∧
      table.Marks (some digits) model.markers (table.read digits model).1
        (table.read digits model).2.1 more := by
  cases digits with
  | none => exact ⟨_, rfl, .new⟩
  | some foreign =>
      change ∃ more, (table.markerFor foreign model).2.2 = _ ∧
        table.Marks _ _ (table.markerFor foreign model).1 (table.markerFor foreign model).2.1 more
      unfold MarkerTable.markerFor
      cases known : table.marker? foreign with
      | some marker => exact ⟨model.markers, rfl, .known known⟩
      | none => exact ⟨_, rfl, .paired known⟩

/-- Reading a marker changes the table of markers and their number only. -/
theorem markerOf_eq (digits : Option String) (reader : Reader) :
    markerOf digits reader = .ok (reader.markers.read digits reader.model).1
      { reader with
        markers := (reader.markers.read digits reader.model).2.1
        model := (reader.markers.read digits reader.model).2.2 } := by
  cases digits <;> rfl

/-- A designator of an inline concept is read, and takes a marker if it is one. -/
theorem designator_inline {value : Option InlineDesignator}
    (starts : reader.tokens = value.elim [] InlineDesignator.tokens ++ rest)
    (next : From 5 rest) :
    Achieves designator reader fun read later => later.tokens = rest ∧ ∃ marker more,
      read = value.map (InlineDesignator.value marker) ∧
        later.model = { reader.model with markers := more } ∧
        reader.markers.Marks (value.bind InlineDesignator.digits?) reader.model.markers marker
          later.markers more := by
  -- What is not a marker leaves the markers as they are.
  have unmarked {read : Option Designator} {value : Option InlineDesignator}
      (plain : value.bind InlineDesignator.digits? = none)
      (same : ∀ marker, value.map (InlineDesignator.value marker) = read)
      (reads : Achieves designator reader fun found later =>
        found = read ∧ later.tokens = rest ∧ reader.Past later) :
      Achieves designator reader fun read later => later.tokens = rest ∧ ∃ marker more,
        read = value.map (InlineDesignator.value marker) ∧
          later.model = { reader.model with markers := more } ∧
          reader.markers.Marks (value.bind InlineDesignator.digits?) reader.model.markers marker
            later.markers more := by
    refine reads.mono fun found later facts => ?_
    obtain ⟨rfl, left, past⟩ := facts
    refine ⟨left, ⟨0⟩, reader.model.markers, (same _).symm, past.model, ?_⟩
    rw [plain, past.markers]
    exact .unmarked _
  cases value with
  | none =>
      refine unmarked rfl (fun _ => rfl) ?_
      refine (designator_achieves_none (starts ▸ next)).mono fun read later facts => ?_
      obtain ⟨rfl, rfl⟩ := facts
      exact ⟨rfl, starts, .refl _⟩
  | some value =>
      cases value with
      | int | float | string | name | word =>
          refine unmarked rfl (fun _ => rfl) (designator_achieves_token starts (by simp) ?_)
          rintro ⟨_, _⟩ rfl
          rfl
      | encoded encoding payload =>
          exact unmarked rfl (fun _ => rfl) (designator_achieves_encoded starts)
      | marker digits =>
          have tokens : reader.tokens = .marker digits :: rest := starts
          obtain ⟨more, model, marks⟩ := marks_read reader.markers digits reader.model
          have marked : Achieves (markerOf digits) reader fun marker later =>
              marker = (reader.markers.read digits reader.model).1 ∧ later = _ :=
            .of_ok (markerOf_eq digits reader) ⟨rfl, rfl⟩
          simp only [designator, achieves_bind, achieves_eat, Reader.token_ahead_zero tokens]
          refine ⟨fun found => (by cases found), fun _ => ?_⟩
          simp only [Bool.false_eq_true, if_false, achieves_bind, achieves_located, designatorOf,
            Reader.token_ahead_zero tokens, achieves_pure]
          refine marked.mono fun marker later facts => ?_
          obtain ⟨rfl, rfl⟩ := facts
          simp only [Option.isSome_some, if_true, achieves_bind, achieves_advance, achieves_pure]
          exact ⟨Reader.tail_tokens tokens, _, more, rfl, model, marks⟩

theorem commentTokens_eq (form : Notation) (node : NodeKind) (comment : Option String) :
    commentTokens node comment = (Write.comment node comment).reread form := by
  cases comment <;> rfl

/-- A colon is passed over where one is written. -/
theorem colon_inline {colon : Bool} (starts : reader.tokens =
      (if colon then [.punct .colon] else []) ++ rest) (next : From 3 rest) :
    Achieves (eat (.punct .colon)) reader fun _ later =>
      later.tokens = rest ∧ reader.Past later := by
  cases colon with
  | true =>
      have tokens : reader.tokens = .punct .colon :: rest := starts
      refine achieves_eat.mpr ⟨fun _ => ⟨Reader.tail_tokens tokens, .next _⟩, fun other => ?_⟩
      exact absurd (Reader.token_ahead_zero tokens) other
  | false =>
      have tokens : reader.tokens = rest := starts
      obtain ⟨first, others, begins, high⟩ := next
      refine achieves_eat.mpr ⟨fun found => ?_, fun _ => ⟨tokens, .refl _⟩⟩
      rw [Reader.token_ahead_zero (tokens.trans begins)] at found
      exact absurd high (by rw [found]; decide)

/-- A quantifier comes before what it quantifies. -/
theorem quantifier_inline_from {value : Option InlineQuantifier} (next : From 4 rest) :
    From 3 (value.elim [] InlineQuantifier.tokens ++ rest) := by
  refine .part (fun first others same => ?_) (next.mono (by decide))
  rcases value with _ | _ | _ <;> cases same <;> decide

/-- A designator comes before the comment and the bracket. -/
theorem designator_inline_from {value : Option InlineDesignator} (next : From 5 rest) :
    From 4 (value.elim [] InlineDesignator.tokens ++ rest) := by
  refine .part (fun first others same => ?_) (next.mono (by decide))
  rcases value with _ | _ | _ | _ | _ | _ | _ | _ <;> cases same <;> exact Nat.le_refl 4

/-- The referent of an inline concept is put together from its quantifier and its designator. -/
theorem referent_inline {base : Model} {data : Concept} (blank : data.referent = none)
    (placed : reader.model = base.placed data ⟨0⟩)
    (starts : reader.tokens = written.quantifier.elim [] InlineQuantifier.tokens ++
      (written.designator.elim [] InlineDesignator.tokens ++ rest)) (next : From 6 rest) :
    Achieves (referent inside ⟨base.concepts.size⟩) reader fun _ later => later.tokens = rest ∧
      ∃ marker more, later.model = ({ base with markers := more } : Model).placed
          { data with referent := written.referent marker } ⟨0⟩ ∧
        reader.markers.Marks written.digits? base.markers marker later.markers more := by
  have bare : From 5 rest := next.mono (by decide)
  unfold referent
  rw [achieves_bind]
  refine (quantifier_inline starts (designator_inline_from bare)).mono fun _ first facts => ?_
  obtain ⟨rfl, left, past⟩ := facts
  rw [achieves_bind]
  refine (designator_inline left bare).mono fun _ second facts => ?_
  obtain ⟨left, marker, more, rfl, model, marks⟩ := facts
  rw [achieves_bind]
  refine (descriptor_achieves_none (left ▸ next)).mono fun _ third facts => ?_
  obtain ⟨rfl, rfl⟩ := facts
  have grown : third.model = ({ base with markers := more } : Model).placed data ⟨0⟩ := by
    rw [model, past.model, placed]
    rfl
  rw [past.markers, past.model, placed] at marks
  simp only [InlineConcept.referent]
  refine achieves_ite.mpr ⟨fun empty => ?_, fun full => ?_⟩
  · refine ⟨left, marker, more, ?_, marks⟩
    rw [grown, if_pos empty, ← blank]
  · refine achieves_edit.mpr ⟨left, marker, more, ?_, marks⟩
    rw [Reader.withModel_model, grown, if_neg full]
    exact Model.modifyConcept_placed rfl

/-! ## Concepts -/

/-- A concept that has been placed is read to its end. -/
theorem conceptClosing_inline (base : Model) {data : Concept} (silent : data.comment = none)
    (placed : reader.model = base.placed data ⟨0⟩)
    (starts : reader.tokens = commentTokens .concept written.comment ++
      .punct .rightBracket :: rest) :
    Achieves (do
      if let some comment ← nodeComment .concept then
        edit (·.modifyConcept ⟨base.concepts.size⟩ fun data =>
          { data with comment := some comment })
      expect (.punct .rightBracket) .conceptClosing
      return (⟨base.concepts.size⟩ : ConceptId)) reader fun id later =>
        id = ⟨base.concepts.size⟩ ∧ later.tokens = rest ∧ later.markers = reader.markers ∧
          later.model = base.placed { data with comment := written.comment } ⟨0⟩ := by
  rw [commentTokens_eq .linear] at starts
  rw [achieves_bind]
  refine (nodeComment_achieves starts ⟨_, _, rfl, Nat.le_refl 7⟩).mono fun comment later facts => ?_
  obtain ⟨rfl, left, past⟩ := facts
  cases commented : written.comment with
  | none =>
      simp only [achieves_bind, achieves_expect, achieves_pure, Reader.token_ahead_zero left]
      refine ⟨trivial, trivial, Reader.tail_tokens left, past.markers, ?_⟩
      rw [Reader.next_model, past.model, placed, ← silent]
  | some text =>
      simp only [achieves_bind, achieves_edit, achieves_expect, achieves_pure,
        Reader.ahead_withModel, Reader.token_ahead_zero left]
      refine ⟨trivial, trivial, Reader.tail_tokens left, past.markers, ?_⟩
      rw [Reader.next_model, Reader.withModel_model, past.model, placed]
      exact Model.modifyConcept_placed rfl

/-- A concept of a type is made and read to its end. -/
theorem conceptRest_inline {type : ConceptType} (listed : reader.model.Listed)
    (starts : reader.tokens = written.bodyTokens ++ rest) :
    Achieves (do
      let concept ← make (·.newConcept (some type))
      edit (·.addConcept ⟨0⟩ concept)
      let _ ← eat (.punct .colon)
      conceptLabels concept
      referent inside concept
      if let some comment ← nodeComment .concept then
        edit (·.modifyConcept concept fun data => { data with comment := some comment })
      expect (.punct .rightBracket) .conceptClosing
      return concept) reader fun id later =>
        id = ⟨reader.model.concepts.size⟩ ∧ later.tokens = rest ∧ ∃ marker more,
          later.model = ({ reader.model with markers := more } : Model).placed
            { type := some type, referent := written.referent marker
              comment := written.comment } ⟨0⟩ ∧
          reader.markers.Marks written.digits? reader.model.markers marker later.markers more := by
  have closing : From 6 (commentTokens .concept written.comment ++ .punct .rightBracket :: rest) :=
    commentTokens_eq .linear .concept written.comment ▸ comment_from _ _ _
  have parts : From 3 (written.quantifier.elim [] InlineQuantifier.tokens ++
      (written.designator.elim [] InlineDesignator.tokens ++
        (commentTokens .concept written.comment ++ .punct .rightBracket :: rest))) :=
    quantifier_inline_from (designator_inline_from (closing.mono (by decide)))
  rw [InlineConcept.bodyTokens, List.append_assoc, List.append_assoc, List.append_assoc,
    List.append_assoc, List.singleton_append] at starts
  rw [achieves_bind, achieves_make, achieves_bind, achieves_edit]
  simp only [Reader.withModel_model, Model.newConcept_fst, Model.addConcept_newConcept listed]
  have begun : (reader.withModel (reader.model.placed { type := some type } ⟨0⟩)).tokens = _ :=
    starts
  rw [achieves_bind]
  refine (colon_inline begun parts).mono fun _ first facts => ?_
  obtain ⟨left, past⟩ := facts
  rw [achieves_bind]
  refine (conceptLabels_eq (left ▸ parts)).mono fun _ second same => ?_
  subst same
  rw [achieves_bind]
  refine (referent_inline rfl past.model left closing).mono fun _ third facts => ?_
  obtain ⟨left, marker, more, placed, marks⟩ := facts
  refine (conceptClosing_inline { reader.model with markers := more } rfl placed
    left).mono fun id last facts => ?_
  obtain ⟨rfl, ended, kept, complete⟩ := facts
  rw [past.markers] at marks
  exact ⟨rfl, ended, marker, more, complete, kept ▸ marks⟩

/-- A concept in place adds itself to the model. -/
theorem target_draws (draws : reader.model.Draws reader.markers drawn arcs)
    (onDemand : setting.options.createTypesOnDemand = true)
    (starts : reader.tokens = written.tokens ++ rest) :
    Achieves (target setting (some inside) ⟨0⟩) reader fun id later =>
      id = ⟨drawn.length⟩ ∧ later.tokens = rest ∧
        reader.model.hierarchy.Extends later.model.hierarchy ∧
        ∃ marker, later.model.Draws later.markers (drawn ++ [(written, marker)]) arcs := by
  have body : reader.next.tokens = .ident written.type :: (written.bodyTokens ++ rest) :=
    Reader.tail_tokens starts
  have opened : (reader.ahead 0).token = .punct .leftBracket := Reader.token_ahead_zero starts
  have second : (reader.ahead 1).token = .ident written.type := by
    rw [Reader.token_ahead_succ, Reader.token_ahead_zero body]
  have bodied : Achieves (conceptBody setting inside (some ⟨0⟩)) reader.next fun id later =>
      id = ⟨drawn.length⟩ ∧ later.tokens = rest ∧
        reader.model.hierarchy.Extends later.model.hierarchy ∧
        ∃ marker, later.model.Draws later.markers (drawn ++ [(written, marker)]) arcs := by
    -- The type is the only part of a concept that may change the hierarchy.
    have ready : reader.next.next.model.hierarchy.Ready True := draws.ready
    have typed : Achieves (conceptType setting inside.lambda) reader.next fun type later =>
        ∃ known hierarchy, type = some known ∧
          later = reader.next.next.withModel { reader.model with hierarchy } ∧
          reader.model.hierarchy.Extends hierarchy ∧ hierarchy.Ready True ∧
          hierarchy.concepts.label? known = some written.type := by
      simp only [conceptType, achieves_bind, achieves_peek, achieves_located, achieves_advance,
        Reader.token_ahead_zero body]
      refine (conceptTypeNamed_ready ready onDemand).mono fun type later typed => ?_
      obtain ⟨hierarchy, facts⟩ := typed
      exact ⟨type, hierarchy, rfl, facts⟩
    unfold conceptBody
    rw [achieves_bind]
    refine typed.mono fun _ later facts => ?_
    obtain ⟨type, hierarchy, rfl, rfl, types, ready, named⟩ := facts
    have retyped := draws.retype types ready
    have left : (reader.next.next.withModel { reader.model with hierarchy }).tokens =
        written.bodyTokens ++ rest := Reader.tail_tokens body
    refine (conceptRest_inline retyped.listed left).mono fun id last facts => ?_
    obtain ⟨rfl, ended, marker, more, placed, marks⟩ := facts
    refine ⟨congrArg ConceptId.mk draws.concepts, ended, ?_, marker, ?_⟩
    · rw [placed]
      exact types
    · rw [placed]
      exact retyped.place named marks
  simp only [target, arc, concept, achieves_bind, achieves_peek, achieves_ahead, opened, second,
    achieves_descend, achieves_advance]
  exact ⟨inside, rfl, bodied⟩

/-! ## Relations -/

/-- The tokens of a relation, which stands between two arrows. -/
theorem relationNode_draws {room : Option Inside}
    (draws : reader.model.Draws reader.markers drawn arcs)
    (onDemand : setting.options.createTypesOnDemand = true)
    (starts : reader.tokens = .punct .leftParen :: .ident arc.type ::
      (commentTokens .relation arc.comment ++ .punct .rightParen :: rest)) :
    Achieves (relationNode setting room) reader fun node later =>
      later.tokens = rest ∧ later.model.Draws later.markers drawn arcs ∧
        later.model.hierarchy.relations.label? node.type = some arc.type ∧
        node.comment = arc.comment := by
  have second := Reader.tail_tokens starts
  unfold relationNode
  refine (relationNodeAhead_achieves starts).bind fun answer same facts => ?_
  obtain ⟨rfl, rfl⟩ := facts
  simp only [if_true, relationType, achieves_bind, achieves_located, achieves_advance,
    achieves_peek, Reader.token_ahead_zero second]
  have ready : same.next.next.model.hierarchy.Ready True := draws.ready
  refine (relationTypeNamed_ready ready onDemand).mono fun type later typed => ?_
  obtain ⟨hierarchy, rfl, types, grown, named⟩ := typed
  have left : same.next.next.tokens = (Write.comment .relation arc.comment).reread .linear ++
      .punct .rightParen :: rest := commentTokens_eq .linear .relation arc.comment ▸
        Reader.tail_tokens second
  have commented : Achieves (nodeComment .relation)
      (same.next.next.withModel { same.next.next.model with hierarchy }) fun comment later =>
        comment = arc.comment ∧ later.tokens = .punct .rightParen :: rest ∧
          (same.next.next.withModel { same.next.next.model with hierarchy }).Past later :=
    nodeComment_achieves left ⟨_, _, rfl, Nat.le_refl 7⟩
  refine commented.mono fun comment last facts => ?_
  obtain ⟨rfl, left, past⟩ := facts
  simp only [achieves_expect, Reader.token_ahead_zero left, achieves_pure, true_and]
  refine ⟨Reader.tail_tokens left, ?_, ?_, trivial⟩
  · rw [Reader.next_model, Reader.next_markers, past.model, past.markers]
    exact draws.retype types grown
  · rw [Reader.next_model, past.model]
    exact named

/-- A relation whose two concepts have been read adds itself to the model. -/
theorem connect_draws {node : RelationNode}
    (draws : reader.model.Draws reader.markers drawn arcs)
    (named : reader.model.hierarchy.relations.label? node.type = some arc.type)
    (comment : node.comment = arc.comment) :
    Achieves (connect ⟨0⟩ node (arc.direction.order ⟨arcs.length⟩ ⟨arcs.length + 1⟩)) reader
      fun _ later => later.tokens = reader.tokens ∧
        later.model.Draws later.markers drawn (arcs ++ [arc]) := by
  have any : reader.model.hierarchy.relations.valence? node.type = none := by
    cases fixed : reader.model.hierarchy.relations.valence? node.type with
    | none => rfl
    | some valence => exact absurd trivial (draws.ready.valence _ _ fixed).1
  unfold connect
  rw [achieves_bind]
  refine (makeRelation_unbounded any).mono fun _ made facts => ?_
  obtain ⟨rfl, rfl⟩ := facts
  simp only [achieves_edit, Reader.withModel_model, Model.addRelation_drafted draws.listed, comment]
  exact ⟨rfl, draws.relate named⟩

end ConceptualGraph.Read
