/-
Module: ConceptualGraph.Proofs.Spread.Head
Purpose: The first concept of a fan.  Its label stands for it for as long as the branches are read.
Main exports: Reader.Heads, Reader.Heads.resolve, Read.heads_target, Read.heads_chain
-/
import ConceptualGraph.Proofs.Reading.Defined
import ConceptualGraph.Proofs.Spread.Tails

namespace ConceptualGraph

variable {reader other later : Reader} {label : String} {graph : GraphId} {concept : ConceptId}

/-! ## Labels of concepts -/

/-- A label denotes a concept that stands in a graph, or a coreference set that the concept
defines. -/
structure Reader.Heads (reader : Reader) (label : String) (graph : GraphId) (concept : ConceptId) :
    Prop where
  distinct : reader.labels.Distinct
  denotes : ∃ target, reader.labels.target? label = some target ∧ reader.model.Holds target ∧
    target.defining reader.model = concept
  stands : (reader.model.concept concept).graph = some graph

namespace Reader.Heads

variable (heads : reader.Heads label graph concept)

include heads

/-- The label is resolved to the concept. -/
theorem resolve (found : Located) :
    Read.resolve found label (some graph) reader = .ok concept reader := by
  obtain ⟨target, denotes, -, rfl⟩ := heads.denotes
  refine Read.resolve_of_found denotes ?_
  have here : reader.model.encloses graph (target.defining reader.model) = true := by
    rw [Model.encloses, heads.stands, beq_self_eq_true]
  exact List.find?_cons_of_pos here

theorem alike (alike : reader.Alike other) : other.Heads label graph concept where
  distinct := alike.labels ▸ heads.distinct
  denotes := by
    rw [alike.labels, alike.model]
    exact heads.denotes
  stands := alike.model ▸ heads.stands

/-- Reading binds no label anew and moves no concept. -/
theorem keeps (follows : reader.Follows true later) (endures : reader.model.Endures later.model) :
    later.Heads label graph concept where
  distinct := follows.labels.distinct
  denotes := by
    obtain ⟨target, denotes, holds, rfl⟩ := heads.denotes
    obtain ⟨bound, entries, -⟩ := follows.labels.scope
    have member := (LabelTable.target?_eq_some_iff heads.distinct).mp denotes
    -- The entry that binds the label is still there.  If it denotes another target now, this is a
    -- set that the concept defines.
    obtain ⟨entry, there, kept⟩ := ScopeEntry.Kept.exists_of_mem entries member
    have listed := List.mem_of_mem_drop there
    have found {target : Target} (entered : entry = .binding label target) :
        later.labels.target? label = some target :=
      (LabelTable.target?_eq_some_iff follows.labels.distinct).mpr (entered ▸ listed)
    cases kept with
    | same =>
        refine ⟨target, found rfl, ?_, Target.defining_retained follows.sets holds⟩
        cases target with
        | concept id => exact Nat.lt_of_lt_of_le holds endures.concepts
        | set id => exact (follows.sets id holds).1
    | promoted within defines => exact ⟨_, found rfl, within, defines⟩
  stands := endures.stands _ _ heads.stands

end Reader.Heads

/-! ## Reading the concept -/

/-- What the first of two steps comes to where they agree. -/
theorem Agree.ensures {α : Type} {step step' : Read α} {post : α → Reader → α → Reader → Prop}
    (agree : Agree step step' reader other post) :
    Ensures step reader fun value later => ∃ value' later', post value later value' later' :=
  .intro fun _ _ ran =>
    have ⟨value', later', _, related⟩ := agree.exists_ok ran
    ⟨value', later', related⟩

namespace Read

variable {rest : List Token} {setting : Setting} {room : Option Inside}

/-- What is confined leads to labels that follow from those before. -/
theorem Confined.ensures {α : Type} {binding : Bool} {step : Read α}
    (confined : Confined binding step) (distinct : reader.labels.Distinct) :
    Ensures step reader fun _ later => reader.Follows binding later :=
  .intro fun _ later ran => by
    have follows := confined reader distinct
    unfold final at follows
    rwa [ran] at follows

/-- A definition is read to the end of its brackets. -/
theorem lambda_tokens (everywhere : ∀ after after', RoomAgrees after after' room)
    {inner : List Token} (closes : Token.Closes inner 1)
    (starts : reader.tokens = .punct .leftParen :: .keyword .lambda :: (inner ++ rest)) :
    Ensures (lambda setting room) reader fun _ later => later.tokens = rest := by
  have opened : Beside rest rest 1 (inner.length + 1) reader.next reader.next :=
    ⟨⟨rfl, rfl, rfl, rfl⟩, .keyword .lambda :: inner, Nat.le_refl _, closes,
      Reader.tail_tokens starts,
      Reader.tail_tokens starts⟩
  unfold lambda
  rw [ensures_bind, ensures_descend]
  intro inside entered
  rw [ensures_bind, ensures_expect]
  intro _
  exact (agree_lambdaRest (everywhere rest rest inside entered) opened).ensures.mono
    fun _ _ facts => facts.choose_spec.choose_spec.2.done.1

/-- So is one inside of a bracket. -/
theorem reads_lambda {inside : Inside} {brackets : Nat} (form : setting.form = .linear)
    (entered : roomFor setting brackets = some inside) {reader : Reader} {inner : List Token}
    (closes : Token.Closes inner 1)
    (starts : reader.tokens = .punct .leftParen :: .keyword .lambda :: (inner ++ rest)) :
    Ensures inside.lambda reader fun _ later => later.tokens = rest := by
  cases brackets with
  | zero => cases entered
  | succ brackets =>
      cases entered
      exact lambda_tokens (fun _ _ => roomAgrees form brackets) closes starts

/-- The type of a concept is read to its end. -/
theorem conceptType_tokens {lambda : Read Definition} (type : TypeText)
    (reads : ∀ {reader inner}, Token.Closes inner 1 →
      reader.tokens = .punct .leftParen :: .keyword .lambda :: (inner ++ rest) →
      Ensures lambda reader fun _ later => later.tokens = rest)
    (starts : reader.tokens = type.tokens ++ rest) :
    Ensures (conceptType setting lambda) reader fun _ later => later.tokens = rest := by
  unfold conceptType
  cases type with
  | label name =>
      have here : (reader.ahead 0).token = .ident name := Reader.token_ahead_zero starts
      rw [ensures_bind, ensures_peek, here]
      dsimp only
      rw [ensures_bind, ensures_located, ensures_bind, ensures_advance, ensures_bind]
      exact ((blind_conceptTypeNamed _ name).still _).mono
        fun _ _ same => same.trans (Reader.tail_tokens starts)
  | lambda inner closes =>
      have here : (reader.ahead 0).token = .punct .leftParen := Reader.token_ahead_zero starts
      have second : (reader.ahead 1).token = .keyword .lambda := by
        rw [Reader.token_ahead_succ, Reader.token_ahead_zero (Reader.tail_tokens starts)]
      have ahead : Ensures (lambdaAhead 0) reader fun begins later =>
          begins = true ∧ later = reader := by
        unfold Ensures
        rw [lambdaAhead_eq, here, second]
        exact ⟨rfl, rfl⟩
      rw [ensures_bind, ensures_peek, here]
      refine ahead.bind fun _ _ facts => ?_
      obtain ⟨rfl, rfl⟩ := facts
      rw [if_pos rfl, ensures_bind, ensures_located]
      refine (reads closes starts).bind fun definition later tokens => ?_
      rw [ensures_ite, ensures_bind, ensures_make, ensures_pure, Reader.withModel_tokens]
      exact ⟨fun _ => True.intro, fun _ => tokens⟩

/-- Before its closing bracket a concept has no referent. -/
theorem referent_declines {inside : Inside}
    (starts : reader.tokens = .punct .rightBracket :: rest) :
    Declines (referent inside concept) () reader := by
  have next : From 7 reader.tokens := ⟨_, _, starts, Nat.le_refl 7⟩
  unfold Declines referent
  refine (quantifier_achieves_none (next.mono (by decide))).bind fun _ _ facts => ?_
  obtain ⟨rfl, rfl⟩ := facts
  refine (designator_achieves_none (next.mono (by decide))).bind fun _ _ facts => ?_
  obtain ⟨rfl, rfl⟩ := facts
  refine (descriptor_achieves_none (next.mono (by decide))).bind fun _ _ facts => ?_
  obtain ⟨rfl, rfl⟩ := facts
  exact ⟨rfl, rfl⟩

/-- A label that is not bound is bound to a concept that has been put into a graph. -/
theorem heads_conceptLabels (distinct : reader.labels.Distinct)
    (known : concept.index < reader.model.concepts.size)
    (stands : (reader.model.concept concept).graph = some graph)
    (starts : reader.tokens = .defLabel label :: rest) :
    Ensures (conceptLabels concept) reader fun _ later =>
      later.tokens = rest ∧ later.Heads label graph concept := by
  unfold conceptLabels
  rw [ensures_bind, ensures_peek, Reader.token_ahead_zero starts]
  dsimp only
  rw [ensures_bind, ensures_labels, ensures_ite, ensures_bind, ensures_advance, ensures_bindLabel]
  refine ⟨fun _ => trivial, fun _ => ⟨Reader.tail_tokens starts, distinct.bind _ _, ?_, stands⟩⟩
  exact ⟨.concept concept, (LabelTable.target?_bind _ _ _ _).trans (if_pos rfl), known, rfl⟩

/-- A concept of a graph that defines a label is read to its end. -/
theorem heads_conceptRest {inside : Inside} (distinct : reader.labels.Distinct)
    (known : concept.index < reader.model.concepts.size)
    (stands : (reader.model.concept concept).graph = some graph)
    (starts : reader.tokens = .punct .colon :: .defLabel label :: .punct .rightBracket :: rest) :
    Ensures (do
      let _ ← eat (.punct .colon)
      conceptLabels concept
      referent inside concept
      if let some comment ← nodeComment .concept then
        edit (·.modifyConcept concept fun data => { data with comment := some comment })
      expect (.punct .rightBracket) .conceptClosing
      return concept) reader fun id later => later.Heads label graph id := by
  rw [ensures_bind, ensures_eat, Reader.token_ahead_zero starts]
  refine ⟨fun _ => ?_, fun other => absurd rfl other⟩
  have labelled : Ensures (conceptLabels concept) reader.next fun _ later =>
      later.tokens = .punct .rightBracket :: rest ∧ later.Heads label graph concept :=
    heads_conceptLabels distinct known stands (Reader.tail_tokens starts)
  refine labelled.bind fun _ named facts => ?_
  obtain ⟨tokens, heads⟩ := facts
  refine (referent_declines tokens).ensures.bind fun _ _ facts => ?_
  obtain ⟨-, rfl⟩ := facts
  have here := Reader.token_ahead_zero tokens
  unfold nodeComment
  rw [ensures_bind, ensures_bind, ensures_peek, here]
  simp only [ensures_bind, ensures_expect, ensures_pure]
  exact fun _ => heads.alike (.next _)

/-- Once the first concept of a fan has been read, its label stands for it. -/
theorem heads_target {brackets : Nat} (form : setting.form = .linear) (fan : Fan)
    (distinct : reader.labels.Distinct)
    (starts : reader.tokens = .punct .leftBracket :: (fan.head ++ rest)) :
    Ensures (target setting (roomFor setting brackets) graph) reader fun concept later =>
      later.Heads fan.label graph concept := by
  have body : reader.next.tokens = fan.type.tokens ++ (.punct .colon :: .defLabel fan.label ::
      .punct .rightBracket :: rest) := by
    rw [Reader.tail_tokens starts, Fan.head, List.append_assoc]
    rfl
  have opened : (reader.ahead 0).token = .punct .leftBracket := Reader.token_ahead_zero starts
  -- The body of the bracket is read alike, whether the type is a label or a lambda.
  have bodied (inside : Inside) (entered : roomFor setting brackets = some inside) :
      Ensures (conceptBody setting inside (some graph)) reader.next fun concept later =>
        later.Heads fan.label graph concept := by
    have confined : InsideConfined inside := roomConfined brackets inside entered
    have follows : Ensures (conceptType setting inside.lambda) reader.next fun _ later =>
        reader.next.Follows true later :=
      (confined_conceptType (confined.lambda true)).ensures distinct
    unfold conceptBody
    refine ((conceptType_tokens fan.type (reads_lambda form entered) body).and follows).bind
      fun type typed facts => ?_
    obtain ⟨tokens, follows⟩ := facts
    rw [ensures_bind, ensures_make]
    dsimp only
    rw [ensures_bind, ensures_edit]
    exact heads_conceptRest follows.labels.distinct (by simp [Model.addConcept])
      (Model.graph_addConcept (by simp)) tokens
  obtain ⟨type, label, branches⟩ := fan
  cases type with
  | label name =>
      have second : (reader.ahead 1).token = .ident name := by
        rw [Reader.token_ahead_succ, Reader.token_ahead_zero body]
      simp only [target, arc, concept, ensures_bind, ensures_peek, ensures_ahead, opened, second,
        ensures_descend, ensures_advance]
      exact bodied
  | lambda inner closes =>
      have second : (reader.ahead 1).token = .punct .leftParen := by
        rw [Reader.token_ahead_succ, Reader.token_ahead_zero body]
      simp only [target, arc, concept, ensures_bind, ensures_peek, ensures_ahead, opened, second,
        ensures_descend, ensures_advance]
      exact bodied

/-- The label goes on to stand for the concept when a chain has been read. -/
theorem heads_chain {brackets : Nat} (heads : reader.Heads label graph concept) :
    Ensures (chain setting (roomFor setting brackets) graph) reader fun _ later =>
      later.Heads label graph concept := by
  have confined : RoomConfined (roomFor setting brackets) := roomConfined brackets
  have traced : Traced setting True [some graph] (chain setting (roomFor setting brackets) graph)
      reader fun _ _ => True := traced_chain (roomTraced brackets)
  refine .intro fun _ later ran => ?_
  have follows := ((confined_chain confined graph).ensures heads.distinct).of_ok ran
  exact heads.keeps follows (traced.of_ok (by simp) ran).1.endures

/-- Where the label is next, it is read as the concept. -/
theorem target_of_heads {others : List Token} (heads : reader.Heads label graph concept)
    (starts : reader.tokens = .boundLabel label :: others) :
    target setting room graph reader = .ok concept reader.next := by
  have reads : Achieves (target setting room graph) reader fun id later =>
      id = concept ∧ later = reader.next := by
    simp only [target, arc, achieves_bind, achieves_peek, Reader.token_ahead_zero starts,
      achieves_located, achieves_advance]
    have next : reader.next.Heads label graph concept := heads.alike (.next _)
    exact .of_ok (next.resolve _) ⟨rfl, rfl⟩
  obtain ⟨_, _, ran, rfl, rfl⟩ := reads.exists_ok
  exact ran

end Read

end ConceptualGraph
