/-
Module: ConceptualGraph.Proofs.Reading.Enacted.Nodes
Purpose: What is read for one node is made of acts: labels, types, referents, concepts, relations
  and actors.
Main exports: Read.InsideEnacted, Read.enacted_resolve, Read.enacted_referent,
  Read.enacted_concept, Read.enacted_relation, Read.enacted_actor
-/
import ConceptualGraph.Proofs.Label.Names
import ConceptualGraph.Proofs.Reading.Enacted.Steps

namespace ConceptualGraph.Read

variable {reader : Reader} {awaiting : Awaiting} {setting : Setting}
  {room : Option Inside} {graph : GraphId} {home : Option GraphId} {concept : ConceptId}

/-! ## Coreference -/

/-- The set of a label is found, or its concept is promoted by one act. -/
theorem enacted_setFor (found : Located) (label : String) :
    Enacted awaiting (setFor found label) reader (fun _ => awaiting) fun set later =>
      later.labels.target? label = some (.set set) ∧
        later.model.concepts.size = reader.model.concepts.size := by
  refine .see (rfl : labels reader = .ok reader.labels reader) ?_
  split
  · next denotes => exact .pure ⟨denotes, rfl⟩
  · next denotes =>
    exact ⟨.single (.promote denotes), (LabelTable.target?_bind _ _ _ _).trans (if_pos rfl),
      Model.size_modifyConcept⟩
  · exact .failAt

/-- A concept that joins the set of a label is one act. -/
theorem enacted_join (found : Located) (label : String)
    (inside : concept.index < reader.model.concepts.size) :
    Enacted awaiting (join found label concept) reader (fun _ => awaiting) fun _ later =>
      later.model.concepts.size = reader.model.concepts.size := by
  refine (enacted_setFor found label).bind fun set later _ facts => ?_
  obtain ⟨denotes, size⟩ := facts
  refine .see (rfl : model later = .ok later.model later) ?_
  split
  · next model added =>
    exact ⟨.single (.join denotes (size ▸ inside) added),
      (Model.size_addToCorefSet added).trans size⟩
  · exact .failAt

/-- A label is resolved by one act. -/
theorem enacted_resolve (found : Located) (label : String) :
    Enacted awaiting (resolve found label home) reader (fun _ => awaiting) fun _ _ => True := by
  refine .look (looks_definingConcept? label) fun defining => ?_
  split
  · exact .failAt
  · exact .pure True.intro
  · refine .look (looks_representative? _ _ _) fun known => ?_
    split
    · exact .pure True.intro
    · refine .look .model fun model => (Enacted.conceive _).bind fun concept later _ made =>
        .leave ?_
      obtain ⟨last, adrift⟩ := made
      refine (Enacted.edit (.addConcept adrift)).bind fun _ placed grown _ =>
        (enacted_join found label ?_).bind fun _ _ _ _ => .pure True.intro
      exact Nat.lt_of_lt_of_le (Nat.lt_of_succ_le (Nat.le_of_eq last)) grown

/-! ## Types -/

theorem enacted_conceptTypeNamed (found : Located) (label : String) :
    Enacted awaiting (conceptTypeNamed setting found label) reader (fun _ => awaiting)
      fun _ _ => True := by
  refine .look .model fun model => ?_
  dsimp only
  split
  · exact .pure True.intro
  · refine .ite (fun _ => ?_) fun _ => .failAt
    split
    · exact (Enacted.edit (.of_eq rfl rfl rfl)).bind fun _ _ _ _ => .pure True.intro
    · exact .throw

theorem enacted_relationTypeNamed (found : Located) (label : String) :
    Enacted awaiting (relationTypeNamed setting found label) reader (fun _ => awaiting)
      fun _ _ => True := by
  refine .look .model fun model => ?_
  dsimp only
  split
  · exact .pure True.intro
  · refine .ite (fun _ => ?_) fun _ => .failAt
    split
    · exact (Enacted.edit (.of_eq rfl rfl rfl)).bind fun _ _ _ _ => .pure True.intro
    · exact .throw

theorem enacted_parameter :
    Enacted awaiting (parameter setting) reader (fun _ => awaiting) fun _ _ => True := by
  refine .see (rfl : peek reader = .ok _ reader) ?_
  split
  · next seen =>
    refine .see (rfl : located 0 reader = .ok _ reader) (.advance seen nofun ?_)
    refine (enacted_conceptTypeNamed _ _).bind fun _ later _ _ =>
      .see (rfl : peek later = .ok _ later) ?_
    split
    · next seen =>
      exact .see (rfl : located 0 later = .ok _ later) (.advance seen nofun (.pure True.intro))
    · exact .fail
  · exact .fail

theorem enacted_parameters (tokens : Nat) :
    Enacted awaiting (parameters setting tokens) reader (fun _ => awaiting) fun _ _ => True := by
  induction tokens generalizing reader with
  | zero => exact enacted_parameter.bind fun _ _ _ _ => .pure True.intro
  | succ tokens ih =>
      exact enacted_parameter.bind fun _ _ _ _ => .eat nofun fun _ _ _ _ =>
        .ite (fun _ => ih.bind fun _ _ _ _ => .pure True.intro) fun _ => .pure True.intro

/-- What is read inside a bracket is made of acts. -/
structure InsideEnacted (inside : Inside) : Prop where
  concept : ∀ home awaiting reader,
    Enacted awaiting (inside.concept home) reader (fun _ => awaiting) fun _ _ => True
  lambda : ∀ awaiting reader,
    Enacted awaiting inside.lambda reader (fun _ => awaiting) fun _ _ => True
  items : ∀ graph awaiting reader,
    Enacted awaiting (inside.items graph) reader (fun _ => awaiting) fun _ _ => True

/-- What is read where there is room is made of acts. -/
def RoomEnacted (room : Option Inside) : Prop :=
  ∀ inside, room = some inside → InsideEnacted inside

theorem enacted_definitionBody {inside : Inside} (enacted : InsideEnacted inside)
    (declared : List Declared) :
    Enacted awaiting (definitionBody inside declared) reader (fun _ => awaiting)
      fun _ _ => True := by
  refine .look (.ahead 0) fun _ => .ite (fun _ => ?_) fun _ => ?_
  · exact (Enacted.make (.of_eq rfl rfl rfl)).bind fun graph _ _ _ =>
      (enacted.items graph _ _).bind fun _ _ _ _ =>
        .look (.mapM _ fun _ => looks_linkParameter _ _) fun _ => .pure True.intro
  · exact .look (.mapM _ fun _ => looks_linkParameter _ _) fun _ => .pure True.intro

theorem enacted_lambda (enacted : RoomEnacted room) :
    Enacted awaiting (lambda setting room) reader (fun _ => awaiting) fun _ _ => True :=
  .descend fun inside entered => .expect nofun fun _ _ _ => .expect nofun fun _ _ _ =>
    .expect nofun fun _ _ _ => .look .get fun _ => (enacted_parameters _).bind fun _ _ _ _ =>
      .expect nofun fun _ _ _ =>
        (Enacted.inContext (enacted_definitionBody (enacted inside entered) _)).bind
          fun _ _ _ _ => .expect nofun fun _ _ _ => .pure True.intro

theorem enacted_conceptType {lambda : Read Definition}
    (enacted : ∀ reader, Enacted awaiting lambda reader (fun _ => awaiting) fun _ _ => True) :
    Enacted awaiting (conceptType setting lambda) reader (fun _ => awaiting) fun _ _ => True := by
  refine .see (rfl : peek reader = .ok _ reader) ?_
  split
  · next seen =>
    exact .see (rfl : located 0 reader = .ok _ reader) <| .advance seen nofun <|
      (enacted_conceptTypeNamed _ _).bind fun _ _ _ _ => .pure True.intro
  · refine .look (looks_lambdaAhead 0) fun _ => .ite (fun _ => ?_) fun _ => .pure True.intro
    refine .see (rfl : located 0 reader = .ok _ reader) ((enacted _).bind fun definition _ _ _ =>
      .ite (fun _ => .failAt) fun _ => ?_)
    exact (Enacted.make (.of_eq rfl rfl rfl)).bind fun _ _ _ _ => .pure True.intro

theorem enacted_relationType {lambda : Read Definition}
    (enacted : ∀ reader, Enacted awaiting lambda reader (fun _ => awaiting) fun _ _ => True) :
    Enacted awaiting (relationType setting lambda) reader (fun _ => awaiting)
      fun _ _ => True := by
  refine .see (rfl : peek reader = .ok _ reader) ?_
  split
  · next seen =>
    exact .see (rfl : located 0 reader = .ok _ reader) <| .advance seen nofun <|
      enacted_relationTypeNamed _ _
  · exact (enacted _).bind fun _ _ _ _ => (Enacted.make (.of_eq rfl rfl rfl)).trivial

/-! ## Concepts -/

theorem enacted_quantifier :
    Enacted awaiting quantifier reader (fun _ => awaiting) fun _ later =>
      later.model = reader.model := by
  refine .eat nofun fun _ later same _ => .ite (fun _ => ?_) fun _ => .pure same
  refine .see (rfl : peek later = .ok _ later) ?_
  split
  · next seen => exact .advance seen nofun (.pure same)
  · next seen => exact .advance seen nofun (.pure same)
  · exact .fail

theorem enacted_encodedLiteral :
    Enacted awaiting encodedLiteral reader (fun _ => awaiting) fun _ _ => True := by
  refine .see (rfl : peek reader = .ok _ reader) ?_
  split
  · next seen =>
    refine .advance seen nofun (.see (rfl : peek reader.next = .ok _ reader.next) ?_)
    split
    · next seen => exact .advance seen nofun (.pure True.intro)
    · exact .fail
  · exact .fail

/-- The marker that a designator is, if one has been read. -/
def designated? (designator : Option Designator) : Option MarkerId :=
  designator.bind Designator.marker?

/-- A concept that a label denotes is a designator without a marker. -/
theorem enacted_definedDesignator (located : Located) (label : String) :
    Enacted awaiting (do
      match ← definingConcept? label with
      | some concept => return some (.defined concept)
      | none => Read.failAt located (.unboundDesignator label)) reader (fun _ => awaiting)
      fun designator later => later = reader ∧ designated? designator = none := by
  refine .look (looks_definingConcept? label) fun defining => ?_
  split
  · exact .pure ⟨rfl, rfl⟩
  · exact .failAt

/-- A designator that a token gives by itself. -/
theorem enacted_designation (last : concept.index + 1 = reader.model.concepts.size) :
    Enacted ((concept, none) :: awaiting) (do
      let designator ← designatorOf (← located 0)
      if designator.isSome then Read.advance
      return designator) reader
      (fun designator => (concept, designated? designator) :: awaiting) fun _ _ => True := by
  have given {designator : Option Designator} {token : Token}
      (seen : (reader.ahead 0).token = token) (plain : ∀ digits, token ≠ .marker digits)
      (other : designated? designator = none) :
      Enacted ((concept, none) :: awaiting) (do
        if designator.isSome then Read.advance
        return designator) reader
        (fun designator => (concept, designated? designator) :: awaiting) fun _ _ => True := by
    rw [← other]
    cases designator with
    | none => exact ⟨.refl, True.intro⟩
    | some designator => exact .advance seen plain ⟨.refl, True.intro⟩
  refine .see (rfl : located 0 reader = .ok _ reader) ?_
  unfold designatorOf
  split
  · next seen => exact .see rfl (by exact given seen nofun rfl)
  · next seen => exact .see rfl (by exact given seen nofun rfl)
  · next seen => exact .see rfl (by exact given seen nofun rfl)
  · next seen => exact .see rfl (by exact given seen nofun rfl)
  · next seen => exact .see rfl (by exact given seen nofun rfl)
  · next digits seen =>
    have marked : Moment.Acts ⟨reader, (concept, none) :: awaiting⟩ _ :=
      .mark (Reader.rest_eq_cons seen nofun) seen last
    cases digits with
    | none => exact ⟨.single marked, True.intro⟩
    | some foreign => exact ⟨.single marked, True.intro⟩
  · next label seen =>
    refine (enacted_definedDesignator _ label).bind fun designator later _ facts => ?_
    obtain ⟨rfl, other⟩ := facts
    exact given seen nofun other
  · next seen => exact .see rfl ⟨.refl, True.intro⟩

theorem enacted_designator (last : concept.index + 1 = reader.model.concepts.size) :
    Enacted ((concept, none) :: awaiting) designator reader
      (fun designator => (concept, designated? designator) :: awaiting) fun _ _ => True := by
  refine .eat nofun fun _ later same _ => .ite (fun _ => ?_) fun _ => ?_
  · exact enacted_encodedLiteral.bind fun _ _ _ _ => ⟨.refl, True.intro⟩
  · exact enacted_designation (by rw [same, last])

theorem enacted_descriptor {inside : Inside} (enacted : InsideEnacted inside)
    (owner : ConceptId) :
    Enacted awaiting (descriptor inside owner) reader (fun _ => awaiting) fun _ _ => True := by
  refine .look (.ahead 0) fun _ => .ite (fun _ => ?_) fun _ => .pure True.intro
  exact (Enacted.make (.of_eq rfl rfl rfl)).bind fun graph _ _ _ =>
    (Enacted.inContext (enacted.items graph _ _)).bind fun _ _ _ _ => .pure True.intro

/-- The concept that was made last is given its referent, if there is one. -/
theorem enacted_referent {inside : Inside} (enacted : InsideEnacted inside)
    (last : concept.index + 1 = reader.model.concepts.size) :
    Enacted ((concept, none) :: awaiting) (referent inside concept) reader (fun _ => awaiting)
      fun _ _ => True := by
  refine enacted_quantifier.bind fun quantifier later _ same => ?_
  refine (enacted_designator (by rw [same, last])).bind fun designator _ _ _ =>
    (enacted_descriptor enacted concept).bind fun descriptor final _ _ =>
      .ite (fun empty => ?_) fun _ => ?_
  · have nothing : (quantifier = none ∧ designator = none) ∧ descriptor = none := by
      simpa [Referent.isEmpty] using empty
    obtain ⟨⟨-, rfl⟩, -⟩ := nothing
    exact .leave (.pure True.intro)
  · exact ⟨.single (.refer rfl), True.intro⟩

theorem enacted_boundLabels (inside : concept.index < reader.model.concepts.size)
    (tokens : Nat) :
    Enacted awaiting (boundLabels concept tokens) reader (fun _ => awaiting) fun _ later =>
      later.model.concepts.size = reader.model.concepts.size := by
  induction tokens generalizing reader with
  | zero => exact .pure rfl
  | succ tokens ih =>
      refine .see (rfl : peek reader = .ok _ reader) ?_
      split
      · next seen =>
        refine .see (rfl : located 0 reader = .ok _ reader) (.advance seen nofun ?_)
        refine (enacted_join _ _ (by exact inside)).bind fun _ later _ same => ?_
        exact (ih (same ▸ inside)).mono fun _ final more => more.trans same
      · exact .pure rfl

theorem enacted_conceptLabels (inside : concept.index < reader.model.concepts.size) :
    Enacted awaiting (conceptLabels concept) reader (fun _ => awaiting) fun _ later =>
      later.model.concepts.size = reader.model.concepts.size := by
  refine .see (rfl : peek reader = .ok _ reader) ?_
  split
  · next label seen =>
    refine .see (rfl : labels reader = .ok reader.labels reader) <| .ite (fun _ => .fail)
      fun unbound => .advance seen nofun ?_
    exact ⟨.single (.define (by simpa using unbound) (by exact inside)), rfl⟩
  · exact .look .get fun _ => enacted_boundLabels inside _

theorem enacted_nodeComment (node : NodeKind) :
    Enacted awaiting (nodeComment node) reader (fun _ => awaiting) fun _ _ => True := by
  refine .see (rfl : peek reader = .ok _ reader) ?_
  split
  · next seen =>
    exact .ite (fun _ => .advance seen nofun (.pure True.intro)) fun _ => .pure True.intro
  · exact .pure True.intro

/-- A concept after its type, which has been made last. -/
theorem enacted_closes {inside : Inside} (enacted : InsideEnacted inside)
    (last : concept.index + 1 = reader.model.concepts.size) :
    Enacted ((concept, none) :: awaiting) (do
      let _ ← eat (.punct .colon)
      conceptLabels concept
      referent inside concept
      if let some comment ← nodeComment .concept then
        edit (·.modifyConcept concept fun data => { data with comment := some comment })
      expect (.punct .rightBracket) .conceptClosing
      return concept) reader (fun _ => awaiting) fun _ _ => True := by
  refine .eat nofun fun _ later same _ => ?_
  rw [← same] at last
  refine (enacted_conceptLabels (Nat.lt_of_succ_le (Nat.le_of_eq last))).bind
    fun _ _ _ size => ?_
  refine (enacted_referent enacted (last.trans size.symm)).bind fun _ _ _ _ =>
    (enacted_nodeComment _).bind fun comment _ _ _ => ?_
  split
  · exact .bind (.annotate (fun _ => rfl) (fun _ => rfl) fun _ => rfl) fun _ _ _ _ =>
      .expect nofun fun _ _ _ => .pure True.intro
  · exact .expect nofun fun _ _ _ => .pure True.intro

theorem enacted_conceptBody {inside : Inside} (enacted : InsideEnacted inside) :
    Enacted awaiting (conceptBody setting inside home) reader (fun _ => awaiting)
      fun _ _ => True := by
  refine (enacted_conceptType (enacted.lambda awaiting)).bind fun type _ _ _ =>
    (Enacted.conceive type).bind fun concept _ _ made => ?_
  obtain ⟨last, adrift⟩ := made
  cases home with
  | none => exact enacted_closes enacted last
  | some graph =>
      refine (Enacted.edit (.addConcept adrift)).bind fun _ _ _ same => enacted_closes enacted ?_
      rw [same, last]
      exact Model.SameSets.addConcept.size.symm

theorem enacted_concept (enacted : RoomEnacted room) :
    Enacted awaiting (Read.concept setting room home) reader (fun _ => awaiting)
      fun _ _ => True := by
  refine .see (rfl : peek reader = .ok _ reader) (.look (.ahead 1) fun second => ?_)
  split
  · exact .pure True.intro
  · exact .see rfl .failAt
  · exact .see rfl .failAt
  · have seen : (reader.ahead 0).token = .punct .leftBracket := by assumption
    exact .descend fun inside entered => .advance seen nofun <|
      (enacted_conceptBody (enacted inside entered)).bind fun _ _ _ _ => .pure True.intro
  · exact .pure True.intro

/-! ## Relations and actors -/

section Arguments

variable {concept : Option GraphId → Read (Option ConceptId)}
  (enacted : ∀ reader,
    Enacted awaiting (concept home) reader (fun _ => awaiting) fun _ _ => True)

include enacted

theorem enacted_arc :
    Enacted awaiting (arc concept home) reader (fun _ => awaiting) fun _ _ => True := by
  refine .see (rfl : peek reader = .ok _ reader) ?_
  split
  · next seen =>
    exact .see (rfl : located 0 reader = .ok _ reader) <| .advance seen nofun <|
      (enacted_resolve _ _).bind fun _ _ _ _ => .pure True.intro
  · exact enacted _
  · exact .pure True.intro

theorem enacted_arcs (tokens : Nat) :
    Enacted awaiting (arcs concept home tokens) reader (fun _ => awaiting) fun _ _ => True := by
  induction tokens generalizing reader with
  | zero => exact .pure True.intro
  | succ tokens ih =>
      refine (enacted_arc enacted).bind fun argument _ _ _ => ?_
      split
      · exact ih.bind fun _ _ _ _ => .pure True.intro
      · exact .pure True.intro

end Arguments

theorem enacted_makeRelation (found : Located) (type : RelationType) (args : List ConceptId)
    (role : RelationRole) (comment : Option String) :
    Enacted awaiting (makeRelation found type args role comment) reader (fun _ => awaiting)
      fun _ _ => True :=
  .look (looks_checkValence _ _ _) fun _ => (Enacted.make (.of_eq rfl rfl rfl)).bind
    fun _ _ _ _ => (Enacted.edit (.of_eq rfl rfl rfl)).bind fun _ _ _ _ => .pure True.intro

theorem enacted_relation (enacted : RoomEnacted room) :
    Enacted awaiting (relation setting room home) reader (fun _ => awaiting) fun _ _ => True := by
  refine .see (rfl : peek reader = .ok _ reader) <| .look (looks_relationTypeAhead 1)
    fun _ => .ite (fun begins => ?_) fun _ => .pure True.intro
  have seen : (reader.ahead 0).token = .punct .leftParen := by
    simp only [Bool.and_eq_true, decide_eq_true_eq] at begins
    exact begins.1
  exact .descend fun inside entered => .see (rfl : located 0 reader = .ok _ reader) <|
    .advance seen nofun <|
      (enacted_relationType ((enacted inside entered).lambda awaiting)).bind fun _ _ _ _ =>
        .look .get fun _ => (enacted_arcs ((enacted inside entered).concept home awaiting) _).bind
          fun _ _ _ _ => (enacted_nodeComment _).bind fun _ _ _ _ => .expect nofun fun _ _ _ =>
            (enacted_makeRelation _ _ _ _ _).bind fun _ _ _ _ => .pure True.intro

theorem enacted_actorBody {inside : Inside} (enacted : InsideEnacted inside) (found : Located) :
    Enacted awaiting (actorBody setting inside found home) reader (fun _ => awaiting)
      fun _ _ => True := by
  have body : Enacted awaiting (do
      let type ← relationType setting inside.lambda
      let inputs ← arcs inside.concept home (← get).rest.length
      expect (.punct .bar) .actorBar
      let outputs ← arcs inside.concept home (← get).rest.length
      let comment ← nodeComment .actor
      expect (.punct .rightAngle) .actorClosing
      makeRelation found type (inputs ++ outputs) (.actor inputs.length) comment) reader
      (fun _ => awaiting) fun _ _ => True :=
    (enacted_relationType (enacted.lambda awaiting)).bind fun _ _ _ _ => .look .get fun _ =>
      (enacted_arcs (enacted.concept home awaiting) _).bind fun _ _ _ _ =>
        .expect nofun fun _ _ _ => .look .get fun _ =>
          (enacted_arcs (enacted.concept home awaiting) _).bind fun _ _ _ _ =>
            (enacted_nodeComment _).bind fun _ _ _ _ => .expect nofun fun _ _ _ =>
              enacted_makeRelation _ _ _ _ _
  exact .look (looks_relationTypeAhead 0) fun _ =>
    .ite (fun _ => body) fun _ => .look (.fail nofun) fun _ => body

theorem enacted_actor (enacted : RoomEnacted room) :
    Enacted awaiting (actor setting room home) reader (fun _ => awaiting) fun _ _ => True := by
  refine .see (rfl : peek reader = .ok _ reader) <| .ite (fun seen => ?_) fun _ =>
    .pure True.intro
  exact .descend fun inside entered => .see (rfl : located 0 reader = .ok _ reader) <|
    .advance seen nofun <| (enacted_actorBody (enacted inside entered) _).bind fun _ _ _ _ =>
      .pure True.intro

end ConceptualGraph.Read
