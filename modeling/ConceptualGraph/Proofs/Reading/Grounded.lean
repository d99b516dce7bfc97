/-
Module: ConceptualGraph.Proofs.Reading.Grounded
Purpose: Where no definition is read, a concept that a designator names shows itself in a graph
  around the one where the designator stands, and every type has a label.
Main exports: Model.Grounded, Juncture.Moves.grounded, Juncture.Leads.grounded,
  Juncture.Leads.definitions, Session.grounded_parseGraph, Session.typesNamed_parseGraph
-/
import ConceptualGraph.Proofs.Copy.Plain
import ConceptualGraph.Proofs.Reading.Anchored
import ConceptualGraph.Proofs.Reading.Attached
import ConceptualGraph.Proofs.Reading.Defined
import ConceptualGraph.Writing.Plan

section

open Relation (ReflTransGen)

namespace ConceptualGraph

/-! ## Designators -/

/-- Whether every concept that a designator names shows itself in the graph where the designator
stands or in one around it. -/
def Model.Grounded (model : Model) : Prop :=
  ∀ concept target, model.designates? concept = some target →
    ∃ graph, (model.concept concept).graph = some graph ∧ model.Anchors graph target

namespace Model

variable {model later : Model} {setting : Setting} {home : Option GraphId} {concept : ConceptId}

/-- What designators name stays where it is. -/
theorem Grounded.endures (grounded : model.Grounded) (endures : model.Endures later)
    (same : ∀ concept, later.designates? concept = model.designates? concept) : later.Grounded := by
  intro concept target names
  obtain ⟨graph, stands, anchors⟩ := grounded concept target (same concept ▸ names)
  exact ⟨graph, endures.stands _ _ stands, anchors.endures endures⟩

/-- A change that keeps the referent keeps what the concept designates. -/
theorem designates?_modifyConcept {change : Concept → Concept}
    (referent : ∀ data, (change data).referent = data.referent) (other : ConceptId) :
    (model.modifyConcept concept change).designates? other = model.designates? other :=
  congrArg (·.bind Referent.definedBy?) (field_modifyConcept model concept Concept.referent
    referent other)

/-- A concept that is made has no referent. -/
theorem designates?_newConcept (type : Option ConceptType) (other : ConceptId) :
    (model.newConcept type).2.designates? other = model.designates? other := by
  unfold designates?
  rw [concept_newConcept_eq]
  split
  · next new =>
    rw [concept_of_le (Nat.le_of_eq new.symm)]
    rfl
  · rfl

/-- A concept that has just been made designates nothing. -/
theorem designates?_conceive (type : Option ConceptType) (other : ConceptId) :
    (model.conceive home type).designates? other = model.designates? other := by
  cases home with
  | none => exact designates?_newConcept type other
  | some graph =>
      refine (designates?_modifyConcept ?_ other).trans (designates?_newConcept type other)
      exact fun _ => rfl

/-- No edit gives a concept a referent. -/
theorem Edited.designates? (edited : model.Edited setting home later) (other : ConceptId) :
    later.designates? other = model.designates? other := by
  cases edited with
  | concept type => exact designates?_newConcept type other
  | annotate graph hidden type referent => exact designates?_modifyConcept referent other
  | place | hide =>
      refine designates?_modifyConcept ?_ other
      exact fun _ => rfl
  | _ => rfl

/-- A concept names what its referent does. -/
theorem designates?_setReferent {referent : Referent} {other target : ConceptId}
    (owned : ∀ graph, referent.descriptor = some graph → (model.graph graph).owner = some concept)
    (names : (model.setReferent concept referent).designates? other = some target) :
    model.designates? other = some target ∨
      other = concept ∧ referent.definedBy? = some target := by
  rw [setReferent_eq fun graph describes =>
    ⟨lt_of_owner (owned graph describes), owned graph describes⟩] at names
  by_cases same : other = concept
  · subst same
    by_cases inside : other.index < model.concepts.size
    · rw [Model.designates?, concept_modifyConcept inside] at names
      exact .inr ⟨rfl, names⟩
    · rw [Model.designates?, concept_of_le (by simpa using Nat.le_of_not_lt inside)] at names
      cases names
  · rw [Model.designates?, concept_modifyConcept_of_ne same] at names
    exact .inl names

end Model

namespace Juncture

variable {setting : Setting} {defines : Prop} {juncture later : Juncture}

/-- Where no definition is read, every move keeps what designators name in its place. -/
theorem Moves.grounded (moves : Moves setting defines juncture later) (without : ¬defines)
    (sheltered : juncture.Sheltered) (grounded : juncture.reader.model.Grounded) :
    later.reader.model.Grounded := by
  have endures := moves.endures
  cases moves with
  | edit edited => exact grounded.endures endures edited.designates?
  | @mark homes reader foreign =>
      refine grounded.endures endures fun other => ?_
      change (MarkerTable.markerFor _ _ _).2.2.designates? _ = _
      unfold MarkerTable.markerFor
      split <;> rfl
  | define unbound => exact grounded.endures endures (Model.designates?_conceive _)
  | promote denotes =>
      refine grounded.endures endures (Model.designates?_modifyConcept ?_)
      exact fun _ => rfl
  | join denotes seated added =>
      rcases Model.eq_of_addToCorefSet added with ⟨-, rfl⟩ | ⟨-, rfl⟩
      · exact grounded
      · refine grounded.endures endures (Model.designates?_modifyConcept ?_)
        exact fun _ => rfl
  | @refer home homes reader concept referent seated owned anchored =>
      -- Only this move makes a concept name another one.
      intro other target names
      rcases Model.designates?_setReferent owned names with before | ⟨rfl, named⟩
      · obtain ⟨graph, stands, anchors⟩ := grounded other target before
        exact ⟨graph, endures.stands _ _ stands, anchors.endures endures⟩
      · obtain ⟨-, shelters⟩ := sheltered
        cases home with
        | none => cases shelters
        | some graph =>
            exact ⟨graph, endures.stands _ _ (seated graph rfl),
              (anchored without target named graph rfl).endures endures⟩
  | enter | beginBody | conclude => exact grounded.endures endures fun _ => rfl
  | past | leave | beginDefinition | endBody => exact grounded

/-- However reading goes on without definitions, what designators name stands around them. -/
theorem Leads.grounded (leads : Leads setting defines juncture later) (without : ¬defines)
    (sheltered : juncture.Sheltered) (grounded : juncture.reader.model.Grounded) :
    later.reader.model.Grounded := by
  induction leads with
  | refl => exact grounded
  | tail path moves ih => exact moves.grounded without (Leads.sheltered path without sheltered) ih

/-! ## Types -/

/-- However reading goes on without definitions, no type gets one. -/
theorem Leads.definitions (leads : Leads setting defines juncture later) (without : ¬defines) :
    (∀ type, (later.reader.model.hierarchy.concepts.node type).definition =
      (juncture.reader.model.hierarchy.concepts.node type).definition) ∧
    ∀ type, (later.reader.model.hierarchy.relations.node type).definition =
      (juncture.reader.model.hierarchy.relations.node type).definition := by
  induction leads with
  | refl => exact ⟨fun _ => rfl, fun _ => rfl⟩
  | tail path moves ih =>
      rcases moves.hierarchy_cases with same | named | ⟨_, _, allowed, _, _⟩
      · rw [same]
        exact ih
      · obtain ⟨concepts, relations⟩ := named.definitions
        exact ⟨fun type => (concepts type).trans (ih.1 type),
          fun type => (relations type).trans (ih.2 type)⟩
      · exact absurd allowed without

end Juncture

/-- A text without the word that begins a definition has no definition. -/
theorem Read.LambdaFree.definitionFree {tokens : List Located} (free : Read.LambdaFree tokens) :
    Read.DefinitionFree tokens := by
  intro begins
  obtain ⟨located, member, same⟩ := List.mem_map.mp
    (begins.subset (List.mem_cons_of_mem _ (List.mem_singleton_self _)))
  exact free located member same

/-! ## Graphs that have been read -/

namespace Session

variable {form : Notation} {options : Options} {source : String} {graph : GraphId}

/-- The moves of which reading a graph without definitions consists. -/
theorem exists_leads_of_parseGraph (free : Read.LambdaFree (Scan.ofText form source).tokens)
    (parsed : ((withOptions options).parseGraph {} form source).result = .ok graph) :
    ∃ stop later, Juncture.Sheltered ⟨[some ⟨0⟩], start form source stop⟩ ∧
      Juncture.Leads ⟨form, options⟩ False ⟨[some ⟨0⟩], start form source stop⟩
        ⟨[some ⟨0⟩], later⟩ ∧
      ((withOptions options).parseGraph {} form source).model = later.model := by
  obtain ⟨stop, later, -, -, read, model⟩ := exists_of_parseGraph parsed
  have sheltered : Juncture.Sheltered ⟨[some ⟨0⟩], start form source stop⟩ :=
    @sheltered_reader options {} form source stop
  have traced : Read.Traced ⟨form, options⟩ False [some ⟨0⟩] _ (start form source stop)
      fun _ _ => True := Read.traced_graphInto _
  exact ⟨stop, later, sheltered, (traced.of_ok (fun _ => ⟨sheltered, free.definitionFree⟩) read).1,
    model⟩

/-- What a parse has read without lambdas is grounded. -/
theorem grounded_parseGraph (free : Read.LambdaFree (Scan.ofText form source).tokens)
    (parsed : ((withOptions options).parseGraph {} form source).result = .ok graph) :
    ((withOptions options).parseGraph {} form source).model.Grounded := by
  obtain ⟨stop, later, sheltered, leads, model⟩ := exists_leads_of_parseGraph free parsed
  rw [model]
  refine leads.grounded id sheltered fun concept target names => ?_
  cases names

/-- What a parse has read without lambdas has only types with labels. -/
theorem typesNamed_parseGraph (free : Read.LambdaFree (Scan.ofText form source).tokens)
    (parsed : ((withOptions options).parseGraph {} form source).result = .ok graph) :
    ((withOptions options).parseGraph {} form source).model.TypesNamed := by
  have sound := (sound_parseGraph parsed).sound
  obtain ⟨stop, later, -, leads, model⟩ := exists_leads_of_parseGraph free parsed
  rw [model] at sound ⊢
  obtain ⟨concepts, relations⟩ := leads.definitions id
  refine sound.typesNamed (fun _ _ type _ => ?_) fun _ _ type _ => ?_
  · rw [concepts]
    exact Option.isNone_iff_eq_none.mpr (Lattice.definition_withExtremes _ _ type)
  · rw [relations]
    exact Option.isNone_iff_eq_none.mpr (Lattice.definition_withExtremes _ _ type)

end Session

end ConceptualGraph

end
