/-
Module: ConceptualGraph.Proofs.Model.Edits
Purpose: What each edit of a model changes and what it leaves alone, look-up by
  look-up.
Main exports: Model.concept_modifyConcept, Model.graph_modifyGraph,
  Model.relation_modifyRelation, Model.concept_newConcept, Model.setReferent_eq
-/
import ConceptualGraph.Model
import Mathlib.Tactic.Common

namespace ConceptualGraph.Model

variable {model : Model}

/-! ## Concepts -/

section Concepts

variable {id other : ConceptId} {change : Concept → Concept}

@[simp] theorem size_modifyConcept :
    (model.modifyConcept id change).concepts.size = model.concepts.size := by
  simp [modifyConcept]

@[simp] theorem graphs_modifyConcept : (model.modifyConcept id change).graphs = model.graphs :=
  rfl

@[simp] theorem relations_modifyConcept :
    (model.modifyConcept id change).relations = model.relations := rfl

@[simp] theorem corefSets_modifyConcept :
    (model.modifyConcept id change).corefSets = model.corefSets := rfl

@[simp] theorem hierarchy_modifyConcept :
    (model.modifyConcept id change).hierarchy = model.hierarchy := rfl

@[simp] theorem markers_modifyConcept :
    (model.modifyConcept id change).markers = model.markers := rfl

@[simp] theorem graph_modifyConcept (graph : GraphId) :
    (model.modifyConcept id change).graph graph = model.graph graph := rfl

@[simp] theorem relation_modifyConcept (relation : RelationId) :
    (model.modifyConcept id change).relation relation = model.relation relation := rfl

theorem concept_modifyConcept (inside : id.index < model.concepts.size) :
    (model.modifyConcept id change).concept id = change (model.concept id) := by
  simp [modifyConcept, concept, Array.getElem_modify_self, inside]

theorem concept_modifyConcept_of_ne (different : other ≠ id) :
    (model.modifyConcept id change).concept other = model.concept other := by
  have apart : id.index ≠ other.index := by
    intro same
    exact different (by cases id; cases other; simp_all)
  simp [modifyConcept, concept, Array.getElem?_modify, apart]

/-- A change that leaves the data of a concept as it is leaves the model as it is. -/
theorem modifyConcept_eq_self (change : Concept → Concept)
    (same : change (model.concept id) = model.concept id) :
    model.modifyConcept id change = model := by
  have unchanged : model.concepts.modify id.index change = model.concepts := by
    apply Array.ext_getElem?
    intro place
    rw [Array.getElem?_modify]
    by_cases here : id.index = place
    · subst here
      cases found : model.concepts[id.index]? with
      | none => simp
      | some data =>
          have known : model.concept id = data := by simp [concept, found]
          rw [known] at same
          simp [same]
    · simp [here]
  simp [modifyConcept, unchanged]

@[simp] theorem newConcept_fst {type : Option ConceptType} :
    (model.newConcept type).1 = ⟨model.concepts.size⟩ := rfl

@[simp] theorem size_newConcept {type : Option ConceptType} :
    (model.newConcept type).2.concepts.size = model.concepts.size + 1 := by
  simp [newConcept]

theorem concept_newConcept {type : Option ConceptType} :
    (model.newConcept type).2.concept ⟨model.concepts.size⟩ = { type } := by
  simp [newConcept, concept]

theorem concept_newConcept_of_lt {type : Option ConceptType} {concept : ConceptId}
    (inside : concept.index < model.concepts.size) :
    (model.newConcept type).2.concept concept = model.concept concept := by
  have old : concept.index ≠ model.concepts.size := by omega
  simp [newConcept, Model.concept, Array.getElem?_push, old]

end Concepts

/-! ## Graphs -/

section Graphs

variable {id other : GraphId} {change : Graph → Graph}

@[simp] theorem size_modifyGraph :
    (model.modifyGraph id change).graphs.size = model.graphs.size := by
  simp [modifyGraph]

@[simp] theorem concepts_modifyGraph :
    (model.modifyGraph id change).concepts = model.concepts := rfl

@[simp] theorem relations_modifyGraph :
    (model.modifyGraph id change).relations = model.relations := rfl

@[simp] theorem corefSets_modifyGraph :
    (model.modifyGraph id change).corefSets = model.corefSets := rfl

@[simp] theorem hierarchy_modifyGraph :
    (model.modifyGraph id change).hierarchy = model.hierarchy := rfl

@[simp] theorem markers_modifyGraph : (model.modifyGraph id change).markers = model.markers :=
  rfl

@[simp] theorem concept_modifyGraph (concept : ConceptId) :
    (model.modifyGraph id change).concept concept = model.concept concept := rfl

@[simp] theorem relation_modifyGraph (relation : RelationId) :
    (model.modifyGraph id change).relation relation = model.relation relation := rfl

theorem graph_modifyGraph (inside : id.index < model.graphs.size) :
    (model.modifyGraph id change).graph id = change (model.graph id) := by
  simp [modifyGraph, graph, Array.getElem_modify_self, inside]

theorem graph_modifyGraph_of_ne (different : other ≠ id) :
    (model.modifyGraph id change).graph other = model.graph other := by
  have apart : id.index ≠ other.index := by
    intro same
    exact different (by cases id; cases other; simp_all)
  simp [modifyGraph, graph, Array.getElem?_modify, apart]

/-- A change that leaves the data of a graph as it is leaves the model as it is. -/
theorem modifyGraph_eq_self (change : Graph → Graph) (inside : id.index < model.graphs.size)
    (same : change (model.graph id) = model.graph id) : model.modifyGraph id change = model := by
  have unchanged : model.graphs.modify id.index change = model.graphs := by
    apply Array.ext_getElem?
    intro place
    rw [Array.getElem?_modify]
    by_cases here : id.index = place
    · subst here
      simp only [graph, Array.getElem?_eq_getElem inside, Option.getD_some] at same
      simp [inside, same]
    · simp [here]
  simp [modifyGraph, unchanged]

@[simp] theorem newGraph_fst {owner : Option ConceptId} :
    (model.newGraph owner).1 = ⟨model.graphs.size⟩ := rfl

@[simp] theorem size_newGraph {owner : Option ConceptId} :
    (model.newGraph owner).2.graphs.size = model.graphs.size + 1 := by
  simp [newGraph]

theorem graph_newGraph {owner : Option ConceptId} :
    (model.newGraph owner).2.graph ⟨model.graphs.size⟩ = { owner } := by
  simp [newGraph, graph]

theorem graph_newGraph_of_lt {owner : Option ConceptId} {graph : GraphId}
    (inside : graph.index < model.graphs.size) :
    (model.newGraph owner).2.graph graph = model.graph graph := by
  have old : graph.index ≠ model.graphs.size := by omega
  simp [newGraph, Model.graph, Array.getElem?_push, old]

/-- A referent whose descriptor already belongs to the concept is only noted. -/
theorem setReferent_eq {concept : ConceptId} {referent : Referent}
    (owned : ∀ graph, referent.descriptor = some graph →
      graph.index < model.graphs.size ∧ (model.graph graph).owner = some concept) :
    model.setReferent concept referent =
      model.modifyConcept concept fun data => { data with referent := some referent } := by
  unfold setReferent
  cases described : referent.descriptor with
  | none => rfl
  | some graph =>
      obtain ⟨inside, owner⟩ := owned graph described
      have same := modifyGraph_eq_self (fun data => { data with owner := some concept }) inside
        (by simp [← owner])
      simp only [same]

end Graphs

/-! ## Relations -/

section Relations

variable {id other : RelationId} {change : Relation → Relation}

@[simp] theorem size_modifyRelation :
    (model.modifyRelation id change).relations.size = model.relations.size := by
  simp [modifyRelation]

@[simp] theorem concepts_modifyRelation :
    (model.modifyRelation id change).concepts = model.concepts := rfl

@[simp] theorem graphs_modifyRelation :
    (model.modifyRelation id change).graphs = model.graphs := rfl

@[simp] theorem corefSets_modifyRelation :
    (model.modifyRelation id change).corefSets = model.corefSets := rfl

@[simp] theorem hierarchy_modifyRelation :
    (model.modifyRelation id change).hierarchy = model.hierarchy := rfl

@[simp] theorem markers_modifyRelation :
    (model.modifyRelation id change).markers = model.markers := rfl

@[simp] theorem concept_modifyRelation (concept : ConceptId) :
    (model.modifyRelation id change).concept concept = model.concept concept := rfl

@[simp] theorem graph_modifyRelation (graph : GraphId) :
    (model.modifyRelation id change).graph graph = model.graph graph := rfl

theorem relation_modifyRelation (inside : id.index < model.relations.size) :
    (model.modifyRelation id change).relation id = change (model.relation id) := by
  simp [modifyRelation, relation, Array.getElem_modify_self, inside]

theorem relation_modifyRelation_of_ne (different : other ≠ id) :
    (model.modifyRelation id change).relation other = model.relation other := by
  have apart : id.index ≠ other.index := by
    intro same
    exact different (by cases id; cases other; simp_all)
  simp [modifyRelation, relation, Array.getElem?_modify, apart]

variable {type : Option RelationType} {args : List ConceptId} {role : RelationRole}

@[simp] theorem newRelation_fst :
    (model.newRelation type args role).1 = ⟨model.relations.size⟩ := rfl

@[simp] theorem size_newRelation :
    (model.newRelation type args role).2.relations.size = model.relations.size + 1 := by
  simp [newRelation]

end Relations

end ConceptualGraph.Model
