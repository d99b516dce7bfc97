/-
Module: ConceptualGraph.Proofs.Model.Ascending
Purpose: Graphs whose nodes are listed in the order in which they were made, as they are while
  a text is read: the lists then follow from what stands in the graphs.
Main exports: Model.Ascending, Model.Ascending.placed, Model.Ascending.related,
  Model.Ascending.concepts_eq, Model.Ascending.relations_eq
-/
import ConceptualGraph.Proofs.Model.Growth
import Mathlib.Data.List.Sort

namespace ConceptualGraph.Model

/-- The nodes of every graph are listed in the order in which they were made. -/
structure Ascending (model : Model) : Prop where
  concepts : ∀ graph, (model.graph graph).concepts.Pairwise (·.index < ·.index)
  relations : ∀ graph, (model.graph graph).relations.Pairwise (·.index < ·.index)

/-- Lists with the same elements are the same if the indices of both ascend. -/
theorem eq_of_ascending {α : Type} {index : α → Nat} {first second : List α}
    (one : first.Pairwise fun before after => index before < index after)
    (two : second.Pairwise fun before after => index before < index after)
    (same : ∀ element, element ∈ first ↔ element ∈ second) : first = second := by
  have irreflexive : Std.Irrefl fun before after : α => index before < index after :=
    ⟨fun _ => Nat.lt_irrefl _⟩
  have antisymmetric : Std.Antisymm fun before after : α => index before < index after :=
    ⟨fun _ _ one two => absurd (Nat.lt_trans one two) (Nat.lt_irrefl _)⟩
  exact one.eq_of_mem_iff two same

variable {model other : Model} {graph : GraphId} {data : Concept} {link : Relation}

namespace Ascending

/-- Whether an arena ascends depends on what its graphs list only. -/
theorem of_eq (ascending : model.Ascending)
    (concepts : ∀ graph, (other.graph graph).concepts = (model.graph graph).concepts)
    (relations : ∀ graph, (other.graph graph).relations = (model.graph graph).relations) :
    other.Ascending where
  concepts graph := by
    rw [concepts]
    exact ascending.concepts graph
  relations graph := by
    rw [relations]
    exact ascending.relations graph

/-- A graph that is made last comes after its owner. -/
theorem newGraph (ascending : model.Ascending) {owner : Option ConceptId} :
    (model.newGraph owner).2.Ascending := by
  have unmade : model.graph ⟨model.graphs.size⟩ = default := by simp [Model.graph]
  have same : ∀ graph, ((model.newGraph owner).2.graph graph).concepts =
        (model.graph graph).concepts ∧
      ((model.newGraph owner).2.graph graph).relations = (model.graph graph).relations := by
    intro graph
    by_cases last : graph.index = model.graphs.size
    · obtain rfl : graph = ⟨model.graphs.size⟩ := congrArg GraphId.mk last
      rw [graph_newGraph, unmade]
      exact ⟨rfl, rfl⟩
    · simp [Model.newGraph, Model.graph, Array.getElem?_push, last]
  exact ascending.of_eq (fun graph => (same graph).1) fun graph => (same graph).2

/-- The concept made last goes to the end of its graph. -/
theorem placed (ascending : model.Ascending) (listed : model.Listed)
    (inside : graph.index < model.graphs.size) : (model.placed data graph).Ascending where
  concepts other := by
    rw [graph_placed inside]
    split
    · refine List.pairwise_append.mpr ⟨ascending.concepts graph, List.pairwise_singleton _ _,
        fun concept member last here => ?_⟩
      rw [List.mem_singleton.mp here]
      exact lt_of_graph ((listed.mem_concepts graph concept).mp member)
    · exact ascending.concepts other
  relations other := by
    rw [graph_placed inside]
    split
    · exact ascending.relations graph
    · exact ascending.relations other

/-- The relation made last goes to the end of its graph. -/
theorem related (ascending : model.Ascending) (listed : model.Listed)
    (inside : graph.index < model.graphs.size) : (model.related link graph).Ascending where
  concepts other := by
    rw [graph_related inside]
    split
    · exact ascending.concepts graph
    · exact ascending.concepts other
  relations other := by
    rw [graph_related inside]
    split
    · refine List.pairwise_append.mpr ⟨ascending.relations graph, List.pairwise_singleton _ _,
        fun relation member last here => ?_⟩
      rw [List.mem_singleton.mp here]
      exact lt_of_relation_graph ((listed.mem_relations graph relation).mp member)
    · exact ascending.relations other

/-- The concepts of a graph are those that stand in it, in the order in which they were made. -/
theorem concepts_eq (ascending : model.Ascending) (listed : model.Listed)
    {concepts : List ConceptId} (order : concepts.Pairwise (·.index < ·.index))
    (stand : ∀ concept, concept ∈ concepts ↔ (model.concept concept).graph = some graph) :
    (model.graph graph).concepts = concepts :=
  eq_of_ascending (ascending.concepts graph) order fun concept =>
    (listed.mem_concepts graph concept).trans (stand concept).symm

/-- The relations of a graph are those that stand in it, in the order in which they were
made. -/
theorem relations_eq (ascending : model.Ascending) (listed : model.Listed)
    {relations : List RelationId} (order : relations.Pairwise (·.index < ·.index))
    (stand : ∀ relation, relation ∈ relations ↔ (model.relation relation).graph = some graph) :
    (model.graph graph).relations = relations :=
  eq_of_ascending (ascending.relations graph) order fun relation =>
    (listed.mem_relations graph relation).trans (stand relation).symm

end Ascending

end ConceptualGraph.Model
