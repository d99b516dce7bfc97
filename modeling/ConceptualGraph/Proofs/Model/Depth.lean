/-
Module: ConceptualGraph.Proofs.Model.Depth
Purpose: How many concepts lie around a graph, and the edits that put nodes only into graphs that
  lie inside few.
Main exports: Model.Depth, Model.Shallow, Model.Settles
-/
import ConceptualGraph.Proofs.Model.WellFormed

namespace ConceptualGraph.Model

/-- So many concepts lie around a graph: none around one that describes no concept. -/
inductive Depth (model : Model) : GraphId → Nat → Prop
  | outermost {graph : GraphId} (known : graph.index < model.graphs.size)
      (free : (model.graph graph).owner = none) : Depth model graph 0
  | inside {graph home : GraphId} {concept : ConceptId} {depth : Nat}
      (owned : (model.graph graph).owner = some concept)
      (stands : (model.concept concept).graph = some home) :
      Depth model home depth → Depth model graph (depth + 1)

/-- Whether every node stands in a graph around which fewer concepts lie than a limit. -/
structure Shallow (limit : Nat) (model : Model) : Prop where
  concepts : ∀ concept graph, (model.concept concept).graph = some graph →
    ∃ depth < limit, model.Depth graph depth
  relations : ∀ relation graph, (model.relation relation).graph = some graph →
    ∃ depth < limit, model.Depth graph depth

variable {model later last : Model} {limit levels other : Nat} {graph : GraphId}
  {concept : ConceptId} {relation : RelationId}

/-- A graph at some depth is one of the model. -/
theorem Depth.index_lt (deep : model.Depth graph levels) : graph.index < model.graphs.size := by
  cases deep with
  | outermost known _ => exact known
  | inside owned _ _ => exact lt_of_owner owned

/-- A graph lies at one depth only. -/
theorem Depth.unique (deep : model.Depth graph levels) (also : model.Depth graph other) :
    levels = other := by
  induction deep generalizing other with
  | outermost _ free =>
      cases also with
      | outermost => rfl
      | inside owned => cases free.symm.trans owned
  | inside owned stands _ ih =>
      cases also with
      | outermost _ free => cases free.symm.trans owned
      | inside owned' stands' deep' =>
          cases owned.symm.trans owned'
          cases stands.symm.trans stands'
          rw [ih deep']

/-- As many concepts lie around a graph where nothing has been moved. -/
theorem Depth.of_stands (deep : model.Depth graph levels)
    (graphs : model.graphs.size ≤ later.graphs.size)
    (owner : ∀ graph : GraphId, graph.index < model.graphs.size →
      (later.graph graph).owner = (model.graph graph).owner)
    (stands : ∀ concept graph, (model.concept concept).graph = some graph →
      (later.concept concept).graph = some graph) : later.Depth graph levels := by
  induction deep with
  | outermost known free =>
      exact .outermost (Nat.lt_of_lt_of_le known graphs) ((owner _ known).trans free)
  | inside owned here _ ih =>
      exact .inside ((owner _ (lt_of_owner owned)).trans owned) (stands _ _ here) ih

namespace Shallow

variable (shallow : model.Shallow limit) (deep : model.Depth graph levels)

include shallow deep

theorem lt_of_concept (stands : (model.concept concept).graph = some graph) : levels < limit := by
  obtain ⟨_, less, also⟩ := shallow.concepts concept graph stands
  exact deep.unique also ▸ less

/-- A relation that stands in a graph stands within the limit. -/
theorem lt_of_relation (stands : (model.relation relation).graph = some graph) :
    levels < limit := by
  obtain ⟨_, less, also⟩ := shallow.relations relation graph stands
  exact deep.unique also ▸ less

end Shallow

/-! ## Edits -/

/-- A concept that stands in no graph yet. -/
structure Adrift (model : Model) (concept : ConceptId) : Prop where
  known : concept.index < model.concepts.size
  nowhere : (model.concept concept).graph = none

theorem Adrift.of_sameShape (adrift : model.Adrift concept) (same : model.SameShape later) :
    later.Adrift concept :=
  ⟨same.size ▸ adrift.known, (same.stands concept).trans adrift.nowhere⟩

/-- A graph that is changed elsewhere than in its owner keeps it. -/
theorem owner_modifyGraph {id : GraphId} {change : Graph → Graph}
    (keeps : ∀ data, (change data).owner = data.owner) (graph : GraphId) :
    ((model.modifyGraph id change).graph graph).owner = (model.graph graph).owner := by
  by_cases here : graph = id
  · subst here
    by_cases inside : graph.index < model.graphs.size
    · rw [graph_modifyGraph inside, keeps]
    · rw [graph_of_le (by simpa using Nat.le_of_not_lt inside),
        graph_of_le (Nat.le_of_not_lt inside)]
  · rw [graph_modifyGraph_of_ne here]

/-- Only the concept that is put into a graph comes to stand in it. -/
theorem stands_of_addConcept {node : ConceptId} {home : GraphId}
    (here : ((model.addConcept graph concept).concept node).graph = some home) :
    (model.concept node).graph = some home ∨ home = graph := by
  by_cases same : node = concept
  · subst same
    by_cases known : node.index < model.concepts.size
    · have data : (model.addConcept graph node).concept node =
          { model.concept node with graph := some graph } := concept_modifyConcept known
      rw [data] at here
      cases here
      exact .inr rfl
    · have outside : (model.addConcept graph node).concept node = default :=
        concept_of_le (by simpa [Model.addConcept] using known)
      rw [outside] at here
      cases here
  · have data : (model.addConcept graph concept).concept node = model.concept node :=
      concept_modifyConcept_of_ne same
    exact .inl (data ▸ here)

/-- A relation stands where it stood, or in the graph to which it has been added. -/
theorem stands_of_addRelation {node : RelationId} {home : GraphId}
    (here : ((model.addRelation graph relation).relation node).graph = some home) :
    (model.relation node).graph = some home ∨ home = graph := by
  by_cases same : node = relation
  · subst same
    by_cases known : node.index < model.relations.size
    · have data : (model.addRelation graph node).relation node =
          { model.relation node with graph := some graph } := relation_modifyRelation known
      rw [data] at here
      cases here
      exact .inr rfl
    · have outside : (model.addRelation graph node).relation node = default :=
        relation_of_le (by simpa [Model.addRelation] using known)
      rw [outside] at here
      cases here
  · have data : (model.addRelation graph relation).relation node = model.relation node :=
      relation_modifyRelation_of_ne same
    exact .inl (data ▸ here)

/-- Nothing is moved, and new nodes come only into graphs around which fewer concepts lie than a
limit. -/
structure Settles (limit : Nat) (model later : Model) : Prop where
  graphs : model.graphs.size ≤ later.graphs.size
  owner : ∀ graph : GraphId, graph.index < model.graphs.size →
    (later.graph graph).owner = (model.graph graph).owner
  stands : ∀ concept graph, (model.concept concept).graph = some graph →
    (later.concept concept).graph = some graph
  concepts : ∀ concept graph, (later.concept concept).graph = some graph →
    (model.concept concept).graph = some graph ∨ ∃ depth < limit, later.Depth graph depth
  relations : ∀ relation graph, (later.relation relation).graph = some graph →
    (model.relation relation).graph = some graph ∨ ∃ depth < limit, later.Depth graph depth

namespace Settles

theorem depth (settles : Settles limit model later) (deep : model.Depth graph levels) :
    later.Depth graph levels :=
  deep.of_stands settles.graphs settles.owner settles.stands

/-- What has come no deeper than a limit stays so while nodes settle within it. -/
theorem shallow (settles : Settles limit model later) (shallow : model.Shallow limit) :
    later.Shallow limit where
  concepts concept graph stands := (settles.concepts concept graph stands).elim
    (fun before => (shallow.concepts concept graph before).imp fun _ ⟨less, deep⟩ =>
      ⟨less, settles.depth deep⟩) id
  relations relation graph stands := (settles.relations relation graph stands).elim
    (fun before => (shallow.relations relation graph before).imp fun _ ⟨less, deep⟩ =>
      ⟨less, settles.depth deep⟩) id

theorem refl (model : Model) : Settles limit model model :=
  ⟨Nat.le_refl _, fun _ _ => rfl, fun _ _ => id, fun _ _ => .inl, fun _ _ => .inl⟩

/-- What settles twice settles. -/
theorem trans (first : Settles limit model later) (second : Settles limit later last) :
    Settles limit model last where
  graphs := Nat.le_trans first.graphs second.graphs
  owner graph known := (second.owner graph (Nat.lt_of_lt_of_le known first.graphs)).trans
    (first.owner graph known)
  stands concept graph here := second.stands concept graph (first.stands concept graph here)
  concepts concept graph here := (second.concepts concept graph here).elim
    (fun between => (first.concepts concept graph between).imp_right
      (Exists.imp fun _ ⟨less, deep⟩ => ⟨less, second.depth deep⟩)) .inr
  relations relation graph here := (second.relations relation graph here).elim
    (fun between => (first.relations relation graph between).imp_right
      (Exists.imp fun _ ⟨less, deep⟩ => ⟨less, second.depth deep⟩)) .inr

theorem of_sameShape (same : model.SameShape later) : Settles limit model later where
  graphs := Nat.le_of_eq same.graphs.symm
  owner graph _ := same.owner graph
  stands concept _ here := (same.stands concept).trans here
  concepts concept _ here := .inl ((same.stands concept).symm.trans here)
  relations relation _ here := .inl ((same.relation relation).symm.trans here)

theorem newGraph (owner : Option ConceptId) : Settles limit model (model.newGraph owner).2 where
  graphs := by simp
  owner graph known := by rw [graph_newGraph_of_lt known]
  stands _ _ := id
  concepts _ _ := .inl
  relations _ _ := .inl

/-- A concept that is made stands nowhere yet. -/
theorem newConcept (type : Option ConceptType) : Settles limit model (model.newConcept type).2 :=
  have same (concept : ConceptId) :
      ((model.newConcept type).2.concept concept).graph = (model.concept concept).graph := by
    rw [concept_newConcept_eq]
    split
    · next new => rw [concept_of_le (Nat.le_of_eq new.symm)]; rfl
    · rfl
  { graphs := Nat.le_refl _
    owner := fun _ _ => rfl
    stands := fun concept _ => (same concept).trans
    concepts := fun concept _ here => .inl ((same concept).symm.trans here)
    relations := fun _ _ => .inl }

/-- A member that is added moves nothing. -/
theorem addToCorefSet {set : CorefSetId} (added : model.addToCorefSet set concept = .ok later) :
    Settles limit model later := by
  unfold Model.addToCorefSet at added
  dsimp only at added
  split at added
  · cases added
    exact .refl _
  · split at added
    · cases added
    · cases added
      exact .of_sameShape (.noteMembership _)

/-- A concept that stands nowhere is put into a graph. -/
theorem addConcept (nowhere : (model.concept concept).graph = none)
    (deep : model.Depth graph levels) (less : levels < limit) :
    Settles limit model (model.addConcept graph concept) := by
  have owner (other : GraphId) : ((model.addConcept graph concept).graph other).owner =
      (model.graph other).owner := by
    rw [Model.addConcept, owner_modifyGraph, graph_modifyConcept]
    exact fun _ => rfl
  have stands (other : ConceptId) (home : GraphId)
      (here : (model.concept other).graph = some home) :
      ((model.addConcept graph concept).concept other).graph = some home := by
    have apart : other ≠ concept := by
      rintro rfl
      cases nowhere.symm.trans here
    rw [Model.addConcept, concept_modifyGraph, concept_modifyConcept_of_ne apart]
    exact here
  have settled : (model.addConcept graph concept).Depth graph levels :=
    deep.of_stands (by simp [Model.addConcept]) (fun other _ => owner other) stands
  refine ⟨by simp [Model.addConcept], fun other _ => owner other, stands, fun _ _ here => ?_,
    fun _ _ => .inl⟩
  rcases stands_of_addConcept here with before | rfl
  · exact .inl before
  · exact .inr ⟨levels, less, settled⟩

/-- A relation is put into a graph. -/
theorem addRelation (deep : model.Depth graph levels) (less : levels < limit) :
    Settles limit model (model.addRelation graph relation) := by
  have owner (other : GraphId) : ((model.addRelation graph relation).graph other).owner =
      (model.graph other).owner := by
    rw [Model.addRelation, owner_modifyGraph, graph_modifyRelation]
    exact fun _ => rfl
  have settled : (model.addRelation graph relation).Depth graph levels :=
    deep.of_stands (by simp [Model.addRelation]) (fun other _ => owner other) fun _ _ => id
  refine ⟨by simp [Model.addRelation], fun other _ => owner other, fun _ _ => id, fun _ _ => .inl,
    fun _ _ here => ?_⟩
  rcases stands_of_addRelation here with before | rfl
  · exact .inl before
  · exact .inr ⟨levels, less, settled⟩

/-- A concept is given a referent whose descriptor belongs to it. -/
theorem setReferent {referent : Referent} (owned : ∀ graph, referent.descriptor = some graph →
      (model.graph graph).owner = some concept) :
    Settles limit model (model.setReferent concept referent) := by
  rw [setReferent_eq fun graph describes =>
    ⟨lt_of_owner (owned graph describes), owned graph describes⟩]
  have same : ∀ other, ((model.modifyConcept concept fun data =>
      { data with referent := some referent }).concept other).graph = (model.concept other).graph :=
    field_modifyConcept _ _ Concept.graph fun _ => rfl
  exact ⟨Nat.le_refl _, fun _ _ => rfl, fun other _ => (same other).trans,
    fun other _ here => .inl ((same other).symm.trans here), fun _ _ => .inl⟩

/-- A relation that is drafted stands nowhere yet. -/
theorem drafted {data : Relation} (loose : data.graph = none) :
    Settles limit model (model.drafted data) where
  graphs := Nat.le_refl _
  owner _ _ := rfl
  stands _ _ := id
  concepts _ _ := .inl
  relations relation graph here := by
    rw [relation_drafted] at here
    split at here
    · rw [loose] at here
      cases here
    · exact .inl here

end Settles

end ConceptualGraph.Model
