/-
Module: ConceptualGraph.Proofs.Model.Attached
Purpose: Nothing in an arena is left over: concepts and relations stand in graphs and every
  graph describes a concept, but for what is still being read.
Main exports: Model.Loose, Model.Attached, Model.Attached.describe
-/
import ConceptualGraph.Proofs.Model.WellFormed

namespace ConceptualGraph.Model

/-- What waits while a bracket is being read: concepts for a graph that describes them, graphs
for the concepts that they describe, and relations for the graphs where they stand. -/
structure Loose where
  concepts : List ConceptId := []
  graphs : List GraphId := []
  relations : List RelationId := []

/-- Everything in an arena is attached, but for what waits. -/
structure Attached (loose : Loose) (model : Model) : Prop where
  bare : ∀ concept ∈ loose.concepts, concept.index < model.concepts.size ∧
    model.descriptor? concept = none
  concepts : ∀ concept : ConceptId, concept.index < model.concepts.size →
    ∃ graph, (model.concept concept).graph = some graph
  relations : ∀ relation : RelationId, relation.index < model.relations.size →
    relation ∈ loose.relations ∨ ∃ graph, (model.relation relation).graph = some graph
  graphs : ∀ graph : GraphId, graph.index < model.graphs.size →
    graph ∈ loose.graphs ∨ ∃ concept, model.descriptor? concept = some graph

variable {model later : Model} {loose : Loose} {concept : ConceptId} {graph : GraphId}
  {relation : RelationId}

namespace Attached

/-- Nodes that keep their places stay attached. -/
theorem of_sameShape (attached : model.Attached loose) (same : model.SameShape later)
    (relations : later.relations.size = model.relations.size) : later.Attached loose where
  bare concept waits := by
    rw [same.size, same.descriptor]
    exact attached.bare concept waits
  concepts concept known := by
    rw [same.size] at known
    rw [same.stands]
    exact attached.concepts concept known
  relations relation known := by
    rw [relations] at known
    rw [same.relation]
    exact attached.relations relation known
  graphs graph known := by
    rw [same.graphs] at known
    simp only [same.descriptor]
    exact attached.graphs graph known

/-! ## Concepts -/

/-- A concept has been made and put into a graph; it may still get a descriptor. -/
theorem withConcept (attached : model.Attached loose) (data : Concept)
    (concepts : later.concepts = model.concepts.push data)
    (graphs : later.graphs.size = model.graphs.size) (relations : later.relations = model.relations)
    (stands : data.graph = some graph) (bare : data.referent = none) :
    later.Attached { loose with concepts := ⟨model.concepts.size⟩ :: loose.concepts } := by
  have size : later.concepts.size = model.concepts.size + 1 := by simp [concepts]
  have here : later.concept ⟨model.concepts.size⟩ = data := by simp [Model.concept, concepts]
  have old : ∀ concept : ConceptId, concept.index < model.concepts.size →
      later.concept concept = model.concept concept := fun concept known => by
    simp [Model.concept, concepts, Array.getElem?_push, Nat.ne_of_lt known]
  have kept : ∀ {concept : ConceptId} {graph : GraphId}, model.descriptor? concept = some graph →
      later.descriptor? concept = some graph := fun {concept graph} describes => by
    have known : concept.index < model.concepts.size := by
      by_contra outside
      rw [descriptor?, concept_of_le (Nat.le_of_not_lt outside)] at describes
      cases describes
    rwa [descriptor?, old concept known]
  constructor
  · intro concept waits
    rcases List.mem_cons.mp waits with rfl | waits
    · exact ⟨by simp [size], by simp [descriptor?, here, bare]⟩
    · obtain ⟨known, none⟩ := attached.bare concept waits
      exact ⟨by omega, by rw [descriptor?, old concept known]; exact none⟩
  · intro concept known
    by_cases new : concept = ⟨model.concepts.size⟩
    · rw [new, here]
      exact ⟨graph, stands⟩
    · have before : concept.index < model.concepts.size := by
        have apart : concept.index ≠ model.concepts.size := fun same =>
          new (by cases concept; simp_all)
        omega
      rw [old concept before]
      exact attached.concepts concept before
  · intro relation known
    have same : later.relation relation = model.relation relation := by
      simp [Model.relation, relations]
    rw [relations] at known
    rw [same]
    exact attached.relations relation known
  · intro other known
    rw [graphs] at known
    exact (attached.graphs other known).imp_right (Exists.imp fun _ => kept)

/-- A concept that gets no descriptor any more. -/
theorem forget (attached : model.Attached { loose with concepts := concept :: loose.concepts }) :
    model.Attached loose :=
  ⟨fun concept waits => attached.bare concept (List.mem_cons_of_mem _ waits), attached.concepts,
    attached.relations, attached.graphs⟩

/-- A concept that has waited is described by a graph that has waited for it. -/
theorem describe {referent : Referent} (attached : model.Attached { loose with
      concepts := concept :: loose.concepts, graphs := referent.descriptor.toList ++ loose.graphs })
    (fresh : concept ∉ loose.concepts) :
    (model.setReferent concept referent).Attached loose := by
  obtain ⟨known, none⟩ := attached.bare concept List.mem_cons_self
  have sizes : (model.setReferent concept referent).concepts.size = model.concepts.size ∧
      (model.setReferent concept referent).graphs.size = model.graphs.size ∧
      (model.setReferent concept referent).relations = model.relations := by
    unfold setReferent
    split <;> simp
  obtain ⟨concepts, graphs, relations⟩ := sizes
  have look : ∀ other, (model.setReferent concept referent).concept other =
      if other = concept then { model.concept concept with referent := some referent }
      else model.concept other := by
    intro other
    -- The owner of a described graph may change too, which leaves the concepts as they are.
    have owned : ∀ owned : Model, owned.concepts = model.concepts →
        (owned.modifyConcept concept fun data => { data with referent := some referent }).concept
          other = if other = concept then { model.concept concept with referent := some referent }
            else model.concept other := by
      intro owned same
      have before : ∀ id, owned.concept id = model.concept id := fun id => by
        simp only [Model.concept, same]
      split
      · next here => rw [here, concept_modifyConcept (by rwa [same]), before]
      · next apart => rw [concept_modifyConcept_of_ne apart, before]
    unfold setReferent
    split <;> exact owned _ rfl
  constructor
  · intro other waits
    have apart : other ≠ concept := fun same => fresh (same ▸ waits)
    rw [concepts, descriptor?, look, if_neg apart]
    exact attached.bare other (List.mem_cons_of_mem _ waits)
  · intro other inside
    rw [concepts] at inside
    obtain ⟨graph, stands⟩ := attached.concepts other inside
    refine ⟨graph, ?_⟩
    rw [look]
    split
    · next here => rw [← stands, here]
    · exact stands
  · intro relation inside
    have same :
      (model.setReferent concept referent).relation relation = model.relation relation := by
      simp [Model.relation, relations]
    rw [relations] at inside
    rw [same]
    exact attached.relations relation inside
  · intro graph inside
    rw [graphs] at inside
    rcases attached.graphs graph inside with waits | ⟨other, describes⟩
    · rcases List.mem_append.mp waits with here | waits
      · refine .inr ⟨concept, ?_⟩
        rw [descriptor?, look, if_pos rfl]
        simpa using here
      · exact .inl waits
    · refine .inr ⟨other, ?_⟩
      have apart : other ≠ concept := by
        rintro rfl
        rw [none] at describes
        cases describes
      rwa [descriptor?, look, if_neg apart]

/-! ## Graphs and relations -/

/-- A graph that has been made is one more that is loose. -/
theorem newGraph (attached : model.Attached loose) (owner : Option ConceptId) :
    (model.newGraph owner).2.Attached
      { loose with graphs := ⟨model.graphs.size⟩ :: loose.graphs } where
  bare := attached.bare
  concepts := attached.concepts
  relations := attached.relations
  graphs graph known := by
    rw [size_newGraph] at known
    by_cases new : graph.index = model.graphs.size
    · exact .inl (List.mem_cons.mpr (.inl (by cases graph; simp_all)))
    · exact (attached.graphs graph (by omega)).imp_left (List.mem_cons_of_mem _)

theorem addComment (attached : model.Attached loose) (graph : GraphId) (text : String) :
    (model.addComment graph text).Attached loose where
  bare := attached.bare
  concepts := attached.concepts
  relations := attached.relations
  graphs other known := attached.graphs other (by simpa [Model.addComment] using known)

/-- A relation that has been drafted is one more that is loose. -/
theorem drafted (attached : model.Attached loose) (data : Relation) :
    (model.drafted data).Attached
      { loose with relations := ⟨model.relations.size⟩ :: loose.relations } where
  bare := attached.bare
  concepts := attached.concepts
  graphs := attached.graphs
  relations relation known := by
    rw [relation_drafted]
    by_cases new : relation.index = model.relations.size
    · exact .inl (List.mem_cons.mpr (.inl (by cases relation; simp_all)))
    · rw [if_neg new]
      have before : relation.index < model.relations.size := by
        have more : (model.drafted data).relations.size = model.relations.size + 1 := by
          simp [Model.drafted]
        omega
      exact (attached.relations relation before).imp_left (List.mem_cons_of_mem _)

/-- A relation that has waited is put into a graph. -/
theorem addRelation
    (attached : model.Attached { loose with relations := relation :: loose.relations })
    (graph : GraphId) : (model.addRelation graph relation).Attached loose where
  bare := attached.bare
  concepts := attached.concepts
  graphs other known := by
    have size : (model.addRelation graph relation).graphs.size = model.graphs.size := by
      simp [Model.addRelation]
    rw [size] at known
    exact attached.graphs other known
  relations other known := by
    have size : (model.addRelation graph relation).relations.size = model.relations.size := by
      simp [Model.addRelation]
    rw [size] at known
    have look : (model.addRelation graph relation).relation other =
        (model.modifyRelation relation fun data => { data with graph := some graph }).relation
          other := rfl
    rw [look]
    by_cases here : other = relation
    · subst here
      rw [relation_modifyRelation known]
      exact .inr ⟨graph, rfl⟩
    · rw [relation_modifyRelation_of_ne here]
      refine (attached.relations other known).imp_left fun waits => ?_
      exact (List.mem_cons.mp waits).resolve_left here

/-! ## Coreference -/

theorem newCorefSet (attached : model.Attached loose) (defining : ConceptId) :
    (model.newCorefSet defining).2.Attached loose :=
  attached.of_sameShape (.noteMembership _) rfl

/-- A member that is added leaves no node loose. -/
theorem addToCorefSet (attached : model.Attached loose) {set : CorefSetId}
    (added : model.addToCorefSet set concept = .ok later) : later.Attached loose := by
  unfold Model.addToCorefSet at added
  dsimp only at added
  split at added
  · cases added
    exact attached
  · split at added
    · cases added
    · cases added
      exact attached.of_sameShape (.noteMembership _) rfl

end Attached

end ConceptualGraph.Model
