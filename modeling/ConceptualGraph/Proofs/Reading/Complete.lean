/-
Module: ConceptualGraph.Proofs.Reading.Complete
Purpose: A graph that has been read holds everything that reading it has made, and holds it
  once: the walk through its descriptors, by which summaries count, meets the whole arena.
Main exports: Session.complete_parseGraph
-/
import ConceptualGraph.Proofs.Model.Nested
import ConceptualGraph.Proofs.Reading.Attached
import ConceptualGraph.Proofs.Reading.Reached
import ConceptualGraph.Proofs.Reading.Sound.Graphs

namespace ConceptualGraph.Session

variable {form : Notation} {options : Options} {source : String} {graph : GraphId}

/-- Where no definition is read, only the graph itself describes no concept. -/
theorem attached_parseGraph (free : Read.LambdaFree (Scan.ofText form source).tokens)
    (parsed : ((withOptions options).parseGraph {} form source).result = .ok graph) :
    ((withOptions options).parseGraph {} form source).model.Attached { graphs := [graph] } := by
  obtain ⟨stop, later, -, rfl, read, same⟩ := exists_of_parseGraph parsed
  have start : (start form source stop).model.Attached { graphs := [⟨0⟩] } := by
    refine ⟨nofun, fun _ known => absurd known (Nat.not_lt_zero _),
      fun _ known => absurd known (Nat.not_lt_zero _), fun graph known => .inl ?_⟩
    have first : graph.index < 1 := known
    exact List.mem_singleton.mpr (by cases graph; simp_all)
  rw [same]
  exact ((Read.attaches_graphInto start free).of_ok read).1

/-- In a graph that has been read from a text without definitions, every graph, concept,
relation and actor of the arena is met once on the walk through descriptors, some member of
every coreference set is met, and the summary counts what the arena holds. -/
theorem complete_parseGraph (free : Read.LambdaFree (Scan.ofText form source).tokens)
    (parsed : ((withOptions options).parseGraph {} form source).result = .ok graph) :
    let model := ((withOptions options).parseGraph {} form source).model
    let graphs := Summary.nested model (model.graphs.size + 1) graph
    let concepts := graphs.flatMap fun graph => (model.graph graph).concepts
    let relations := graphs.flatMap fun graph => (model.graph graph).relations
    let summary := Summary.ofGraph model graph
    (graphs.Nodup ∧ ∀ other : GraphId, other ∈ graphs ↔ other.index < model.graphs.size) ∧
      (concepts.Nodup ∧
        ∀ concept : ConceptId, concept ∈ concepts ↔ concept.index < model.concepts.size) ∧
      (relations.Nodup ∧
        ∀ relation : RelationId, relation ∈ relations ↔ relation.index < model.relations.size) ∧
      (∀ set : CorefSetId, set.index < model.corefSets.size →
        ∃ member ∈ (model.corefSet set).members, member ∈ concepts) ∧
      summary.graphs = model.graphs.size ∧ summary.concepts = model.concepts.size ∧
      summary.relations + summary.actors = model.relations.size ∧
      summary.corefSets = model.corefSets.size := by
  intro model graphs concepts relations summary
  have wellFormed : model.WellFormed := wellFormed_parseOutermostGraph .empty
  have attached : model.Attached { graphs := [graph] } := attached_parseGraph free parsed
  obtain ⟨sound, inside, -, -⟩ := sound_parseGraph parsed
  obtain ⟨-, -, -, rfl, -⟩ := exists_of_parseGraph parsed
  have listed := Summary.walk_concepts wellFormed attached inside
  refine ⟨⟨Summary.nodup_nested wellFormed _ _, fun other =>
    Summary.mem_nested_iff wellFormed attached inside⟩, listed,
    Summary.walk_relations wellFormed attached inside, fun set known => ?_,
    Summary.ofGraph_eq wellFormed attached inside sound.joined⟩
  have member := sound.joined.defining set known
  exact ⟨_, member, (listed.2 _).mpr (sound.joined.shows_of_mem member).1⟩

/-- A label that is named in another context than its concept, a negation and an actor. -/
theorem complete_parseGraph_negation :
    ((withOptions {}).parseGraph {} .cgif
      "[Cat: *x] ~[(On ?x [Mat: [Dog ?x]])] <Sum ?x | [Int: *y]>").result = .ok ⟨0⟩ ∧
    (Summary.ofGraph ((withOptions {}).parseGraph {} .cgif
      "[Cat: *x] ~[(On ?x [Mat: [Dog ?x]])] <Sum ?x | [Int: *y]>").model ⟨0⟩).concepts =
      ((withOptions {}).parseGraph {} .cgif
        "[Cat: *x] ~[(On ?x [Mat: [Dog ?x]])] <Sum ?x | [Int: *y]>").model.concepts.size := by
  have free : Read.LambdaFree (Scan.ofText .cgif
      "[Cat: *x] ~[(On ?x [Mat: [Dog ?x]])] <Sum ?x | [Int: *y]>").tokens := by
    unfold Read.LambdaFree
    decide +kernel
  have parsed : ((withOptions {}).parseGraph {} .cgif
      "[Cat: *x] ~[(On ?x [Mat: [Dog ?x]])] <Sum ?x | [Int: *y]>").result = .ok ⟨0⟩ := by
    decide +kernel
  exact ⟨parsed, (complete_parseGraph free parsed).2.2.2.2.2.1⟩

end ConceptualGraph.Session
