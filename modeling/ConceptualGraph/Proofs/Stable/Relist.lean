/-
Module: ConceptualGraph.Proofs.Stable.Relist
Purpose: A graph that has been written to its end is read back as the same graph with its nodes
  listed in the order of writing.
Main exports: Tracks.relists
-/
import ConceptualGraph.Proofs.Copy.Isomorphism
import ConceptualGraph.Proofs.Copy.Plain
import ConceptualGraph.Proofs.Stable.Plan

namespace ConceptualGraph

/-! ## Places -/

/-- The elements of a list without repetitions are in the order of their places. -/
theorem pairwise_placeIn {α : Type} [DecidableEq α] {number : α → Nat} {elements : List α}
    (distinct : elements.Nodup) : elements.Pairwise fun before after =>
      placeIn number elements before < placeIn number elements after := by
  refine List.pairwise_iff_getElem.mpr fun first second one two less => ?_
  rw [← eq_placeIn distinct (List.getElem?_eq_getElem one),
    ← eq_placeIn distinct (List.getElem?_eq_getElem two)]
  exact less

/-- Under new handles a referent refers to the concept that it referred to. -/
theorem Renaming.definedBy?_referent (handles : Renaming) (referent : Referent) :
    (handles.referent referent).definedBy? = referent.definedBy?.map handles.concept := by
  obtain ⟨quantifier, designator, descriptor⟩ := referent
  rcases designator with _ | _ | _ | _ | _ <;> rfl

/-- What is on the ledger twice is the same. -/
theorem Ledger.injective_handles (ledger : Ledger) (made : List RelationId) :
    (ledger.handles made).Injective where
  concept _ _ same := placeIn_injective _ (fun _ _ => congrArg ConceptId.mk) (ConceptId.mk.inj same)
  relation _ _ same :=
    placeIn_injective _ (fun _ _ => congrArg RelationId.mk) (RelationId.mk.inj same)
  marker _ _ same := placeIn_injective _ (fun _ _ => congrArg MarkerId.mk) (MarkerId.mk.inj same)

/-- Where models can be copied and there are no sets, no concept refers to another one. -/
theorem Model.Copyable.unlinked {model : Model} {source form : Notation}
    (copyable : model.Copyable source form) (setless : model.corefSets = #[]) : model.Unlinked where
  toTypesNamed := copyable.typesNamed
  listed := copyable.sound.listed
  alone := copyable.sound.joined.corefSets_eq_nil setless
  undefined := copyable.undefined

/-- A graph that has been begun has a copy. -/
theorem Model.Begun.exists_copy {model : Model} {writer : Writer} {graph : GraphId}
    (begun : model.Begun writer.order graph) :
    ∃ place, (writer.ledger model).Graph graph place := by
  have member : graph ∈ (writer.ledger model).graphs := by
    rcases begun with rfl | ⟨owner, written, describes⟩
    · exact List.mem_cons_self ..
    · exact List.mem_cons_of_mem _
        (List.mem_filterMap.mpr ⟨owner, List.mem_reverse.mpr written, describes⟩)
  obtain ⟨place, here⟩ := List.mem_iff_getElem?.mp member
  exact ⟨⟨place⟩, here⟩

namespace Tracks

variable {model : Model} {source form : Notation} {writer : Writer} {reader : Reader}
  {made : List RelationId} {graph place : GraphId}
  (tracks : Tracks model .none writer reader) (copyable : model.Copyable source form)

include tracks copyable

/-! ## Copies in the order of writing -/

section Listed

variable (there : (writer.ledger model).Graph graph place)

include there

/-- The concepts of a copy are listed in the order of writing. -/
theorem concepts_eq : (reader.model.graph place).concepts =
    (model.conceptsIn graph writer.order.reverse).map
      ((writer.ledger model).handles made).concept := by
  refine tracks.nodes.ascending.concepts_eq tracks.nodes.listed ?_ fun copy => ?_
  · exact List.pairwise_map.mpr
      ((pairwise_placeIn (List.nodup_reverse.mpr tracks.houses.distinct)).filter _)
  rw [List.mem_map]
  constructor
  · rintro ⟨concept, member, rfl⟩
    obtain ⟨among, stands⟩ := List.mem_filter.mp member
    obtain ⟨copy, copies⟩ := Writer.exists_copy (List.mem_reverse.mp among)
    rw [← tracks.concept_eq copies]
    exact (tracks.stands_iff copyable copies there).mpr (of_decide_eq_true stands)
  · intro stands
    obtain ⟨concept, copies⟩ := tracks.exists_concept (Model.lt_of_graph stands)
    have home := (tracks.stands_iff copyable copies there).mp stands
    exact ⟨concept, List.mem_filter.mpr ⟨copies.mem, decide_eq_true home⟩,
      (tracks.concept_eq copies).symm⟩

/-- The relations of a copy are listed in the order of writing. -/
theorem relations_eq (lists : model.Made writer reader.model made) (once : writer.written.Nodup) :
    (reader.model.graph place).relations =
      (model.relationsIn graph writer.written.reverse).map
        ((writer.ledger model).handles made).relation := by
  rw [← lists.order]
  refine tracks.nodes.ascending.relations_eq tracks.nodes.listed ?_ fun image => ?_
  · exact List.pairwise_map.mpr ((pairwise_placeIn (lists.nodup once)).filter _)
  rw [List.mem_map]
  constructor
  · rintro ⟨relation, member, rfl⟩
    obtain ⟨among, stands⟩ := List.mem_filter.mp member
    obtain ⟨image, here⟩ := lists.exists_copy (lists.perm.mem_iff.mp among)
    rw [← lists.relation_eq once here]
    exact (tracks.relation_stands_iff copyable (lists.copied _ _ here) there).mpr
      (of_decide_eq_true stands)
  · intro stands
    obtain ⟨relation, here⟩ := lists.exists_relation (Model.lt_of_relation_graph stands)
    have home := (tracks.relation_stands_iff copyable (lists.copied _ _ here) there).mp stands
    exact ⟨relation, List.mem_filter.mpr ⟨List.mem_of_getElem? here, decide_eq_true home⟩,
      (lists.relation_eq once here).symm⟩

end Listed

section Whole

variable (lists : model.Made writer reader.model made)
  (whole : ∀ concept, ¬(model.concept concept).IsFractional) (setless : model.corefSets = #[])
  (joined : reader.model.Joined)

include lists whole setless joined

/-- In a copy no concept refers to another one, and every type of a node has a label. -/
theorem unlinked : reader.model.Unlinked where
  conceptType copy type typed := by
    obtain ⟨concept, copies⟩ := tracks.exists_concept (Model.lt_of_type typed)
    obtain ⟨-, -, label, -, named⟩ :=
      exists_of_rel_some (typed ▸ (tracks.copied copies).type (whole concept))
    exact ⟨label, named⟩
  relationType image type typed := by
    obtain ⟨relation, here⟩ := lists.exists_relation (Model.lt_of_relation_type typed)
    obtain ⟨-, -, label, -, named⟩ :=
      exists_of_rel_some (typed ▸ (lists.copied relation image here).type)
    exact ⟨label, named⟩
  listed := tracks.nodes.listed
  alone := joined.corefSets_eq_nil (tracks.setless setless)
  undefined copy := by
    by_cases inside : copy.index < reader.model.concepts.size
    · obtain ⟨concept, copies⟩ := tracks.exists_concept inside
      have keeps : model.KeepsConcept _ ((writer.ledger model).handles made) concept copy :=
        tracks.keepsConcept copyable (whole concept) copies
      have undefined := copyable.undefined concept
      rw [Model.designates?, Option.bind_eq_none_iff] at undefined
      rw [Model.designates?, keeps.referent, Option.bind_eq_none_iff]
      rintro _ mapped
      obtain ⟨referent, described, rfl⟩ := Option.map_eq_some_iff.mp mapped
      rw [Renaming.definedBy?_referent, undefined referent described]
      rfl
    · rw [Model.designates?, Model.concept_of_le (Nat.le_of_not_lt inside)]
      rfl

/-- A graph that has been written to its end is read back with its nodes listed in the order of
writing. -/
theorem relists (writing : model.Writing [⟨0⟩] writer) (filled : model.Filled writer ⟨0⟩) :
    Rerun.Relists ⟨(writer.ledger model).handles made, writer⟩ model reader.model where
  injective := (writer.ledger model).injective_handles made
  old := copyable.unlinked setless
  new := tracks.unlinked copyable lists whole setless joined
  concept concept known := by
    obtain ⟨copy, copies⟩ := Writer.exists_copy known
    exact tracks.concept_eq copies ▸ tracks.keepsConcept copyable (whole concept) copies
  relation relation known := by
    obtain ⟨image, here⟩ := lists.exists_copy known
    exact lists.relation_eq writing.once here ▸
      tracks.keepsRelation copyable setless (lists.copied relation image here)
  args relation known concept argument := by
    obtain ⟨graph, stands, begun⟩ := writing.houses.related relation known
    have sound := copyable.sound.relations relation (Model.lt_of_relation_graph stands)
    exact (writing.filled_of_begun filled begun).concepts concept
      (sound.graph concept argument graph stands)
  comments graph begun := by
    obtain ⟨place, there⟩ := begun.exists_copy
    rw [← tracks.graph_eq copyable there]
    exact tracks.nodes.comments graph place there (tracks.lt_graphs rfl there) List.not_mem_nil
  conceptOnce := writing.houses.distinct
  relationOnce := writing.once
  filled graph begun := writing.filled_of_begun filled begun
  concepts graph begun := by
    obtain ⟨place, there⟩ := begun.exists_copy
    rw [← tracks.graph_eq copyable there]
    exact tracks.concepts_eq copyable there
  relations graph begun := by
    obtain ⟨place, there⟩ := begun.exists_copy
    rw [← tracks.graph_eq copyable there]
    exact tracks.relations_eq copyable there lists writing.once
  conceptCount := by
    refine ⟨writing.length_order_le, ?_⟩
    rw [tracks.nodes.size]
    exact (List.length_reverse ..).ge
  relationCount := by
    refine ⟨writing.length_written_le, ?_⟩
    rw [← lists.length, lists.perm.length_eq]

end Whole

end Tracks

end ConceptualGraph
