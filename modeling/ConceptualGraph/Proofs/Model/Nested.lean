/-
Module: ConceptualGraph.Proofs.Model.Nested
Purpose: The walk from a graph through descriptors meets every graph, and so every node, of an
  arena in which nothing is left over, and none of them twice.
Main exports: Summary.mem_nested_iff, Summary.nodup_nested, Summary.walk_concepts,
  Summary.walk_relations, Summary.ofGraph_eq
-/
import ConceptualGraph.Proofs.Model.Attached
import ConceptualGraph.Summary
import Mathlib.Data.List.Nodup

section

open Relation (ReflTransGen TransGen)

namespace ConceptualGraph

variable {model : Model} {graph inner outer root : GraphId} {levels : Nat}

/-! ## Descriptors and nesting -/

namespace Model

/-- A concept's descriptor lies in the graph where the concept stands. -/
theorem WellFormed.liesIn (wellFormed : model.WellFormed) {concept : ConceptId}
    (stands : concept ∈ (model.graph outer).concepts)
    (describes : model.descriptor? concept = some inner) : model.LiesIn inner outer :=
  Option.bind_eq_some_iff.mpr ⟨concept, wellFormed.owned concept inner describes,
    (wellFormed.listed.mem_concepts outer concept).mp stands⟩

/-- Different graphs list different concepts. -/
theorem Listed.nodup_flatMap_concepts (listed : model.Listed) {graphs : List GraphId}
    (once : graphs.Nodup) : (graphs.flatMap fun graph => (model.graph graph).concepts).Nodup := by
  refine List.nodup_flatMap.mpr ⟨fun graph _ => listed.nodup_concepts graph, ?_⟩
  refine once.pairwise_of_forall_ne fun first _ second _ apart concept here there => apart ?_
  exact Option.some.inj (((listed.mem_concepts first concept).mp here).symm.trans
    ((listed.mem_concepts second concept).mp there))

/-- Different graphs list different relations. -/
theorem Listed.nodup_flatMap_relations (listed : model.Listed) {graphs : List GraphId}
    (once : graphs.Nodup) : (graphs.flatMap fun graph => (model.graph graph).relations).Nodup := by
  refine List.nodup_flatMap.mpr ⟨fun graph _ => listed.nodup_relations graph, ?_⟩
  refine once.pairwise_of_forall_ne fun first _ second _ apart relation here there => apart ?_
  exact Option.some.inj (((listed.mem_relations first relation).mp here).symm.trans
    ((listed.mem_relations second relation).mp there))

/-- A graph lies in one other graph at most. -/
theorem rightUnique_liesIn : Relator.RightUnique model.LiesIn :=
  fun _ _ _ first second => Option.some.inj (first.symm.trans second)

end Model

namespace Summary

/-! ## The walk -/

theorem mem_below {concept : ConceptId} :
    inner ∈ (model.descriptor? concept).elim [] (nested model levels) ↔
      ∃ body, model.descriptor? concept = some body ∧ inner ∈ nested model levels body := by
  cases model.descriptor? concept <;> simp

/-- Below a graph the walk meets what it meets from the descriptor of one of its concepts. -/
theorem mem_nested_cons : inner ∈ nested model (levels + 1) outer ↔ inner = outer ∨
    ∃ concept ∈ (model.graph outer).concepts, ∃ body, model.descriptor? concept = some body ∧
      inner ∈ nested model levels body := by
  simp only [nested, List.mem_cons, List.mem_flatMap, mem_below]

/-- What the walk meets lies inside the graph where it begins. -/
theorem path_of_mem_nested (wellFormed : model.WellFormed)
    (met : inner ∈ nested model levels outer) :
    ReflTransGen model.LiesIn inner outer := by
  induction levels generalizing outer with
  | zero => cases met
  | succ levels ih =>
      rcases mem_nested_cons.mp met with rfl | ⟨concept, stands, body, describes, below⟩
      · exact .refl
      · exact (ih below).tail (wellFormed.liesIn stands describes)

/-- A walk one level deeper meets what the graphs that it has met contain. -/
theorem mem_nested_succ {concept : ConceptId} (met : outer ∈ nested model levels root)
    (stands : concept ∈ (model.graph outer).concepts)
    (describes : model.descriptor? concept = some inner) :
    inner ∈ nested model (levels + 1) root := by
  induction levels generalizing root with
  | zero => cases met
  | succ levels ih =>
      refine mem_nested_cons.mpr (.inr ?_)
      rcases mem_nested_cons.mp met with rfl | ⟨other, above, body, describing, below⟩
      · exact ⟨concept, stands, inner, describes, List.mem_cons_self⟩
      · exact ⟨other, above, body, describing, ih below⟩

/-- What is met within some levels is met within more. -/
theorem mem_nested_mono {more : Nat} (le : levels ≤ more)
    (met : inner ∈ nested model levels outer) :
    inner ∈ nested model more outer := by
  induction levels generalizing outer more with
  | zero => cases met
  | succ levels ih =>
      obtain ⟨more, rfl⟩ : ∃ fewer, more = fewer + 1 := ⟨more - 1, by omega⟩
      rcases mem_nested_cons.mp met with rfl | ⟨concept, stands, body, describes, below⟩
      · exact List.mem_cons_self
      · exact mem_nested_cons.mpr (.inr ⟨concept, stands, body, describes,
          ih (Nat.le_of_succ_le_succ le) below⟩)

/-- Graphs that lie in the same one are not nested in each other. -/
theorem not_path_of_siblings (wellFormed : model.WellFormed) (inside : model.LiesIn inner graph)
    (beyond : model.LiesIn outer graph) (different : inner ≠ outer) :
    ¬ReflTransGen model.LiesIn inner outer := by
  intro path
  rcases path.cases_head with same | ⟨middle, first, path⟩
  · exact different same
  · rw [Model.rightUnique_liesIn first inside] at path
    exact wellFormed.acyclic graph (TransGen.tail' path beyond)

/-- The walk meets no graph twice. -/
theorem nodup_nested (wellFormed : model.WellFormed) (levels : Nat) (graph : GraphId) :
    (nested model levels graph).Nodup := by
  induction levels generalizing graph with
  | zero => exact List.nodup_nil
  | succ levels ih =>
      refine List.nodup_cons.mpr ⟨fun met => ?_, List.nodup_flatMap.mpr ⟨fun concept _ => ?_, ?_⟩⟩
      · obtain ⟨concept, stands, met⟩ := List.mem_flatMap.mp met
        obtain ⟨body, describes, met⟩ := mem_below.mp met
        exact wellFormed.acyclic graph (TransGen.tail' (path_of_mem_nested wellFormed met)
          (wellFormed.liesIn stands describes))
      · cases model.descriptor? concept with
        | none => exact List.nodup_nil
        | some body => exact ih body
      · -- What two siblings both contain would make one of them contain the other.
        refine (wellFormed.listed.nodup_concepts graph).pairwise_of_forall_ne
          fun first above second beside apart other met also => ?_
        obtain ⟨body, describes, met⟩ := mem_below.mp met
        obtain ⟨sibling, describing, also⟩ := mem_below.mp also
        have lies := wellFormed.liesIn above describes
        have lying := wellFormed.liesIn beside describing
        have different : body ≠ sibling := by
          rintro rfl
          exact apart (Option.some.inj ((wellFormed.owned _ _ describes).symm.trans
            (wellFormed.owned _ _ describing)))
        rcases ReflTransGen.total_of_right_unique Model.rightUnique_liesIn
            (path_of_mem_nested wellFormed met)
              (path_of_mem_nested wellFormed also) with path | path
        · exact not_path_of_siblings wellFormed lies lying different path
        · exact not_path_of_siblings wellFormed lying lies different.symm path

/-- The walk from the one graph that describes no concept meets every graph. -/
theorem mem_nested_iff (wellFormed : model.WellFormed)
    (attached : model.Attached { graphs := [root] }) (known : root.index < model.graphs.size) :
    graph ∈ nested model (model.graphs.size + 1) root ↔ graph.index < model.graphs.size := by
  constructor
  · intro met
    rcases (path_of_mem_nested wellFormed met).cases_head with rfl | ⟨outer, lies, -⟩
    · exact known
    · obtain ⟨owner, owned, -⟩ := lies.exists_owner
      exact Model.lt_of_owner owned
  · -- A graph is met no deeper than there are graphs before it.
    have reached : ∀ (index : Nat) (graph : GraphId), graph.index = index →
        graph.index < model.graphs.size → graph ∈ nested model (index + 1) root := by
      intro index
      induction index using Nat.strong_induction_on with
      | _ index ih =>
          rintro graph rfl inside
          rcases attached.graphs graph inside with here | ⟨concept, describes⟩
          · rw [List.mem_singleton.mp here]
            exact List.mem_cons_self
          · have owned := wellFormed.owned concept graph describes
            obtain ⟨outer, stands⟩ := attached.concepts concept (wellFormed.inside _ _ owned)
            have listed := (wellFormed.listed.mem_concepts outer concept).mpr stands
            have before := wellFormed.outward _ _ (wellFormed.liesIn listed describes)
            have met := ih outer.index before outer rfl (Nat.lt_trans before inside)
            exact mem_nested_succ (mem_nested_mono before met) listed describes
    intro inside
    exact mem_nested_mono (Nat.le_of_lt (Nat.succ_lt_succ inside)) (reached _ graph rfl inside)

/-! ## Counts -/

/-- Elements with the numbers below a bound, each once, are as many as the bound. -/
theorem length_eq_of_mem_iff {α : Type} {elements : List α} {bound : Nat} (make : Nat → α)
    (injective : Function.Injective make) (surjective : Function.Surjective make)
    (once : elements.Nodup) (mem : ∀ number, make number ∈ elements ↔ number < bound) :
    elements.length = bound := by
  have same : elements.Perm ((List.range bound).map make) := by
    refine (List.perm_ext_iff_of_nodup once (List.Nodup.map injective List.nodup_range)).mpr
      fun element => ?_
    obtain ⟨number, rfl⟩ := surjective element
    rw [mem, List.mem_map_of_injective injective, List.mem_range]
  simpa using same.length_eq

/-- Nothing is kept twice. -/
theorem nodup_eraseDups {α : Type} [DecidableEq α] (elements : List α) :
    elements.eraseDups.Nodup := by
  induction count : elements.length using Nat.strong_induction_on generalizing elements with
  | _ count ih =>
      cases elements with
      | nil => simp
      | cons first others =>
          rw [List.eraseDups_cons]
          refine List.nodup_cons.mpr ⟨by simp, ih _ ?_ _ rfl⟩
          have fewer := List.length_filter_le (fun other => !other == first) others
          simp only [List.length_cons] at count
          omega

section Whole

variable (wellFormed : model.WellFormed) (attached : model.Attached { graphs := [root] })
  (known : root.index < model.graphs.size)

include wellFormed attached known

/-- The graphs met list every concept, and none twice. -/
theorem walk_concepts :
    ((nested model (model.graphs.size + 1) root).flatMap fun graph =>
      (model.graph graph).concepts).Nodup ∧
    ∀ concept : ConceptId, (concept ∈ (nested model (model.graphs.size + 1) root).flatMap
      fun graph => (model.graph graph).concepts) ↔ concept.index < model.concepts.size := by
  constructor
  · exact wellFormed.listed.nodup_flatMap_concepts (nodup_nested wellFormed _ root)
  · intro concept
    rw [List.mem_flatMap]
    constructor
    · rintro ⟨graph, -, listed⟩
      exact Model.lt_of_graph ((wellFormed.listed.mem_concepts graph concept).mp listed)
    · intro inside
      obtain ⟨graph, stands⟩ := attached.concepts concept inside
      exact ⟨graph, (mem_nested_iff wellFormed attached known).mpr
        (wellFormed.listed.concept_graph concept graph stands),
        (wellFormed.listed.mem_concepts graph concept).mpr stands⟩

/-- The graphs met list every relation and actor, and none twice. -/
theorem walk_relations :
    ((nested model (model.graphs.size + 1) root).flatMap fun graph =>
      (model.graph graph).relations).Nodup ∧
    ∀ relation : RelationId, (relation ∈ (nested model (model.graphs.size + 1) root).flatMap
      fun graph => (model.graph graph).relations) ↔ relation.index < model.relations.size := by
  constructor
  · exact wellFormed.listed.nodup_flatMap_relations (nodup_nested wellFormed _ root)
  · intro relation
    rw [List.mem_flatMap]
    constructor
    · rintro ⟨graph, -, listed⟩
      exact Model.lt_of_relation_graph
        ((wellFormed.listed.mem_relations graph relation).mp listed)
    · intro inside
      obtain ⟨graph, stands⟩ := (attached.relations relation inside).resolve_left List.not_mem_nil
      exact ⟨graph, (mem_nested_iff wellFormed attached known).mpr
        (wellFormed.listed.relation_graph relation graph stands),
        (wellFormed.listed.mem_relations graph relation).mpr stands⟩

/-- The summary of the one graph that describes no concept counts the whole arena. -/
theorem ofGraph_eq (joined : model.Joined) :
    (ofGraph model root).graphs = model.graphs.size ∧
      (ofGraph model root).concepts = model.concepts.size ∧
      (ofGraph model root).relations + (ofGraph model root).actors = model.relations.size ∧
      (ofGraph model root).corefSets = model.corefSets.size := by
  obtain ⟨once, concepts⟩ := walk_concepts wellFormed attached known
  obtain ⟨single, relations⟩ := walk_relations wellFormed attached known
  refine ⟨?_, ?_, ?_, ?_⟩
  · exact length_eq_of_mem_iff GraphId.mk (fun _ _ same => GraphId.mk.inj same)
      (fun graph => ⟨graph.index, rfl⟩) (nodup_nested wellFormed _ root)
      fun _ => mem_nested_iff wellFormed attached known
  · exact (List.length_map _).trans (length_eq_of_mem_iff ConceptId.mk
      (fun _ _ same => ConceptId.mk.inj same) (fun concept => ⟨concept.index, rfl⟩) once
      fun _ => concepts _)
  · have all := length_eq_of_mem_iff RelationId.mk (fun _ _ same => RelationId.mk.inj same)
      (fun relation => ⟨relation.index, rfl⟩) single fun _ => relations _
    have parts := List.length_eq_countP_add_countP Relation.isActor
      (l := ((nested model (model.graphs.size + 1) root).flatMap fun graph =>
        (model.graph graph).relations).map model.relation)
    rw [List.length_map, all] at parts
    simp only [ofGraph]
    rw [parts, Nat.add_comm]
    congr 2
    funext relation
    cases relation.isActor <;> rfl
  · refine length_eq_of_mem_iff CorefSetId.mk (fun _ _ same => CorefSetId.mk.inj same)
      (fun set => ⟨set.index, rfl⟩) (nodup_eraseDups _) fun number => ?_
    simp only [List.mem_eraseDups, List.mem_flatMap, List.mem_map]
    constructor
    · rintro ⟨_, ⟨concept, -, rfl⟩, lists⟩
      exact Model.lt_of_mem_members ((joined.members _ concept).mpr lists)
    · intro inside
      have member := joined.defining ⟨number⟩ inside
      have lists := (joined.members _ _).mp member
      exact ⟨_, ⟨_, List.mem_flatMap.mp ((concepts _).mpr (Model.lt_of_mem_corefSets lists)), rfl⟩,
        lists⟩

end Whole

end Summary

end ConceptualGraph

end
