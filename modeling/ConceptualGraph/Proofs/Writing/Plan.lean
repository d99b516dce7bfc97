/-
Module: ConceptualGraph.Proofs.Writing.Plan
Purpose: What the plan of a graph comes to: a concept that needs no label is an argument at most
  once, and comes after those that begin relations unless it begins one itself.
Main exports: Plan.mem_order, Plan.mem_primary, Plan.needsLabel_eq_false,
  Plan.unique_of_not_needsLabel, Model.Needless, Plan.starting_before
-/
import ConceptualGraph.Proofs.Copy.Source
import Mathlib.Algebra.BigOperators.Group.List.Basic
import Mathlib.Algebra.Order.BigOperators.Group.List
import Mathlib.Algebra.Order.Group.Nat

namespace ConceptualGraph

namespace Plan

variable {model : Model} {graph : GraphId} {concept : ConceptId} {relation : RelationId}

/-! ## Links -/

theorem mem_links (listed : model.Listed) : relation ∈ links model graph ↔
    (model.relation relation).graph = some graph ∧ model.isNegation relation = false := by
  simp [links, listed.mem_relations]

theorem nodup_links (listed : model.Listed) : (links model graph).Nodup :=
  (listed.nodup_relations graph).filter _

/-- What is no actor is a relation. -/
theorem isActor_eq_false {relation : Relation} :
    relation.isActor = false ↔ relation.role = .relation := by
  unfold Relation.isActor
  cases relation.role <;> simp

theorem mem_primary : relation ∈ (ofGraph model graph).primary concept ↔
    relation ∈ links model graph ∧ (model.relation relation).role = .relation ∧
      (model.relation relation).args.head? = some concept := by
  simp [ofGraph, primaries, isActor_eq_false]

/-- Two links of which a concept is an argument refer to it twice. -/
theorem add_count_le_references {links : List RelationId} {other : RelationId}
    (member : relation ∈ links) (also : other ∈ links) (apart : other ≠ relation) :
    (model.relation relation).args.count concept + (model.relation other).args.count concept ≤
      references model links concept := by
  have rest : other ∈ links.erase relation := (List.mem_erase_of_ne apart).mpr also
  have whole := List.sum_map_erase (fun id => (model.relation id).args.count concept) member
  have part := List.single_le_sum (l := (links.erase relation).map fun id =>
    (model.relation id).args.count concept) (by simp) _ (List.mem_map_of_mem rest)
  have same : references model links concept =
      (links.map fun id => (model.relation id).args.count concept).sum := rfl
  omega

/-- A relation refers to a concept no more often than all of them do. -/
theorem count_le_references {links : List RelationId} (member : relation ∈ links) :
    (model.relation relation).args.count concept ≤ references model links concept :=
  List.single_le_sum (l := links.map fun id => (model.relation id).args.count concept) (by simp) _
    (List.mem_map_of_mem member)

/-- A concept needs no label where it is an argument once at most, of no actor, and no designator
names it. -/
theorem needsLabel_eq_false : (ofGraph model graph).needsLabel concept = false ↔
    references model (links model graph) concept < 2 ∧
      servesActor model (links model graph) concept = false ∧
      concept ∉ model.designated (model.graphs.size + 1) graph := by
  simp [ofGraph, and_assoc]

/-- A concept that needs no label is an argument of one relation at most, once. -/
theorem unique_of_not_needsLabel (unneeded : (ofGraph model graph).needsLabel concept = false)
    (link : relation ∈ links model graph) (argument : concept ∈ (model.relation relation).args) :
    (∀ other ∈ links model graph, concept ∈ (model.relation other).args → other = relation) ∧
      (model.relation relation).args.count concept = 1 ∧
      (model.relation relation).role = .relation := by
  obtain ⟨few, unserved, -⟩ := needsLabel_eq_false.mp unneeded
  have once := List.count_pos_iff.mpr argument
  refine ⟨fun other also there => ?_, ?_, ?_⟩
  · by_contra apart
    have twice := Nat.le_trans (add_count_le_references link also apart) (Nat.le_of_lt_succ few)
    have again := List.count_pos_iff.mpr there
    omega
  · have most := Nat.le_trans (count_le_references link) (Nat.le_of_lt_succ few)
    omega
  · refine isActor_eq_false.mp (Bool.eq_false_iff.mpr fun active => ?_)
    have serves : servesActor model (links model graph) concept = true :=
      List.any_eq_true.mpr ⟨relation, link, by simp [active, argument]⟩
    rw [unserved] at serves
    cases serves

/-! ## The order of writing -/

/-- The concepts of a graph that are not hidden are those that are written. -/
theorem mem_order : concept ∈ (ofGraph model graph).order ↔
    concept ∈ (model.graph graph).concepts ∧ (model.concept concept).hidden = false := by
  simp only [ofGraph, List.mem_eraseDups, List.mem_append, List.mem_filter, Bool.not_eq_true']
  constructor
  · rintro ((⟨visible, -⟩ | ⟨visible, -⟩) | visible) <;> exact visible
  · exact .inr

/-- Where no concept designates another one, nothing is designated at any depth. -/
theorem designated_eq_nil (undefined : ∀ concept, model.designates? concept = none)
    (levels : Nat) (graph : GraphId) : model.designated levels graph = [] := by
  induction levels generalizing graph with
  | zero => rfl
  | succ levels ih =>
      simp only [Model.designated, List.flatMap_eq_nil_iff, undefined, Option.toList_none,
        List.nil_append]
      intro concept _
      cases model.descriptor? concept with
      | none => rfl
      | some inner => exact ih inner

end Plan

/-- Whether a concept may be written in a graph without a label: nothing refers to it afterwards,
and it shares no coreference set. -/
structure Model.Needless (model : Model) (graph : GraphId) (concept : ConceptId) : Prop where
  unneeded : (Plan.ofGraph model graph).needsLabel concept = false
  alone : model.sharedSet? concept = none

namespace Plan

variable {model : Model} {graph : GraphId} {concept : ConceptId}

/-- The concepts that begin relations come before a concept that needs no label and begins none. -/
theorem starting_before {front back : List ConceptId} {other : ConceptId}
    (needless : model.Needless graph concept)
    (split : (ofGraph model graph).order = front ++ concept :: back)
    (idle : (ofGraph model graph).primary concept = [])
    (stands : other ∈ (model.graph graph).concepts)
    (visible : (model.concept other).hidden = false)
    (starts : (ofGraph model graph).primary other ≠ []) : other ∈ front := by
  obtain ⟨-, -, unnamed⟩ := needsLabel_eq_false.mp needless.unneeded
  have unshared : model.definesSharedSet concept = false := by
    simp [Model.definesSharedSet, needless.alone]
  let leading := ((model.graph graph).concepts.filter fun concept =>
    !(model.concept concept).hidden).filter fun concept =>
      (model.designated (model.graphs.size + 1) graph).contains concept ||
        model.definesSharedSet concept
  let starting := ((model.graph graph).concepts.filter fun concept =>
    !(model.concept concept).hidden).filter fun concept =>
      !((ofGraph model graph).primary concept).isEmpty
  have order : (ofGraph model graph).order = (leading ++ starting ++
      (model.graph graph).concepts.filter fun concept =>
        !(model.concept concept).hidden).eraseDups := rfl
  rw [order, List.eraseDups_append] at split
  have first : other ∈ (leading ++ starting).eraseDups := by
    refine List.mem_eraseDups.mpr (List.mem_append_right _ ?_)
    simp only [starting, List.mem_filter, Bool.not_eq_true', visible, stands,
      List.isEmpty_eq_false_iff, true_and]
    exact starts
  have late : concept ∉ (leading ++ starting).eraseDups := by
    simp [leading, starting, idle, unnamed, unshared]
  rcases List.append_eq_append_iff.mp split with ⟨middle, same, -⟩ | ⟨middle, same, rest⟩
  · rw [same]
    exact List.mem_append_left _ first
  · rw [same] at first late
    rcases List.mem_append.mp first with before | after
    · exact before
    · cases middle with
      | nil => cases after
      | cons head tail =>
          obtain rfl := (List.cons.inj rest).1
          exact absurd (List.mem_append_right _ (List.mem_cons_self ..)) late

end Plan

end ConceptualGraph
