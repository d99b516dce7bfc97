/-
Module: ConceptualGraph.Proofs.Lattice.Subtype
Purpose: The search for a supertype finds it exactly if parent links lead to it.
Main exports: Lattice.IsParent, Lattice.Below, Lattice.Closed, Lattice.isSubtype_iff
-/
import ConceptualGraph.Lattice
import Mathlib.Data.List.Basic
import Mathlib.Logic.Relation
import Mathlib.Tactic.Common

namespace ConceptualGraph.Lattice

variable {kind : TypeKind} {lattice : Lattice kind} {type other goal : TypeRef kind}

/-- Whether a type lists another as a parent. -/
def IsParent (lattice : Lattice kind) (type parent : TypeRef kind) : Prop :=
  parent ∈ (lattice.node type).parents

/-- Whether parent links lead from a type to another, or it is the other. -/
def Below (lattice : Lattice kind) : TypeRef kind → TypeRef kind → Prop :=
  Relation.ReflTransGen lattice.IsParent

/-- All parents that are listed are types of the lattice. -/
def Closed (lattice : Lattice kind) : Prop :=
  ∀ type parent, lattice.IsParent type parent → parent.index < lattice.size

theorem mem_types : type ∈ lattice.types ↔ type.index < lattice.size := by
  constructor
  · intro member
    obtain ⟨place, inside, rfl⟩ := List.mem_map.mp member
    exact List.mem_range.mp inside
  · exact fun inside => List.mem_map.mpr ⟨type.index, List.mem_range.mpr inside, rfl⟩

/-! ## What is found is above -/

/-- Where the search succeeds, a type of the queue lies properly below the goal. -/
theorem transGen_of_climbs {steps : Nat} {unreached queue : List (TypeRef kind)}
    (found : lattice.climbs goal steps unreached queue = true) :
    ∃ type ∈ queue, Relation.TransGen lattice.IsParent type goal := by
  induction steps generalizing unreached queue with
  | zero => cases found
  | succ steps ih =>
      cases queue with
      | nil => cases found
      | cons type queue =>
          simp only [climbs] at found
          split at found
          · next parent => exact ⟨type, List.mem_cons_self, .single parent⟩
          obtain ⟨start, member, path⟩ := ih found
          rcases List.mem_append.mp member with queued | new
          · exact ⟨start, List.mem_cons_of_mem _ queued, path⟩
          · have parent : lattice.IsParent type start := by
              simpa [IsParent] using (List.mem_filter.mp new).2
            exact ⟨type, List.mem_cons_self, path.head parent⟩

/-! ## What is above is found -/

/-- How far a search that has not met its goal has come: what has been expanded does not have the
goal for a parent, and every type is still unreached unless it is queued or has been expanded. -/
structure Searched (lattice : Lattice kind) (goal : TypeRef kind) (expanded : TypeRef kind → Prop)
    (unreached queue : List (TypeRef kind)) : Prop where
  missed : ∀ type, expanded type → ¬ lattice.IsParent type goal
  noticed : ∀ type parent, expanded type → lattice.IsParent type parent → parent ∉ unreached
  reached : ∀ type ∈ lattice.types, type ∉ unreached → expanded type ∨ type ∈ queue

namespace Searched

variable {expanded : TypeRef kind → Prop} {unreached queue : List (TypeRef kind)}

/-- The first type of the queue is expanded. -/
theorem expand (searched : lattice.Searched goal expanded unreached (type :: queue))
    (missed : ¬ lattice.IsParent type goal) :
    lattice.Searched goal (fun other => expanded other ∨ other = type)
      (unreached.filter (· ∉ (lattice.node type).parents))
      (queue ++ unreached.filter (· ∈ (lattice.node type).parents)) where
  missed other done := by
    rcases done with before | rfl
    · exact searched.missed other before
    · exact missed
  noticed other parent done link member := by
    obtain ⟨remaining, apart⟩ := List.mem_filter.mp member
    rcases done with before | rfl
    · exact searched.noticed other parent before link remaining
    · exact (by simpa [IsParent] using apart : ¬ lattice.IsParent other parent) link
  reached other inside taken := by
    by_cases remaining : other ∈ unreached
    · refine .inr (List.mem_append_right _ (List.mem_filter.mpr ⟨remaining, ?_⟩))
      by_contra apart
      exact taken (List.mem_filter.mpr ⟨remaining, by simpa using apart⟩)
    · rcases searched.reached other inside remaining with before | queued
      · exact .inl (.inl before)
      rcases List.mem_cons.mp queued with rfl | queued
      · exact .inl (.inr rfl)
      · exact .inr (List.mem_append_left _ queued)

/-- A search that has expanded all that it has reached has been everywhere above. -/
theorem not_below (closed : lattice.Closed) (searched : lattice.Searched goal expanded unreached [])
    (start : expanded type) (different : type ≠ goal) : ¬ lattice.Below type goal := by
  have everywhere : ∀ {above}, lattice.Below type above → expanded above := by
    intro above path
    induction path with
    | refl => exact start
    | tail _ link ih =>
        exact (searched.reached _ (mem_types.mpr (closed _ _ link))
          (searched.noticed _ _ ih link)).resolve_right List.not_mem_nil
  intro path
  rcases path.cases_tail with same | ⟨last, before, link⟩
  · exact different same.symm
  · exact searched.missed last (everywhere before) link

/-- A search with a step for every type that is queued or not yet reached meets a goal that is
above a type from which it came. -/
theorem not_below_of_climbs (closed : lattice.Closed) {steps : Nat}
    (searched : lattice.Searched goal expanded unreached queue)
    (enough : queue.length + unreached.length ≤ steps)
    (fails : lattice.climbs goal steps unreached queue = false)
    (start : expanded type ∨ type ∈ queue) (different : type ≠ goal) :
    ¬ lattice.Below type goal := by
  induction steps generalizing expanded unreached queue with
  | zero =>
      obtain rfl : queue = [] := List.length_eq_zero_iff.mp (by omega)
      exact searched.not_below closed (start.resolve_right List.not_mem_nil) different
  | succ steps ih =>
      cases queue with
      | nil => exact searched.not_below closed (start.resolve_right List.not_mem_nil) different
      | cons first queue =>
          simp only [climbs] at fails
          split at fails
          · cases fails
          next missed =>
          refine ih (searched.expand missed) ?_ fails ?_
          · have parted := List.length_eq_length_filter_add
              (fun other => decide (other ∈ (lattice.node first).parents)) (l := unreached)
            simp only [List.length_cons, List.length_append, decide_not] at enough ⊢
            omega
          · rcases start with before | queued
            · exact .inl (.inl before)
            rcases List.mem_cons.mp queued with rfl | queued
            · exact .inl (.inr rfl)
            · exact .inr (List.mem_append_left _ queued)

end Searched

/-! ## The subtype order -/

/-- A type is found to be a subtype of another exactly if parent links lead from it to the other,
whether or not they also lead back. -/
theorem isSubtype_iff (closed : lattice.Closed) :
    lattice.isSubtype type other = true ↔ lattice.Below type other := by
  by_cases same : type = other
  · subst same
    exact iff_of_true (by simp [isSubtype]) Relation.ReflTransGen.refl
  have apart : (type == other) = false := beq_eq_false_iff_ne.mpr same
  rw [isSubtype, apart, Bool.false_or]
  constructor
  · intro found
    obtain ⟨start, member, path⟩ := transGen_of_climbs found
    obtain rfl := List.mem_singleton.mp member
    exact path.to_reflTransGen
  · intro path
    by_contra fails
    have begun : lattice.Searched other (fun _ => False) lattice.types [type] :=
      ⟨fun _ => False.elim, fun _ _ => False.elim, fun _ inside outside => absurd inside outside⟩
    refine begun.not_below_of_climbs closed ?_ (Bool.eq_false_iff.mpr fails)
      (.inr List.mem_cons_self) same path
    simp [types, Nat.add_comm]

end ConceptualGraph.Lattice
