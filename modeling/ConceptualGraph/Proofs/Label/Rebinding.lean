/-
Module: ConceptualGraph.Proofs.Label.Rebinding
Purpose: What a context leaves behind in a table of labels when labels from outside are bound
  again in it, at whatever depth: they stay bound, to what they were bound to last.
Main exports: LabelTable.targetsOf, LabelTable.rebase, LabelTable.StandsOn,
  LabelTable.targets_after_context
-/
import ConceptualGraph.Proofs.Label.Context

namespace ConceptualGraph

namespace LabelTable

/-! ## Operations on what a context stands on -/

/-- The targets to which operations bind one label, in order. -/
def targetsOf (label : String) (operations : List Operation) : List Target :=
  operations.filterMap fun
    | .bind bound target => if bound = label then some target else none
    | _ => none

/-- Entries after operations in a context above them: a label bound again has another target,
but is neither moved nor removed, and none is added. -/
def rebase : List Operation → List ScopeEntry → List ScopeEntry
  | [], base => base
  | .bind label target :: others, base => rebase others (base.map (retarget label target))
  | _ :: others, base => rebase others base

theorem targetsOf_bind (label bound : String) (target : Target) (operations : List Operation) :
    targetsOf label (.bind bound target :: operations) =
      if bound = label then target :: targetsOf label operations
      else targetsOf label operations := by
  by_cases same : bound = label <;> simp [targetsOf, same]

/-- Another target for a label changes no label. -/
theorem map_label?_retarget (label : String) (target : Target) (scope : List ScopeEntry) :
    (scope.map (retarget label target)).map ScopeEntry.label? = scope.map ScopeEntry.label? := by
  rw [List.map_map]
  exact List.map_congr_left fun entry _ => label?_retarget label target entry

/-- The same labels are bound in the same order. -/
theorem map_label?_rebase (operations : List Operation) (base : List ScopeEntry) :
    (rebase operations base).map ScopeEntry.label? = base.map ScopeEntry.label? := by
  induction operations generalizing base with
  | nil => rfl
  | cons operation operations ih =>
      cases operation with
      | bind label target => exact (ih _).trans (map_label?_retarget label target base)
      | push | pop | freshLabel | reset => exact ih base

/-- A label denotes the last target it was bound to, if it denoted one before. -/
theorem seek_rebase (operations : List Operation) (base : List ScopeEntry) (label : String) :
    seek (rebase operations base) label =
      (seek base label).map fun former => (targetsOf label operations).getLastD former := by
  induction operations generalizing base with
  | nil => exact (Option.map_id' (x := seek base label)).symm
  | cons operation operations ih =>
      cases operation with
      | bind bound target =>
          rw [rebase, ih, seek_retarget, targetsOf_bind]
          split
          · simp only [Option.map_map, Function.comp_def, List.getLastD_cons]
          · rfl
      | push | pop | freshLabel | reset => exact ih base

/-! ## Inside a context -/

/-- Whether a table is inside a context, in which a number of others are open, and the context
was opened above these entries. -/
def StandsOn (table : LabelTable) (depth : Nat) (base : List ScopeEntry) : Prop :=
  ∃ inner, table.scope = inner ++ .boundary :: base ∧ inner.count .boundary = depth

namespace StandsOn

variable {table : LabelTable} {depth : Nat} {base : List ScopeEntry}

theorem start (table : LabelTable) : StandsOn table.push 0 table.scope :=
  ⟨[], rfl, rfl⟩

theorem push (stands : StandsOn table depth base) : StandsOn table.push (depth + 1) base := by
  obtain ⟨inner, same, count⟩ := stands
  exact ⟨.boundary :: inner, by simp [LabelTable.push, same], by simp [count]⟩

/-- Closing a context that was opened inside removes nothing from below. -/
theorem pop (stands : StandsOn table (depth + 1) base) : StandsOn table.pop depth base := by
  obtain ⟨inner, same, count⟩ := stands
  obtain ⟨front, back, split, unbounded⟩ := List.eq_append_cons_of_mem
    (List.count_pos_iff.mp (by omega : 0 < inner.count .boundary))
  subst split
  rw [List.append_assoc, List.cons_append] at same
  refine ⟨back, by rw [pop_scope, same, unwind_append unbounded], ?_⟩
  rw [List.count_append, List.count_eq_zero_of_not_mem unbounded, List.count_cons_self] at count
  omega

/-- A label is bound: one that stands below stays there, any other one is bound inside. -/
theorem bind (stands : StandsOn table depth base) (label : String) (target : Target) :
    StandsOn (table.bind label target) depth (base.map (retarget label target)) := by
  obtain ⟨inner, same, count⟩ := stands
  cases denotes : table.target? label with
  | none =>
      have unbound : ({ scope := base } : LabelTable).isBound label = false := by
        have nowhere := target?_eq_none.mp denotes
        rw [isBound, List.any_eq_false] at nowhere ⊢
        exact fun entry member => nowhere entry (by simp [same, member])
      refine ⟨.binding label target :: inner, ?_, by simpa using count⟩
      rw [map_retarget_of_unbound unbound target]
      simp [LabelTable.bind, denotes, same]
  | some former =>
      refine ⟨inner.map (retarget label target), ?_, ?_⟩
      · simp only [LabelTable.bind, denotes, same, List.map_append, List.map_cons]
        rfl
      · rw [count_boundary, map_label?_retarget, ← count_boundary, count]

/-- Operations that close what they open end in the context in which they begin. -/
theorem run {operations : List Operation} (stands : StandsOn table depth base)
    (nested : Nested depth operations) :
    StandsOn (LabelTable.run operations table) 0 (rebase operations base) := by
  induction operations generalizing depth table base with
  | nil =>
      obtain rfl : depth = 0 := nested
      exact stands
  | cons operation operations ih =>
      cases operation with
      | push => exact ih stands.push nested
      | pop =>
          cases depth with
          | zero => exact nested.elim
          | succ depth => exact ih stands.pop nested
      | bind label target => exact ih (stands.bind label target) (by cases depth <;> exact nested)
      | freshLabel => exact ih stands (by cases depth <;> exact nested)
      | reset => cases depth <;> exact nested.elim

/-- Closing the context itself leaves what it stands on. -/
theorem pop_scope (stands : StandsOn table 0 base) : table.pop.scope = base := by
  obtain ⟨inner, same, count⟩ := stands
  rw [LabelTable.pop_scope, same, unwind_append (List.count_eq_zero.mp count)]

end StandsOn

/-! ## After a context -/

/-- After a context the labels are bound that were bound before it, each of them to what it was
last bound to in between, at whatever depth, or else to what it denoted before; and as many
contexts are open as before. -/
theorem targets_after_context (table : LabelTable) {operations : List Operation}
    (nested : Nested 0 operations) :
    (∀ label, (run operations table.push).pop.isBound label = table.isBound label) ∧
    (∀ label, (run operations table.push).pop.target? label =
      (table.target? label).map fun former => (targetsOf label operations).getLastD former) ∧
    (run operations table.push).pop.depth = table.depth := by
  have scope : (run operations table.push).pop.scope = rebase operations table.scope :=
    ((StandsOn.start table).run nested).pop_scope
  have targets (label : String) : (run operations table.push).pop.target? label =
      (table.target? label).map fun former => (targetsOf label operations).getLastD former := by
    rw [target?_eq, scope, seek_rebase, ← target?_eq]
  refine ⟨fun label => ?_, targets, ?_⟩
  · rw [isBound_eq_seek, ← target?_eq, targets, Option.isSome_map, target?_eq, isBound_eq_seek]
  · rw [depth, scope, count_boundary, map_label?_rebase, ← count_boundary, depth]

/-- A label from outside is promoted two contexts deep, another one bound again after a label
first bound inside has been dropped and bound anew. -/
theorem targets_after_context_promoted :
    let table : LabelTable :=
      run [.bind "a" (.concept ⟨0⟩), .push, .bind "b" (.concept ⟨1⟩), .bind "c" (.concept ⟨2⟩)] {}
    let operations : List Operation :=
      [.push, .bind "d" (.concept ⟨3⟩), .bind "a" (.set ⟨0⟩), .pop, .bind "d" (.concept ⟨4⟩),
        .bind "b" (.set ⟨1⟩), .push, .bind "b" (.concept ⟨5⟩), .pop]
    let after := (run operations table.push).pop
    Nested 0 operations ∧ after.target? "a" = some (.set ⟨0⟩) ∧
      after.target? "b" = some (.concept ⟨5⟩) ∧ after.target? "c" = some (.concept ⟨2⟩) ∧
      after.isBound "d" = false ∧ after.depth = 1 := by
  intro table operations after
  have nested : Nested 0 operations := rfl
  obtain ⟨bound, targets, depth⟩ := targets_after_context table nested
  exact ⟨nested, (targets "a").trans (by decide), (targets "b").trans (by decide),
    (targets "c").trans (by decide), (bound "d").trans (by decide), depth.trans (by decide)⟩

end LabelTable

end ConceptualGraph
