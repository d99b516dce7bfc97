/-
Module: ConceptualGraph.Proofs.Label.Names
Purpose: The names by which targets are written, as the operations on a table of labels
  change them: no label is bound twice, and no name outlives the binding it comes from.
Main exports: LabelTable.Operation, LabelTable.run, LabelTable.Named, LabelTable.Consistent,
  LabelTable.consistent_run
-/
import ConceptualGraph.Proofs.Label.Scope

namespace ConceptualGraph

namespace LabelTable

variable {table : LabelTable} {label other : String} {target : Target}

/-! ## Looking up labels -/

/-- What a label denotes in a stack of contexts. -/
def seek (scope : List ScopeEntry) (label : String) : Option Target :=
  (scope.find? (·.binds label)).bind ScopeEntry.target?

theorem target?_eq : table.target? label = seek table.scope label := rfl

@[simp] theorem seek_boundary (scope : List ScopeEntry) :
    seek (.boundary :: scope) label = seek scope label := by
  simp [seek, ScopeEntry.binds]

/-- A binding is found before all that come behind it. -/
theorem seek_binding (scope : List ScopeEntry) :
    seek (.binding other target :: scope) label =
      if other = label then some target else seek scope label := by
  by_cases same : other = label
  · simp [seek, ScopeEntry.binds, ScopeEntry.target?, same]
  · simp [seek, ScopeEntry.binds, same]

/-- A label denotes something exactly if it is bound. -/
theorem isBound_eq_seek : table.isBound label = (seek table.scope label).isSome := by
  unfold isBound
  induction table.scope with
  | nil => rfl
  | cons entry scope ih =>
      cases entry with
      | boundary => simpa [ScopeEntry.binds] using ih
      | binding bound denoted =>
          rw [seek_binding, List.any_cons, ih]
          by_cases same : bound = label
          · simp [ScopeEntry.binds, same]
          · simp [ScopeEntry.binds, same]

/-- Giving a label another target leaves what other labels denote. -/
theorem seek_retarget (scope : List ScopeEntry) :
    seek (scope.map (retarget other target)) label =
      if other = label then (seek scope label).map fun _ => target else seek scope label := by
  induction scope with
  | nil => simp [seek]
  | cons entry scope ih =>
      cases entry with
      | boundary => simpa [retarget, ScopeEntry.binds] using ih
      | binding bound denoted =>
          rw [List.map_cons]
          by_cases changed : bound = other
          · subst changed
            simp only [retarget, ScopeEntry.binds, beq_self_eq_true, if_true, seek_binding, ih]
            split <;> simp
          · simp only [retarget, ScopeEntry.binds, beq_iff_eq, changed, if_false, seek_binding, ih]
            split
            · next here =>
              subst here
              simp [Ne.symm changed]
            · rfl

/-- A label that is bound denotes what it is bound to; the others denote what they did. -/
theorem target?_bind (table : LabelTable) (label other : String) (target : Target) :
    (table.bind label target).target? other =
      if label = other then some target else table.target? other := by
  unfold bind
  split
  · exact seek_binding _
  · next former denotes =>
    rw [target?_eq, seek_retarget]
    split
    · next same =>
      subst same
      rw [← target?_eq, denotes, Option.map_some]
    · rfl

/-! ## Looking up names -/

/-- A name that is forgotten is not found. -/
theorem lookup_forget_self (names : List (Target × String)) (target : Target) :
    (forget names target).lookup target = none := by
  rw [List.lookup_eq_none_iff]
  intro entry member
  have apart : entry.1 ≠ target := by simpa using (List.mem_filter.mp member).2
  simpa using apart.symm

/-- Forgetting the name of one target leaves those of all others. -/
theorem lookup_forget {names : List (Target × String)} {kept : Target} (apart : kept ≠ target) :
    (forget names target).lookup kept = names.lookup kept := by
  induction names with
  | nil => rfl
  | cons entry names ih =>
      obtain ⟨id, name⟩ := entry
      unfold forget at ih ⊢
      by_cases same : id = target
      · subst same
        rw [List.filter_cons_of_neg (by simp), ih, List.lookup_cons,
          beq_eq_false_iff_ne.mpr apart]
      · rw [List.filter_cons_of_pos (by simp [same]), List.lookup_cons, List.lookup_cons, ih]

/-- A target takes the last label bound to it for its name.  The target that the label
denoted before loses its name, whichever label that was. -/
theorem name?_bind (table : LabelTable) (label : String) (target id : Target) :
    (table.bind label target).name? id =
      if id = target then some label
      else if table.target? label = some id then none
      else table.name? id := by
  by_cases same : id = target
  · subst same
    unfold bind name?
    split <;> simp
  rw [if_neg same]
  have apart := beq_eq_false_iff_ne.mpr same
  unfold bind name?
  split
  · next unbound =>
    rw [unbound, if_neg (by simp), List.lookup_cons, apart]
    exact lookup_forget same
  · next former denotes =>
    rw [denotes, List.lookup_cons, apart]
    by_cases lost : id = former
    · subst lost
      rw [if_pos rfl]
      exact (lookup_forget same).trans (lookup_forget_self _ _)
    · rw [if_neg (by simpa using Ne.symm lost)]
      exact (lookup_forget same).trans (lookup_forget lost)

/-- Unbinding the labels before a boundary takes the names from what they denote, and from
nothing else. -/
theorem lookup_unwind {bound : List ScopeEntry} (inner : .boundary ∉ bound)
    (scope : List ScopeEntry) (names : List (Target × String)) (id : Target) :
    (unwind (bound ++ .boundary :: scope) names).2.lookup id =
      if id ∈ bound.filterMap ScopeEntry.target? then none else names.lookup id := by
  induction bound generalizing names with
  | nil => rfl
  | cons entry bound ih =>
      cases entry with
      | boundary => exact absurd List.mem_cons_self inner
      | binding label target =>
          have rest := ih (fun member => inner (List.mem_cons_of_mem _ member))
            (forget names target)
          rw [List.cons_append, unwind, rest,
            List.filterMap_cons_some (rfl : ScopeEntry.target? (.binding label target) = _)]
          by_cases same : id = target
          · subst same
            simp [lookup_forget_self]
          · simp [same, lookup_forget same]

/-! ## Names and bindings -/

/-- A name is a label that denotes what it names. -/
def Named (table : LabelTable) : Prop :=
  ∀ target label, table.name? target = some label → .binding label target ∈ table.scope

namespace Named

theorem empty : Named {} := nofun

/-- Where every name is one that the scope binds, binding one more label keeps it so. -/
theorem bind (named : table.Named) (distinct : table.Distinct) (label : String)
    (target : Target) : (table.bind label target).Named := by
  intro id other name
  rw [name?_bind] at name
  split at name
  · next same =>
    obtain rfl := Option.some.inj name
    subst same
    rw [← target?_eq_some_iff (distinct.bind label id)]
    exact (target?_bind table label label id).trans (if_pos rfl)
  split at name
  · cases name
  · next elsewhere =>
    have member := named id other name
    have apart : label ≠ other := by
      rintro rfl
      exact elsewhere ((target?_eq_some_iff distinct).mpr member)
    rw [← target?_eq_some_iff (distinct.bind label target), target?_bind, if_neg apart]
    exact (target?_eq_some_iff distinct).mpr member

theorem push (named : table.Named) : table.push.Named :=
  fun target label name => List.mem_cons_of_mem _ (named target label name)

/-- Every label that is unbound takes with it the name of what it denotes. -/
theorem unwound {scope : List ScopeEntry} {names : List (Target × String)}
    (named : ∀ target label, names.lookup target = some label →
      .binding label target ∈ scope) :
    ∀ target label, (unwind scope names).2.lookup target = some label →
      .binding label target ∈ (unwind scope names).1 := by
  induction scope generalizing names with
  | nil => exact named
  | cons entry scope ih =>
      cases entry with
      | boundary =>
          intro target label name
          exact (List.mem_cons.mp (named target label name)).resolve_left nofun
      | binding bound denoted =>
          refine ih fun target label name => ?_
          have apart : target ≠ denoted := by
            rintro rfl
            rw [lookup_forget_self] at name
            cases name
          rw [lookup_forget apart] at name
          refine (List.mem_cons.mp (named target label name)).resolve_left fun same => ?_
          cases same
          exact apart rfl

theorem pop (named : table.Named) : table.pop.Named := unwound named

end Named

/-- In a table that can be reached every name is bound. -/
theorem Reachable.named (reachable : table.Reachable) : table.Named := by
  induction reachable with
  | empty => exact .empty
  | bind label target reachable ih => exact ih.bind reachable.distinct label target
  | push _ ih => exact ih.push
  | pop _ ih => exact ih.pop
  | freshLabel _ ih => exact ih

/-! ## Runs of operations -/

/-- What can be done to a table of labels. -/
inductive Operation where
  | push
  | pop
  | bind (label : String) (target : Target)
  | freshLabel
  | reset
  deriving DecidableEq, Repr

/-- A table after an operation. -/
def Operation.apply : Operation → LabelTable → LabelTable
  | .push, table => table.push
  | .pop, table => table.pop
  | .bind label target, table => table.bind label target
  | .freshLabel, table => table.freshLabel.2
  | .reset, _ => {}

/-- A table after operations, the first one first. -/
def run (operations : List Operation) (table : LabelTable) : LabelTable :=
  operations.foldl (fun table operation => operation.apply table) table

/-- What operations lead to they lead on from. -/
theorem Reachable.apply (reachable : table.Reachable)
    (operation : Operation) : (operation.apply table).Reachable := by
  cases operation with
  | push => exact reachable.push
  | pop => exact reachable.pop
  | bind label target => exact reachable.bind label target
  | freshLabel => exact reachable.freshLabel
  | reset => exact .empty

/-- Operations lead from one table that can be reached to another. -/
theorem Reachable.run (reachable : table.Reachable)
    (operations : List Operation) : (run operations table).Reachable := by
  induction operations generalizing table with
  | nil => exact reachable
  | cons operation operations ih => exact ih (reachable.apply operation)

/-! ## Consistency -/

/-- What the parts of a table say of each other.  A label denotes a concept or a set, but
not both; the labels on the stack of contexts are those that denote something, each of them
once; and the label by which a concept or a set is written denotes it. -/
structure Consistent (table : LabelTable) : Prop where
  exclusive : ∀ label, table.concept? label = none ∨ table.set? label = none
  distinct : (table.scope.filterMap ScopeEntry.label?).Nodup
  bound : ∀ label, label ∈ table.scope.filterMap ScopeEntry.label? ↔
    (table.concept? label).isSome ∨ (table.set? label).isSome
  concept : ∀ concept label, table.name? (.concept concept) = some label →
    table.concept? label = some concept
  set : ∀ set label, table.name? (.set set) = some label → table.set? label = some set

/-- In every table that operations lead to, scope and names agree. -/
theorem Reachable.consistent (reachable : table.Reachable) :
    table.Consistent where
  exclusive label := by
    unfold concept? set?
    rcases table.target? label with _ | ⟨_ | _⟩ <;> simp
  distinct := reachable.distinct
  bound label := by
    rw [← isBound_iff, ← Bool.not_eq_false, ← target?_eq_none]
    unfold concept? set?
    rcases table.target? label with _ | ⟨_ | _⟩ <;> simp
  concept concept label name := by
    have denotes := (target?_eq_some_iff reachable.distinct).mpr (reachable.named _ _ name)
    simp only [concept?, denotes]
  set set label name := by
    have denotes := (target?_eq_some_iff reachable.distinct).mpr (reachable.named _ _ name)
    simp only [set?, denotes]

/-- However the operations follow each other, they keep a table consistent: also where
contexts are closed that were never opened. -/
theorem consistent_run (operations : List Operation) : (run operations {}).Consistent :=
  (Reachable.empty.run operations).consistent

/-- Two labels for one concept, one of which then goes to a set: the concept has lost its
name, although the other label denotes it. -/
example :
    let table := run [.bind "x" (.concept ⟨0⟩), .push, .bind "y" (.concept ⟨0⟩),
      .bind "y" (.set ⟨0⟩)] {}
    table.name? (.concept ⟨0⟩) = none ∧ table.concept? "x" = some ⟨0⟩ := by decide

end LabelTable

end ConceptualGraph
