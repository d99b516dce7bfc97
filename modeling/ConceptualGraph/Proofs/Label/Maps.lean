/-
Module: ConceptualGraph.Proofs.Label.Maps
Purpose: Labels that are kept in a map for each direction and each kind of target, and in a stack
  apart from these: however they are updated one after the other, they stay in step.
Main exports: LabelIndex, LabelMaps, LabelMaps.run, LabelMaps.Represents, LabelMaps.inStep_run
-/
import ConceptualGraph.Proofs.Label.Names
import Mathlib.Logic.Function.Basic

namespace ConceptualGraph

/-! ## Maps -/

/-- What labels denote among targets of one kind, and by which labels these are written. -/
structure LabelIndex (α : Type) where
  targets : String → Option α := fun _ => none
  labels : α → Option String := fun _ => none

namespace LabelIndex

variable {α : Type} [DecidableEq α]

/-- Removes a label, and with it the label of what it denoted, whichever that is. -/
def remove (index : LabelIndex α) (label : String) : LabelIndex α :=
  match index.targets label with
  | none => index
  | some former =>
      { targets := Function.update index.targets label none
        labels := Function.update index.labels former none }

/-- Lets a label denote a target, which takes it for its label.  What the label denoted before
loses its label. -/
def insert (index : LabelIndex α) (label : String) (target : α) : LabelIndex α :=
  let labels := match index.targets label with
    | none => index.labels
    | some former => Function.update index.labels former none
  { targets := Function.update index.targets label (some target)
    labels := Function.update labels target (some label) }

end LabelIndex

/-- The labels of a session, kept apart for concepts and sets. -/
structure LabelMaps where
  concepts : LabelIndex ConceptId := {}
  sets : LabelIndex CorefSetId := {}
  /-- The labels in the order in which they were bound, the last one first, and nothing where a
  context begins. -/
  scope : List (Option String) := []
  counter : Nat := 0

namespace LabelMaps

/-- Whether a label is bound. -/
def isBound (maps : LabelMaps) (label : String) : Bool :=
  (maps.concepts.targets label).isSome || (maps.sets.targets label).isSome

/-- Binds a label, which loses what it denoted among the other targets. -/
def bind (maps : LabelMaps) (label : String) (target : Target) : LabelMaps :=
  let scope := if maps.isBound label then maps.scope else some label :: maps.scope
  match target with
  | .concept concept =>
      { maps with scope, sets := maps.sets.remove label,
                  concepts := maps.concepts.insert label concept }
  | .set set =>
      { maps with scope, concepts := maps.concepts.remove label,
                  sets := maps.sets.insert label set }

/-- Unbinds a label. -/
def unbind (maps : LabelMaps) (label : String) : LabelMaps :=
  { maps with concepts := maps.concepts.remove label, sets := maps.sets.remove label }

/-- Opens a context. -/
def push (maps : LabelMaps) : LabelMaps :=
  { maps with scope := none :: maps.scope }

/-- Takes what is on the stack from it, up to the innermost boundary, and unbinds the labels. -/
def unwind : (scope : List (Option String)) → LabelMaps → LabelMaps
  | [], maps => maps
  | none :: scope, maps => { maps with scope }
  | some label :: scope, maps => unwind scope ({ maps with scope }.unbind label)

/-- Closes the innermost context. -/
def pop (maps : LabelMaps) : LabelMaps :=
  unwind maps.scope maps

/-- The least number above `counter` whose label is unbound, provided that at most `bound` labels
are. -/
def nextNumber (maps : LabelMaps) : (bound counter : Nat) → Nat
  | 0, counter => counter + 1
  | bound + 1, counter =>
      if maps.isBound (LabelTable.numbered (counter + 1)) then maps.nextNumber bound (counter + 1)
      else counter + 1

/-- A label that is not bound and was not given out before. -/
def freshLabel (maps : LabelMaps) : String × LabelMaps :=
  let number := maps.nextNumber maps.scope.length maps.counter
  (LabelTable.numbered number, { maps with counter := number })

/-- Maps after an operation. -/
def apply : LabelTable.Operation → LabelMaps → LabelMaps
  | .push, maps => maps.push
  | .pop, maps => maps.pop
  | .bind label target, maps => maps.bind label target
  | .freshLabel, maps => maps.freshLabel.2
  | .reset, _ => {}

/-- Maps after operations, the first one first. -/
def run (operations : List LabelTable.Operation) (maps : LabelMaps) : LabelMaps :=
  operations.foldl (fun maps operation => apply operation maps) maps

end LabelMaps

/-! ## Maps and tables -/

namespace LabelTable

variable {table : LabelTable} {label : String}

/-- A label denotes a concept if that is its target. -/
theorem concept?_eq_some_iff {concept : ConceptId} :
    table.concept? label = some concept ↔ table.target? label = some (.concept concept) := by
  unfold concept?
  rcases table.target? label with _ | ⟨_ | _⟩ <;> simp

/-- A label denotes a set if that is its target. -/
theorem set?_eq_some_iff {set : CorefSetId} :
    table.set? label = some set ↔ table.target? label = some (.set set) := by
  unfold set?
  rcases table.target? label with _ | ⟨_ | _⟩ <;> simp

end LabelTable

namespace LabelIndex

variable {α : Type} {index : LabelIndex α} {kind : α → Target} {table : LabelTable}
  {label : String}

/-- Whether the labels of targets of one kind are what a table says of these. -/
structure Agrees (index : LabelIndex α) (kind : α → Target) (table : LabelTable) : Prop where
  targets : ∀ label target,
    index.targets label = some target ↔ table.target? label = some (kind target)
  labels : ∀ target, index.labels target = table.name? (kind target)

namespace Agrees

variable [DecidableEq α] (agrees : index.Agrees kind table)

include agrees

/-- A label is bound to a target of this kind. -/
theorem insert (injective : Function.Injective kind) (label : String) (target : α) :
    (index.insert label target).Agrees kind (table.bind label (kind target)) where
  targets other found := by
    rw [LabelTable.target?_bind]
    by_cases same : other = label
    · subst same
      simp [LabelIndex.insert, injective.eq_iff]
    · rw [if_neg (Ne.symm same), ← agrees.targets]
      simp [LabelIndex.insert, same]
  labels other := by
    simp only [LabelTable.name?_bind, ← agrees.labels, ← agrees.targets, injective.eq_iff]
    by_cases same : other = target
    · subst same
      simp [LabelIndex.insert]
    rw [if_neg same]
    cases denotes : index.targets label with
    | none => simp [LabelIndex.insert, denotes, same]
    | some former =>
        by_cases lost : other = former
        · subst lost
          simp [LabelIndex.insert, denotes, same]
        · simp [LabelIndex.insert, denotes, same, lost, Ne.symm lost]

/-- A label is bound to a target of another kind. -/
theorem remove (label : String) {foreign : Target} (apart : ∀ target, kind target ≠ foreign) :
    (index.remove label).Agrees kind (table.bind label foreign) where
  targets other found := by
    rw [LabelTable.target?_bind]
    by_cases same : other = label
    · subst same
      rw [if_pos rfl]
      cases denotes : index.targets other <;>
        simp [LabelIndex.remove, denotes, (apart found).symm]
    · rw [if_neg (Ne.symm same), ← agrees.targets]
      cases denotes : index.targets label <;> simp [LabelIndex.remove, denotes, same]
  labels other := by
    simp only [LabelTable.name?_bind, if_neg (apart other), ← agrees.labels, ← agrees.targets]
    cases denotes : index.targets label with
    | none => simp [LabelIndex.remove, denotes]
    | some former =>
        by_cases lost : other = former
        · simp [LabelIndex.remove, denotes, lost]
        · simp [LabelIndex.remove, denotes, lost, Ne.symm lost]

/-- The label bound last is unbound. -/
theorem unbind {target : Target} {scope : List ScopeEntry}
    (last : table.scope = .binding label target :: scope)
    (once : label ∉ scope.filterMap ScopeEntry.label?) :
    (index.remove label).Agrees kind
      { table with scope, names := LabelTable.forget table.names target } := by
  have denotes : ∀ other, table.target? other =
      if label = other then some target else LabelTable.seek scope other := fun other => by
    rw [LabelTable.target?_eq, last, LabelTable.seek_binding]
  have unbound : LabelTable.seek scope label = none := by
    refine (LabelTable.target?_eq_none : ({ scope } : LabelTable).target? label = none ↔ _).mpr ?_
    exact Bool.eq_false_iff.mpr (mt LabelTable.isBound_iff.mp once)
  have known : ∀ other, index.targets label = some other ↔ target = kind other := fun other => by
    rw [agrees.targets, denotes, if_pos rfl, Option.some.injEq]
  constructor
  · intro other found
    rw [LabelTable.target?_eq]
    by_cases same : other = label
    · subst same
      rw [unbound]
      cases here : index.targets other <;> simp [LabelIndex.remove, here]
    · have kept := agrees.targets other found
      rw [denotes, if_neg (Ne.symm same)] at kept
      rw [← kept]
      cases here : index.targets label <;> simp [LabelIndex.remove, here, same]
  · intro other
    show _ = (LabelTable.forget table.names target).lookup (kind other)
    by_cases lost : kind other = target
    · rw [lost, LabelTable.lookup_forget_self]
      simp [LabelIndex.remove, (known other).mpr lost.symm]
    · rw [LabelTable.lookup_forget lost,
        ← show index.labels other = table.names.lookup _ from agrees.labels other]
      cases here : index.targets label with
      | none => simp [LabelIndex.remove, here]
      | some former =>
          have apart : other ≠ former := fun same => lost (same ▸ ((known former).mp here).symm)
          simp [LabelIndex.remove, here, apart]

end Agrees

end LabelIndex

namespace LabelMaps

open LabelTable (Operation)

variable {maps : LabelMaps} {table : LabelTable} {label : String}

/-- Whether maps say what a table says. -/
structure Represents (maps : LabelMaps) (table : LabelTable) : Prop where
  concepts : maps.concepts.Agrees .concept table
  sets : maps.sets.Agrees .set table
  scope : maps.scope = table.scope.map ScopeEntry.label?
  counter : maps.counter = table.counter

namespace Represents

theorem empty : Represents {} {} := by
  refine ⟨⟨fun _ _ => ?_, fun _ => rfl⟩, ⟨fun _ _ => ?_, fun _ => rfl⟩, rfl, rfl⟩ <;>
    exact iff_of_false nofun nofun

variable (represents : maps.Represents table)

include represents

theorem concept?_eq (label : String) : maps.concepts.targets label = table.concept? label :=
  Option.ext fun _ => (represents.concepts.targets label _).trans
    LabelTable.concept?_eq_some_iff.symm

theorem set?_eq (label : String) : maps.sets.targets label = table.set? label :=
  Option.ext fun _ => (represents.sets.targets label _).trans LabelTable.set?_eq_some_iff.symm

/-- The maps have the same labels bound as the table. -/
theorem isBound_eq (label : String) : maps.isBound label = table.isBound label := by
  rw [LabelTable.isBound_eq_seek, ← LabelTable.target?_eq, isBound, represents.concept?_eq,
    represents.set?_eq]
  unfold LabelTable.concept? LabelTable.set?
  rcases table.target? label with _ | ⟨_ | _⟩ <;> rfl

/-- Binding a label does the same to two maps as to the one list of names. -/
theorem bind (label : String) (target : Target) :
    (maps.bind label target).Represents (table.bind label target) := by
  have scope : (if maps.isBound label then maps.scope else some label :: maps.scope) =
      (table.bind label target).scope.map ScopeEntry.label? := by
    rw [represents.isBound_eq, represents.scope]
    cases denotes : table.target? label with
    | none =>
        rw [if_neg (by simp [LabelTable.target?_eq_none.mp denotes])]
        simp [LabelTable.bind, denotes, ScopeEntry.label?]
    | some former =>
        have bound : table.isBound label = true := by
          rw [LabelTable.isBound_eq_seek, ← LabelTable.target?_eq, denotes]
          rfl
        rw [if_pos bound]
        simp [LabelTable.bind, denotes, Function.comp_def, LabelTable.label?_retarget]
  have counter : maps.counter = (table.bind label target).counter :=
    represents.counter.trans LabelTable.counter_bind.symm
  cases target with
  | concept concept =>
      exact ⟨represents.concepts.insert (fun _ _ => Target.concept.inj) label concept,
        represents.sets.remove label (by simp), scope, counter⟩
  | set set =>
      exact ⟨represents.concepts.remove label (by simp),
        represents.sets.insert (fun _ _ => Target.set.inj) label set, scope, counter⟩

/-- A boundary is put on the scope of both. -/
theorem push : maps.push.Represents table.push where
  concepts := ⟨represents.concepts.targets, represents.concepts.labels⟩
  sets := ⟨represents.sets.targets, represents.sets.labels⟩
  scope := congrArg (none :: ·) represents.scope
  counter := represents.counter

omit represents in
/-- Labels are unbound one after the other. -/
theorem unwind {scope : List ScopeEntry} {names : List (Target × String)} {counter : Nat}
    (represents : maps.Represents { scope, names, counter })
    (distinct : (scope.filterMap ScopeEntry.label?).Nodup) :
    (LabelMaps.unwind (scope.map ScopeEntry.label?) maps).Represents
      { scope := (LabelTable.unwind scope names).1, names := (LabelTable.unwind scope names).2
        counter } := by
  induction scope generalizing maps names with
  | nil => exact represents
  | cons entry scope ih =>
      cases entry with
      | boundary => exact {
          concepts := ⟨represents.concepts.targets, represents.concepts.labels⟩
          sets := ⟨represents.sets.targets, represents.sets.labels⟩
          scope := rfl
          counter := represents.counter }
      | binding label target =>
          obtain ⟨once, distinct⟩ := List.nodup_cons.mp distinct
          exact ih ⟨represents.concepts.unbind rfl once,
            represents.sets.unbind rfl once, rfl,
            represents.counter⟩ distinct

/-- Leaving a context removes the same labels from both. -/
theorem pop (distinct : table.Distinct) : maps.pop.Represents table.pop := by
  unfold LabelMaps.pop
  rw [represents.scope]
  exact represents.unwind distinct

/-- The same labels are tried, so the same label is found. -/
theorem freshLabel : maps.freshLabel.1 = table.freshLabel.1 ∧
    maps.freshLabel.2.Represents table.freshLabel.2 := by
  have tries : ∀ bound counter, maps.nextNumber bound counter = table.nextNumber bound counter := by
    intro bound
    induction bound with
    | zero => exact fun _ => rfl
    | succ bound ih =>
        intro counter
        simp only [nextNumber, LabelTable.nextNumber, represents.isBound_eq, ih]
  have number : maps.nextNumber maps.scope.length maps.counter =
      table.nextNumber table.scope.length table.counter := by
    rw [tries, represents.scope, represents.counter, List.length_map]
  exact ⟨congrArg LabelTable.numbered number,
    ⟨represents.concepts.targets, represents.concepts.labels⟩,
    ⟨represents.sets.targets, represents.sets.labels⟩, represents.scope, number⟩

/-- Every operation does the same to the maps as to the list of names. -/
theorem apply (distinct : table.Distinct) (operation : Operation) :
    (LabelMaps.apply operation maps).Represents (operation.apply table) := by
  cases operation with
  | push => exact represents.push
  | pop => exact represents.pop distinct
  | bind label target => exact represents.bind label target
  | freshLabel => exact represents.freshLabel.2
  | reset => exact .empty

end Represents

/-- Whatever is done to maps and to a table, the maps say what the table says. -/
theorem represents_run (operations : List Operation) {maps : LabelMaps} {table : LabelTable}
    (represents : maps.Represents table) (reachable : table.Reachable) :
    (run operations maps).Represents (LabelTable.run operations table) := by
  induction operations generalizing maps table with
  | nil => exact represents
  | cons operation operations ih =>
      exact ih (represents.apply reachable.distinct operation) (reachable.apply operation)

/-! ## Maps in step -/

/-- What the maps and the stack say of each other.  No label is bound both to a concept and to a
set; the labels on the stack are those that are bound, each of them once; and the label of a
concept or a set denotes it. -/
structure InStep (maps : LabelMaps) : Prop where
  exclusive : ∀ label, maps.concepts.targets label = none ∨ maps.sets.targets label = none
  distinct : (maps.scope.filterMap id).Nodup
  bound : ∀ label, some label ∈ maps.scope ↔
    (maps.concepts.targets label).isSome ∨ (maps.sets.targets label).isSome
  concept : ∀ concept label, maps.concepts.labels concept = some label →
    maps.concepts.targets label = some concept
  set : ∀ set label, maps.sets.labels set = some label → maps.sets.targets label = some set

/-- Maps that say what a consistent table says are in step. -/
theorem Represents.inStep (represents : maps.Represents table) (consistent : table.Consistent) :
    maps.InStep where
  exclusive label := by
    rw [represents.concept?_eq, represents.set?_eq]
    exact consistent.exclusive label
  distinct := by
    rw [represents.scope, List.filterMap_map]
    exact consistent.distinct
  bound label := by
    rw [represents.concept?_eq, represents.set?_eq, ← consistent.bound, represents.scope]
    simp [List.mem_filterMap]
  concept concept label named := by
    rw [represents.concept?_eq]
    exact consistent.concept concept label (represents.concepts.labels concept ▸ named)
  set set label named := by
    rw [represents.set?_eq]
    exact consistent.set set label (represents.sets.labels set ▸ named)

/-- However the operations follow each other, the maps and the stack stay in step, and say what the
table of labels says. -/
theorem inStep_run (operations : List Operation) : (run operations {}).InStep ∧
    (run operations {}).Represents (LabelTable.run operations {}) ∧
      (LabelTable.run operations {}).Consistent := by
  have consistent := LabelTable.consistent_run operations
  have represents := represents_run operations .empty .empty
  exact ⟨represents.inStep consistent, represents, consistent⟩

/-- A label that goes from a concept to a set in an inner context, and another label of the
concept: the concept has no label afterwards, and the set keeps its own. -/
example :
    let maps := run [.bind "x" (.concept ⟨0⟩), .bind "y" (.concept ⟨0⟩), .push,
      .bind "y" (.set ⟨0⟩), .bind "z" (.concept ⟨1⟩), .pop] {}
    maps.concepts.labels ⟨0⟩ = none ∧ maps.concepts.targets "x" = some ⟨0⟩ ∧
      maps.sets.labels ⟨0⟩ = some "y" ∧ maps.scope = [some "y", some "x"] := by decide

end LabelMaps

end ConceptualGraph
