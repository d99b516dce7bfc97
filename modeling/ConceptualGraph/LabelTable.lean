/-
Module: ConceptualGraph.LabelTable
Purpose: The labels of a session: what each one denotes, in which context it was
  bound, and by which label each concept and coreference set is written.
Main exports: Target, LabelTable, LabelTable.bind, LabelTable.push,
  LabelTable.pop, LabelTable.freshLabel
-/
import ConceptualGraph.Handle

namespace ConceptualGraph

/-- What a label denotes. -/
inductive Target where
  | concept (concept : ConceptId)
  /-- The individual of a coreference set, represented by its defining member. -/
  | set (set : CorefSetId)
  deriving DecidableEq, Repr

/-- An entry of the stack of contexts: a boundary where a context begins, or a
label bound in the context that is then open. -/
inductive ScopeEntry where
  | boundary
  | binding (label : String) (target : Target)
  deriving DecidableEq, Repr

/-- Whether an entry binds a label. -/
def ScopeEntry.binds (label : String) : ScopeEntry → Bool
  | .boundary => false
  | .binding bound _ => bound == label

/-- The target of an entry that binds a label. -/
def ScopeEntry.target? : ScopeEntry → Option Target
  | .boundary => none
  | .binding _ target => some target

/-- The labels of a session.  A label is bound at most once.  The name of a target
is the last label bound to it; it is forgotten when a label that denotes the
target is unbound or bound elsewhere, and an older label does not replace it. -/
structure LabelTable where
  /-- Bindings and boundaries, the innermost first. -/
  scope : List ScopeEntry := []
  /-- The label by which a target is written. -/
  names : List (Target × String) := []
  /-- How many labels have been tried as fresh ones.  A number without bound is
  right here: no run counts further than it has operations (`counter_run_le`), so
  that a word of 64 bits does not overflow.  The counter of a `MarkerTable` is such
  a word, since a numeral that is read raises it to any number at once. -/
  counter : Nat := 0
  deriving DecidableEq, Repr, Inhabited

namespace LabelTable

/-! ## Looking up -/

/-- What a label denotes. -/
def target? (table : LabelTable) (label : String) : Option Target :=
  (table.scope.find? (·.binds label)).bind ScopeEntry.target?

/-- Whether a label is bound. -/
def isBound (table : LabelTable) (label : String) : Bool :=
  table.scope.any (·.binds label)

/-- The concept that a label denotes, unless it denotes a set. -/
def concept? (table : LabelTable) (label : String) : Option ConceptId :=
  match table.target? label with
  | some (.concept concept) => some concept
  | _ => none

/-- The coreference set that a label denotes. -/
def set? (table : LabelTable) (label : String) : Option CorefSetId :=
  match table.target? label with
  | some (.set set) => some set
  | _ => none

/-- The label by which a target is written. -/
def name? (table : LabelTable) (target : Target) : Option String :=
  table.names.lookup target

/-- The number of open contexts. -/
def depth (table : LabelTable) : Nat :=
  table.scope.count .boundary

/-! ## Binding -/

/-- The names without the name of one target. -/
def forget (names : List (Target × String)) (target : Target) : List (Target × String) :=
  names.filter (·.1 ≠ target)

/-- The entry with the target of one label replaced. -/
def retarget (label : String) (target : Target) (entry : ScopeEntry) : ScopeEntry :=
  if entry.binds label then .binding label target else entry

/-- Binds a label.  A label already bound keeps the context in which it was first
bound, however deep the context that is now open. -/
def bind (table : LabelTable) (label : String) (target : Target) : LabelTable :=
  match table.target? label with
  | none =>
      { table with
        scope := .binding label target :: table.scope
        names := (target, label) :: forget table.names target }
  | some former =>
      { table with
        scope := table.scope.map (retarget label target)
        names := (target, label) :: forget (forget table.names former) target }

/-! ## Contexts -/

/-- Opens a context. -/
def push (table : LabelTable) : LabelTable :=
  { table with scope := .boundary :: table.scope }

/-- Unbinds the entries up to the innermost boundary and removes it; without a
boundary, unbinds all. -/
def unwind : List ScopeEntry → List (Target × String) →
    List ScopeEntry × List (Target × String)
  | [], names => ([], names)
  | .boundary :: scope, names => (scope, names)
  | .binding _ target :: scope, names => unwind scope (forget names target)

/-- Closes the innermost context: every label bound in it is unbound. -/
def pop (table : LabelTable) : LabelTable :=
  let (scope, names) := unwind table.scope table.names
  { table with scope, names }

/-! ## Fresh labels -/

/-- The label with a number. -/
def numbered (number : Nat) : String := "x" ++ number.repr

/-- The least number above `counter` whose label is unbound, provided that at most
`bound` labels are. -/
def nextNumber (table : LabelTable) : (bound counter : Nat) → Nat
  | 0, counter => counter + 1
  | bound + 1, counter =>
      if table.isBound (numbered (counter + 1)) then table.nextNumber bound (counter + 1)
      else counter + 1

/-- A label that is not bound and was not given out before. -/
def freshLabel (table : LabelTable) : String × LabelTable :=
  let number := table.nextNumber table.scope.length table.counter
  (numbered number, { table with counter := number })

end LabelTable

end ConceptualGraph
