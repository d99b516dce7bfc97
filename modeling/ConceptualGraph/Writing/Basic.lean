/-
Module: ConceptualGraph.Writing.Basic
Purpose: The state of writing a graph, and the labels under which concepts are
  written and referred to.
Main exports: Writer, Write, Inner, LabelUse, Write.openLabel, Write.reference
-/
import ConceptualGraph.Error
import ConceptualGraph.LabelTable
import ConceptualGraph.MarkerTable
import ConceptualGraph.Writing.Piece
import ConceptualGraph.Writing.Plan

namespace ConceptualGraph

/-! ## State

Writing leaves the model alone.  It binds labels and pairs markers with identifiers
in the tables of the session, and remembers what has been written. -/

/-- The state of writing. -/
structure Writer where
  labels : LabelTable
  markers : MarkerTable
  /-- The concepts written so far, each with its label if it has one. -/
  emitted : List (ConceptId × Option String) := []
  /-- The relations and actors written so far. -/
  written : List RelationId := []

/-- A step of writing. -/
abbrev Write := EStateM GenerateError Writer

/-- How the items of a graph one level further in are written. -/
abbrev Inner := GraphId → Write (List Phrase)

/-- The way in which a concept is labelled where it is written. -/
inductive LabelUse where
  | defining (label : String)
  | bound (label : String)
  deriving DecidableEq, Repr

/-- The label of a use. -/
def LabelUse.label : LabelUse → String
  | .defining label | .bound label => label

/-- The token of a use. -/
def LabelUse.token : LabelUse → Token
  | .defining label => .defLabel label
  | .bound label => .boundLabel label

/-- Whether a use defines its label. -/
def LabelUse.isDefining : LabelUse → Bool
  | .defining _ => true
  | .bound _ => false

namespace Write

variable (model : Model)

/-! ## What has been written -/

/-- Whether a concept has been written. -/
def isEmitted (concept : ConceptId) : Write Bool :=
  return ((← get).emitted.lookup concept).isSome

/-- Remembers that a concept is written under a label. -/
def emit (concept : ConceptId) (label : Option String) : Write Unit :=
  modify fun writer => { writer with emitted := (concept, label) :: writer.emitted }

/-- Remembers that a relation or actor is written. -/
def markWritten (relation : RelationId) : Write Unit :=
  modify fun writer => { writer with written := relation :: writer.written }

/-- Those of the given relations that have not been written. -/
def unwritten (relations : List RelationId) : Write (List RelationId) := do
  let written := (← get).written
  return relations.filter fun relation => !written.contains relation

/-- The results of a step for several arguments, one after the other. -/
def concat {α β : Type} (step : α → Write (List β)) : List α → Write (List β)
  | [] => return []
  | argument :: others => do
      let first ← step argument
      return first ++ (← concat step others)

/-! ## Labels -/

/-- The label of a target, a fresh one if it has none. -/
def labelFor (target : Target) : Write String := do
  match (← get).labels.name? target with
  | some label => return label
  | none =>
      let (label, labels) := (← get).labels.freshLabel
      modify fun writer => { writer with labels := labels.bind label target }
      return label

/-- The label under which a concept is written.  A concept that shares a coreference
set takes the label of the set, which only the defining member defines; another one
takes the label by which it is known, or a fresh one when it needs one. -/
def openLabel (concept : ConceptId) (needed : Bool) : Write (Option LabelUse) := do
  match model.sharedSet? concept with
  | some set =>
      let label ← labelFor (.set set)
      return some
        (if (model.corefSet set).defining = concept then .defining label else .bound label)
  | none =>
      if needed || ((← get).labels.name? (.concept concept)).isSome then
        return some (.defining (← labelFor (.concept concept)))
      else return none

/-- The label by which a concept not yet written is known: that of its first
coreference set, or its own if it is in none. -/
def knownLabel (concept : ConceptId) : Write String := do
  let labels := (← get).labels
  match (model.concept concept).corefSets.head? with
  | some set =>
      match labels.name? (.set set) with
      | some label => return label
      | none => throw (.unlabelledSet set concept)
  | none =>
      match labels.name? (.concept concept) with
      | some label => return label
      | none => throw (.unreachableConcept concept)

/-- A reference to a concept by its label. -/
def reference (concept : ConceptId) : Write Phrase := do
  match (← get).emitted.lookup concept with
  | some (some label) => return .ofToken (.boundLabel label)
  | some none => throw (.unlabelledConcept concept)
  | none => return .ofToken (.boundLabel (← knownLabel model concept))

/-! ## Contexts -/

/-- Runs a step in a context of its own: the labels that it binds are unbound when
it ends, also when it fails. -/
def inContext {α : Type} (step : Write α) : Write α := fun writer =>
  match step { writer with labels := writer.labels.push } with
  | .ok value writer => .ok value { writer with labels := writer.labels.pop }
  | .error error writer => .error error { writer with labels := writer.labels.pop }

/-- Runs a step as if nothing had been written, and forgets what it has written. -/
def apart {α : Type} (step : Write α) : Write α := fun outer =>
  match step { outer with emitted := [], written := [] } with
  | .ok value writer =>
      .ok value { writer with emitted := outer.emitted, written := outer.written }
  | .error error writer =>
      .error error { writer with emitted := outer.emitted, written := outer.written }

end Write

end ConceptualGraph
