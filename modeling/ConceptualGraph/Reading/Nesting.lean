/-
Module: ConceptualGraph.Reading.Nesting
Purpose: The productions tied together by the brackets that may still be opened, and the
  readings of a whole text.
Main exports: Read.items, Read.level, Read.counted, Read.graphText, Read.single
-/
import ConceptualGraph.Reading.Chain

namespace ConceptualGraph.Read

variable (setting : Setting)

/-- The items of a graph in the form that is being read. -/
def items (room : Room) (graph : GraphId) : Read Unit := do
  let tokens := (← get).rest.length
  match setting.form with
  | .cgif => bracketItems setting room graph tokens
  | .linear => statements setting room graph tokens

/-- What can be read inside a bracket when a number of further brackets may be open at
once, which `room` opens and closes. -/
def level (room : Option Inside → Room) : Nat → Option Inside
  | 0 => none
  | levels + 1 =>
      some
        { concept := fun graph reader => concept setting (room (level room levels)) graph reader
          lambda := fun reader => lambda setting (room (level room levels)) reader
          items := fun graph reader => items setting (room (level room levels)) graph reader }

/-- How the brackets of a text are opened and closed. -/
def counted : Room :=
  .counted (level setting .counted setting.options.maxDepth)

/-! ## Whole texts -/

/-- The end of a text.  The linear form allows one more full stop or question mark
before it. -/
def textEnd : Read Unit := do
  if setting.form = .linear then
    match ← peek with
    | .punct .dot | .punct .question => advance
    | _ => pure ()
  if (← peek) ≠ .endOfInput then fail .unexpected

/-- Reads a whole text into a graph. -/
def graphText (room : Room) (graph : GraphId) : Read Unit := do
  items setting room graph
  textEnd setting

/-- Reads a text that is one node of a kind. -/
def single {α : Type} (what : Expected) (production : Read (Option α)) : Read α := do
  match ← production with
  | some node =>
      textEnd setting
      return node
  | none => fail (.expected what)

end ConceptualGraph.Read
