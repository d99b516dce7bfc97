/-
Module: ConceptualGraph.Position
Purpose: Places in a source text, by line and column from one.  A column counts
  characters; only the line feed begins a new line.
Main exports: Position, Position.advance, Span
-/

namespace ConceptualGraph

/-- A place between two characters of a source text.  Lines and columns are
counted in 32 bits: after the greatest number comes zero. -/
structure Position where
  line : UInt32 := 1
  column : UInt32 := 1
  deriving DecidableEq, Repr, Inhabited

/-- A line or a column as a number of any size. -/
instance coeUInt32 : Coe UInt32 Nat where
  coe := UInt32.toNat

/-- The place after one more character. -/
def Position.next (position : Position) (char : Char) : Position :=
  if char = '\n' then ⟨position.line + 1, 1⟩
  else ⟨position.line, position.column + 1⟩

/-- The place after a stretch of text. -/
def Position.advance (position : Position) (text : List Char) : Position :=
  text.foldl Position.next position

/-- How a place is written in a message. -/
def Position.text (position : Position) : String :=
  position.line.toNat.repr ++ ":" ++ position.column.toNat.repr

/-- A stretch of source text. -/
structure Span where
  start : Position
  stop : Position
  deriving DecidableEq, Repr, Inhabited

end ConceptualGraph
