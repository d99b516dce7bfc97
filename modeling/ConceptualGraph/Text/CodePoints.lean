/-
Module: ConceptualGraph.Text.CodePoints
Purpose: Sets of characters written as ascending ranges of code points, the form
  in which the Unicode standard publishes its character properties.  The property
  White_Space, and trimming by it.
Main exports: CodePoints, CodePoints.contains, isBlank, trim
-/

namespace ConceptualGraph.Text

/-- Disjoint ranges of code points in ascending order, both ends included. -/
abbrev CodePoints := List (Nat × Nat)

/-- Whether a code point lies in one of the ranges.  The ranges ascend, so the
search ends at the first one that begins above the code point. -/
def CodePoints.contains (point : Nat) : CodePoints → Bool
  | [] => false
  | (first, last) :: rest =>
      if point < first then false
      else point ≤ last || CodePoints.contains point rest

/-! ## White space -/

/-- The code points with the property White_Space. -/
def blankPoints : CodePoints :=
  [(0x9, 0xd), (0x20, 0x20), (0x85, 0x85), (0xa0, 0xa0), (0x1680, 0x1680), (0x2000, 0x200a),
   (0x2028, 0x2029), (0x202f, 0x202f), (0x205f, 0x205f), (0x3000, 0x3000)]

/-- Whether a character is white space. -/
def isBlank (char : Char) : Bool :=
  blankPoints.contains char.toNat

/-- A text without the white space at its two ends. -/
def trim (text : List Char) : List Char :=
  ((text.dropWhile isBlank).reverse.dropWhile isBlank).reverse

end ConceptualGraph.Text
