/-
Module: ConceptualGraph.Toml.Blank
Purpose: What stands between the items of a TOML document: blanks, line breaks and
  comments.
Main exports: Toml.Reader, Toml.isControl, Toml.afterBreak?, Toml.skipBlanks,
  Toml.skipBreaks, Toml.skipLines, Toml.lineEnd
-/
import ConceptualGraph.Toml.Table

namespace ConceptualGraph.Toml

/-- A fault and the rest of the text at which it arose. -/
abbrev Failure := TomlFault × List Char

/-- A reading of the front of a text: a value and the rest of the text. -/
abbrev Reader (α : Type) := List Char → Except Failure (α × List Char)

/-- Whether a character may not stand in a comment or a string as it is. -/
def isControl (char : Char) : Bool :=
  (char.toNat < 0x20 && char != '\t') || char.toNat == 0x7f

/-- Whether a character is a blank on a line. -/
def isBlank (char : Char) : Bool := char == ' ' || char == '\t'

/-- The rest after a line break, if one stands in front.  A carriage return breaks a
line only together with a line feed. -/
def afterBreak? : List Char → Option (List Char)
  | '\n' :: rest => some rest
  | '\r' :: '\n' :: rest => some rest
  | _ => none

/-- The rest after blanks on the same line. -/
def skipBlanks (text : List Char) : List Char := text.dropWhile isBlank

/-- The rest after blanks and line breaks. -/
def skipBreaks : List Char → List Char
  | [] => []
  | '\n' :: rest => skipBreaks rest
  | '\r' :: '\n' :: rest => skipBreaks rest
  | char :: rest => if isBlank char then skipBreaks rest else char :: rest

/-- The rest after blanks, line breaks and comments.  A comment stops before a control
character; one that breaks no line is left in front, where nothing can be read. -/
def skipLines : (inComment : Bool) → List Char → List Char
  | _, [] => []
  | _, '\n' :: rest => skipLines false rest
  | _, '\r' :: '\n' :: rest => skipLines false rest
  | true, char :: rest => if isControl char then char :: rest else skipLines true rest
  | false, char :: rest =>
      if isBlank char then skipLines false rest
      else if char = '#' then skipLines true rest
      else char :: rest

/-- The rest after a line on which nothing but a comment may follow. -/
def lineEnd : Reader Unit := fun text =>
  let rest :=
    match skipBlanks text with
    | '#' :: rest => rest.dropWhile fun char => !isControl char
    | rest => rest
  match rest, afterBreak? rest with
  | [], _ => .ok ((), [])
  | _, some rest => .ok ((), rest)
  | rest, none => .error (.expectedLineEnd, rest)

end ConceptualGraph.Toml
