/-
Module: ConceptualGraph.Toml.Quoted
Purpose: The strings of TOML, on one line or over several.
Main exports: Toml.StringKind, Toml.stringBody, Toml.lineString, Toml.string
-/
import ConceptualGraph.Text.Numeral
import ConceptualGraph.Toml.Blank

namespace ConceptualGraph.Toml

/-! ## Escapes -/

/-- The character with a code point, if it is one. -/
def charOf? (point : Nat) : Option Char :=
  if h : point.isValidChar then some (Char.ofNatAux point h) else none

/-- What a backslash begins: the character that it stands for. -/
def escape : Reader Char
  | 'b' :: rest => .ok ('\x08', rest)
  | 't' :: rest => .ok ('\t', rest)
  | 'n' :: rest => .ok ('\n', rest)
  | 'f' :: rest => .ok ('\x0c', rest)
  | 'r' :: rest => .ok ('\r', rest)
  | '"' :: rest => .ok ('"', rest)
  | '\\' :: rest => .ok ('\\', rest)
  | letter :: rest =>
      let length := if letter = 'u' then 4 else if letter = 'U' then 8 else 0
      let digits := rest.take length
      if digits.isEmpty || digits.length < length then .error (.invalidEscape, letter :: rest)
      else
        match (Text.natural? 16 digits).bind charOf? with
        | some char => .ok (char, rest.drop length)
        | none => .error (.invalidEscape, letter :: rest)
  | [] => .error (.unterminatedString, [])

/-! ## Strings -/

/-- The kinds of string: escapes are read between double quotes, and a string between
three quotes may run over several lines. -/
structure StringKind where
  delimiter : Char
  multiline : Bool

/-- Whether the end of a string of a kind stands in front. -/
def StringKind.ends (kind : StringKind) : List Char → Bool
  | first :: second :: third :: _ =>
      first == kind.delimiter
        && (!kind.multiline || (second == kind.delimiter && third == kind.delimiter))
  | first :: _ => first == kind.delimiter && !kind.multiline
  | [] => false

/-- Up to two quotes that stand directly before the closing three belong to the
string. -/
def StringKind.closingQuotes (kind : StringKind) (rest : List Char) : Nat :=
  let quotes := (rest.takeWhile (· == kind.delimiter)).length
  if kind.multiline then min 2 (quotes - 3) else 0

/-- The rest after a backslash at the end of a line, when the line goes on after the
blanks and line breaks that follow. -/
def continuedLine? (rest : List Char) : Option (List Char) :=
  (afterBreak? (skipBlanks rest)).map skipBreaks

/-- Puts a character before what is read next. -/
def prepend (char : Char) (read : Reader (List Char)) : Reader (List Char) := fun rest => do
  let (later, rest) ← read rest
  return (char :: later, rest)

/-- The text of a string up to its end.  Every line break in it counts as a line feed.
Every step takes a character. -/
def stringBody (kind : StringKind) : (steps : Nat) → Reader (List Char)
  | _, [] => .error (.unterminatedString, [])
  | 0, rest => .error (.unterminatedString, rest)
  | steps + 1, char :: rest =>
      if kind.ends (char :: rest) then
        let extra := kind.closingQuotes (char :: rest)
        let closing := if kind.multiline then 3 else 1
        .ok (List.replicate extra kind.delimiter, (char :: rest).drop (extra + closing))
      else if char = '\\' && kind.delimiter == '"' then
        match kind.multiline, continuedLine? rest with
        | true, some rest => stringBody kind steps rest
        | _, _ => do
            let (escaped, rest) ← escape rest
            prepend escaped (stringBody kind steps) rest
      else
        match kind.multiline, afterBreak? (char :: rest) with
        | true, some rest => prepend '\n' (stringBody kind steps) rest
        | _, _ =>
            if isControl char then .error (.controlCharacter, char :: rest)
            else prepend char (stringBody kind steps) rest

/-- A string of a kind, after its opening. -/
def stringOf (kind : StringKind) : Reader String := fun rest => do
  let (text, rest) ← stringBody kind (rest.length + 1) rest
  return (String.ofList text, rest)

/-- A string on one line, after its opening quote. -/
def lineString (delimiter : Char) : Reader String :=
  stringOf { delimiter, multiline := false }

/-- A string after its first quote.  A line break directly after three opening quotes
does not belong to it. -/
def string (delimiter : Char) : Reader String
  | second :: third :: rest =>
      if second = delimiter && third = delimiter then
        stringOf { delimiter, multiline := true } ((afterBreak? rest).getD rest)
      else lineString delimiter (second :: third :: rest)
  | rest => lineString delimiter rest

end ConceptualGraph.Toml
