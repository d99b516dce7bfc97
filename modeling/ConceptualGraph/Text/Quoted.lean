/-
Module: ConceptualGraph.Text.Quoted
Purpose: The two ways in which a text stands between quotes: in a message, where
  every character must be visible, and in a notation, where it must read back.
Main exports: shown, escaped, quoted, unescape
-/
import ConceptualGraph.Text.Concealed

namespace ConceptualGraph.Text

/-! ## In messages -/

/-- One character of a text shown in a message.  Characters without a shape of
their own are given by their code point. -/
def shownChar (char : Char) : List Char :=
  match char with
  | '\x00' => ['\\', '0']
  | '\t' => ['\\', 't']
  | '\r' => ['\\', 'r']
  | '\n' => ['\\', 'n']
  | '\\' => ['\\', '\\']
  | '"' => ['\\', '"']
  | _ =>
      if isConcealed char then
        ['\\', 'u', '\x7b'] ++ Nat.toDigits 16 char.toNat ++ ['\x7d']
      else [char]

/-- A text as a message shows it, between double quotes. -/
def shown (text : String) : String :=
  String.ofList ('"' :: text.toList.flatMap shownChar ++ ['"'])

/-! ## In a notation

A backslash takes the meaning from the character after it, except that five
letters stand for control characters. -/

/-- How one character is written between two `delimiter`s. -/
def escaped (delimiter char : Char) : List Char :=
  match char with
  | '\n' => ['\\', 'n']
  | '\t' => ['\\', 't']
  | '\r' => ['\\', 'r']
  | '\x08' => ['\\', 'b']
  | '\x0c' => ['\\', 'f']
  | '\\' => ['\\', '\\']
  | _ => if char = delimiter then ['\\', char] else [char]

/-- A text as a notation writes it. -/
def quoted (delimiter : Char) (text : List Char) : List Char :=
  delimiter :: text.flatMap (escaped delimiter) ++ [delimiter]

/-- The character that a backslash and the given character stand for. -/
def unescape (char : Char) : Char :=
  match char with
  | 'n' => '\n'
  | 't' => '\t'
  | 'r' => '\r'
  | 'b' => '\x08'
  | 'f' => '\x0c'
  | _ => char

end ConceptualGraph.Text
