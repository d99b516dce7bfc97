/-
Module: ConceptualGraph.Writing.Piece
Purpose: Written text as a sequence of tokens with blanks between them, so that
  what is written can be compared with what is read back without reading it.
Main exports: Piece, Phrase, Token.spelling, Phrase.text
-/
import ConceptualGraph.Token

namespace ConceptualGraph

/-- How a token is written so that it reads back. -/
def Token.spelling : Token → String
  | .ident word => word
  | .keyword word => word.spelling
  | .int value => value.repr
  | .float text => text
  | .str text => String.ofList (Text.quoted '"' text.toList)
  | .name text => String.ofList (Text.quoted '\'' text.toList)
  | .defLabel label => "*" ++ label
  | .boundLabel label => "?" ++ label
  | .marker digits => "#" ++ digits.getD ""
  | .nodeComment _ text => ";" ++ text
  | .formalComment text => "/** " ++ text ++ " */"
  | .punct mark => mark.spelling
  | .endOfInput => ""

/-- A part of a written text. -/
inductive Piece where
  | token (lexeme : Token)
  /-- White space. -/
  | blank (space : String)
  deriving DecidableEq, Repr

/-- The text of a part. -/
def Piece.text : Piece → String
  | .token lexeme => lexeme.spelling
  | .blank space => space

/-- A written text. -/
abbrev Phrase := List Piece

namespace Phrase

/-- The text of a phrase. -/
def text (phrase : Phrase) : String :=
  String.join (phrase.map Piece.text)

/-- The tokens of a phrase. -/
def tokens (phrase : Phrase) : List Token :=
  phrase.filterMap fun
    | .token lexeme => some lexeme
    | .blank _ => none

/-- A phrase of one token. -/
def ofToken (token : Token) : Phrase := [.token token]

/-- A phrase of one mark. -/
def mark (mark : Punct) : Phrase := [.token (.punct mark)]

/-- A phrase of one blank character. -/
def space : Phrase := [.blank " "]

/-- Phrases with white space between them. -/
def join (separator : String) (phrases : List Phrase) : Phrase :=
  [Piece.blank separator].intercalate phrases

end Phrase

end ConceptualGraph
