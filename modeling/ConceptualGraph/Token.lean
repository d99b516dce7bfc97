/-
Module: ConceptualGraph.Token
Purpose: The vocabulary of the two notations.
Main exports: Notation, ContextLabel, Keyword, NodeKind, Punct, Token, Located
-/
import ConceptualGraph.Position
import ConceptualGraph.Text.Quoted

namespace ConceptualGraph

/-- The two written forms of a conceptual graph. -/
inductive Notation where
  /-- The interchange form: nodes in brackets, `[Cat: *x] (On ?x [Mat])`. -/
  | cgif
  /-- The arrow form: chains of nodes, `[Cat] -> (On) -> [Mat].` -/
  | linear
  deriving DecidableEq, Repr

/-! ## Reserved words

Words are reserved without regard to the case of ASCII letters, and most of them
in one notation only. -/

/-- A word that may open a context in place of a type. -/
inductive ContextLabel where
  | ifLabel
  | thenLabel
  | elseLabel
  | either
  | or
  | sc
  deriving DecidableEq, Repr

/-- How a context label is written. -/
def ContextLabel.spelling : ContextLabel → String
  | .ifLabel => "If"
  | .thenLabel => "Then"
  | .elseLabel => "Else"
  | .either => "Either"
  | .or => "Or"
  | .sc => "SC"

/-- A reserved word. -/
inductive Keyword where
  | lambda
  | context (label : ContextLabel)
  /-- Recognised in the linear form in order to be refused. -/
  | scope
  /-- Recognised in the linear form in order to be refused. -/
  | typeMacro
  deriving DecidableEq, Repr

/-- How a reserved word is written. -/
def Keyword.spelling : Keyword → String
  | .lambda => "lambda"
  | .context label => label.spelling
  | .scope => "Scope"
  | .typeMacro => "typeMacro"

/-- The reserved word of a notation that a word in lower case spells. -/
def Keyword.ofLowercase? (form : Notation) (word : String) : Option Keyword :=
  match word, form with
  | "lambda", _ => some .lambda
  | "if", .cgif => some (.context .ifLabel)
  | "then", .cgif => some (.context .thenLabel)
  | "else", .cgif => some (.context .elseLabel)
  | "either", .cgif => some (.context .either)
  | "or", .cgif => some (.context .or)
  | "sc", .cgif => some (.context .sc)
  | "scope", .linear => some .scope
  | "typemacro", .linear => some .typeMacro
  | _, _ => none

/-- The reserved word of a notation that a word spells. -/
def Keyword.ofWord? (form : Notation) (word : List Char) : Option Keyword :=
  Keyword.ofLowercase? form (String.ofList (word.map Char.toLower))

/-! ## Tokens -/

/-- The three kinds of node, by the bracket that closes them. -/
inductive NodeKind where
  | concept
  | relation
  | actor
  deriving DecidableEq, Repr

/-- The kind of node that a closing bracket ends. -/
def NodeKind.ofCloser? : Char → Option NodeKind
  | ']' => some .concept
  | ')' => some .relation
  | '>' => some .actor
  | _ => none

/-- A punctuation mark. -/
inductive Punct where
  | leftParen
  | rightParen
  | leftBracket
  | rightBracket
  | leftBrace
  | rightBrace
  | leftAngle
  | rightAngle
  | comma
  | dot
  | colon
  | question
  | tilde
  | atSign
  | percent
  | star
  | bar
  /-- In the linear form only, as are the two marks that follow. -/
  | rightArrow
  | leftArrow
  | hyphen
  deriving DecidableEq, Repr

/-- How a mark is written. -/
def Punct.spelling : Punct → String
  | .leftParen => "("
  | .rightParen => ")"
  | .leftBracket => "["
  | .rightBracket => "]"
  | .leftBrace => "\x7b"
  | .rightBrace => "\x7d"
  | .leftAngle => "<"
  | .rightAngle => ">"
  | .comma => ","
  | .dot => "."
  | .colon => ":"
  | .question => "?"
  | .tilde => "~"
  | .atSign => "@"
  | .percent => "%"
  | .star => "*"
  | .bar => "|"
  | .rightArrow => "->"
  | .leftArrow => "<-"
  | .hyphen => "-"

/-- The mark that a single character is in both notations. -/
def Punct.ofChar? : Char → Option Punct
  | '(' => some .leftParen
  | ')' => some .rightParen
  | '[' => some .leftBracket
  | ']' => some .rightBracket
  | '\x7b' => some .leftBrace
  | '\x7d' => some .rightBrace
  | '<' => some .leftAngle
  | '>' => some .rightAngle
  | ',' => some .comma
  | '.' => some .dot
  | ':' => some .colon
  | '?' => some .question
  | '~' => some .tilde
  | '@' => some .atSign
  | '%' => some .percent
  | '*' => some .star
  | '|' => some .bar
  | _ => none

/-- A token of either notation. -/
inductive Token where
  | ident (word : String)
  | keyword (word : Keyword)
  | int (value : Int)
  /-- A number with a fraction or an exponent, as it was written. -/
  | float (text : String)
  /-- A text between double quotes, with its escapes resolved. -/
  | str (text : String)
  /-- A text between single quotes, with its escapes resolved. -/
  | name (text : String)
  /-- A defining label, `*x`. -/
  | defLabel (label : String)
  /-- A bound label, `?x`. -/
  | boundLabel (label : String)
  /-- An individual marker, `#` or `#12`. -/
  | marker (digits : Option String)
  /-- A comment inside a node, from a semicolon to the bracket that closes it. -/
  | nodeComment (node : NodeKind) (text : String)
  /-- A comment that belongs to the graph. -/
  | formalComment (text : String)
  | punct (mark : Punct)
  | endOfInput
  deriving DecidableEq, Repr

/-- How a message names a token. -/
def Token.shown : Token → String
  | .ident word => word
  | .keyword word => word.spelling
  | .int value => value.repr
  | .float text => text
  | .str text => Text.shown text
  | .name text => "'" ++ text ++ "'"
  | .defLabel label => "*" ++ label
  | .boundLabel label => "?" ++ label
  | .marker digits => "#" ++ digits.getD ""
  | .nodeComment _ text => ";" ++ text
  | .formalComment text => "/**" ++ text ++ "*/"
  | .punct mark => mark.spelling
  | .endOfInput => "end of input"

/-- A token together with the stretch of source that it covers. -/
structure Located where
  token : Token
  span : Span
  deriving DecidableEq, Repr

end ConceptualGraph
