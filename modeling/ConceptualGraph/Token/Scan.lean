/-
Module: ConceptualGraph.Token.Scan
Purpose: A source text cut into tokens.  Every reader takes a text apart into
  what it consumed and what remains, so that positions are a matter of counting
  the consumed characters and nothing is lost between two tokens.
Main exports: LexFault, LexError, Scan, Scan.ofText
-/
import ConceptualGraph.Text.Alphabetic
import ConceptualGraph.Text.CodePoints
import ConceptualGraph.Text.Numeral
import ConceptualGraph.Text.Numeric
import ConceptualGraph.Token

namespace ConceptualGraph

/-! ## Faults -/

/-- Why a text cannot be cut into tokens. -/
inductive LexFault where
  | unexpectedCharacter (char : Char)
  | unterminatedComment
  | unterminatedNodeComment
  | unterminatedQuote
  | unterminatedEscape
  | invalidHexadecimal (digits : String)
  | invalidInteger (digits : String)
  deriving DecidableEq, Repr

/-- The wording of a lexical fault. -/
def LexFault.message : LexFault → String
  | .unexpectedCharacter char => "unexpected character '" ++ char.toString ++ "'"
  | .unterminatedComment => "unterminated comment"
  | .unterminatedNodeComment => "unterminated node comment"
  | .unterminatedQuote => "unterminated quoted literal"
  | .unterminatedEscape => "unterminated escape"
  | .invalidHexadecimal digits => "invalid hexadecimal literal '0x" ++ digits ++ "'"
  | .invalidInteger digits => "invalid integer literal '" ++ digits ++ "'"

/-- A lexical fault at the place where reading stopped. -/
structure LexError where
  fault : LexFault
  position : Position
  /-- The character that stands there, unless the text ends. -/
  found : Option Char
  /-- The rest of the line, cut after 24 characters. -/
  context : String
  deriving DecidableEq, Repr

/-- The wording of a lexical error. -/
def LexError.message (error : LexError) : String :=
  "lexical error at " ++ error.position.text ++ ": " ++ error.fault.message
    ++ " near " ++ Text.shown error.context

namespace Scan

/-! ## Readers

`Taken` is a success and `Stuck` a failure; both say which text was consumed. -/

/-- A value read off the front of a text. -/
structure Taken (α : Type) where
  value : α
  text : List Char
  rest : List Char

/-- A reading that cannot go on. -/
structure Stuck where
  fault : LexFault
  text : List Char
  rest : List Char

/-- What comes of reading the front of a text. -/
abbrev Attempt (α : Type) := Except Stuck (Taken α)

/-- The attempt as it looks from further left, over the text `before` it. -/
def Attempt.after {α β : Type} (before : List Char) (change : α → β) :
    Attempt α → Attempt β
  | .ok taken => .ok ⟨change taken.value, before ++ taken.text, taken.rest⟩
  | .error stuck => .error { stuck with text := before ++ stuck.text }

/-- The longest front of a text whose characters all satisfy a test. -/
def run (test : Char → Bool) (source : List Char) : Taken (List Char) :=
  let text := source.takeWhile test
  ⟨text, text, source.dropWhile test⟩

/-- Whether a character may begin a word. -/
def startsWord (char : Char) : Bool :=
  Text.isAlphabetic char || char == '_'

/-- Whether a character may continue a word. -/
def continuesWord (char : Char) : Bool :=
  Text.isAlphabetic char || Text.isNumeric char || char == '_'

/-- A word: a reserved word of the notation, else an identifier. -/
def word (form : Notation) (source : List Char) : Taken Token :=
  let taken := run continuesWord source
  let token :=
    match Keyword.ofWord? form taken.value with
    | some keyword => .keyword keyword
    | none => .ident (String.ofList taken.value)
  { taken with value := token }

/-- A label after its sign. -/
def label (sign : Char) (token : String → Token) (source : List Char) : Taken Token :=
  let taken := run continuesWord source
  ⟨token (String.ofList taken.value), sign :: taken.text, taken.rest⟩

/-- An individual marker after its sign. -/
def marker (source : List Char) : Taken Token :=
  let taken := run Char.isDigit source
  let digits := if taken.value.isEmpty then none else some (String.ofList taken.value)
  ⟨.marker digits, '#' :: taken.text, taken.rest⟩

/-! ### Numbers

A number is hexadecimal after `0x`; otherwise its decimal digits may be followed
by a fraction and an exponent, and only a run of digits alone is an integer,
octal when more than one digit begins with zero. -/

/-- The fraction that a text begins with: a point and at least one digit. -/
def fraction : List Char → List Char
  | '.' :: char :: rest =>
      if char.isDigit then '.' :: char :: rest.takeWhile Char.isDigit else []
  | _ => []

/-- The exponent that a text begins with: its letter, an optional sign and at
least one digit. -/
def exponent : List Char → List Char
  | letter :: sign :: digit :: rest =>
      if letter == 'e' || letter == 'E' then
        if sign.isDigit then letter :: sign :: (digit :: rest).takeWhile Char.isDigit
        else if (sign == '+' || sign == '-') && digit.isDigit then
          letter :: sign :: digit :: rest.takeWhile Char.isDigit
        else []
      else []
  | [letter, digit] =>
      if (letter == 'e' || letter == 'E') && digit.isDigit then [letter, digit] else []
  | _ => []

/-- The signed value of a run of digits, if its magnitude fits a signed word. -/
def integer? (negative : Bool) (base : Nat) (digits : List Char) : Option Int :=
  match Text.natural? base digits with
  | none => none
  | some magnitude =>
      if magnitude ≤ Text.largestSigned then
        some (if negative then -(magnitude : Int) else magnitude)
      else none

/-- The base that the form of a run of decimal digits selects. -/
def baseOf : List Char → Nat
  | '0' :: _ :: _ => 8
  | _ => 10

/-- A hexadecimal number after its opening `0x`. -/
def hexadecimal (negative : Bool) (source : List Char) : Attempt Token :=
  let taken := run Text.isHexadecimal source
  match integer? negative 16 taken.value with
  | some value => .ok { taken with value := .int value }
  | none => .error ⟨.invalidHexadecimal (String.ofList taken.value), taken.text, taken.rest⟩

/-- A decimal or octal number, with or without fraction and exponent. -/
def decimal (negative : Bool) (source : List Char) : Attempt Token :=
  let digits := source.takeWhile Char.isDigit
  let afterDigits := source.dropWhile Char.isDigit
  let point := fraction afterDigits
  let afterPoint := afterDigits.drop point.length
  let power := exponent afterPoint
  let rest := afterPoint.drop power.length
  let text := digits ++ point ++ power
  if point.isEmpty && power.isEmpty then
    match integer? negative (baseOf digits) digits with
    | some value => .ok ⟨.int value, text, rest⟩
    | none => .error ⟨.invalidInteger (String.ofList digits), text, rest⟩
  else
    let written := if negative then '-' :: text else text
    .ok ⟨.float (String.ofList written), text, rest⟩

/-- A number, after its sign if it has one. -/
def number (negative : Bool) (source : List Char) : Attempt Token :=
  match source with
  | '0' :: 'x' :: rest => (hexadecimal negative rest).after ['0', 'x'] id
  | '0' :: 'X' :: rest => (hexadecimal negative rest).after ['0', 'X'] id
  | _ => decimal negative source

/-- Whether a text begins with a digit. -/
def digitFollows : List Char → Bool
  | char :: _ => char.isDigit
  | [] => false

/-- What a minus sign opens.  In the interchange form it only opens a number; in
the linear form it opens one where a referent may stand, and is part of an arrow
or a mark of its own elsewhere. -/
def minus (form : Notation) (signAllowed : Bool) (source : List Char) : Attempt Token :=
  match form with
  | .cgif =>
      if digitFollows source then (number true source).after ['-'] id
      else .error ⟨.unexpectedCharacter '-', [], '-' :: source⟩
  | .linear =>
      if digitFollows source && signAllowed then (number true source).after ['-'] id
      else
        match source with
        | '>' :: rest => .ok ⟨.punct .rightArrow, ['-', '>'], rest⟩
        | _ => .ok ⟨.punct .hyphen, ['-'], source⟩

/-! ### Quotes and comments -/

/-- The text up to a closing delimiter, with its escapes resolved.  It may not run
over the end of a line, except that a backslash may escape the line feed. -/
def quotedBody (delimiter : Char) : List Char → Attempt (List Char)
  | [] => .error ⟨.unterminatedQuote, [], []⟩
  | char :: rest =>
      if char = '\n' then .error ⟨.unterminatedQuote, [], char :: rest⟩
      else if char = delimiter then .ok ⟨[], [char], rest⟩
      else if char = '\\' then
        match rest with
        | [] => .error ⟨.unterminatedEscape, [char], []⟩
        | next :: rest => (quotedBody delimiter rest).after [char, next] (Text.unescape next :: ·)
      else (quotedBody delimiter rest).after [char] (char :: ·)

/-- A quoted text after its opening delimiter. -/
def quote (delimiter : Char) (token : String → Token) (source : List Char) : Attempt Token :=
  (quotedBody delimiter source).after [delimiter] fun text => token (String.ofList text)

/-- A comment inside a node, after its semicolon.  The closing bracket ends the
comment and remains. -/
def nodeComment (source : List Char) : Attempt Token :=
  let taken := run (fun char => (NodeKind.ofCloser? char).isNone) source
  match taken.rest.head?.bind NodeKind.ofCloser? with
  | some node =>
      .ok ⟨.nodeComment node (String.ofList (Text.trim taken.value)), ';' :: taken.text,
        taken.rest⟩
  | none => .error ⟨.unterminatedNodeComment, ';' :: taken.text, taken.rest⟩

/-- The text of a comment up to its closing mark. -/
def commentBody : List Char → Attempt (List Char)
  | [] => .error ⟨.unterminatedComment, [], []⟩
  | '*' :: '/' :: rest => .ok ⟨[], ['*', '/'], rest⟩
  | char :: rest => (commentBody rest).after [char] (char :: ·)

/-! ### Tokens -/

/-- The token that a text begins with.  `signAllowed` says whether a number with a
sign may stand here. -/
def token (form : Notation) (signAllowed : Bool) (char : Char) (rest : List Char) :
    Attempt Token :=
  if char = '"' then quote char .str rest
  else if char = '\'' then quote char .name rest
  else if char.isDigit then number false (char :: rest)
  else if startsWord char then .ok (word form (char :: rest))
  else if char = '*' && rest.head?.any startsWord then .ok (label char .defLabel rest)
  else if char = '?' && rest.head?.any startsWord then .ok (label char .boundLabel rest)
  else if char = '#' then .ok (marker rest)
  else if char = ';' then nodeComment rest
  else if char = '-' then minus form signAllowed rest
  else if char = '<' && form = .linear && rest.head? = some '-' then
    .ok ⟨.punct .leftArrow, ['<', '-'], rest.drop 1⟩
  else
    match Punct.ofChar? char with
    | some mark => .ok ⟨.punct mark, [char], rest⟩
    | none => .error ⟨.unexpectedCharacter char, [], char :: rest⟩

/-- What one step of scanning finds: a gap between tokens or a token. -/
inductive Found where
  | gap
  | token (token : Token)

/-- One step of scanning a text that begins with `char`.  White space and plain
comments are gaps; a comment opened by two stars belongs to the graph. -/
def step (form : Notation) (signAllowed : Bool) (char : Char) (rest : List Char) :
    Attempt Found :=
  if Text.isBlank char then
    .ok ⟨.gap, char :: rest.takeWhile Text.isBlank, rest.dropWhile Text.isBlank⟩
  else
    match char, rest with
    | '/', '*' :: '*' :: '/' :: rest => .ok ⟨.gap, ['/', '*', '*', '/'], rest⟩
    | '/', '*' :: '*' :: rest =>
        (commentBody rest).after ['/', '*', '*'] fun text =>
          .token (.formalComment (String.ofList (Text.trim text)))
    | '/', '*' :: rest => (commentBody rest).after ['/', '*'] fun _ => .gap
    | _, _ => (token form signAllowed char rest).after [] .token

/-- Whether a number with a sign may follow a token. -/
def allowsSign : Token → Bool
  | .punct .colon | .punct .leftBracket => true
  | .defLabel _ | .boundLabel _ | .ident _ | .int _ => true
  | _ => false

/-- Comments of the graph stand between tokens and do not change what may follow. -/
def signAfter (signAllowed : Bool) : Token → Bool
  | .formalComment _ => signAllowed
  | other => allowsSign other

end Scan

/-- A scanned text: its tokens, and either the place where the text ends or the
error that stopped the scan after them. -/
structure Scan where
  tokens : List Located
  stop : Except LexError Position

namespace Scan

/-- The error that a stuck reading amounts to, the reading having begun at a place. -/
def Stuck.errorAt (stuck : Stuck) (position : Position) : LexError where
  fault := stuck.fault
  position := position.advance stuck.text
  found := stuck.rest.head?
  context := String.ofList ((stuck.rest.takeWhile (· ≠ '\n')).take 24)

/-- Scans a text from a place on.  Each step consumes at least one character, so
as many steps as there are characters reach the end. -/
def scanFrom (form : Notation) : Nat → Position → (signAllowed : Bool) → List Char → Scan
  | _, position, _, [] => ⟨[], .ok position⟩
  | 0, position, _, _ => ⟨[], .ok position⟩
  | steps + 1, position, signAllowed, char :: rest =>
      match step form signAllowed char rest with
      | .error stuck => ⟨[], .error (stuck.errorAt position)⟩
      | .ok taken =>
          let stop := position.advance taken.text
          match taken.value with
          | .gap => scanFrom form steps stop signAllowed taken.rest
          | .token token =>
              let later := scanFrom form steps stop (signAfter signAllowed token) taken.rest
              { later with tokens := ⟨token, ⟨position, stop⟩⟩ :: later.tokens }

/-- The tokens of a source text. -/
def ofText (form : Notation) (source : String) : Scan :=
  let chars := source.toList
  scanFrom form chars.length {} false chars

end Scan

end ConceptualGraph
