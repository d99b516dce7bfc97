/-
Module: ConceptualGraph.Toml.Scalar
Purpose: The numbers, dates and truth values of TOML.
Main exports: Toml.integer?, Toml.real?, Toml.dateTime?, Toml.scalar
-/
import ConceptualGraph.Binary64.Decimal
import ConceptualGraph.Toml.Quoted

namespace ConceptualGraph.Toml

/-! ## Numbers -/

/-- Digits without the underscores between them; every underscore must stand between
two digits. -/
def digits? (isDigit : Char → Bool) : (afterDigit : Bool) → List Char → Option (List Char)
  | afterDigit, [] => if afterDigit then some [] else none
  | afterDigit, char :: rest =>
      if char = '_' then (if afterDigit then digits? isDigit false rest else none)
      else if isDigit char then (digits? isDigit true rest).map (char :: ·)
      else none

/-- The whole number that digits of a base write. -/
def based? (base : Nat) (text : List Char) : Option Nat :=
  (digits? Text.isHexadecimal false text).bind (Text.natural? base)

/-- Decimal digits that may stand before a point: no zero before other digits. -/
def wholeDigits? (text : List Char) : Option (List Char) :=
  match digits? Char.isDigit false text with
  | some ('0' :: _ :: _) => none
  | digits => digits

/-- A sign and what follows it. -/
def splitSign : List Char → Bool × List Char
  | '-' :: rest => (true, rest)
  | '+' :: rest => (false, rest)
  | rest => (false, rest)

/-- A whole number that fits a signed word. -/
def integer? (text : List Char) : Option Int :=
  let unsigned? (base : Nat) (digits : List Char) : Option Int :=
    (based? base digits).bind fun number =>
      if number ≤ Text.largestSigned then some number else none
  match text with
  | '0' :: 'x' :: digits => unsigned? 16 digits
  | '0' :: 'o' :: digits => unsigned? 8 digits
  | '0' :: 'b' :: digits => unsigned? 2 digits
  | _ =>
      let (negative, digits) := splitSign text
      ((wholeDigits? digits).bind (Text.natural? 10)).bind fun number =>
        if negative then
          (if number ≤ Text.largestSigned + 1 then some (-(number : Int)) else none)
        else if number ≤ Text.largestSigned then some number
        else none

/-- The decimal text of an exponent, if one is given. -/
def exponent? (text : List Char) : Option (List Char) :=
  match text with
  | [] => some []
  | letter :: rest =>
      if letter = 'e' || letter = 'E' then
        let (negative, digits) := splitSign rest
        (digits? Char.isDigit false digits).map fun digits =>
          ['e', if negative then '-' else '+'] ++ digits
      else none

/-- The number above all finite ones. -/
def infinity : Binary64 := Binary64.ofSignAndBits false Binary64.infiniteBits

/-- A number with a fraction or an exponent, or one of the two words for numbers that
are not finite.  Digits may be too many for a negative number, which is then infinite,
but not for a positive one. -/
def real? (text : List Char) : Option Binary64 :=
  let (negative, rest) := splitSign text
  let isExponentLetter (char : Char) : Bool := char == 'e' || char == 'E'
  if rest = ['i', 'n', 'f'] then
    some (if negative then Binary64.ofSignAndBits true Binary64.infiniteBits else infinity)
  else if rest = ['n', 'a', 'n'] then
    some (Binary64.ofSignAndBits negative (Binary64.infiniteBits + Nat.pow 2 51))
  else do
    let mantissa := rest.takeWhile fun char => !isExponentLetter char
    let power ← exponent? (rest.dropWhile fun char => !isExponentLetter char)
    let whole ← wholeDigits? (mantissa.takeWhile (· != '.'))
    let places ←
      match mantissa.dropWhile (· != '.') with
      | _ :: places => (digits? Char.isDigit false places).map ('.' :: ·)
      | [] => some []
    let number := Binary64.ofUnsigned negative (whole ++ places ++ power)
    if places.isEmpty && power.isEmpty || number == infinity then none else some number

/-! ## Dates and times -/

/-- The rest after a character, if it stands in front. -/
def after? (char : Char) : List Char → Option (List Char)
  | [] => none
  | first :: rest => if first = char then some rest else none

/-- A number of a fixed count of digits between two bounds. -/
def padded? (count least greatest : Nat) (text : List Char) : Option (Nat × List Char) := do
  let digits := text.take count
  if digits.length = count && digits.all Char.isDigit then
    let number ← Text.natural? 10 digits
    if least ≤ number && number ≤ greatest then some (number, text.drop count) else none
  else none

/-- The number of days of a month. -/
def daysOfMonth (year month : Nat) : Nat :=
  if month = 2 then
    (if year % 4 = 0 && (year % 100 != 0 || year % 400 = 0) then 29 else 28)
  else if month ∈ [4, 6, 9, 11] then 30
  else 31

/-- The rest after a date. -/
def date? (text : List Char) : Option (List Char) := do
  let (year, rest) ← padded? 4 0 9999 text
  let (month, rest) ← padded? 2 1 12 (← after? '-' rest)
  let (_, rest) ← padded? 2 1 (daysOfMonth year month) (← after? '-' rest)
  return rest

/-- The rest after hours and minutes. -/
def clock? (text : List Char) : Option (List Char) := do
  let (_, rest) ← padded? 2 0 23 text
  let (_, rest) ← padded? 2 0 59 (← after? ':' rest)
  return rest

/-- The rest after a time of day, with or without a fraction of a second. -/
def time? (text : List Char) : Option (List Char) := do
  let (_, rest) ← padded? 2 0 60 (← after? ':' (← clock? text))
  match rest with
  | '.' :: digit :: more =>
      return if digit.isDigit then more.dropWhile Char.isDigit else rest
  | _ => return rest

/-- The rest after an offset, if one stands in front. -/
def skipOffset : List Char → List Char
  | [] => []
  | sign :: rest =>
      if sign = 'Z' || sign = 'z' then rest
      else if sign = '+' || sign = '-' then (clock? rest).getD (sign :: rest)
      else sign :: rest

/-- The rest after a date with a time that may follow it, or after a time alone. -/
def dateTime? (text : List Char) : Option (List Char) :=
  match date? text with
  | none => time? text
  | some rest =>
      let time :=
        match rest with
        | mark :: more => if ['T', 't', ' '].contains mark then time? more else none
        | [] => none
      some (time.elim rest skipOffset)

/-! ## Numbers, dates and truth values -/

/-- Whether a character ends a number or a word. -/
def endsScalar (char : Char) : Bool :=
  [' ', '\t', '\r', '\n', ',', ']', '\x7d', '#', '='].contains char

/-- A number or truth value that a word writes. -/
def wordValue? (word : List Char) : Option Value :=
  if word = ['t', 'r', 'u', 'e'] then some (.bool true)
  else if word = ['f', 'a', 'l', 's', 'e'] then some (.bool false)
  else ((integer? word).map Value.int).or ((real? word).map Value.real)

/-- A truth value, a number, or a date.  A date is a table of its text alone, under a
name that no field of a configuration has. -/
def scalar : Reader Value := fun text =>
  match dateTime? text with
  | some rest =>
      let written := text.take (text.length - rest.length)
      .ok (.table [("datetime", .text (String.ofList written))], rest)
  | none =>
      let word := text.takeWhile fun char => !endsScalar char
      if word = [] then .error (.expectedValue, text)
      else
        match wordValue? word with
        | some value => .ok (value, text.drop word.length)
        | none => .error (.invalidNumber, text)

end ConceptualGraph.Toml
