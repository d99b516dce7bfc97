/-
Module: ConceptualGraph.Binary64.Decimal
Purpose: Decimal texts of floating-point numbers: reading one with correct
  rounding, and writing one with the fewest digits that read back.
Main exports: Binary64.ofDecimal, Binary64.shortest, Binary64.text
-/
import ConceptualGraph.Binary64
import ConceptualGraph.Text.Numeral

namespace ConceptualGraph.Binary64

/-! ## Reading

A decimal text has an optional sign, digits with an optional point among them, and
an optional exponent. -/

/-- The number nearest to `digits * 10 ^ power`.  Powers beyond the range of the
format are decided by the count of digits, before anything is multiplied out:
from `10 ^ 309` on a value is infinite, and below `10 ^ (-324)` it is zero. -/
def ofScaled (negative : Bool) (digits : Nat) (power : Int) : Binary64 :=
  let decimals : Int := (Nat.toDigits 10 digits).length
  if digits = 0 then ofSignAndBits negative 0
  else if 310 ≤ power + decimals then ofSignAndBits negative infiniteBits
  else if power + decimals ≤ -324 then ofSignAndBits negative 0
  else if 0 ≤ power then ofFraction negative (digits * Nat.pow 10 power.toNat) 1
  else ofFraction negative digits (Nat.pow 10 (-power).toNat)

/-- The value of a run of decimal digits; the empty run counts as zero. -/
def digitsValue (digits : List Char) : Nat :=
  (Text.continueNatural? 10 0 digits).getD 0

/-- The exponent after its letter. -/
def powerOf : List Char → Int
  | '-' :: digits => -(digitsValue digits : Int)
  | '+' :: digits => digitsValue digits
  | digits => digitsValue digits

/-- The number that an unsigned decimal text stands for. -/
def ofUnsigned (negative : Bool) (text : List Char) : Binary64 :=
  let whole := text.takeWhile Char.isDigit
  let rest := text.dropWhile Char.isDigit
  let places :=
    match rest with
    | '.' :: rest => rest.takeWhile Char.isDigit
    | _ => []
  let power := (rest.dropWhile fun char => char.isDigit || char == '.').drop 1
  ofScaled negative (digitsValue (whole ++ places)) (powerOf power - places.length)

/-- The number that a decimal text stands for. -/
def ofDecimal (text : String) : Binary64 :=
  match text.toList with
  | '-' :: text => ofUnsigned true text
  | text => ofUnsigned false text

/-! ## Writing

The reals that round to a number form an interval around it, which includes its
ends when the significand is even.  Its ends lie halfway to the neighbours; below
a power of two the neighbour is only half as far. -/

/-- A positive value with the interval that rounds to it, as numerators over one
denominator. -/
structure Interval where
  low : Nat
  value : Nat
  high : Nat
  denominator : Nat
  /-- Whether the ends belong to the interval. -/
  closed : Bool

/-- The interval of `significand * 2 ^ exponent`. -/
def interval (significand : Nat) (exponent : Int) : Interval :=
  let narrow := significand == Nat.pow 2 52 && exponent != -1074
  let scale := if 2 ≤ exponent then Nat.pow 2 (exponent - 2).toNat else 1
  { low := (4 * significand - if narrow then 1 else 2) * scale
    value := 4 * significand * scale
    high := (4 * significand + 2) * scale
    denominator := if 2 ≤ exponent then 1 else Nat.pow 2 (2 - exponent).toNat
    closed := significand % 2 == 0 }

/-- The interval measured in another unit, `10 ^ place`. -/
def Interval.inUnits (interval : Interval) (place : Int) : Interval :=
  if 0 ≤ place then
    { interval with denominator := interval.denominator * Nat.pow 10 place.toNat }
  else
    let scale := Nat.pow 10 (-place).toNat
    { interval with
      low := interval.low * scale, value := interval.value * scale
      high := interval.high * scale }

/-- The whole number nearest to the value among the two around it that lie in the
interval; halfway between them the larger one. -/
def Interval.nearestWhole? (interval : Interval) : Option Nat :=
  let below := interval.value / interval.denominator
  let left := below * interval.denominator
  let right := (below + 1) * interval.denominator
  let leftInside := if interval.closed then interval.low ≤ left else interval.low < left
  let rightInside := if interval.closed then right ≤ interval.high else right < interval.high
  if rightInside && (!leftInside || right - interval.value ≤ interval.value - left) then
    some (below + 1)
  else if leftInside then some below
  else none

/-- The first of the places `place`, `place - 1`, … at which the interval holds a
whole number of units, with that number. -/
def Interval.coarsest (interval : Interval) : Nat → (place : Int) → Nat × Int
  | 0, place => ((interval.inUnits place).value / (interval.inUnits place).denominator, place)
  | steps + 1, place =>
      match (interval.inUnits place).nearestWhole? with
      | some digits => (digits, place)
      | none => interval.coarsest steps (place - 1)

/-- The fewest decimal digits that read back as `significand * 2 ^ exponent`, and
among those the nearest: digits `d` and a place `p`, for `d * 10 ^ p`. -/
def shortest (significand : Nat) (exponent : Int) : Nat × Int :=
  let interval := interval significand exponent
  let whole := (Nat.toDigits 10 (interval.value / interval.denominator)).length
  interval.coarsest (whole + 1 + (-exponent).toNat) whole

/-- A number of units of a place below the point, written out with its point. -/
def positional (digits places : Nat) : String :=
  let text := Nat.toDigits 10 digits
  let text := List.replicate (places + 1 - text.length) '0' ++ text
  let point := text.length - places
  String.ofList (text.take point ++ '.' :: text.drop point)

/-- The magnitude as text: whole numbers in full and with one place, other finite
numbers with the fewest digits that read back, never with an exponent. -/
def Magnitude.text : Magnitude → String
  | .infinite => "inf"
  | .undefined => "NaN"
  | .finite significand exponent =>
      if 0 ≤ exponent then (significand * Nat.pow 2 exponent.toNat).repr ++ ".0"
      else
        let unit := Nat.pow 2 (-exponent).toNat
        if significand % unit = 0 then (significand / unit).repr ++ ".0"
        else
          let (digits, place) := shortest significand exponent
          positional digits (-place).toNat

/-- A number as text.  Only a number without value has no sign. -/
def text (number : Binary64) : String :=
  match number.magnitude with
  | .undefined => Magnitude.text .undefined
  | magnitude => (if number.isNegative then "-" else "") ++ magnitude.text

end ConceptualGraph.Binary64
