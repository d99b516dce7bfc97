/-
Module: ConceptualGraph.Proofs.Token.Positional
Purpose: The number that digits write in a base, said by places, and that it is what is read,
  in whole numbers and in machine words whose operations are checked for overflow.
Main exports: Text.IsDigitOf, Text.Writes, Text.natural?_eq_some_iff, Text.word?,
  Text.word?_eq_some_iff, Text.mul_sign
-/
import ConceptualGraph.Text.Numeral
import Mathlib.Data.List.Forall2
import Mathlib.Data.Nat.Digits.Defs
import Mathlib.Tactic.Ring

namespace ConceptualGraph.Text

variable {base start number digit : Nat} {char : Char} {digits : List Char}

/-! ## Digits and places -/

/-- Whether a character is a digit of a base, in either case, and has a value. -/
def IsDigitOf (base : Nat) (char : Char) (value : Nat) : Prop :=
  value < base ∧ (char = value.digitChar ∨ char = value.digitChar.toUpper)

/-- Whether digits write a number in a base: there are some, each of them is a digit of the base,
and the number is the sum of their values, each times the power of the base for its place. -/
def Writes (base : Nat) (digits : List Char) (number : Nat) : Prop :=
  digits ≠ [] ∧ ∃ values, List.Forall₂ (IsDigitOf base) digits values ∧
    Nat.ofDigits base values.reverse = number

/-- No digit in any base comes after the letter f. -/
theorem toNat_lt_of_digitValue? (value : digitValue? char = some digit) : char.toNat < 103 := by
  have at_most {last : Char} (within : char ≤ last) : char.toNat ≤ last.toNat :=
    UInt32.le_iff_toNat_le.mp within
  unfold digitValue? at value
  split at value
  · next range => exact Nat.lt_of_le_of_lt (at_most range.2) (by decide)
  split at value
  · next range => exact Nat.lt_of_le_of_lt (at_most range.2) (by decide)
  split at value
  · next range => exact Nat.lt_of_le_of_lt (at_most range.2) (by decide)
  · cases value

/-- A character has a value exactly if it is a hexadecimal digit. -/
theorem digitValue?_eq_some_iff : digitValue? char = some digit ↔ IsDigitOf 16 char digit := by
  constructor
  · have all : ∀ point < 103, ∀ value ∈ digitValue? (Char.ofNat point), value < 16 ∧
        (Char.ofNat point = value.digitChar ∨ Char.ofNat point = value.digitChar.toUpper) := by
      decide
    intro value
    have known := all char.toNat (toNat_lt_of_digitValue? value) digit
    rw [Char.ofNat_toNat] at known
    exact known value
  · have all : ∀ digit : Fin 16, digitValue? digit.val.digitChar = some digit.val ∧
        digitValue? digit.val.digitChar.toUpper = some digit.val := by decide
    rintro ⟨small, rfl | rfl⟩
    · exact (all ⟨digit, small⟩).1
    · exact (all ⟨digit, small⟩).2

/-- A digit of a base that has no more than sixteen of them. -/
theorem isDigitOf_iff (few : base ≤ 16) :
    IsDigitOf base char digit ↔ digitValue? char = some digit ∧ digit < base := by
  rw [digitValue?_eq_some_iff]
  constructor
  · rintro ⟨small, spelled⟩
    exact ⟨⟨Nat.lt_of_lt_of_le small few, spelled⟩, small⟩
  · rintro ⟨⟨-, spelled⟩, small⟩
    exact ⟨small, spelled⟩

theorem isHexadecimal_iff : isHexadecimal char = true ↔ ∃ value, IsDigitOf 16 char value := by
  simp only [isHexadecimal, Option.isSome_iff_exists, digitValue?_eq_some_iff]

/-! ## Reading whole numbers -/

/-- One more digit multiplies by the base and adds the value of the digit. -/
theorem continueNatural?_cons (few : base ≤ 16) :
    continueNatural? base start (char :: digits) = some number ↔
      ∃ value, IsDigitOf base char value ∧
        continueNatural? base (start * base + value) digits = some number := by
  simp only [continueNatural?, isDigitOf_iff few]
  cases digitValue? char with
  | none => simp
  | some value =>
      by_cases small : value < base
      · simp [small]
      · simp [small]

/-- Digits that are read on from a number raise it by their count of places. -/
theorem continueNatural?_eq_some_iff (few : base ≤ 16) :
    continueNatural? base start digits = some number ↔
      ∃ values, List.Forall₂ (IsDigitOf base) digits values ∧
        start * base ^ digits.length + Nat.ofDigits base values.reverse = number := by
  induction digits generalizing start with
  | nil => simp [continueNatural?]
  | cons char digits ih =>
      have place (value : Nat) {values : List Nat}
          (each : List.Forall₂ (IsDigitOf base) digits values) :
          (start * base + value) * base ^ digits.length + Nat.ofDigits base values.reverse =
            start * base ^ (char :: digits).length +
              Nat.ofDigits base (value :: values).reverse := by
        rw [List.reverse_cons, Nat.ofDigits_append, Nat.ofDigits_singleton, List.length_reverse,
          ← each.length_eq, List.length_cons]
        ring
      simp only [continueNatural?_cons few, ih, List.forall₂_cons_left_iff]
      constructor
      · rintro ⟨value, here, values, each, same⟩
        exact ⟨value :: values, ⟨value, values, here, each, rfl⟩,
          (place value each).symm.trans same⟩
      · rintro ⟨_, ⟨value, values, here, each, rfl⟩, same⟩
        exact ⟨value, here, values, each, (place value each).trans same⟩

/-- What is read of digits is what they write. -/
theorem natural?_eq_some_iff (few : base ≤ 16) :
    natural? base digits = some number ↔ Writes base digits number := by
  unfold natural? Writes
  cases digits with
  | nil => simp
  | cons char digits =>
      simp [continueNatural?_eq_some_iff few]

/-- Reading on makes a number no smaller. -/
theorem le_of_continueNatural? (positive : 0 < base)
    (read : continueNatural? base start digits = some number) : start ≤ number := by
  induction digits generalizing start with
  | nil => exact Nat.le_of_eq (Option.some.inj read)
  | cons char digits ih =>
      simp only [continueNatural?] at read
      split at read
      · cases read
      split at read
      · have raised : start ≤ start * base := Nat.le_mul_of_pos_right start positive
        have later := ih read
        omega
      · cases read

/-! ## Reading machine words -/

/-- A product of signed words of 64 bits, unless it overflows. -/
def mulWord? (left right : BitVec 64) : Option (BitVec 64) :=
  if left.smulOverflow right then none else some (left * right)

/-- A sum of signed words of 64 bits, unless it overflows. -/
def addWord? (left right : BitVec 64) : Option (BitVec 64) :=
  if left.saddOverflow right then none else some (left + right)

/-- The digits after a word already read, if all of them belong to the base and no operation
overflows. -/
def continueWord? (base : Nat) : BitVec 64 → List Char → Option (BitVec 64)
  | word, [] => some word
  | word, char :: rest =>
      match digitValue? char with
      | none => none
      | some digit =>
          if digit < base then
            ((mulWord? word (.ofNat 64 base)).bind (addWord? · (.ofNat 64 digit))).bind
              (continueWord? base · rest)
          else none

/-- The signed word that a run of digits writes in a base.  The empty run writes none. -/
def word? (base : Nat) (digits : List Char) : Option (BitVec 64) :=
  if digits.isEmpty then none else continueWord? base 0 digits

/-- The sign of a number as a word. -/
def signWord (negative : Bool) : BitVec 64 := if negative then -1 else 1

/-- The word of a number that fits. -/
theorem toInt_ofNat (fits : number ≤ largestSigned) : (BitVec.ofNat 64 number).toInt = number := by
  have small : number < 2 ^ 63 := Nat.lt_of_le_of_lt fits (by decide)
  rw [BitVec.toInt_ofNat']
  exact Int.bmod_eq_of_le (by omega) (by omega)

/-- A number without a sign leaves a signed word at the upper end only. -/
theorem outside_iff : ((number : Int) ≥ 2 ^ 63 ∨ (number : Int) < -2 ^ 63) ↔
    ¬number ≤ largestSigned := by
  have largest : largestSigned = 2 ^ 63 - 1 := rfl
  omega

/-- Words are multiplied as numbers are, unless the product overflows. -/
theorem mulWord?_ofNat {left right : Nat} (one : left ≤ largestSigned)
    (two : right ≤ largestSigned) :
    mulWord? (.ofNat 64 left) (.ofNat 64 right) =
      if left * right ≤ largestSigned then some (.ofNat 64 (left * right)) else none := by
  have overflow : (BitVec.ofNat 64 left).smulOverflow (.ofNat 64 right) = true ↔
      ¬left * right ≤ largestSigned := by
    rw [BitVec.smulOverflow, toInt_ofNat one, toInt_ofNat two, ← Int.natCast_mul, ← outside_iff]
    simp
  simp only [mulWord?, overflow, BitVec.ofNat_mul, ite_not]

/-- Words are added as numbers are, unless the sum overflows. -/
theorem addWord?_ofNat {left right : Nat} (one : left ≤ largestSigned)
    (two : right ≤ largestSigned) :
    addWord? (.ofNat 64 left) (.ofNat 64 right) =
      if left + right ≤ largestSigned then some (.ofNat 64 (left + right)) else none := by
  have overflow : (BitVec.ofNat 64 left).saddOverflow (.ofNat 64 right) = true ↔
      ¬left + right ≤ largestSigned := by
    rw [BitVec.saddOverflow, toInt_ofNat one, toInt_ofNat two, ← Int.natCast_add, ← outside_iff]
    simp
  simp only [addWord?, overflow, BitVec.ofNat_add, ite_not]

/-- An operation overflows exactly if the number that is read in the end does not fit, the digits
after it being valid: reading on never makes a number less. -/
theorem continueWord?_ofNat (positive : 0 < base) (few : base ≤ 16)
    (fits : start ≤ largestSigned) :
    continueWord? base (.ofNat 64 start) digits =
      (continueNatural? base start digits).bind fun number =>
        if number ≤ largestSigned then some (.ofNat 64 number) else none := by
  induction digits generalizing start with
  | nil => simp [continueWord?, continueNatural?, fits]
  | cons char digits ih =>
      rw [continueWord?, continueNatural?]
      cases digitValue? char with
      | none => rfl
      | some digit =>
          by_cases small : digit < base
          swap
          · simp [small]
          simp only [small, if_true]
          have baseFits : base ≤ largestSigned := Nat.le_trans few (by decide)
          have digitFits : digit ≤ largestSigned := Nat.le_trans (Nat.le_of_lt small) baseFits
          have lost (beyond : ¬start * base + digit ≤ largestSigned) :
              ((continueNatural? base (start * base + digit) digits).bind fun number =>
                if number ≤ largestSigned then some (BitVec.ofNat 64 number) else none) = none := by
            cases read : continueNatural? base (start * base + digit) digits with
            | none => rfl
            | some number =>
                have later := le_of_continueNatural? positive read
                exact if_neg (by omega)
          rw [mulWord?_ofNat fits baseFits]
          by_cases product : start * base ≤ largestSigned
          · rw [if_pos product, Option.bind_some, addWord?_ofNat product digitFits]
            by_cases sum : start * base + digit ≤ largestSigned
            · rw [if_pos sum, Option.bind_some, ih sum]
            · rw [if_neg sum, lost sum]
              rfl
          · rw [if_neg product, lost (by omega)]
            rfl

/-- Words are read exactly of the digits that write a number which fits, and have its value. -/
theorem word?_eq_some_iff {word : BitVec 64} (positive : 0 < base) (few : base ≤ 16) :
    word? base digits = some word ↔
      ∃ number, Writes base digits number ∧ number ≤ largestSigned ∧
        word = .ofNat 64 number := by
  simp only [← natural?_eq_some_iff few, word?, natural?]
  cases digits with
  | nil => simp
  | cons char digits =>
      have read : continueWord? base 0 (char :: digits) = _ :=
        continueWord?_ofNat positive few (Nat.zero_le _)
      rw [List.isEmpty_cons, if_neg Bool.false_ne_true, if_neg Bool.false_ne_true, read,
        Option.bind_eq_some_iff]
      apply exists_congr
      intro number
      rw [Option.ite_none_right_eq_some, Option.some.injEq, eq_comm (a := word)]

/-- A word without a sign can be multiplied by either sign. -/
theorem mulWord?_signWord (negative : Bool) (fits : number ≤ largestSigned) :
    ∃ product, mulWord? (signWord negative) (.ofNat 64 number) = some product ∧
      product.toInt = if negative then -(number : Int) else number := by
  have largest : largestSigned = 2 ^ 63 - 1 := rfl
  have signed : (signWord negative).toInt * (BitVec.ofNat 64 number).toInt =
      if negative then -(number : Int) else number := by
    rw [toInt_ofNat fits]
    cases negative with
    | true => exact Int.neg_one_mul _
    | false => exact Int.one_mul _
  have within : ¬(signWord negative).smulOverflow (.ofNat 64 number) = true := by
    rw [BitVec.smulOverflow, signed]
    simp only [Bool.or_eq_true, decide_eq_true_eq, not_or]
    split <;> omega
  refine ⟨signWord negative * .ofNat 64 number, ?_, ?_⟩
  · rw [mulWord?, if_neg within]
  · rw [BitVec.toInt_mul_of_not_smulOverflow within, signed]

end ConceptualGraph.Text
