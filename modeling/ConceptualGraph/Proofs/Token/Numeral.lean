/-
Module: ConceptualGraph.Proofs.Token.Numeral
Purpose: Decimal numerals read back: the digits in which a whole number is written
  are taken as a decimal number of the same value.
Main exports: Text.natural?_toDigits, Scan.baseOf_toDigits, Scan.integer?_toDigits
-/
import ConceptualGraph.Token.Scan
import Mathlib.Tactic.Common

namespace ConceptualGraph

namespace Text

/-! ## Digits -/

theorem toNat_of_isDigit {char : Char} (digit : char.isDigit = true) :
    48 ≤ char.toNat ∧ char.toNat ≤ 57 := by
  simpa [Char.isDigit, ← UInt32.toNat_inj, UInt32.le_iff_toNat_le] using digit

/-- A decimal digit has its value. -/
theorem digitValue?_digitChar {digit : Nat} (small : digit < 10) :
    digitValue? digit.digitChar = some digit := by
  have all : ∀ digit : Fin 10, digitValue? digit.val.digitChar = some digit.val := by decide
  exact all ⟨digit, small⟩

/-- Only zero is written as zero. -/
theorem digitChar_eq_zero {digit : Nat} (small : digit < 10) (zero : digit.digitChar = '0') :
    digit = 0 := by
  have all : ∀ digit : Fin 10, digit.val.digitChar = '0' → digit.val = 0 := by decide
  exact all ⟨digit, small⟩ zero

/-- A number goes on from where the digits before it ended. -/
theorem continueNatural?_append (base : Nat) (front back : List Char) (start : Nat) :
    continueNatural? base start (front ++ back) =
      (continueNatural? base start front).bind (continueNatural? base · back) := by
  induction front generalizing start with
  | nil => rfl
  | cons char front ih =>
      simp only [List.cons_append, continueNatural?]
      cases digitValue? char with
      | none => rfl
      | some digit =>
          by_cases fits : digit < base
          · simp [fits, ih]
          · simp [fits]

/-- The digits of a number are read back as the number. -/
theorem continueNatural?_toDigits (number : Nat) :
    continueNatural? 10 0 (Nat.toDigits 10 number) = some number := by
  induction number using Nat.strongRecOn with
  | ind number ih =>
      rw [Nat.toDigits_eq_if (by decide)]
      split
      next small => simp [continueNatural?, digitValue?_digitChar small, small]
      next large =>
          have smaller : number / 10 < number := by omega
          have last : number % 10 < 10 := by omega
          rw [continueNatural?_append, ih _ smaller]
          simp only [Option.bind_some, continueNatural?, digitValue?_digitChar last, if_pos last]
          congr 1
          omega

/-- The decimal digits of a number have its value. -/
theorem natural?_toDigits (number : Nat) :
    natural? 10 (Nat.toDigits 10 number) = some number := by
  have nonempty : (Nat.toDigits 10 number).isEmpty = false := by
    cases digits : Nat.toDigits 10 number with
    | nil => exact absurd digits Nat.toDigits_ne_nil
    | cons => rfl
  simp [natural?, nonempty, continueNatural?_toDigits]

/-- A numeral writes one number. -/
theorem repr_injective {first second : Nat} (same : first.repr = second.repr) :
    first = second := by
  have digits : Nat.toDigits 10 first = Nat.toDigits 10 second := by
    simpa [Nat.repr] using congrArg String.toList same
  have values := natural?_toDigits first
  rw [digits, natural?_toDigits] at values
  exact (Option.some.inj values).symm


/-- Only zero has a numeral that begins with the digit zero. -/
theorem head?_toDigits {number : Nat} (zero : (Nat.toDigits 10 number).head? = some '0') :
    number = 0 := by
  induction number using Nat.strongRecOn with
  | ind number ih =>
      rw [Nat.toDigits_eq_if (by decide)] at zero
      split at zero
      next small => exact digitChar_eq_zero small (by simpa using zero)
      next large =>
          have smaller : number / 10 < number := by omega
          rw [List.head?_append] at zero
          cases first : (Nat.toDigits 10 (number / 10)).head? with
          | none => exact absurd (List.head?_eq_none_iff.mp first) Nat.toDigits_ne_nil
          | some char =>
              have := ih _ smaller (by simpa [first] using zero)
              omega

end Text

namespace Scan

/-! ## Numbers -/

/-- No numeral is taken for an octal one. -/
theorem baseOf_toDigits (number : Nat) : baseOf (Nat.toDigits 10 number) = 10 := by
  by_cases zero : number = 0
  · subst zero; rfl
  · unfold baseOf
    split
    next digits => exact absurd (Text.head?_toDigits (by rw [digits]; rfl)) zero
    next => rfl

/-- The decimal digits of a number that fits are read as it. -/
theorem integer?_toDigits {number : Nat} (negative : Bool)
    (fits : number ≤ Text.largestSigned) :
    integer? negative (baseOf (Nat.toDigits 10 number)) (Nat.toDigits 10 number) =
      some (if negative then -(number : Int) else number) := by
  simp [integer?, baseOf_toDigits, Text.natural?_toDigits, fits]

theorem all_isDigit_toDigits (number : Nat) :
    ∀ char ∈ Nat.toDigits 10 number, char.isDigit = true := fun _ member =>
  Nat.isDigit_of_mem_toDigits (by decide) (by decide) member

end Scan

end ConceptualGraph
