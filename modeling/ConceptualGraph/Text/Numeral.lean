/-
Module: ConceptualGraph.Text.Numeral
Purpose: Whole numbers read from runs of digits in a given base.
Main exports: digitValue?, natural?, largestSigned, largestUnsigned
-/

namespace ConceptualGraph.Text

/-- The value of a hexadecimal digit of either case. -/
def digitValue? (char : Char) : Option Nat :=
  if '0' ≤ char ∧ char ≤ '9' then some (char.toNat - '0'.toNat)
  else if 'a' ≤ char ∧ char ≤ 'f' then some (char.toNat - 'a'.toNat + 10)
  else if 'A' ≤ char ∧ char ≤ 'F' then some (char.toNat - 'A'.toNat + 10)
  else none

/-- Whether a character is a hexadecimal digit. -/
def isHexadecimal (char : Char) : Bool :=
  (digitValue? char).isSome

/-- The digits after a number already read, if all of them belong to the base. -/
def continueNatural? (base : Nat) : Nat → List Char → Option Nat
  | number, [] => some number
  | number, char :: rest =>
      match digitValue? char with
      | none => none
      | some digit =>
          if digit < base then continueNatural? base (number * base + digit) rest
          else none

/-- The number that a run of digits writes in a base.  The empty run writes none. -/
def natural? (base : Nat) (digits : List Char) : Option Nat :=
  if digits.isEmpty then none else continueNatural? base 0 digits

/-- The largest number of a signed word of 64 bits. -/
def largestSigned : Nat := Nat.pow 2 63 - 1

/-- The largest number of an unsigned word of 64 bits. -/
def largestUnsigned : Nat := UInt64.size - 1

end ConceptualGraph.Text
