/-
Module: ConceptualGraph.Proofs.Token.Decimal
Purpose: The text of a floating-point number that is not infinite reads back as one token: it
  has digits on both sides of a point, or it is a word.
Main exports: Binary64.isPointed_text, Binary64.legible_text
-/
import ConceptualGraph.Binary64.Decimal
import ConceptualGraph.Proofs.Token.Spelling
import Mathlib.Tactic.Ring

namespace ConceptualGraph.Binary64

open Token (IsPointed)

/-! ## Where the last digit of a fraction stands -/

variable {significand : Nat} {exponent place : Int}

/-- No whole number lies in an interval whose ends lie between two multiples of its
denominator. -/
theorem Interval.nearestWhole?_eq_none {interval : Interval} (positive : 0 < interval.denominator)
    (apart : ∀ count, count * interval.denominator < interval.low ∨
      interval.high < count * interval.denominator)
    (low : interval.low ≤ interval.value) (high : interval.value ≤ interval.high) :
    interval.nearestWhole? = none := by
  unfold nearestWhole?
  extract_lets below left right leftInside rightInside
  have leftward : left ≤ interval.value := Nat.div_mul_le_self _ _
  have rightward : interval.value < right := by
    simpa [right, Nat.mul_comm] using Nat.lt_mul_of_div_lt (Nat.lt_succ_self below) positive
  have before : left < interval.low := (apart below).resolve_right fun beyond =>
    absurd (Nat.lt_of_le_of_lt high beyond) (Nat.not_lt.mpr leftward)
  have beyond : interval.high < right := (apart (below + 1)).resolve_left fun before =>
    absurd (Nat.lt_of_lt_of_le before low) (Nat.not_lt.mpr (Nat.le_of_lt rightward))
  have leftOut : ¬leftInside := by
    simp only [leftInside]
    split <;> omega
  have rightOut : ¬rightInside := by
    simp only [rightInside]
    split <;> omega
  simp [leftOut, rightOut]

/-- Around a number that is not whole, no whole number rounds to it, and so no multiple of a
power of ten does. -/
theorem nearestWhole?_inUnits (fractional : exponent < 0)
    (rest : significand % Nat.pow 2 (-exponent).toNat ≠ 0) (whole : 0 ≤ place) :
    ((interval significand exponent).inUnits place).nearestWhole? = none := by
  obtain ⟨unit, isUnit⟩ : ∃ unit, Nat.pow 2 (-exponent).toNat = unit := ⟨_, rfl⟩
  rw [isUnit] at rest
  have denominator : Nat.pow 2 (2 - exponent).toNat = 4 * unit := by
    have split : (2 - exponent).toNat = (-exponent).toNat + 2 := by omega
    rw [split, ← isUnit]
    simp only [Nat.pow_eq, Nat.pow_add]
    omega
  have positive : significand ≠ 0 := by
    rintro rfl
    exact rest (Nat.zero_mod _)
  have fine : ¬(2 ≤ exponent) := by omega
  have apart : ∀ count, unit * count ≠ significand := by
    rintro count rfl
    exact rest (Nat.mul_mod_right _ _)
  have some : 0 < unit := Nat.pos_of_ne_zero fun zero => by
    simp [zero] at isUnit
  have scaled : ((interval significand exponent).inUnits place).denominator =
      4 * unit * Nat.pow 10 place.toNat := by
    simp only [Interval.inUnits, whole, interval, fine, denominator, if_true, if_false]
  refine Interval.nearestWhole?_eq_none ?_ (fun count => ?_) ?_ ?_
  · rw [scaled]
    exact Nat.mul_pos (by omega) (Nat.pow_pos (by decide))
  · have multiple : count * ((interval significand exponent).inUnits place).denominator =
        4 * (unit * (Nat.pow 10 place.toNat * count)) := by
      rw [scaled]
      ring
    rw [multiple]
    have different := apart (Nat.pow 10 place.toNat * count)
    simp only [Interval.inUnits, whole, interval, fine, if_true, if_false, Nat.mul_one]
    split <;> omega
  · simp only [Interval.inUnits, whole, interval, fine, if_true, if_false, Nat.mul_one]
    omega
  · simp only [Interval.inUnits, whole, interval, fine, if_true, if_false, Nat.mul_one]
    omega

/-- The search for the fewest digits goes on below the point, unless it has ended before. -/
theorem Interval.coarsest_neg {interval : Interval}
    (none : ∀ place : Int, 0 ≤ place → (interval.inUnits place).nearestWhole? = none)
    {steps : Nat} (enough : place < steps) : (interval.coarsest steps place).2 < 0 := by
  induction steps generalizing place with
  | zero => simpa [coarsest] using enough
  | succ steps ih =>
      unfold coarsest
      split
      · next digits found =>
        by_contra whole
        rw [none place (by simpa using whole)] at found
        cases found
      · exact ih (by omega)

/-- A number that is not whole is written with digits below the point. -/
theorem shortest_neg (fractional : exponent < 0)
    (rest : significand % Nat.pow 2 (-exponent).toNat ≠ 0) :
    (shortest significand exponent).2 < 0 := by
  unfold shortest
  exact Interval.coarsest_neg (fun place whole => nearestWhole?_inUnits fractional rest whole)
    (by omega)

/-! ## Texts -/

/-- Digits with a point among them are written with a digit before it and one after. -/
theorem isPointed_positional (digits : Nat) {places : Nat} (some : 0 < places) :
    IsPointed (positional digits places).toList := by
  unfold positional
  extract_lets plain text point
  have numeral : ∀ char ∈ text, char.isDigit = true := by
    intro char member
    rcases List.mem_append.mp member with zero | digit
    · rw [List.eq_of_mem_replicate zero]
      decide
    · exact Scan.all_isDigit_toDigits digits char digit
  have long : places + 1 ≤ text.length := by
    simp only [text, List.length_append, List.length_replicate]
    omega
  rw [String.toList_ofList]
  refine ⟨text.take point, text.drop point, rfl, ?_, ?_,
    fun char member => numeral char (List.mem_of_mem_take member),
    fun char member => numeral char (List.mem_of_mem_drop member)⟩
  · refine List.ne_nil_of_length_pos ?_
    rw [List.length_take]
    omega
  · refine List.ne_nil_of_length_pos ?_
    rw [List.length_drop]
    omega

/-- A whole number with a point and a zero is a pointed numeral. -/
theorem isPointed_whole (number : Nat) : IsPointed (number.repr ++ ".0").toList := by
  refine ⟨Nat.toDigits 10 number, ['0'], ?_, Nat.toDigits_ne_nil, by simp,
    Scan.all_isDigit_toDigits number, by simp⟩
  rw [String.toList_append, Nat.toList_repr]
  rfl

/-- A finite magnitude has digits on both sides of its point. -/
theorem isPointed_text (significand : Nat) (exponent : Int) :
    IsPointed (Magnitude.finite significand exponent).text.toList := by
  unfold Magnitude.text
  dsimp only
  split
  · exact isPointed_whole _
  · next fractional =>
    split
    · exact isPointed_whole _
    · next rest =>
      have below := shortest_neg (Int.lt_of_not_ge fractional) rest
      exact isPointed_positional _ (by omega)

/-- The text of a number that is not infinite reads back where a sign may stand. -/
theorem legible_text {number : Binary64} (bounded : number.magnitude ≠ .infinite)
    {form : Notation} {signAllowed : Bool} (minus : Scan.AllowsMinus form signAllowed) :
    Token.Legible form signAllowed (.float number.text) := by
  unfold text
  cases known : number.magnitude with
  | infinite => exact absurd known bounded
  | undefined =>
      have unreserved : Keyword.ofWord? form "NaN".toList = none := by cases form <;> decide
      exact .inr (.inr ⟨(by decide : Token.IsWord "NaN"), unreserved⟩)
  | finite significand exponent =>
      have pointed := isPointed_text significand exponent
      cases number.isNegative with
      | false => exact .inl (by simpa using pointed)
      | true => exact .inr (.inl ⟨_, by simp [String.toList_append], pointed, minus⟩)

end ConceptualGraph.Binary64
