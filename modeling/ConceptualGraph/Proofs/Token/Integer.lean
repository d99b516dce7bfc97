/-
Module: ConceptualGraph.Proofs.Token.Integer
Purpose: A run of digits is scanned as the integer that it writes in the base of its form, as far
  as a signed word holds it, unless a fraction or an exponent follows.
Main exports: Numeral, Numeral.Ends, Numeral.OpensFloat, Scan.onward_numeral
-/
import ConceptualGraph.Proofs.Token.Positional
import ConceptualGraph.Proofs.Token.Quotation

namespace ConceptualGraph

/-! ## Runs of digits -/

/-- A run of digits without its sign: of decimal digits, or of hexadecimal ones after a cross. -/
inductive Numeral where
  | plain (digits : List Char)
  | crossed (cross : Char) (digits : List Char)

namespace Numeral

def digits : Numeral → List Char
  | .plain digits | .crossed _ digits => digits

/-- The characters of a run. -/
def chars : Numeral → List Char
  | .plain digits => digits
  | .crossed cross digits => '0' :: cross :: digits

/-- The base in which a run is read: a zero before other digits makes it octal. -/
def base : Numeral → Nat
  | .plain digits => if digits.head? = some '0' ∧ 1 < digits.length then 8 else 10
  | .crossed _ _ => 16

/-- What is wrong with a run that writes no integer. -/
def fault : Numeral → LexFault
  | .plain digits => .invalidInteger (String.ofList digits)
  | .crossed _ digits => .invalidHexadecimal (String.ofList digits)

/-- Whether a run is as long as it can be before the given text. -/
def Ends (rest : List Char) : Numeral → Prop
  | .plain digits =>
      Token.IsDigits digits ∧ (∀ char ∈ rest.head?, char.isDigit = false) ∧
        (digits = ['0'] → ∀ char ∈ rest.head?, char ≠ 'x' ∧ char ≠ 'X')
  | .crossed cross digits =>
      (cross = 'x' ∨ cross = 'X') ∧ (∀ char ∈ digits, ∃ value, Text.IsDigitOf 16 char value) ∧
        ∀ char ∈ rest.head?, ¬∃ value, Text.IsDigitOf 16 char value

/-- Whether a run is part of a float: decimal digits are, before a point and a digit, and before an
exponent with a digit. -/
def OpensFloat (rest : List Char) : Numeral → Prop
  | .plain _ => ∃ mark, (Token.IsPoint mark ∨ Token.IsPower mark) ∧ mark <+: rest
  | .crossed _ _ => False

/-- Every numeral has a base. -/
theorem base_pos (numeral : Numeral) : 0 < numeral.base := by
  unfold base
  repeat' split
  all_goals decide

/-- No numeral has a base beyond sixteen. -/
theorem base_le (numeral : Numeral) : numeral.base ≤ 16 := by
  unfold base
  repeat' split
  all_goals decide

end Numeral

namespace Scan

variable {form : Notation} {signAllowed negative : Bool} {numeral : Numeral}
  {digits rest : List Char}

/-! ## Fractions and exponents -/

/-- A fraction is there exactly where a point begins one. -/
theorem fraction_ne_nil_iff : fraction rest ≠ [] ↔ ∃ mark, Token.IsPoint mark ∧ mark <+: rest := by
  constructor
  · intro filled
    exact ⟨fraction rest, (fraction_shape rest).resolve_left filled, fraction_starts rest⟩
  · rintro ⟨_, ⟨digits, rfl, filled, all⟩, after, rfl⟩
    obtain ⟨digit, digits, rfl⟩ := List.exists_cons_of_ne_nil filled
    simp [fraction, all digit List.mem_cons_self]

/-- An exponent is taken where a sign of power stands, and there only. -/
theorem exponent_ne_nil_iff : exponent rest ≠ [] ↔ ∃ mark, Token.IsPower mark ∧ mark <+: rest := by
  constructor
  · intro filled
    exact ⟨exponent rest, (exponent_shape rest).resolve_left filled, exponent_starts rest⟩
  · rintro ⟨_, ⟨letter, sign, digits, rfl, mark, signs, filled, all⟩, after, rfl⟩
    obtain ⟨digit, digits, rfl⟩ := List.exists_cons_of_ne_nil filled
    have first := all digit List.mem_cons_self
    simp only [List.mem_cons, List.not_mem_nil, or_false] at signs
    rcases signs with rfl | rfl | rfl
    · -- Without a sign the digit may be the last character of the text.
      cases others : digits ++ after <;> simp [exponent, others, mark, first]
    · simp [exponent, mark, first]
    · simp [exponent, mark, first]

/-- A run of decimal digits is an integer where neither a fraction nor an exponent follows. -/
theorem not_opensFloat_iff : ¬(Numeral.plain digits).OpensFloat rest ↔
    fraction rest = [] ∧ exponent rest = [] := by
  simp only [Numeral.OpensFloat, or_and_right, exists_or, ← fraction_ne_nil_iff,
    ← exponent_ne_nil_iff]
  tauto

/-! ## Numbers without their signs -/

/-- Digits have an integer exactly if they write a magnitude that a signed word has room for. -/
theorem integer?_eq_some_iff {base : Nat} {value : Int} (few : base ≤ 16) :
    integer? negative base digits = some value ↔
      ∃ magnitude, Text.Writes base digits magnitude ∧ magnitude ≤ Text.largestSigned ∧
        value = if negative then -(magnitude : Int) else magnitude := by
  simp only [← Text.natural?_eq_some_iff few]
  constructor
  · exact exists_of_integer?
  · rintro ⟨magnitude, read, fits, rfl⟩
    simp [integer?, read, fits]

/-- Digits are read in base eight after a zero, and in base ten otherwise. -/
theorem baseOf_eq_base (digits : List Char) : baseOf digits = (Numeral.plain digits).base := by
  unfold baseOf Numeral.base
  split
  · simp
  · next other =>
    refine (if_neg ?_).symm
    rintro ⟨zero, more⟩
    obtain ⟨others, rfl⟩ := List.head?_eq_some_iff.mp zero
    cases others with
    | nil => exact absurd more (Nat.lt_irrefl 1)
    | cons second others => exact other second others rfl

/-- A numeral without a cross is read as a decimal one. -/
theorem number_plain (negative : Bool) (ends : (Numeral.plain digits).Ends rest) :
    number negative (digits ++ rest) = decimal negative (digits ++ rest) := by
  obtain ⟨⟨filled, all⟩, -, apart⟩ := ends
  obtain ⟨char, front, rfl⟩ := List.exists_cons_of_ne_nil filled
  exact number_eq_decimal all apart

/-- A numeral with a cross is read as a hexadecimal one. -/
theorem number_crossed (negative : Bool) {cross : Char} (mark : cross = 'x' ∨ cross = 'X')
    (source : List Char) : number negative ('0' :: cross :: source) =
      (hexadecimal negative source).after ['0', cross] id := by
  rcases mark with rfl | rfl <;> rfl

/-- What is read of a run that is not part of a float is settled by its digits. -/
theorem number_of_ends (negative : Bool) (ends : numeral.Ends rest)
    (whole : ¬numeral.OpensFloat rest) :
    number negative (numeral.chars ++ rest) =
      (integer? negative numeral.base numeral.digits).elim
        (.error ⟨numeral.fault, numeral.chars, rest⟩)
        fun value => .ok ⟨.int value, numeral.chars, rest⟩ := by
  cases numeral with
  | plain digits =>
      have read := number_plain negative ends
      obtain ⟨point, power⟩ := not_opensFloat_iff.mp whole
      obtain ⟨taken, dropped⟩ := digits_append ends.1.2 ends.2.1
      simp only [Numeral.chars, Numeral.digits, read, decimal, taken, dropped, point, power,
        List.length_nil, List.drop_zero, List.append_nil, List.isEmpty_nil, Bool.and_self, if_true,
        baseOf_eq_base]
      cases integer? negative (Numeral.plain digits).base digits <;> rfl
  | crossed cross digits =>
      obtain ⟨mark, all, next⟩ := ends
      have taken : run Text.isHexadecimal (digits ++ rest) = ⟨digits, digits, rest⟩ := by
        apply run_append
        · exact fun char member => Text.isHexadecimal_iff.mpr (all char member)
        · exact fun char first =>
            Bool.eq_false_iff.mpr fun digit => next char first (Text.isHexadecimal_iff.mp digit)
      simp only [Numeral.chars, Numeral.digits, Numeral.base, List.cons_append,
        number_crossed negative mark, hexadecimal, taken]
      cases integer? negative 16 digits <;> rfl

/-- A run that is part of a float is read together with all the float. -/
theorem number_of_opensFloat (negative : Bool) (ends : numeral.Ends rest)
    (opens : numeral.OpensFloat rest) :
    ∃ tail after, rest = tail ++ after ∧ Token.IsFloating (numeral.chars ++ tail) ∧
      number negative (numeral.chars ++ rest) =
        .ok ⟨.float (String.ofList (Token.signed negative (numeral.chars ++ tail))),
          numeral.chars ++ tail, after⟩ := by
  cases numeral with
  | crossed cross digits => exact opens.elim
  | plain digits =>
      have read := number_plain negative ends
      obtain ⟨taken, dropped⟩ := digits_append ends.1.2 ends.2.1
      have pointed : ¬(fraction rest = [] ∧ exponent (rest.drop (fraction rest).length) = []) := by
        rintro ⟨point, power⟩
        rw [point] at power
        exact not_opensFloat_iff.mpr ⟨point, power⟩ opens
      have splits := decimal_splits (digits ++ rest)
      simp only [taken, dropped, List.append_assoc] at splits
      refine ⟨fraction rest ++ exponent (rest.drop (fraction rest).length), _,
        (List.append_cancel_left splits).trans (List.append_assoc ..).symm, ?_, ?_⟩
      · exact ⟨digits, _, _, (List.append_assoc ..).symm, ends.1, fraction_shape rest,
          exponent_shape _, pointed⟩
      · have unequal : ((fraction rest).isEmpty &&
            (exponent (rest.drop (fraction rest).length)).isEmpty) = false := by
          simpa [List.isEmpty_iff] using pointed
        simp only [Numeral.chars, read, decimal, taken, dropped, unequal, Bool.false_eq_true,
          if_false, List.append_assoc]
        rfl

/-! ## Scanning numbers -/

/-- A numeral begins with a digit. -/
theorem exists_digit_of_ends (ends : numeral.Ends rest) :
    ∃ char front, numeral.chars = char :: front ∧ char.isDigit = true := by
  cases numeral with
  | plain digits =>
      obtain ⟨char, front, rfl⟩ := List.exists_cons_of_ne_nil ends.1.1
      exact ⟨char, front, rfl, ends.1.2 char List.mem_cons_self⟩
  | crossed cross digits => exact ⟨'0', cross :: digits, rfl, rfl⟩

/-- Scanning from a digit, or from a sign before it where a sign may stand, is reading a number. -/
theorem exists_step_signed (accepted : negative = true → AllowsMinus form signAllowed)
    {char : Char} (digit : char.isDigit = true) (front : List Char) :
    ∃ first others, Token.signed negative (char :: front) = first :: others ∧
      ∀ rest, step form signAllowed first (others ++ rest) =
        (number negative (char :: front ++ rest)).after (Token.signed negative []) .token := by
  cases negative with
  | false =>
      refine ⟨char, front, rfl, fun rest => ?_⟩
      rw [step_eq_token (isBlank_of_isDigit digit) (ne_of_isDigit _ digit (by decide)),
        token_eq_number digit]
      rfl
  | true =>
      refine ⟨'-', char :: front, rfl, fun rest => ?_⟩
      rw [List.cons_append, step_eq_token (by decide) (by decide),
        token_eq_negative digit (accepted rfl)]
      cases number true (char :: (front ++ rest)) <;> rfl

/-- A number that can be read is the first token. -/
theorem opens_signed (accepted : negative = true → AllowsMinus form signAllowed) {char : Char}
    {front : List Char} (digit : char.isDigit = true) {found : Token}
    (read : number negative (char :: front ++ rest) = .ok ⟨found, char :: front, rest⟩) :
    Opens form signAllowed (Token.signed negative (char :: front)) rest found := by
  obtain ⟨first, others, spelled, scanned⟩ := exists_step_signed accepted digit front
  exact ⟨first, others, _, spelled, by rw [scanned, read]; rfl⟩

/-- A number that cannot be read ends the scan after its digits. -/
theorem onward_of_stuck (accepted : negative = true → AllowsMinus form signAllowed) {char : Char}
    {front : List Char} (digit : char.isDigit = true) {fault : LexFault} (position : Position)
    (read : number negative (char :: front ++ rest) = .error ⟨fault, char :: front, rest⟩) :
    onward form position signAllowed (Token.signed negative (char :: front) ++ rest) =
      ⟨[], .error
        { fault
          position := position.advance (Token.signed negative (char :: front))
          found := rest.head?
          context := String.ofList ((rest.takeWhile (· ≠ '\n')).take 24) }⟩ := by
  obtain ⟨first, others, spelled, scanned⟩ := exists_step_signed accepted digit front
  have signed : Token.signed negative [] ++ char :: front =
      Token.signed negative (char :: front) := by cases negative <;> rfl
  rw [spelled, onward, List.cons_append, List.length_cons, scanFrom, scanned, read, ← spelled]
  simp only [Attempt.after, signed, Stuck.errorAt]

/-! ## Scanning runs of digits -/

section Runs

variable (accepted : negative = true → AllowsMinus form signAllowed) (ends : numeral.Ends rest)
  (position : Position)

include accepted ends

/-- A numeral that goes on as a floating one is one token, with all that belongs to it. -/
theorem onward_float (opens : numeral.OpensFloat rest) :
    ∃ tail after, rest = tail ++ after ∧ Token.IsFloating (numeral.chars ++ tail) ∧
      onward form position signAllowed (Token.signed negative numeral.chars ++ rest) =
        prepend [⟨.float (String.ofList (Token.signed negative (numeral.chars ++ tail))),
            ⟨position, position.advance (Token.signed negative (numeral.chars ++ tail))⟩⟩]
          (onward form (position.advance (Token.signed negative (numeral.chars ++ tail))) false
            after) := by
  obtain ⟨tail, after, rfl, floating, read⟩ := number_of_opensFloat negative ends opens
  obtain ⟨char, front, chars, digit⟩ := exists_digit_of_ends ends
  refine ⟨tail, after, rfl, floating, ?_⟩
  have signed : Token.signed negative numeral.chars ++ (tail ++ after) =
      Token.signed negative (numeral.chars ++ tail) ++ after := by
    cases negative <;> simp [Token.signed]
  rw [← List.append_assoc, chars, List.cons_append] at read
  rw [signed, chars, List.cons_append]
  exact onward_of_opens (opens_signed accepted digit read)

/-- A numeral of an integer is one token, and scanning goes on behind it. -/
theorem onward_int (whole : ¬numeral.OpensFloat rest) {value : Int}
    (known : integer? negative numeral.base numeral.digits = some value) :
    onward form position signAllowed (Token.signed negative numeral.chars ++ rest) =
      prepend [⟨.int value, ⟨position, position.advance (Token.signed negative numeral.chars)⟩⟩]
        (onward form (position.advance (Token.signed negative numeral.chars)) true rest) := by
  have read := number_of_ends negative ends whole
  obtain ⟨char, front, chars, digit⟩ := exists_digit_of_ends ends
  rw [known, Option.elim_some, chars] at read
  rw [chars]
  exact onward_of_opens (opens_signed accepted digit read)

/-- A numeral that stands for no integer of 64 bits is an error behind its last digit, whatever
follows. -/
theorem onward_invalid (whole : ¬numeral.OpensFloat rest)
    (invalid : integer? negative numeral.base numeral.digits = none) :
    onward form position signAllowed (Token.signed negative numeral.chars ++ rest) =
      ⟨[], .error
        { fault := numeral.fault
          position := position.advance (Token.signed negative numeral.chars)
          found := rest.head?
          context := String.ofList ((rest.takeWhile (· ≠ '\n')).take 24) }⟩ := by
  have read := number_of_ends negative ends whole
  obtain ⟨char, front, chars, digit⟩ := exists_digit_of_ends ends
  rw [invalid, Option.elim_none, chars] at read
  rw [chars]
  exact onward_of_stuck accepted digit position read

/-- A run is the beginning of a float only where one opens. -/
theorem float_first_iff :
    (∃ text span, (onward form position signAllowed
      (Token.signed negative numeral.chars ++ rest)).tokens.head? = some ⟨.float text, span⟩) ↔
      numeral.OpensFloat rest := by
  constructor
  · rintro ⟨text, span, first⟩
    by_contra whole
    cases known : integer? negative numeral.base numeral.digits with
    | none => simp [onward_invalid accepted ends position whole known] at first
    | some value => simp [onward_int accepted ends position whole known, prepend] at first
  · intro opens
    obtain ⟨tail, after, -, -, float⟩ := onward_float accepted ends position opens
    exact ⟨_, _, congrArg (List.head? ∘ Scan.tokens) float⟩

/-- An integer is scanned of a run exactly if it is what the digits write. -/
theorem int_first_iff (whole : ¬numeral.OpensFloat rest) (value : Int) :
    onward form position signAllowed (Token.signed negative numeral.chars ++ rest) =
        prepend [⟨.int value, ⟨position, position.advance (Token.signed negative numeral.chars)⟩⟩]
          (onward form (position.advance (Token.signed negative numeral.chars)) true rest) ↔
      integer? negative numeral.base numeral.digits = some value := by
  constructor
  · intro scanned
    have first := congrArg (List.head? ∘ Scan.tokens) scanned
    cases known : integer? negative numeral.base numeral.digits with
    | none =>
        rw [onward_invalid accepted ends position whole known] at first
        cases first
    | some other =>
        rw [onward_int accepted ends position whole known] at first
        simpa [prepend] using first
  · exact onward_int accepted ends position whole

end Runs

/-- Integers are scanned exactly.  A run of digits, after a sign where a sign may stand, is the
beginning of a float exactly if it is decimal and a point and a digit follow, or an exponent.
Otherwise it is the integer that its digits write in the base of its form, provided that they write
one whose magnitude a signed word holds; and if not, it is an error at the place after it.  The word
that is read of the digits can be multiplied by the sign without overflow. -/
theorem onward_numeral (accepted : negative = true → AllowsMinus form signAllowed)
    (ends : numeral.Ends rest) (position : Position) :
    let scanned := onward form position signAllowed (Token.signed negative numeral.chars ++ rest)
    let stop := position.advance (Token.signed negative numeral.chars)
    ((∃ text span, scanned.tokens.head? = some ⟨.float text, span⟩) ↔ numeral.OpensFloat rest) ∧
      (¬numeral.OpensFloat rest →
        (∀ value : Int,
          scanned = prepend [⟨.int value, ⟨position, stop⟩⟩] (onward form stop true rest) ↔
            ∃ magnitude, Text.Writes numeral.base numeral.digits magnitude ∧
              magnitude ≤ 2 ^ 63 - 1 ∧
              value = if negative then -(magnitude : Int) else magnitude) ∧
        ((¬∃ magnitude, Text.Writes numeral.base numeral.digits magnitude ∧
            magnitude ≤ 2 ^ 63 - 1) →
          scanned = ⟨[], .error
            { fault := numeral.fault
              position := stop
              found := rest.head?
              context := String.ofList ((rest.takeWhile (· ≠ '\n')).take 24) }⟩)) ∧
      ∀ word, Text.word? numeral.base numeral.digits = some word ↔
        ∃ magnitude product, Text.Writes numeral.base numeral.digits magnitude ∧
          magnitude ≤ 2 ^ 63 - 1 ∧ word = .ofNat 64 magnitude ∧
          Text.mulWord? (Text.signWord negative) word = some product ∧
          product.toInt = if negative then -(magnitude : Int) else magnitude := by
  intro scanned stop
  -- All parts come from the integer that the digits have, if they have one.
  have values (value : Int) : integer? negative numeral.base numeral.digits = some value ↔ _ :=
    integer?_eq_some_iff numeral.base_le
  refine ⟨float_first_iff accepted ends position, fun whole => ⟨fun value => ?_, fun none => ?_⟩,
    fun word => ?_⟩
  · exact (int_first_iff accepted ends position whole value).trans (values value)
  · apply onward_invalid accepted ends position whole
    rw [Option.eq_none_iff_forall_ne_some]
    intro value known
    obtain ⟨magnitude, writes, fits, -⟩ := (values value).mp known
    exact none ⟨magnitude, writes, fits⟩
  · rw [Text.word?_eq_some_iff numeral.base_pos numeral.base_le]
    constructor
    · rintro ⟨magnitude, writes, fits, rfl⟩
      obtain ⟨product, multiplied, value⟩ := Text.mulWord?_signWord negative fits
      exact ⟨magnitude, product, writes, fits, rfl, multiplied, value⟩
    · rintro ⟨magnitude, product, writes, fits, same, -⟩
      exact ⟨magnitude, writes, fits, same⟩

/-- The least integer there is, in octal digits where the linear form allows a sign; the number
after the greatest, in hexadecimal digits; and a digit before an exponent that has none. -/
theorem onward_numeral_limits :
    onward .linear {} true ('-' :: "0777777777777777777777".toList ++ [']']) =
        prepend [⟨.int (-(2 ^ 63 - 1)), ⟨{}, ⟨1, 24⟩⟩⟩] (onward .linear ⟨1, 24⟩ true [']']) ∧
      onward .cgif {} false ('0' :: 'x' :: "8000000000000000".toList ++ []) =
        ⟨[], .error ⟨.invalidHexadecimal "8000000000000000", ⟨1, 19⟩, none, ""⟩⟩ ∧
      ¬∃ text span,
        (onward .cgif {} false (['7'] ++ ['e', '+', ']'])).tokens.head? =
          some ⟨.float text, span⟩ := by
  have signed : true = true → AllowsMinus .linear true := fun _ => .inr rfl
  have unsigned : false = true → AllowsMinus .cgif false := nofun
  refine ⟨?_, ?_, ?_⟩
  · have ends : (Numeral.plain "0777777777777777777777".toList).Ends [']'] :=
      ⟨⟨nofun, List.all_eq_true.mp rfl⟩, by simp, nofun⟩
    have whole : ¬(Numeral.plain "0777777777777777777777".toList).OpensFloat [']'] :=
      not_opensFloat_iff.mpr ⟨rfl, rfl⟩
    have writes : Text.Writes 8 "0777777777777777777777".toList (2 ^ 63 - 1) :=
      (Text.natural?_eq_some_iff (by decide)).mp (by decide)
    obtain ⟨-, scans, -⟩ := onward_numeral signed ends {}
    exact ((scans whole).1 _).mpr ⟨2 ^ 63 - 1, writes, Nat.le_refl _, rfl⟩
  · have digits : "8000000000000000".toList.all Text.isHexadecimal = true := rfl
    have ends : (Numeral.crossed 'x' "8000000000000000".toList).Ends [] :=
      ⟨.inl rfl, fun char member => Text.isHexadecimal_iff.mp
        (List.all_eq_true.mp digits char member), nofun⟩
    obtain ⟨-, scans, -⟩ := onward_numeral unsigned ends {}
    apply (scans id).2
    rintro ⟨magnitude, writes, fits⟩
    have read := (Text.natural?_eq_some_iff (Nat.le_refl _)).mpr writes
    have value : Text.natural? 16 "8000000000000000".toList = some (2 ^ 63) := by decide
    obtain rfl := Option.some.inj (value.symm.trans read)
    exact absurd fits (by decide)
  · have ends : (Numeral.plain ['7']).Ends ['e', '+', ']'] :=
      ⟨⟨nofun, List.all_eq_true.mp rfl⟩, by simp, nofun⟩
    obtain ⟨floats, -, -⟩ := onward_numeral unsigned ends {}
    exact mt floats.mp (not_opensFloat_iff.mpr ⟨rfl, rfl⟩)

end Scan

end ConceptualGraph
