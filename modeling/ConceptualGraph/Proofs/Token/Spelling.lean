/-
Module: ConceptualGraph.Proofs.Token.Spelling
Purpose: A token that a graph is written with reads back from its spelling, provided
  that the character after it does not belong to it.
Main exports: Scan.Finds, Scan.Opens, Token.reread, Token.Legible, Token.EndsBefore
-/
import ConceptualGraph.Proofs.Token.Numeral
import ConceptualGraph.Writing.Piece

namespace ConceptualGraph

open Text (isBlank isAlphabetic)

namespace Scan

variable {form : Notation} {signAllowed : Bool}

/-! ## What scanning finds -/

/-- Scanning a text to its end finds the given tokens. -/
def Finds (form : Notation) (signAllowed : Bool) (source : List Char) (tokens : List Token) :
    Prop :=
  ∀ steps position, source.length ≤ steps →
    ∃ located stop, scanFrom form steps position signAllowed source = ⟨located, .ok stop⟩ ∧
      located.map Located.token = tokens

/-- A spelling is the first token of a text in which `rest` follows it. -/
def Opens (form : Notation) (signAllowed : Bool) (spelled rest : List Char) (token : Token) :
    Prop :=
  ∃ char front text, spelled = char :: front ∧
    step form signAllowed char (front ++ rest) = .ok ⟨.token token, text, rest⟩

theorem Finds.nil : Finds form signAllowed [] [] := by
  intro steps position _
  exact ⟨[], position, by cases steps <;> rfl, rfl⟩

/-- What begins with a token is found with the token first. -/
theorem Finds.token {spelled rest : List Char} {token : Token} {tokens : List Token}
    (first : Opens form signAllowed spelled rest token)
    (others : Finds form (signAfter signAllowed token) rest tokens) :
    Finds form signAllowed (spelled ++ rest) (token :: tokens) := by
  intro steps position enough
  obtain ⟨char, front, text, rfl, opened⟩ := first
  cases steps with
  | zero => simp at enough
  | succ steps =>
      have remaining : rest.length ≤ steps := by
        simp only [List.cons_append, List.length_cons, List.length_append] at enough
        omega
      obtain ⟨located, stop, scanned, found⟩ :=
        others steps (position.advance text) remaining
      refine ⟨⟨token, ⟨position, position.advance text⟩⟩ :: located, stop, ?_, by simp [found]⟩
      simp only [List.cons_append, scanFrom, opened, scanned]

/-- Scanning passes over white space at once. -/
theorem scanFrom_blank {steps : Nat} {position : Position} {char : Char} {rest : List Char}
    (blank : isBlank char = true) :
    scanFrom form (steps + 1) position signAllowed (char :: rest) =
      scanFrom form steps (position.advance (char :: rest.takeWhile isBlank)) signAllowed
        (rest.dropWhile isBlank) := by
  simp only [scanFrom, step, blank, if_true]

/-- A blank before the first token of a text is passed over. -/
theorem Finds.blank {char : Char} {rest : List Char} {tokens : List Token}
    (blank : isBlank char = true) (others : Finds form signAllowed rest tokens) :
    Finds form signAllowed (char :: rest) tokens := by
  intro steps position enough
  obtain ⟨steps, rfl⟩ := Nat.exists_eq_succ_of_ne_zero (Nat.ne_of_gt (Nat.lt_of_lt_of_le
    (Nat.succ_pos _) enough))
  have remaining : rest.length ≤ steps := Nat.le_of_succ_le_succ enough
  rw [scanFrom_blank blank]
  cases rest with
  | nil => exact others steps _ remaining
  | cons next rest =>
      by_cases more : isBlank next = true
      · -- More white space is passed over together with the first blank.
        have together := others (steps + 1) (position.advance [char])
          (Nat.le_succ_of_le remaining)
        rw [scanFrom_blank more] at together
        rw [List.takeWhile_cons_of_pos more, List.dropWhile_cons_of_pos more]
        exact together
      · rw [List.takeWhile_cons_of_neg more, List.dropWhile_cons_of_neg more]
        exact others steps _ remaining

/-- White space before the first token of a text is passed over. -/
theorem Finds.blanks {space rest : List Char} {tokens : List Token}
    (blank : ∀ char ∈ space, isBlank char = true)
    (others : Finds form signAllowed rest tokens) :
    Finds form signAllowed (space ++ rest) tokens := by
  induction space with
  | nil => exact others
  | cons char space ih =>
      exact (ih fun other member => blank other (List.mem_cons_of_mem _ member)).blank
        (blank char (List.mem_cons_self ..))

/-! ## Kinds of characters -/

/-- No character before the capital letters is alphabetic. -/
theorem isAlphabetic_of_lt {char : Char} (small : char.toNat < 0x41) :
    isAlphabetic char = false := by
  unfold isAlphabetic Text.alphabeticPoints Text.CodePoints.contains
  exact if_pos small

theorem continuesWord_of_isDigit {char : Char} (digit : char.isDigit = true) :
    continuesWord char = true := by
  have range := Text.toNat_of_isDigit digit
  have numeric : Text.isNumeric char = true := by
    unfold Text.isNumeric Text.numericPoints Text.CodePoints.contains
    rw [if_neg (by omega)]
    simp [range.2]
  simp [continuesWord, numeric]

/-- The code points of white space, one by one. -/
def blankCodes : List Nat :=
  [0x9, 0xa, 0xb, 0xc, 0xd, 0x20, 0x85, 0xa0, 0x1680, 0x2000, 0x2001, 0x2002, 0x2003, 0x2004,
   0x2005, 0x2006, 0x2007, 0x2008, 0x2009, 0x200a, 0x2028, 0x2029, 0x202f, 0x205f, 0x3000]

theorem mem_blankCodes {char : Char} (blank : isBlank char = true) :
    char.toNat ∈ blankCodes := by
  simp [isBlank, Text.blankPoints, Text.CodePoints.contains] at blank
  simp [blankCodes]
  omega

theorem alphabeticPoints_of_mem_blankCodes :
    ∀ point ∈ blankCodes, Text.CodePoints.contains point Text.alphabeticPoints = false := by
  decide +kernel

theorem isBlank_of_startsWord {char : Char} (starts : startsWord char = true) :
    isBlank char = false := by
  by_contra blank
  have member := mem_blankCodes (by simpa using blank)
  have letter := alphabeticPoints_of_mem_blankCodes _ member
  have underscore : char ≠ '_' := by
    rintro rfl
    exact absurd member (by decide)
  simp [startsWord, isAlphabetic, letter, underscore] at starts

/-- No character before the capital letters begins a word. -/
theorem not_startsWord_of_lt {char : Char} (small : char.toNat < 0x41) :
    startsWord char = false := by
  have underscore : char ≠ '_' := by
    rintro rfl
    exact absurd small (by decide)
  simp [startsWord, isAlphabetic_of_lt small, underscore]

/-- No digit is blank. -/
theorem isBlank_of_isDigit {char : Char} (digit : char.isDigit = true) :
    isBlank char = false := by
  have range := Text.toNat_of_isDigit digit
  by_contra blank
  have member := mem_blankCodes (by simpa using blank)
  simp [blankCodes] at member
  omega

/-! ## Runs -/

/-- A run ends where the next character fails its test. -/
theorem run_append {test : Char → Bool} {front rest : List Char}
    (inside : ∀ char ∈ front, test char = true)
    (next : ∀ char ∈ rest.head?, test char = false) :
    run test (front ++ rest) = ⟨front, front, rest⟩ := by
  have taken : rest.takeWhile test = [] := by
    cases rest with
    | nil => rfl
    | cons char rest => simp [next char (by simp)]
  have dropped : rest.dropWhile test = rest := by
    cases rest with
    | nil => rfl
    | cons char rest => simp [next char (by simp)]
  simp [run, List.takeWhile_append_of_pos inside, List.dropWhile_append_of_pos inside, taken,
    dropped]

end Scan

/-! ## Conditions on a token -/

/-- Whether a text is a word: a character that begins words, and others that go on. -/
def Token.IsWord (word : String) : Prop :=
  (word.toList.head?.any Scan.startsWord && word.toList.all Scan.continuesWord) = true

instance (word : String) : Decidable (Token.IsWord word) :=
  inferInstanceAs (Decidable (_ = true))

/-- Whether a text is a numeral with a point, with digits on both sides of it. -/
def Token.IsPointed (text : List Char) : Prop :=
  ∃ whole fraction, text = whole ++ '.' :: fraction ∧ whole ≠ [] ∧ fraction ≠ [] ∧
    (∀ char ∈ whole, char.isDigit = true) ∧ ∀ char ∈ fraction, char.isDigit = true

/-- The token that the spelling of a token reads back as.  A reserved word is read as
such, and so is a number without a value in digits as a word. -/
def Token.reread (form : Notation) : Token → Token
  | .ident word =>
      match Keyword.ofWord? form word.toList with
      | some reserved => .keyword reserved
      | none => .ident word
  | .float text => if text.toList.head?.any Scan.startsWord then .ident text else .float text
  | token => token

/-- Whether a number with this sign may stand here. -/
def Scan.AllowsMinus (form : Notation) (signAllowed : Bool) : Prop :=
  form = .cgif ∨ signAllowed = true

/-- Whether the spelling of a token reads back, given the tokens before it. -/
def Token.Legible (form : Notation) (signAllowed : Bool) : Token → Prop
  | .ident word | .defLabel word | .boundLabel word => IsWord word
  | .int value =>
      value.natAbs ≤ Text.largestSigned ∧ (value < 0 → Scan.AllowsMinus form signAllowed)
  | .float text =>
      IsPointed text.toList ∨
      (∃ digits, text.toList = '-' :: digits ∧ IsPointed digits ∧
        Scan.AllowsMinus form signAllowed) ∨
      IsWord text ∧ Keyword.ofWord? form text.toList = none
  | .str _ | .name _ => True
  | .marker digits => ∃ text, digits = some text ∧ text ≠ "" ∧ text.toList.all Char.isDigit = true
  | .nodeComment _ text =>
      Text.trim text.toList = text.toList ∧
        text.toList.all (fun char => (NodeKind.ofCloser? char).isNone) = true
  | .formalComment text =>
      Text.trim text.toList = text.toList ∧ ¬ ['*', '/'] <:+: text.toList
  | .punct .rightArrow | .punct .hyphen => form = .linear
  | .punct .leftArrow | .punct .star | .punct .question => False
  | .punct _ => True
  | .keyword _ | .endOfInput => False

/-- Whether a token ends where the given text follows it. -/
def Token.EndsBefore (form : Notation) (rest : List Char) : Token → Prop
  | .ident _ | .defLabel _ | .boundLabel _ =>
      ∀ char ∈ rest.head?, Scan.continuesWord char = false
  | .int _ | .float _ => ∀ char ∈ rest.head?, Scan.continuesWord char = false ∧ char ≠ '.'
  | .marker _ => ∀ char ∈ rest.head?, char.isDigit = false
  | .nodeComment node _ => rest.head?.bind NodeKind.ofCloser? = some node
  | .punct .leftAngle => form = .linear → rest.head? ≠ some '-'
  | .punct .hyphen => ∀ char ∈ rest.head?, char.isDigit = false ∧ char ≠ '>'
  | _ => True

end ConceptualGraph
