/-
Module: ConceptualGraph.Proofs.Token.Opening
Purpose: Scanning from the spelling of a token gives the token, kind by kind.
Main exports: Scan.opens_spelling
-/
import ConceptualGraph.Proofs.Token.Spelling

namespace ConceptualGraph.Scan

open Text (isBlank)

variable {form : Notation} {signAllowed : Bool} {rest : List Char}

/-- Apart from white space and comments, a step of scanning is a token. -/
theorem step_eq_token {char : Char} (blank : isBlank char = false) (slash : char ≠ '/') :
    step form signAllowed char rest = (token form signAllowed char rest).after [] .token := by
  simp only [step, blank, Bool.false_eq_true, if_false]
  split <;> first | rfl | exact absurd rfl slash

/-- A token opens with a character that is not blank and begins no comment. -/
theorem Opens.of_token {char : Char} {front : List Char} {found : Token} (text : List Char)
    (blank : isBlank char = false) (slash : char ≠ '/')
    (scanned : token form signAllowed char (front ++ rest) = .ok ⟨found, text, rest⟩) :
    Opens form signAllowed (char :: front) rest found :=
  ⟨char, front, text, rfl, by rw [step_eq_token blank slash, scanned]; rfl⟩

/-! ## Words and labels -/

/-- A word begins with no character before the capital letters. -/
theorem le_of_startsWord {char : Char} (starts : startsWord char = true) :
    0x41 ≤ char.toNat := by
  by_contra small
  exact absurd starts (by simp [not_startsWord_of_lt (by omega : char.toNat < 0x41)])

/-- A word begins with no digit. -/
theorem isDigit_of_startsWord {char : Char} (starts : startsWord char = true) :
    char.isDigit = false := by
  by_contra digit
  have := le_of_startsWord starts
  have := Text.toNat_of_isDigit (by simpa using digit)
  omega

/-- A word begins with none of the characters before the capital letters. -/
theorem ne_of_startsWord {char : Char} (other : Char) (starts : startsWord char = true)
    (small : other.toNat < 0x41) : char ≠ other := by
  rintro rfl
  have := le_of_startsWord starts
  omega

/-- A word starts with a character that may begin one, and all others may continue it. -/
theorem exists_of_isWord {word : String} (legible : Token.IsWord word) :
    ∃ char front, word.toList = char :: front ∧ startsWord char = true ∧
      ∀ other ∈ char :: front, continuesWord other = true := by
  unfold Token.IsWord at legible
  cases chars : word.toList with
  | nil => simp [chars] at legible
  | cons char front =>
      rw [chars, List.head?_cons, Option.any_some, Bool.and_eq_true] at legible
      exact ⟨char, front, rfl, legible.1, List.all_eq_true.mp legible.2⟩

/-- A word opens a text if what follows it does not go on with it. -/
theorem opens_word {spelled : String} (legible : Token.IsWord spelled)
    (next : ∀ char ∈ rest.head?, continuesWord char = false) :
    Opens form signAllowed spelled.toList rest ((Token.ident spelled).reread form) := by
  obtain ⟨char, front, chars, starts, continues⟩ := exists_of_isWord legible
  have taken : run continuesWord (char :: front ++ rest) = ⟨char :: front, char :: front, rest⟩ :=
    run_append continues next
  rw [← chars] at taken
  rw [chars]
  refine Opens.of_token spelled.toList (isBlank_of_startsWord starts)
    (ne_of_startsWord _ starts (by decide)) ?_
  have double := ne_of_startsWord '"' starts (by decide)
  have single := ne_of_startsWord '\'' starts (by decide)
  cases reserved : Keyword.ofWord? form spelled.toList <;>
    simp only [token, double, single, isDigit_of_startsWord starts, starts, if_true, if_false,
      Bool.false_eq_true, word, ← List.cons_append, ← chars, taken, String.ofList_toList,
      Token.reread, reserved]

/-- A label after its sign, which is one of the marks that open labels. -/
theorem opens_label {sign : Char} {name : String} {found : String → Token}
    (legible : Token.IsWord name)
    (next : ∀ char ∈ rest.head?, continuesWord char = false)
    (opening : ∀ source : List Char, source.head?.any startsWord = true →
      token form signAllowed sign source = .ok (label sign found source))
    (blank : isBlank sign = false) (slash : sign ≠ '/') :
    Opens form signAllowed (sign :: name.toList) rest (found name) := by
  obtain ⟨char, front, chars, starts, continues⟩ := exists_of_isWord legible
  have taken : run continuesWord (char :: front ++ rest) = ⟨char :: front, char :: front, rest⟩ :=
    run_append continues next
  refine Opens.of_token (sign :: char :: front) blank slash ?_
  rw [chars, opening _ (by simpa using starts), label, taken, ← chars, String.ofList_toList]

/-- A star and a word open a defining label where the word ends. -/
theorem opens_defLabel {name : String} (legible : Token.IsWord name)
    (next : ∀ char ∈ rest.head?, continuesWord char = false) :
    Opens form signAllowed ('*' :: name.toList) rest (.defLabel name) :=
  opens_label legible next
    (fun source begins => by
      have letter : startsWord '*' = false := not_startsWord_of_lt (by decide)
      simp [token, letter, begins])
    (by decide) (by decide)

/-- A question mark and a word open a bound label where the word ends. -/
theorem opens_boundLabel {name : String} (legible : Token.IsWord name)
    (next : ∀ char ∈ rest.head?, continuesWord char = false) :
    Opens form signAllowed ('?' :: name.toList) rest (.boundLabel name) :=
  opens_label legible next
    (fun source begins => by
      have letter : startsWord '?' = false := not_startsWord_of_lt (by decide)
      simp [token, letter, begins])
    (by decide) (by decide)

/-! ## Markers and numbers -/

/-- A marker opens a text if no digit follows it. -/
theorem opens_marker {digits : String} (nonempty : digits ≠ "")
    (all : digits.toList.all Char.isDigit = true)
    (next : ∀ char ∈ rest.head?, char.isDigit = false) :
    Opens form signAllowed ('#' :: digits.toList) rest (.marker (some digits)) := by
  have taken : run Char.isDigit (digits.toList ++ rest) = ⟨digits.toList, digits.toList, rest⟩ :=
    run_append (List.all_eq_true.mp all) next
  have letter : startsWord '#' = false := not_startsWord_of_lt (by decide)
  have filled : digits.toList.isEmpty = false := by simpa using nonempty
  refine Opens.of_token ('#' :: digits.toList) (by decide) (by decide) ?_
  simp [token, letter, marker, taken, filled]

/-- A digit is none of the other characters. -/
theorem ne_of_isDigit {char : Char} (other : Char) (digit : char.isDigit = true)
    (outside : other.toNat < 48 ∨ 57 < other.toNat) : char ≠ other := by
  rintro rfl
  have := Text.toNat_of_isDigit digit
  omega

/-- A run of digits is not taken for the opening of a hexadecimal number. -/
theorem number_eq_decimal {negative : Bool} {char : Char} {front : List Char}
    (digits : ∀ other ∈ char :: front, other.isDigit = true)
    (next : char :: front = ['0'] → ∀ other ∈ rest.head?, other ≠ 'x' ∧ other ≠ 'X') :
    number negative (char :: front ++ rest) = decimal negative (char :: front ++ rest) := by
  unfold number
  split
  next source later equal =>
      exfalso
      cases front with
      | nil =>
          obtain ⟨rfl, rfl⟩ := List.cons.inj equal
          exact (next rfl 'x' rfl).1 rfl
      | cons second front =>
          simp only [List.cons_append, List.cons.injEq] at equal
          exact ne_of_isDigit _ (digits second (by simp)) (by decide) equal.2.1
  next source later equal =>
      exfalso
      cases front with
      | nil =>
          obtain ⟨rfl, rfl⟩ := List.cons.inj equal
          exact (next rfl 'X' rfl).2 rfl
      | cons second front =>
          simp only [List.cons_append, List.cons.injEq] at equal
          exact ne_of_isDigit _ (digits second (by simp)) (by decide) equal.2.1
  next => rfl

/-- Without a point there is no fraction. -/
theorem fraction_eq_nil (next : ∀ char ∈ rest.head?, char ≠ '.') : fraction rest = [] := by
  unfold fraction
  split
  next => exact absurd rfl (next '.' rfl)
  next => rfl

/-- No exponent is taken where what follows goes on with no word. -/
theorem exponent_eq_nil (next : ∀ char ∈ rest.head?, continuesWord char = false) :
    exponent rest = [] := by
  have small : continuesWord 'e' = true := by decide
  have large : continuesWord 'E' = true := by decide
  have other : ∀ char ∈ rest.head?, char ≠ 'e' ∧ char ≠ 'E' := by
    intro char first
    constructor
    · rintro rfl; simp [next 'e' first] at small
    · rintro rfl; simp [next 'E' first] at large
  unfold exponent
  split
  next => simp [other _ rfl]
  next => simp [other _ rfl]
  next => rfl

/-- Digits are taken up to the first character that is none. -/
theorem digits_append {front : List Char} (digits : ∀ char ∈ front, char.isDigit = true)
    (next : ∀ char ∈ rest.head?, char.isDigit = false) :
    (front ++ rest).takeWhile Char.isDigit = front ∧
      (front ++ rest).dropWhile Char.isDigit = rest :=
  have taken : run Char.isDigit (front ++ rest) = ⟨front, front, rest⟩ := run_append digits next
  ⟨congrArg Taken.value taken, congrArg Taken.rest taken⟩

/-- What may follow a number: nothing that could be part of it. -/
theorem not_isDigit_of_next (next : ∀ char ∈ rest.head?, continuesWord char = false) :
    ∀ char ∈ rest.head?, char.isDigit = false := by
  intro char first
  by_contra digit
  exact absurd (continuesWord_of_isDigit (by simpa using digit)) (by simp [next char first])

/-- The digits of a number that fits are read as an integer where no more digits and no fraction
follow. -/
theorem decimal_toDigits {negative : Bool} {number : Nat} (fits : number ≤ Text.largestSigned)
    (next : ∀ char ∈ rest.head?, continuesWord char = false ∧ char ≠ '.') :
    decimal negative (Nat.toDigits 10 number ++ rest) =
      .ok ⟨.int (if negative then -(number : Int) else number), Nat.toDigits 10 number, rest⟩ := by
  obtain ⟨taken, dropped⟩ := digits_append (all_isDigit_toDigits number)
    (not_isDigit_of_next fun char first => (next char first).1)
  have point : fraction rest = [] := fraction_eq_nil fun char first => (next char first).2
  have power : exponent rest = [] := exponent_eq_nil fun char first => (next char first).1
  simp [decimal, taken, dropped, point, power, integer?_toDigits negative fits]

/-- A number with a point is scanned whole if what follows does not go on with it. -/
theorem decimal_pointed (negative : Bool) {text : List Char} (pointed : Token.IsPointed text)
    (next : ∀ char ∈ rest.head?, continuesWord char = false) :
    decimal negative (text ++ rest) =
      .ok ⟨.float (String.ofList (if negative then '-' :: text else text)), text, rest⟩ := by
  obtain ⟨whole, digits, rfl, -, nonempty, wholeDigits, allDigits⟩ := pointed
  obtain ⟨char, digits, rfl⟩ := List.exists_cons_of_ne_nil nonempty
  have first : char.isDigit = true := allDigits char (by simp)
  have pointNext : ∀ other ∈ ('.' :: char :: digits ++ rest).head?, other.isDigit = false := by
    rintro other ⟨⟩
    decide
  have innerDigits : ∀ other ∈ digits, other.isDigit = true := fun other member =>
    allDigits other (List.mem_cons_of_mem _ member)
  obtain ⟨taken, dropped⟩ := digits_append wholeDigits pointNext
  obtain ⟨inner, -⟩ := digits_append innerDigits (not_isDigit_of_next next)
  have point : fraction ('.' :: char :: digits ++ rest) = '.' :: char :: digits := by
    simp [fraction, first, inner]
  have power : exponent rest = [] := exponent_eq_nil next
  simp only [List.append_assoc, List.cons_append] at taken dropped point ⊢
  simp [decimal, taken, dropped, point, power]

/-- A number without a sign. -/
theorem token_eq_number {char : Char} {source : List Char} (digit : char.isDigit = true) :
    token form signAllowed char source = number false (char :: source) := by
  have double := ne_of_isDigit '"' digit (by decide)
  have single := ne_of_isDigit '\'' digit (by decide)
  simp [token, double, single, digit]

/-- A number after a minus sign. -/
theorem token_eq_negative {char : Char} {source : List Char} (digit : char.isDigit = true)
    (allowed : AllowsMinus form signAllowed) :
    token form signAllowed '-' (char :: source) =
      (number true (char :: source)).after ['-'] id := by
  have letter : startsWord '-' = false := not_startsWord_of_lt (by decide)
  have opened : minus form signAllowed (char :: source) =
      (number true (char :: source)).after ['-'] id := by
    cases form with
    | cgif => simp [minus, digitFollows, digit]
    | linear =>
        obtain ⟨⟨⟩⟩ | rfl := allowed
        simp [minus, digitFollows, digit]
  simp [token, letter, opened]

/-- No zero of a numeral is mistaken for the prefix of a hexadecimal one. -/
theorem next_ne_x {digits : List Char}
    (next : ∀ char ∈ rest.head?, continuesWord char = false) :
    digits = ['0'] → ∀ char ∈ rest.head?, char ≠ 'x' ∧ char ≠ 'X' := by
  have small : continuesWord 'x' = true := by decide
  have large : continuesWord 'X' = true := by decide
  intro _ char first
  constructor
  · rintro rfl; simp [next 'x' first] at small
  · rintro rfl; simp [next 'X' first] at large

/-- An integer opens a text in decimal digits, with a sign where one may stand. -/
theorem opens_int {value : Int} (fits : value.natAbs ≤ Text.largestSigned)
    (sign : value < 0 → AllowsMinus form signAllowed)
    (next : ∀ char ∈ rest.head?, continuesWord char = false ∧ char ≠ '.') :
    Opens form signAllowed value.repr.toList rest (.int value) := by
  have word : ∀ char ∈ rest.head?, continuesWord char = false :=
    fun char first => (next char first).1
  obtain ⟨char, front, digits⟩ := List.exists_cons_of_ne_nil
    (Nat.toDigits_ne_nil (n := value.natAbs) (b := 10))
  have all := all_isDigit_toDigits value.natAbs
  rw [digits] at all
  have decimalDigits : ∀ negative, decimal negative (char :: front ++ rest) =
      .ok ⟨.int (if negative then -(value.natAbs : Int) else value.natAbs), char :: front, rest⟩ :=
    fun negative => by rw [← digits]; exact decimal_toDigits fits next
  rw [Int.repr_eq_if]
  by_cases negative : 0 ≤ value
  · rw [if_pos negative]
    have same : (value.natAbs : Int) = value := by omega
    have chars : value.toNat.repr.toList = char :: front := by
      rw [Nat.toList_repr, ← digits]; congr 1; omega
    rw [chars]
    refine Opens.of_token (char :: front) (isBlank_of_isDigit (all char (by simp)))
      (ne_of_isDigit _ (all char (by simp)) (by decide)) ?_
    rw [token_eq_number (all char (by simp)), ← List.cons_append,
      number_eq_decimal all (next_ne_x word), decimalDigits]
    simp [same]
  · rw [if_neg negative]
    have same : -(value.natAbs : Int) = value := by omega
    have chars : ("-" ++ (-value).toNat.repr).toList = '-' :: char :: front := by
      rw [String.toList_append, Nat.toList_repr, ← digits]
      simp only [String.reduceToList, List.cons_append, List.nil_append]
      congr 2; omega
    rw [chars]
    refine Opens.of_token ('-' :: char :: front) (by decide) (by decide) ?_
    rw [List.cons_append, token_eq_negative (all char (by simp)) (sign (by omega)),
      ← List.cons_append, number_eq_decimal all (next_ne_x word), decimalDigits]
    rw [if_pos rfl, same]
    rfl

/-- A floating number opens a text if it is written with a point. -/
theorem opens_float {text : String} (pointed : Token.IsPointed text.toList)
    (next : ∀ char ∈ rest.head?, continuesWord char = false) :
    Opens form signAllowed text.toList rest (.float text) := by
  have scanned := decimal_pointed false pointed next
  obtain ⟨whole, digits, chars, filled, -, wholeDigits, -⟩ := pointed
  obtain ⟨char, whole, rfl⟩ := List.exists_cons_of_ne_nil filled
  have digit : char.isDigit = true := wholeDigits char (by simp)
  rw [← String.ofList_toList (s := text), chars] at scanned ⊢
  rw [String.toList_ofList] at scanned ⊢
  refine Opens.of_token (char :: whole ++ '.' :: digits) (isBlank_of_isDigit digit)
    (ne_of_isDigit _ digit (by decide)) ?_
  rw [token_eq_number digit]
  have split : char :: (whole.append ('.' :: digits) ++ rest) =
      char :: whole ++ ('.' :: digits ++ rest) := by simp
  rw [split, number_eq_decimal wholeDigits fun _ other first => by
    obtain rfl : '.' = other := by simpa using first
    decide]
  simpa using scanned

/-- So does a negative one where a sign may stand. -/
theorem opens_negativeFloat {text : String} {digits : List Char}
    (chars : text.toList = '-' :: digits) (pointed : Token.IsPointed digits)
    (allowed : AllowsMinus form signAllowed)
    (next : ∀ char ∈ rest.head?, continuesWord char = false) :
    Opens form signAllowed text.toList rest (.float text) := by
  have scanned := decimal_pointed true pointed next
  obtain ⟨whole, fraction, rfl, filled, -, wholeDigits, -⟩ := pointed
  obtain ⟨char, whole, rfl⟩ := List.exists_cons_of_ne_nil filled
  have digit : char.isDigit = true := wholeDigits char (by simp)
  rw [← String.ofList_toList (s := text), chars, String.toList_ofList]
  refine Opens.of_token ('-' :: (char :: whole ++ '.' :: fraction)) (by decide)
    (by decide) ?_
  have split : char :: whole ++ '.' :: fraction ++ rest =
      char :: whole ++ ('.' :: fraction ++ rest) := by simp
  rw [split, List.cons_append, token_eq_negative digit allowed, ← List.cons_append,
    number_eq_decimal wholeDigits fun _ other first => by
      obtain rfl : '.' = other := by simpa using first
      decide]
  rw [split] at scanned
  rw [scanned]
  rfl

/-! ## Quotes and comments -/

/-- A quotation ends with its delimiter. -/
theorem quotedBody_close {delimiter : Char} (line : delimiter ≠ '\n') :
    quotedBody delimiter (delimiter :: rest) = .ok ⟨[], [delimiter], rest⟩ := by
  rw [quotedBody.eq_def]
  simp [line]

/-- A plain character is quoted as it stands. -/
theorem quotedBody_plain {delimiter char : Char} (line : char ≠ '\n') (slash : char ≠ '\\')
    (inside : char ≠ delimiter) :
    quotedBody delimiter (char :: rest) = (quotedBody delimiter rest).after [char] (char :: ·) := by
  rw [quotedBody.eq_def]
  simp [line, slash, inside]

/-- Escapes are undone between any two delimiters that are no letter of an escape. -/
theorem quotedBody_escaped {delimiter : Char} (delimits : delimiter = '"' ∨ delimiter = '\'')
    (text : List Char) :
    quotedBody delimiter (text.flatMap (Text.escaped delimiter) ++ delimiter :: rest) =
      .ok ⟨text, text.flatMap (Text.escaped delimiter) ++ [delimiter], rest⟩ := by
  have line : delimiter ≠ '\n' := by rcases delimits with rfl | rfl <;> decide
  have slash : delimiter ≠ '\\' := by rcases delimits with rfl | rfl <;> decide
  have plain : Text.unescape delimiter = delimiter := by
    rcases delimits with rfl | rfl <;> decide
  induction text with
  | nil => exact quotedBody_close line
  | cons char text ih =>
      rw [List.flatMap_cons, List.append_assoc]
      have escape : ∀ code, Text.escaped delimiter char = ['\\', code] →
          Text.unescape code = char →
          quotedBody delimiter (Text.escaped delimiter char ++
              (text.flatMap (Text.escaped delimiter) ++ delimiter :: rest)) =
            .ok ⟨char :: text, Text.escaped delimiter char ++
              (text.flatMap (Text.escaped delimiter) ++ [delimiter]), rest⟩ := by
        intro code written meaning
        rw [written]
        simp only [List.cons_append, List.nil_append, quotedBody, ih, Attempt.after, meaning]
        simp [Ne.symm slash]
      rw [List.append_assoc]
      by_cases special : ∃ code, Text.escaped delimiter char = ['\\', code] ∧
          Text.unescape code = char
      · obtain ⟨code, written, meaning⟩ := special
        exact escape code written meaning
      · have literal : Text.escaped delimiter char = [char] ∧ char ≠ '\n' ∧ char ≠ '\\' ∧
            char ≠ delimiter := by
          unfold Text.escaped at special ⊢
          split at special <;> try exact absurd ⟨_, rfl, by decide⟩ special
          next =>
            by_cases same : char = delimiter
            · exact absurd ⟨char, by simp [same], same ▸ plain⟩ special
            · simp_all
        obtain ⟨written, noLine, noSlash, noDelimiter⟩ := literal
        rw [written]
        simp [quotedBody_plain noLine noSlash noDelimiter, ih, Attempt.after]

/-- A quotation opens a text, whatever it quotes and whatever follows. -/
theorem opens_quoted {delimiter : Char} {found : String → Token} {text : String}
    (delimits : delimiter = '"' ∨ delimiter = '\'')
    (opening : ∀ source, token form signAllowed delimiter source = quote delimiter found source) :
    Opens form signAllowed (Text.quoted delimiter text.toList) rest (found text) := by
  have blank : isBlank delimiter = false := by rcases delimits with rfl | rfl <;> decide
  have slash : delimiter ≠ '/' := by rcases delimits with rfl | rfl <;> decide
  refine Opens.of_token (delimiter ::
    (text.toList.flatMap (Text.escaped delimiter) ++ [delimiter])) blank slash ?_
  have split : (text.toList.flatMap (Text.escaped delimiter)).append [delimiter] ++ rest =
      text.toList.flatMap (Text.escaped delimiter) ++ delimiter :: rest := by simp
  rw [opening, split, quote, quotedBody_escaped delimits]
  simp [Attempt.after]

/-- The comment of a node opens a text before the bracket that closes the node. -/
theorem opens_nodeComment {node : NodeKind} {text : String}
    (trimmed : Text.trim text.toList = text.toList)
    (inside : text.toList.all (fun char => (NodeKind.ofCloser? char).isNone) = true)
    (next : rest.head?.bind NodeKind.ofCloser? = some node) :
    Opens form signAllowed (';' :: text.toList) rest (.nodeComment node text) := by
  have taken : run (fun char => (NodeKind.ofCloser? char).isNone) (text.toList ++ rest) =
      ⟨text.toList, text.toList, rest⟩ :=
    run_append (List.all_eq_true.mp inside) fun char first => by
      rw [Option.mem_def.mp first, Option.bind_some] at next
      simp [next]
  have letter : startsWord ';' = false := not_startsWord_of_lt (by decide)
  refine Opens.of_token (';' :: text.toList) (by decide) (by decide) ?_
  simp [token, letter, nodeComment, taken, next, trimmed]

/-- The body of a comment ends at the first closing mark. -/
theorem commentBody_append {text : List Char} (inside : ¬ ['*', '/'] <:+: text) :
    commentBody (text ++ ' ' :: '*' :: '/' :: rest) =
      .ok ⟨text ++ [' '], text ++ [' ', '*', '/'], rest⟩ := by
  induction text with
  | nil => simp [commentBody, Attempt.after]
  | cons char text ih =>
      have inner : ¬ ['*', '/'] <:+: text := fun found => inside (found.trans ⟨[char], [], by simp⟩)
      have step : commentBody (char :: (text ++ ' ' :: '*' :: '/' :: rest)) =
          (commentBody (text ++ ' ' :: '*' :: '/' :: rest)).after [char] (char :: ·) := by
        rw [commentBody.eq_def]
        split
        next equal => cases equal
        next equal =>
            exfalso
            obtain ⟨rfl, tail⟩ := List.cons.inj equal
            cases text with
            | nil => simp at tail
            | cons second text =>
                obtain ⟨rfl, -⟩ := List.cons.inj tail
                exact inside ⟨[], text, by simp⟩
        next equal => cases equal; rfl
      rw [List.cons_append, step, ih inner]
      simp [Attempt.after]

/-- One blank before a text and one behind it are trimmed off. -/
theorem trim_spaces (text : List Char) : Text.trim (' ' :: (text ++ [' '])) = Text.trim text := by
  have space : isBlank ' ' = true := by decide
  unfold Text.trim
  rw [List.dropWhile_cons_of_pos space, List.dropWhile_append]
  cases front : text.dropWhile isBlank with
  | nil => simp [space]
  | cons char text =>
      simp only [List.isEmpty_cons, Bool.false_eq_true, if_false, List.reverse_append,
        List.reverse_cons, List.reverse_nil, List.nil_append, List.singleton_append]
      rw [List.dropWhile_cons_of_pos space]

/-- A comment of a graph opens a text if it does not hold the mark that closes it. -/
theorem opens_formalComment {text : String} (trimmed : Text.trim text.toList = text.toList)
    (inside : ¬ ['*', '/'] <:+: text.toList) :
    Opens form signAllowed ("/** " ++ text ++ " */").toList rest (.formalComment text) := by
  have padded : ¬ ['*', '/'] <:+: ' ' :: text.toList := by
    rw [List.infix_cons_iff]
    rintro (⟨_, equal⟩ | found)
    · cases equal
    · exact inside found
  have chars : ("/** " ++ text ++ " */").toList =
      '/' :: ('*' :: '*' :: (' ' :: text.toList ++ [' ', '*', '/'])) := by
    simp [String.toList_append]
  refine ⟨'/', _, '/' :: '*' :: '*' :: (' ' :: text.toList ++ [' ', '*', '/']), chars, ?_⟩
  have blank : isBlank '/' = false := by decide
  have split : ' ' :: text.toList ++ [' ', '*', '/'] ++ rest =
      ' ' :: text.toList ++ ' ' :: '*' :: '/' :: rest := by simp
  simp only [step, blank, Bool.false_eq_true, if_false, List.cons_append] at split ⊢
  rw [split]
  change (commentBody (' ' :: text.toList ++ ' ' :: '*' :: '/' :: rest)).after _ _ = _
  rw [commentBody_append padded]
  simp [Attempt.after, trim_spaces, trimmed]

/-! ## Marks -/

/-- A mark of one character that nothing else begins with. -/
theorem opens_char {char : Char} {mark : Punct} (found : Punct.ofChar? char = some mark)
    (other : char ∉ ['"', '\'', '#', ';', '-', '/', '*', '?'])
    (digit : char.isDigit = false) (letter : startsWord char = false)
    (blank : isBlank char = false)
    (arrow : mark = .leftAngle → form = .linear → rest.head? ≠ some '-') :
    Opens form signAllowed [char] rest (.punct mark) := by
  simp only [List.mem_cons, List.not_mem_nil, or_false, not_or] at other
  obtain ⟨double, single, hash, semicolon, minus, slash, star, question⟩ := other
  refine Opens.of_token [char] blank slash ?_
  have noArrow : (char = '<' && form = .linear && rest.head? = some '-') = false := by
    by_contra hit
    simp only [Bool.not_eq_false, Bool.and_eq_true, decide_eq_true_eq] at hit
    obtain ⟨⟨rfl, linear⟩, next⟩ := hit
    obtain rfl : Punct.leftAngle = mark := Option.some.inj found
    exact arrow rfl linear next
  simp [token, double, single, hash, semicolon, minus, star, question, digit, letter, found]
  simpa using noArrow

/-- A mark opens a text if what follows does not make another mark of it. -/
theorem opens_mark {mark : Punct} (legible : (Token.punct mark).Legible form signAllowed)
    (ends : (Token.punct mark).EndsBefore form rest) :
    Opens form signAllowed mark.spelling.toList rest (.punct mark) := by
  have letter : startsWord '-' = false := not_startsWord_of_lt (by decide)
  cases mark with
  | leftAngle =>
      exact opens_char rfl (by decide) (by decide) (by decide) (by decide) fun _ => ends
  | star | question | leftArrow => exact absurd legible id
  | rightArrow =>
      obtain rfl : form = .linear := legible
      change Opens .linear signAllowed ['-', '>'] rest _
      refine Opens.of_token ['-', '>'] (by decide) (by decide) ?_
      simp [token, letter, minus, digitFollows]
  | hyphen =>
      obtain rfl : form = .linear := legible
      change Opens .linear signAllowed ['-'] rest _
      refine Opens.of_token ['-'] (by decide) (by decide) ?_
      cases rest with
      | nil => simp [token, letter, minus, digitFollows]
      | cons char rest =>
          obtain ⟨digit, angle⟩ := ends char rfl
          simp [token, letter, minus, digitFollows, digit]
          split
          next equal => exact absurd (List.cons.inj equal).1 angle
          next => rfl
  | _ => exact opens_char rfl (by decide) (by decide) (by decide) (by decide) nofun

/-! ## All tokens -/

/-- A legible token is scanned from its spelling, as it rereads. -/
theorem opens_spelling {token : Token} (legible : token.Legible form signAllowed)
    (ends : token.EndsBefore form rest) :
    Opens form signAllowed token.spelling.toList rest (token.reread form) := by
  cases token with
  | ident word => exact opens_word legible ends
  | keyword word => exact absurd legible id
  | int value => exact opens_int legible.1 legible.2 ends
  | float text =>
      have next : ∀ char ∈ rest.head?, continuesWord char = false :=
        fun char first => (ends char first).1
      -- A float is written with digits and a point, with a sign before them, or as a word.
      rcases legible with pointed | ⟨digits, chars, pointed, allowed⟩ | ⟨isWord, notReserved⟩
      · have number : (Token.float text).reread form = .float text := by
          obtain ⟨whole, fraction, chars, filled, -, digits, -⟩ := pointed
          obtain ⟨char, whole, rfl⟩ := List.exists_cons_of_ne_nil filled
          have letter : startsWord char = false := by
            by_contra starts
            simp at starts
            simpa [digits char (by simp)] using isDigit_of_startsWord starts
          simp [Token.reread, chars, letter]
        rw [number]
        exact opens_float pointed next
      · have letter : startsWord '-' = false := not_startsWord_of_lt (by decide)
        have number : (Token.float text).reread form = .float text := by
          simp [Token.reread, chars, letter]
        rw [number]
        exact opens_negativeFloat chars pointed allowed next
      · obtain ⟨char, front, chars, starts, -⟩ := exists_of_isWord isWord
        have opened : Opens form signAllowed text.toList rest ((Token.ident text).reread form) :=
          opens_word isWord next
        simp only [Token.reread, notReserved] at opened
        have same : (Token.float text).reread form = .ident text := by
          simp [Token.reread, chars, starts]
        rw [same]
        exact opened
  | str text =>
      have opened : Opens form signAllowed (Text.quoted '"' text.toList) rest (.str text) :=
        opens_quoted (Or.inl rfl) fun source => by simp [Scan.token]
      simpa [Token.spelling, Token.reread] using opened
  | name text =>
      have opened : Opens form signAllowed (Text.quoted '\'' text.toList) rest (.name text) :=
        opens_quoted (Or.inr rfl) fun source => by simp [Scan.token]
      simpa [Token.spelling, Token.reread] using opened
  | defLabel name =>
      have chars : ("*" ++ name).toList = '*' :: name.toList := by simp [String.toList_append]
      exact chars ▸ opens_defLabel legible ends
  | boundLabel name =>
      have chars : ("?" ++ name).toList = '?' :: name.toList := by simp [String.toList_append]
      exact chars ▸ opens_boundLabel legible ends
  | marker digits =>
      obtain ⟨text, rfl, nonempty, all⟩ := legible
      have chars : ("#" ++ text).toList = '#' :: text.toList := by simp [String.toList_append]
      exact chars ▸ opens_marker nonempty all ends
  | nodeComment node text =>
      have chars : (";" ++ text).toList = ';' :: text.toList := by simp [String.toList_append]
      exact chars ▸ opens_nodeComment legible.1 legible.2 ends
  | formalComment text => exact opens_formalComment legible.1 legible.2
  | punct mark => exact opens_mark legible ends
  | endOfInput => exact absurd legible id

end ConceptualGraph.Scan
