/-
Module: ConceptualGraph.Proofs.Token.Lexeme
Purpose: How each token is written, said without the scanner, and that a step of scanning takes
  exactly the characters that write what it finds.
Main exports: Token.Lexeme, Scan.Gap, Scan.Attempt.Covers, Scan.covers_step,
  Scan.scanFrom_of_enough
-/
import ConceptualGraph.Proofs.Token.Joined
import ConceptualGraph.Proofs.Token.Scanned

namespace ConceptualGraph

/-! ## How tokens are written -/

namespace Token

/-- One digit or more. -/
def IsDigits (text : List Char) : Prop :=
  text ≠ [] ∧ ∀ char ∈ text, char.isDigit = true

/-- A point and the digits after it. -/
def IsPoint (text : List Char) : Prop :=
  ∃ digits, text = '.' :: digits ∧ IsDigits digits

/-- An exponent: its letter, its sign if it has one, and its digits. -/
def IsPower (text : List Char) : Prop :=
  ∃ letter sign digits, text = letter :: (sign ++ digits) ∧ (letter = 'e' ∨ letter = 'E') ∧
    sign ∈ [[], ['+'], ['-']] ∧ IsDigits digits

/-- A number without its sign that has a fraction or an exponent. -/
def IsFloating (text : List Char) : Prop :=
  ∃ whole point power, text = whole ++ point ++ power ∧ IsDigits whole ∧
    (point = [] ∨ IsPoint point) ∧ (power = [] ∨ IsPower power) ∧ ¬ (point = [] ∧ power = [])

/-- The whole number that a text without a sign writes: in hexadecimal digits after a cross, else in
decimal digits, or octal ones when a zero leads. -/
inductive Whole : List Char → Nat → Prop where
  | plain {digits : List Char} {magnitude : Nat} (all : IsDigits digits)
      (value : Text.natural? (Scan.baseOf digits) digits = some magnitude) : Whole digits magnitude
  | crossed {cross : Char} {digits : List Char} {magnitude : Nat}
      (mark : cross = 'x' ∨ cross = 'X') (value : Text.natural? 16 digits = some magnitude) :
      Whole ('0' :: cross :: digits) magnitude

/-- A text with a minus sign before it if it is negative. -/
def signed (negative : Bool) (text : List Char) : List Char :=
  if negative then '-' :: text else text

/-- What the text between two delimiters stands for. -/
inductive Unquotes (delimiter : Char) : List Char → List Char → Prop where
  | nil : Unquotes delimiter [] []
  | plain {char : Char} {body text : List Char} (line : char ≠ '\n') (inside : char ≠ delimiter)
      (slash : char ≠ '\\') (others : Unquotes delimiter body text) :
      Unquotes delimiter (char :: body) (char :: text)
  | escape {next : Char} {body text : List Char} (others : Unquotes delimiter body text) :
      Unquotes delimiter ('\\' :: next :: body) (Text.unescape next :: text)

/-- Whether characters stand between two delimiters and mean the given text. -/
def IsQuoted (delimiter : Char) (chars : List Char) (text : String) : Prop :=
  ∃ body, chars = delimiter :: (body ++ [delimiter]) ∧ Unquotes delimiter body text.toList

/-- Whether a notation writes a token with exactly the given characters. -/
def Lexeme (form : Notation) (token : Token) (chars : List Char) : Prop :=
  match token with
  | .ident word => IsName form word ∧ chars = word.toList
  | .keyword word => Keyword.ofWord? form chars = some word
  | .int value =>
      ∃ negative text magnitude, chars = signed negative text ∧ Whole text magnitude ∧
        magnitude ≤ Text.largestSigned ∧ value = if negative then -(magnitude : Int) else magnitude
  | .float text =>
      ∃ negative unsigned, chars = signed negative unsigned ∧ IsFloating unsigned ∧
        text.toList = chars
  | .str text => IsQuoted '"' chars text
  | .name text => IsQuoted '\'' chars text
  | .defLabel label => IsWord label ∧ chars = '*' :: label.toList
  | .boundLabel label => IsWord label ∧ chars = '?' :: label.toList
  | .marker digits =>
      (digits.getD "").toList.all Char.isDigit = true ∧ digits ≠ some "" ∧
        chars = '#' :: (digits.getD "").toList
  | .nodeComment _ text =>
      ∃ body, chars = ';' :: body ∧ text.toList = Text.trim body ∧
        ∀ char ∈ body, NodeKind.ofCloser? char = none
  | .formalComment text =>
      ∃ body, chars = '/' :: '*' :: '*' :: (body ++ ['*', '/']) ∧ text.toList = Text.trim body ∧
        ¬ ['*', '/'] <:+: body ∧ body.head? ≠ some '/'
  | .punct mark => chars = mark.spelling.toList
  | .endOfInput => chars = []

end Token

namespace Scan

open Text (isBlank)

/-- A comment that does not belong to the graph. -/
def IsPlainComment (text : List Char) : Prop :=
  ∃ body, text = '/' :: '*' :: (body ++ ['*', '/']) ∧ ¬ ['*', '/'] <:+: body ∧
    body.head? ≠ some '*'

/-- What may stand between two tokens at once: white space or a plain comment. -/
def Gap (text : List Char) : Prop :=
  (∀ char ∈ text, isBlank char = true) ∨ IsPlainComment text

/-- How the characters that a step takes write what it finds. -/
def Found.Writes (form : Notation) (found : Found) (text : List Char) : Prop :=
  text ≠ [] ∧
    match found with
    | .gap => Gap text
    | .token found => found.Lexeme form text

/-! ## Readers take a front of their text -/

/-- What an attempt takes is a front of the text, and writes the value. -/
def Attempt.Covers {α : Type} (attempt : Attempt α) (source : List Char)
    (writes : α → List Char → Prop) : Prop :=
  ∀ taken, attempt = .ok taken →
    source = taken.text ++ taken.rest ∧ writes taken.value taken.text

namespace Attempt.Covers

variable {α β : Type} {writes : α → List Char → Prop} {writes' : β → List Char → Prop}
  {source : List Char}

/-- What is taken covers its text where the text writes it. -/
theorem ok {value : α} {rest : List Char} (text : List Char) (written : writes value text) :
    Attempt.Covers (.ok ⟨value, text, rest⟩) (text ++ rest) writes := by
  rintro taken ⟨⟩
  exact ⟨rfl, written⟩

theorem error {stuck : Stuck} : Attempt.Covers (.error stuck) source writes := nofun

/-- What covers a text covers it with more characters put before both. -/
theorem after {attempt : Attempt α} (covers : attempt.Covers source writes) (before : List Char)
    (change : α → β)
    (carries : ∀ value text, writes value text → writes' (change value) (before ++ text)) :
    (attempt.after before change).Covers (before ++ source) writes' := by
  intro taken found
  cases attempted : attempt with
  | error stuck => simp [attempted, Attempt.after] at found
  | ok former =>
      simp only [attempted, Attempt.after, Except.ok.injEq] at found
      subst found
      obtain ⟨split, written⟩ := covers former attempted
      exact ⟨by simp [split], carries _ _ written⟩

end Attempt.Covers

variable {form : Notation} {signAllowed : Bool}

theorem run_splits (test : Char → Bool) (source : List Char) :
    (run test source).text ++ (run test source).rest = source :=
  List.takeWhile_append_dropWhile

theorem mem_run {test : Char → Bool} {source : List Char} {char : Char}
    (member : char ∈ (run test source).value) : test char = true :=
  List.mem_takeWhile_imp member

/-! ### Words, labels and markers -/

/-- What may begin a word may continue it. -/
theorem continuesWord_of_startsWord {char : Char} (starts : startsWord char = true) :
    continuesWord char = true := by
  simp only [startsWord, continuesWord, Bool.or_eq_true] at starts ⊢
  tauto

/-- As many characters as go on with a word make one. -/
theorem isWord_run (source : List Char) (starts : source.head?.any startsWord = true) :
    Token.IsWord (String.ofList (run continuesWord source).value) := by
  cases source with
  | nil => simp at starts
  | cons char rest =>
      have starts : startsWord char = true := starts
      have all : (run continuesWord (char :: rest)).value.all continuesWord = true :=
        List.all_eq_true.mpr fun _ member => mem_run member
      simp only [Token.IsWord, String.toList_ofList, all, Bool.and_true]
      simpa [run, continuesWord_of_startsWord starts] using starts

/-- A word covers the characters that go on with it. -/
theorem covers_word {char : Char} {rest : List Char} (starts : startsWord char = true) :
    Attempt.Covers (.ok (word form (char :: rest))) (char :: rest) (Token.Lexeme form) := by
  rintro taken ⟨⟩
  have known : Token.IsWord (String.ofList (run continuesWord (char :: rest)).value) :=
    isWord_run (char :: rest) starts
  constructor
  · exact (run_splits _ _).symm
  · simp only [word]
    split
    · next reserved => exact reserved
    · next unreserved =>
      exact ⟨⟨known, by simpa using unreserved⟩, (String.toList_ofList).symm⟩

/-- A label covers its sign and the word behind it. -/
theorem covers_label {sign : Char} {found : String → Token} {rest : List Char}
    (starts : rest.head?.any startsWord = true)
    (written : ∀ text, Token.IsWord text → (found text).Lexeme form (sign :: text.toList)) :
    Attempt.Covers (.ok (label sign found rest)) (sign :: rest) (Token.Lexeme form) := by
  rintro taken ⟨⟩
  constructor
  · exact congrArg (sign :: ·) (run_splits continuesWord rest).symm
  · have lexeme := written _ (isWord_run rest starts)
    rw [String.toList_ofList] at lexeme
    exact lexeme

/-- A marker covers its digits. -/
theorem covers_marker {rest : List Char} :
    Attempt.Covers (.ok (marker rest)) ('#' :: rest) (Token.Lexeme form) := by
  rintro taken ⟨⟩
  constructor
  · exact congrArg ('#' :: ·) (run_splits Char.isDigit rest).symm
  · have all : ∀ char ∈ (run Char.isDigit rest).value, char.isDigit = true := fun _ => mem_run
    have same : (run Char.isDigit rest).text = (run Char.isDigit rest).value := rfl
    cases digits : (run Char.isDigit rest).value with
    | nil => simp [marker, Token.Lexeme, digits, same]
    | cons char others =>
        rw [digits] at all
        have filled : String.ofList (char :: others) ≠ "" := by
          intro empty
          simpa using congrArg String.toList empty
        simp only [marker, digits, same, Token.Lexeme, List.isEmpty_cons, Bool.false_eq_true,
          if_false, Option.getD_some, String.toList_ofList, List.all_eq_true, and_true]
        exact ⟨all, fun empty => filled (Option.some.inj empty)⟩

/-! ### Numbers -/

/-- What is taken as a fraction is a point with digits behind it. -/
theorem fraction_shape (source : List Char) :
    fraction source = [] ∨ Token.IsPoint (fraction source) := by
  unfold fraction
  split
  · next char rest =>
    split
    · next digit =>
      right
      refine ⟨char :: rest.takeWhile Char.isDigit, rfl, by simp, ?_⟩
      intro other member
      cases member with
      | head => exact digit
      | tail _ member => exact List.mem_takeWhile_imp member
    · left
      rfl
  · left
    rfl

/-- What is taken as an exponent is a sign of power with digits behind it. -/
theorem exponent_shape (source : List Char) :
    exponent source = [] ∨ Token.IsPower (exponent source) := by
  unfold exponent
  -- A letter, then a digit or a sign with a digit after it; nothing else is an exponent.
  split
  · next letter sign digit rest =>
    split
    · next mark =>
      have letters : letter = 'e' ∨ letter = 'E' := by simpa using mark
      split
      · next digits =>
        right
        refine ⟨letter, [], sign :: (digit :: rest).takeWhile Char.isDigit, rfl, letters,
          by simp, by simp, ?_⟩
        intro other member
        cases member with
        | head => exact digits
        | tail _ member => exact List.mem_takeWhile_imp member
      · split
        · next signs =>
          right
          simp only [Bool.and_eq_true, Bool.or_eq_true, beq_iff_eq] at signs
          refine ⟨letter, [sign], digit :: rest.takeWhile Char.isDigit, rfl, letters, ?_,
            by simp, ?_⟩
          · rcases signs.1 with rfl | rfl <;> simp
          · intro other member
            cases member with
            | head => exact signs.2
            | tail _ member => exact List.mem_takeWhile_imp member
        · left
          rfl
    · left
      rfl
  · next letter digit =>
    split
    · next mark =>
      right
      simp only [Bool.and_eq_true, Bool.or_eq_true, beq_iff_eq] at mark
      exact ⟨letter, [], [digit], rfl, mark.1, by simp, by simp, by simp [mark.2]⟩
    · left
      rfl
  · left
    rfl

/-- An integer is the number that its digits write, within 64 bits, with its sign. -/
theorem exists_of_integer? {negative : Bool} {base : Nat} {digits : List Char} {value : Int}
    (found : integer? negative base digits = some value) :
    ∃ magnitude, Text.natural? base digits = some magnitude ∧ magnitude ≤ Text.largestSigned ∧
      value = if negative then -(magnitude : Int) else magnitude := by
  unfold integer? at found
  split at found
  · cases found
  · next magnitude known =>
    split at found
    · next fits =>
      cases found
      exact ⟨magnitude, known, fits, rfl⟩
    · cases found

/-- A hexadecimal number covers its cross and its digits. -/
theorem covers_hexadecimal {negative : Bool} {cross : Char} {source : List Char}
    (mark : cross = 'x' ∨ cross = 'X') :
    ((hexadecimal negative source).after ['0', cross] id).Covers ('0' :: cross :: source)
      fun token text => token.Lexeme form (Token.signed negative text) := by
  have covers : (hexadecimal negative source).Covers source fun token text =>
      token.Lexeme form (Token.signed negative ('0' :: cross :: text)) := by
    unfold hexadecimal
    simp only
    split
    · next value known =>
      rintro taken ⟨⟩
      obtain ⟨magnitude, number, fits, same⟩ := exists_of_integer? known
      exact ⟨(run_splits _ _).symm, negative, _, magnitude, rfl, .crossed mark number, fits, same⟩
    · exact Attempt.Covers.error
  exact covers.after ['0', cross] id fun _ _ written => written

/-- The parts of a decimal number make up what is taken of it. -/
theorem decimal_splits (source : List Char) :
    let digits := source.takeWhile Char.isDigit
    let afterDigits := source.dropWhile Char.isDigit
    let point := fraction afterDigits
    let afterPoint := afterDigits.drop point.length
    let power := exponent afterPoint
    source = digits ++ point ++ power ++ afterPoint.drop power.length := by
  intro digits afterDigits point afterPoint power
  have second : power ++ afterPoint.drop power.length = afterPoint :=
    List.prefix_iff_eq_append.mp (exponent_starts afterPoint)
  have first : point ++ afterPoint = afterDigits :=
    List.prefix_iff_eq_append.mp (fraction_starts afterDigits)
  calc source = digits ++ afterDigits := List.takeWhile_append_dropWhile.symm
    _ = digits ++ (point ++ (power ++ afterPoint.drop power.length)) := by rw [second, first]
    _ = _ := by simp only [List.append_assoc]

/-- A decimal number covers its digits, its fraction and its exponent. -/
theorem covers_decimal {negative : Bool} {source : List Char}
    (starts : digitFollows source = true) :
    (decimal negative source).Covers source fun token text =>
      token.Lexeme form (Token.signed negative text) := by
  have digits : Token.IsDigits (source.takeWhile Char.isDigit) := by
    constructor
    · cases source with
      | nil => cases starts
      | cons char rest =>
          have digit : char.isDigit = true := starts
          simp [digit]
    · exact fun _ member => List.mem_takeWhile_imp member
  have splits := decimal_splits source
  unfold decimal
  simp only
  split
  · next plain =>
    split
    · next value known =>
      rintro taken ⟨⟩
      obtain ⟨magnitude, number, fits, same⟩ := exists_of_integer? known
      obtain ⟨noPoint, noPower⟩ := by
        simpa only [Bool.and_eq_true, List.isEmpty_iff] using plain
      refine ⟨splits, negative, _, magnitude, rfl, ?_, fits, same⟩
      rw [noPower, noPoint, List.append_nil, List.append_nil]
      exact .plain digits number
    · exact Attempt.Covers.error
  · next pointed =>
    rintro taken ⟨⟩
    refine ⟨splits, negative, _, rfl,
      ⟨_, _, _, rfl, digits, fraction_shape _, exponent_shape _, ?_⟩,
      ?_⟩
    · simpa only [Bool.and_eq_true, List.isEmpty_iff] using pointed
    · exact String.toList_ofList

/-- A numeral that is read covers the text that it is a lexeme of. -/
theorem covers_number {negative : Bool} {source : List Char}
    (starts : digitFollows source = true) :
    (number negative source).Covers source fun token text =>
      token.Lexeme form (Token.signed negative text) := by
  unfold number
  split
  · exact covers_hexadecimal (Or.inl rfl)
  · exact covers_hexadecimal (Or.inr rfl)
  · exact covers_decimal starts

theorem covers_negative {source : List Char} (starts : digitFollows source = true) :
    ((number true source).after ['-'] id).Covers ('-' :: source) (Token.Lexeme form) :=
  (covers_number starts).after ['-'] id fun _ _ written => written

/-- A minus covers the number behind it, an arrow, or itself. -/
theorem covers_minus {source : List Char} :
    (minus form signAllowed source).Covers ('-' :: source) (Token.Lexeme form) := by
  unfold minus
  split
  · split
    · next starts => exact covers_negative starts
    · exact Attempt.Covers.error
  · split
    · next starts =>
      exact covers_negative (by simpa using And.left (Bool.and_eq_true _ _ ▸ starts))
    · split
      · exact Attempt.Covers.ok ['-', '>'] rfl
      · exact Attempt.Covers.ok ['-'] rfl

/-! ### Quotes and comments -/

/-- A quotation covers what it quotes and the delimiter that closes it. -/
theorem covers_quotedBody (delimiter : Char) (source : List Char) :
    (quotedBody delimiter source).Covers source fun value text =>
      ∃ body, text = body ++ [delimiter] ∧ Token.Unquotes delimiter body value := by
  fun_induction quotedBody delimiter source with
  | case1 => exact Attempt.Covers.error
  | case2 rest => exact Attempt.Covers.error
  | case3 rest line => exact Attempt.Covers.ok [delimiter] ⟨[], rfl, .nil⟩
  | case4 line inside => exact Attempt.Covers.error
  | case5 next rest line inside ih =>
      apply ih.after ['\\', next]
      rintro value text ⟨body, rfl, means⟩
      exact ⟨'\\' :: next :: body, rfl, means.escape⟩
  | case6 char rest line inside slash ih =>
      apply ih.after [char]
      rintro value text ⟨body, rfl, means⟩
      exact ⟨char :: body, rfl, means.plain line inside slash⟩

/-- A quotation is read to its delimiter. -/
theorem covers_quote {delimiter : Char} {found : String → Token} {source : List Char}
    (written : ∀ chars text, Token.IsQuoted delimiter chars text → (found text).Lexeme form chars) :
    (quote delimiter found source).Covers (delimiter :: source) (Token.Lexeme form) := by
  apply (covers_quotedBody delimiter source).after [delimiter]
  rintro value text ⟨body, rfl, means⟩
  exact written _ _ ⟨body, rfl, by simpa using means⟩

/-- The comment of a node covers what stands before the bracket that closes the node. -/
theorem covers_nodeComment {source : List Char} :
    (nodeComment source).Covers (';' :: source) (Token.Lexeme form) := by
  unfold nodeComment
  simp only
  split
  · next node closer =>
    rintro taken ⟨⟩
    constructor
    · exact congrArg (';' :: ·) (run_splits _ source).symm
    · refine ⟨_, rfl, by simp [run], ?_⟩
      intro char member
      exact Option.isNone_iff_eq_none.mp
        (List.mem_takeWhile_imp (p := fun char => (NodeKind.ofCloser? char).isNone) member)
  · exact Attempt.Covers.error

/-- The body of a comment is taken with the mark that closes it. -/
theorem text_commentBody {source : List Char} {taken : Taken (List Char)}
    (found : commentBody source = .ok taken) : taken.text = taken.value ++ ['*', '/'] := by
  fun_induction commentBody source generalizing taken with
  | case1 => cases found
  | case2 rest =>
      cases found
      rfl
  | case3 char rest closed ih =>
      cases inner : commentBody rest with
      | error stuck => simp [inner, Attempt.after] at found
      | ok former =>
          simp only [inner, Attempt.after, Except.ok.injEq] at found
          subst found
          simp [ih inner]

/-- A comment ends with the first star and slash. -/
theorem covers_commentBody (source : List Char) :
    (commentBody source).Covers source fun value text =>
      text = value ++ ['*', '/'] ∧ ¬ ['*', '/'] <:+: value ∧
        ∀ char ∈ value.head?, source.head? = some char := by
  intro taken found
  obtain ⟨split, unclosed⟩ := commentBody_eq found
  have text := text_commentBody found
  refine ⟨by simpa [text] using split, text, unclosed, fun char first => ?_⟩
  rw [split, List.head?_append, first, Option.some_or]

/-! ### Tokens -/

/-- A punctuation mark is one character. -/
theorem covers_punct {char : Char} {mark : Punct} {rest : List Char}
    (found : Punct.ofChar? char = some mark) :
    Attempt.Covers (.ok ⟨.punct mark, [char], rest⟩) (char :: rest) (Token.Lexeme form) := by
  apply Attempt.Covers.ok [char]
  unfold Punct.ofChar? at found
  split at found <;> cases found <;> rfl

/-- Every token covers what writes it. -/
theorem covers_token (char : Char) (rest : List Char) :
    (token form signAllowed char rest).Covers (char :: rest) (Token.Lexeme form) := by
  unfold token
  split
  · next double =>
    subst double
    exact covers_quote fun _ _ quoted => quoted
  split
  · next single =>
    subst single
    exact covers_quote fun _ _ quoted => quoted
  split
  · next digit => exact covers_number digit
  split
  · next starts => exact covers_word starts
  split
  · next star =>
    obtain ⟨star, starts⟩ := Bool.and_eq_true _ _ ▸ star
    obtain rfl := of_decide_eq_true star
    exact covers_label starts fun _ legible => ⟨legible, rfl⟩
  split
  · next question =>
    obtain ⟨question, starts⟩ := Bool.and_eq_true _ _ ▸ question
    obtain rfl := of_decide_eq_true question
    exact covers_label starts fun _ legible => ⟨legible, rfl⟩
  split
  · next hash =>
    subst hash
    exact covers_marker
  split
  · next semicolon =>
    subst semicolon
    exact covers_nodeComment
  split
  · next dash =>
    subst dash
    exact covers_minus
  split
  · next arrow =>
    simp only [Bool.and_eq_true, decide_eq_true_eq] at arrow
    obtain ⟨⟨rfl, -⟩, next⟩ := arrow
    obtain ⟨others, rfl⟩ : ∃ others, rest = '-' :: others := by
      cases rest with
      | nil => cases next
      | cons second others => exact ⟨others, by rw [Option.some.inj next]⟩
    exact Attempt.Covers.ok ['<', '-'] rfl
  · split
    · next found => exact covers_punct found
    · exact Attempt.Covers.error

/-- No token is written with nothing, apart from the end of the text. -/
theorem ne_nil_of_lexeme {found : Token} {text : List Char} (lexeme : found.Lexeme form text)
    (inside : found ≠ .endOfInput) : text ≠ [] := by
  rintro rfl
  cases found with
  | ident word =>
      obtain ⟨char, front, chars, -⟩ := exists_of_isWord lexeme.1.1
      cases chars.symm.trans lexeme.2.symm
  | keyword word => cases form <;> cases lexeme
  | int value =>
      obtain ⟨negative, text, magnitude, empty, whole, -⟩ := lexeme
      cases whole with
      | plain all value => cases negative <;> simp [Token.signed, all.1.symm] at empty
      | crossed mark value => cases negative <;> simp [Token.signed] at empty
  | float text =>
      obtain ⟨negative, unsigned, empty, ⟨whole, point, power, rfl, digits, -⟩, -⟩ := lexeme
      cases negative <;> simp [Token.signed] at empty
      exact digits.1 empty.1
  | str text | name text =>
      obtain ⟨body, empty, -⟩ := lexeme
      cases empty
  | defLabel label | boundLabel label => cases lexeme.2
  | marker digits => cases lexeme.2.2
  | nodeComment node text | formalComment text =>
      obtain ⟨body, empty, -⟩ := lexeme
      cases empty
  | punct mark => cases mark <;> cases lexeme
  | endOfInput => exact inside rfl

/-- A step of scanning takes the characters that write what it finds, and at least one. -/
theorem covers_step (char : Char) (rest : List Char) :
    (step form signAllowed char rest).Covers (char :: rest) (Found.Writes form) := by
  unfold step
  split
  · next blank =>
    rintro taken ⟨⟩
    constructor
    · exact congrArg (char :: ·) List.takeWhile_append_dropWhile.symm
    · refine ⟨by simp, Or.inl fun other member => ?_⟩
      cases member with
      | head => exact blank
      | tail _ member => exact List.mem_takeWhile_imp member
  split
  · -- A comment of two stars and nothing else is plain.
    apply Attempt.Covers.ok ['/', '*', '*', '/']
    exact ⟨by simp, Or.inr ⟨[], rfl, by simp, by simp⟩⟩
  · next source apart _ =>
    apply (covers_commentBody source).after ['/', '*', '*']
    rintro value text ⟨rfl, unclosed, first⟩
    refine ⟨by simp, value, rfl, String.toList_ofList, unclosed, fun slash => ?_⟩
    obtain ⟨others, rfl⟩ := List.head?_eq_some_iff.mp (first _ slash)
    exact apart others rfl
  · next source plain formal _ =>
    apply (covers_commentBody source).after ['/', '*']
    rintro value text ⟨rfl, unclosed, first⟩
    refine ⟨by simp, Or.inr ⟨value, rfl, unclosed, fun star => ?_⟩⟩
    obtain ⟨others, rfl⟩ := List.head?_eq_some_iff.mp (first _ star)
    exact formal others rfl
  · have covers : (token form signAllowed char rest).Covers (char :: rest) fun found text =>
        Found.Writes form (.token found) text := by
      intro taken ended
      obtain ⟨split, lexeme⟩ := covers_token char rest taken ended
      exact ⟨split, ne_nil_of_lexeme lexeme (yields_token char rest taken ended).2, lexeme⟩
    exact covers.after [] Found.token fun _ _ written => written

/-- A step goes past its first character at least. -/
theorem length_rest_lt {char : Char} {rest : List Char} {taken : Taken Found}
    (found : step form signAllowed char rest = .ok taken) :
    taken.rest.length < (char :: rest).length := by
  obtain ⟨split, filled, -⟩ := covers_step char rest taken found
  have := List.length_pos_iff.mpr filled
  rw [split, List.length_append]
  omega

/-- Steps that are left over have no effect. -/
theorem scanFrom_of_enough {steps more : Nat} {position : Position} {source : List Char}
    (enough : source.length ≤ steps) (others : source.length ≤ more) :
    scanFrom form steps position signAllowed source =
      scanFrom form more position signAllowed source := by
  induction steps generalizing more position signAllowed source with
  | zero =>
      obtain rfl : source = [] := List.length_eq_zero_iff.mp (Nat.le_zero.mp enough)
      cases more <;> rfl
  | succ steps ih =>
      cases source with
      | nil => cases more <;> rfl
      | cons char rest =>
          obtain ⟨more, rfl⟩ : ∃ count, more = count + 1 :=
            Nat.exists_eq_succ_of_ne_zero (by rintro rfl; simp at others)
          simp only [scanFrom]
          cases found : step form signAllowed char rest with
          | error stuck => rfl
          | ok taken =>
              have shorter := length_rest_lt found
              have same : ∀ signAllowed position,
                  scanFrom form steps position signAllowed taken.rest =
                    scanFrom form more position signAllowed taken.rest :=
                fun _ _ => ih (by omega) (by omega)
              simp only [same]

end Scan

end ConceptualGraph
