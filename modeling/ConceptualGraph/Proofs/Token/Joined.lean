/-
Module: ConceptualGraph.Proofs.Token.Joined
Purpose: The tokens of two texts of which one stands below the other.
Main exports: Position.below, Located.below, Scan.below, Scan.Closes, Scan.closes_step,
  Scan.ofText_append
-/
import ConceptualGraph.Proofs.Token.Opening

namespace ConceptualGraph

/-! ## Further down -/

/-- The place with a number of lines above the text. -/
def Position.below (lines : UInt32) (position : Position) : Position :=
  ⟨lines + position.line, position.column⟩

/-- The stretch with a number of lines above the text. -/
def Span.below (lines : UInt32) (span : Span) : Span :=
  ⟨span.start.below lines, span.stop.below lines⟩

/-- The token with a number of lines above the text. -/
def Located.below (lines : UInt32) (located : Located) : Located :=
  ⟨located.token, located.span.below lines⟩

/-- The error with a number of lines above the text. -/
def LexError.below (lines : UInt32) (error : LexError) : LexError :=
  { error with position := error.position.below lines }

/-- The tokens, and where they stop, with a number of lines above the text. -/
def Scan.below (lines : UInt32) (scan : Scan) : Scan where
  tokens := scan.tokens.map (Located.below lines)
  stop := (scan.stop.map (Position.below lines)).mapError (LexError.below lines)

theorem Position.advance_append (position : Position) (first second : List Char) :
    position.advance (first ++ second) = (position.advance first).advance second :=
  List.foldl_append

/-- Counting on from a place further down comes to a place further down by as much. -/
theorem Position.advance_below (lines : UInt32) (position : Position) (text : List Char) :
    (position.below lines).advance text = (position.advance text).below lines := by
  induction text generalizing position with
  | nil => rfl
  | cons char text ih =>
      have step : (position.below lines).next char = (position.next char).below lines := by
        unfold Position.next
        split
        · exact congrArg (Position.mk · 1) (UInt32.add_assoc lines position.line 1)
        · rfl
      exact (congrArg (Position.advance · text) step).trans (ih _)

namespace Scan

/-- Where a text stands has no effect on the tokens that it has. -/
theorem scanFrom_below {form : Notation} (lines : UInt32) (steps : Nat) (position : Position)
    (signAllowed : Bool) (source : List Char) :
    scanFrom form steps (position.below lines) signAllowed source =
      (scanFrom form steps position signAllowed source).below lines := by
  induction steps generalizing position signAllowed source with
  | zero => cases source <;> rfl
  | succ steps ih =>
      cases source with
      | nil => rfl
      | cons char rest =>
          unfold scanFrom
          cases step form signAllowed char rest with
          | error stuck =>
              simp only [Stuck.errorAt, Position.advance_below]
              rfl
          | ok taken =>
              obtain ⟨found, text, rest⟩ := taken
              cases found with
              | gap =>
                  simp only [Position.advance_below]
                  exact ih _ _ _
              | token token =>
                  simp only [Position.advance_below, ih]
                  rfl

/-! ## Readers that end with their text -/

/-- What a reader takes from a text, it takes also where a line break and more text follow. -/
def Closes {α : Type} (read : List Char → Attempt α) (source : List Char) : Prop :=
  ∀ taken, read source = .ok taken → taken.rest <:+ source ∧
    ∀ more, read (source ++ '\n' :: more) = .ok { taken with rest := taken.rest ++ '\n' :: more }

namespace Closes

variable {α β : Type} {read : List Char → Attempt α} {source : List Char}

/-- What is taken from the front changes nothing of where a reader ends. -/
theorem after (closes : Closes read source) (before : List Char) (change : α → β) :
    Closes (fun text => (read text).after before change) source := by
  intro taken found
  cases attempted : read source with
  | error stuck => simp [attempted, Attempt.after] at found
  | ok former =>
      simp only [attempted, Attempt.after, Except.ok.injEq] at found
      subst found
      obtain ⟨suffix, same⟩ := closes former attempted
      refine ⟨suffix, fun more => ?_⟩
      simp [same more, Attempt.after]

/-- What takes the same text from every source closes before a new line. -/
theorem ok (value : α) (text : List Char) :
    Closes (fun rest => .ok ⟨value, text, rest⟩) source := by
  rintro taken ⟨⟩
  exact ⟨List.suffix_rfl, fun _ => rfl⟩

/-- After a front of the text, one reader is another one. -/
theorem of_eq {read' : List Char → Attempt α} {front : List Char} (closes : Closes read' source)
    (same : ∀ text, source <+: text → read (front ++ text) = read' text) :
    Closes read (front ++ source) := by
  intro taken found
  rw [same source List.prefix_rfl] at found
  obtain ⟨suffix, goesOn⟩ := closes taken found
  refine ⟨suffix.trans (List.suffix_append front source), fun more => ?_⟩
  rw [List.append_assoc, same _ (List.prefix_append _ _), goesOn]

end Closes

/-! ### Words and numbers -/

section Runs

variable {test : Char → Bool} {source : List Char}

/-- A run of characters ends before a line break that does not belong to it. -/
theorem run_line (stops : test '\n' = false) (source more : List Char) :
    run test (source ++ '\n' :: more) =
      { run test source with rest := (run test source).rest ++ '\n' :: more } := by
  induction source with
  | nil => simp [run, stops]
  | cons char source ih =>
      by_cases passes : test char = true
      · simp only [run, Taken.mk.injEq] at ih
        simp [run, passes, ih]
      · simp [run, passes]

/-- A run of characters that ends in a text is not longer with more text after it. -/
theorem run_append_of_rest (ends : (run test source).rest ≠ []) (more : List Char) :
    run test (source ++ more) =
      { run test source with rest := (run test source).rest ++ more } := by
  induction source with
  | nil => exact absurd rfl ends
  | cons char source ih =>
      by_cases passes : test char = true
      · simp only [run, List.dropWhile_cons_of_pos passes, Taken.mk.injEq] at ih ends
        simp [run, passes, ih ends]
      · simp [run, passes]

end Runs

variable {form : Notation} {source rest : List Char} {char : Char}

theorem continuesWord_line : continuesWord '\n' = false := by decide

/-- A line break in front of what follows changes nothing about whether a word begins. -/
theorem head?_any_line (more : List Char) :
    (rest ++ '\n' :: more).head?.any startsWord = rest.head?.any startsWord := by
  cases rest with
  | nil => exact (by decide : startsWord '\n' = false)
  | cons char rest => rfl

/-- A word ends with its line. -/
theorem closes_word (starts : startsWord char = true) :
    Closes (fun text => .ok (word form (char :: text))) rest := by
  rintro taken ⟨⟩
  have continues : continuesWord char = true := by
    simp only [startsWord, continuesWord, Bool.or_eq_true] at starts ⊢
    tauto
  have ended : (word form (char :: rest)).rest = rest.dropWhile continuesWord := by
    simp [word, run, continues]
  refine ⟨ended ▸ List.dropWhile_suffix _, fun more => ?_⟩
  have line := run_line continuesWord_line (char :: rest) more
  rw [List.cons_append] at line
  simp only [word, line]

/-- A label ends before a new line. -/
theorem closes_label (found : String → Token) :
    Closes (fun text => .ok (label char found text)) rest := by
  rintro taken ⟨⟩
  refine ⟨List.dropWhile_suffix _, fun more => ?_⟩
  simp only [label, run_line continuesWord_line]

/-- A marker ends before a new line. -/
theorem closes_marker : Closes (fun text => .ok (marker text)) rest := by
  rintro taken ⟨⟩
  refine ⟨List.dropWhile_suffix _, fun more => ?_⟩
  simp only [marker, run_line (by decide : '\n'.isDigit = false)]

/-- The fraction of a numeral is the beginning of what is left. -/
theorem fraction_starts (source : List Char) : fraction source <+: source := by
  unfold fraction
  split
  · split
    · exact List.cons_prefix_cons.mpr ⟨rfl, List.cons_prefix_cons.mpr
        ⟨rfl, List.takeWhile_prefix _⟩⟩
    · exact List.nil_prefix
  · exact List.nil_prefix

/-- An exponent is taken from the front of the text. -/
theorem exponent_starts (source : List Char) : exponent source <+: source := by
  unfold exponent
  split
  · repeat' split
    · exact List.cons_prefix_cons.mpr ⟨rfl, List.cons_prefix_cons.mpr
        ⟨rfl, List.takeWhile_prefix _⟩⟩
    · exact List.cons_prefix_cons.mpr ⟨rfl, List.cons_prefix_cons.mpr
        ⟨rfl, List.cons_prefix_cons.mpr ⟨rfl, List.takeWhile_prefix _⟩⟩⟩
    · exact List.nil_prefix
    · exact List.nil_prefix
  · split
    · exact List.prefix_rfl
    · exact List.nil_prefix
  · exact List.nil_prefix

theorem takeWhile_isDigit_line (source more : List Char) :
    (source ++ '\n' :: more).takeWhile Char.isDigit = source.takeWhile Char.isDigit :=
  congrArg Taken.value (run_line (by decide) source more)

/-- Digits end before a new line. -/
theorem dropWhile_isDigit_line (source more : List Char) :
    (source ++ '\n' :: more).dropWhile Char.isDigit =
      source.dropWhile Char.isDigit ++ '\n' :: more :=
  congrArg Taken.rest (run_line (by decide) source more)

/-- No fraction goes on past the end of a line. -/
theorem fraction_line (source more : List Char) :
    fraction (source ++ '\n' :: more) = fraction source := by
  have digit : '\n'.isDigit = false := by decide
  match source with
  | [] => rfl
  | [char] =>
      by_cases point : char = '.'
      · subst point
        simp [fraction, digit]
      · simp [fraction, point]
  | char :: second :: rest =>
      by_cases point : char = '.'
      · subst point
        simp [fraction, takeWhile_isDigit_line]
      · simp [fraction, point]

/-- No exponent goes on past the end of a line. -/
theorem exponent_line (source more : List Char) :
    exponent (source ++ '\n' :: more) = exponent source := by
  have digit : '\n'.isDigit = false := by decide
  match source with
  | [] =>
      match more with
      | [] => rfl
      | [char] => simp [exponent]
      | char :: second :: more => simp [exponent]
  | [letter] =>
      cases more <;> simp [exponent, digit]
  | [letter, second] =>
      by_cases letters : (letter == 'e' || letter == 'E') = true <;>
        by_cases digits : second.isDigit = true <;> simp [exponent, digit, letters, digits]
  | letter :: sign :: digit :: rest =>
      have inner := takeWhile_isDigit_line rest more
      have digits := takeWhile_isDigit_line (digit :: rest) more
      simp only [List.cons_append] at digits ⊢
      simp only [exponent, inner, digits]

/-- A hexadecimal number ends with its line. -/
theorem closes_hexadecimal (negative : Bool) : Closes (hexadecimal negative) rest := by
  intro taken found
  unfold hexadecimal at found ⊢
  simp only at found
  split at found
  · next value fits =>
    cases found
    refine ⟨List.dropWhile_suffix _, fun more => ?_⟩
    simp only [run_line (by decide : Text.isHexadecimal '\n' = false), fits]
  · cases found

/-- A decimal number ends with its line. -/
theorem closes_decimal (negative : Bool) (starts : char.isDigit = true) :
    Closes (fun text => decimal negative (char :: text)) rest := by
  intro taken found
  have digits := takeWhile_isDigit_line (char :: rest)
  have after := dropWhile_isDigit_line (char :: rest)
  simp only [List.cons_append] at digits after
  have whole : (char :: rest).dropWhile Char.isDigit <:+ rest := by
    rw [List.dropWhile_cons_of_pos starts]
    exact List.dropWhile_suffix _
  have point := (fraction_starts ((char :: rest).dropWhile Char.isDigit)).length_le
  have power := (exponent_starts (((char :: rest).dropWhile Char.isDigit).drop
    (fraction ((char :: rest).dropWhile Char.isDigit)).length)).length_le
  have ended (first second : Nat) :
      (((char :: rest).dropWhile Char.isDigit).drop first).drop second <:+ rest :=
    ((List.drop_suffix _ _).trans (List.drop_suffix _ _)).trans whole
  simp only [decimal] at found ⊢
  split at found
  · next plain =>
    split at found
    · next value fits =>
      cases found
      refine ⟨ended _ _, fun more => ?_⟩
      simp only [digits, after, fraction_line, List.drop_append_of_le_length point, exponent_line,
        List.drop_append_of_le_length power, plain, fits, if_true]
    · cases found
  · next pointed =>
    cases found
    refine ⟨ended _ _, fun more => ?_⟩
    simp only [digits, after, fraction_line, List.drop_append_of_le_length point, exponent_line,
      List.drop_append_of_le_length power, pointed]
    rfl

/-- Only a cross after a zero begins a hexadecimal number. -/
theorem number_cons_eq_decimal {negative : Bool}
    (plain : char = '0' → rest.head? ≠ some 'x' ∧ rest.head? ≠ some 'X') :
    number negative (char :: rest) = decimal negative (char :: rest) := by
  unfold number
  split
  · next begins =>
    obtain ⟨rfl, rfl⟩ := List.cons.inj begins
    exact absurd rfl (plain rfl).1
  · next begins =>
    obtain ⟨rfl, rfl⟩ := List.cons.inj begins
    exact absurd rfl (plain rfl).2
  · rfl

/-- A number ends with its line, whichever its base. -/
theorem closes_number (negative : Bool) (starts : char.isDigit = true) :
    Closes (fun text => number negative (char :: text)) rest := by
  by_cases plain : char = '0' → rest.head? ≠ some 'x' ∧ rest.head? ≠ some 'X'
  · intro taken found
    have found : decimal negative (char :: rest) = .ok taken := by
      rw [← number_cons_eq_decimal plain]
      exact found
    obtain ⟨suffix, same⟩ := closes_decimal negative starts taken found
    refine ⟨suffix, fun more => ?_⟩
    rw [← same more]
    refine number_cons_eq_decimal fun zero => ?_
    cases rest with
    | nil => exact ⟨by simp, by simp⟩
    | cons second rest => exact plain zero
  · obtain ⟨rfl, cross⟩ := Classical.not_imp.mp plain
    cases rest with
    | nil => simp at cross
    | cons second rest =>
        have closes (before : List Char) :
            Closes (fun text => (hexadecimal negative text).after before id) rest :=
          (closes_hexadecimal negative).after before id
        have cross : second = 'x' ∨ second = 'X' := by
          simpa only [List.head?_cons, ne_eq, Option.some.injEq, not_and_or, not_not] using cross
        obtain rfl | rfl := cross
        · have begins : Closes (fun text => number negative ('0' :: text)) (['x'] ++ rest) :=
            (closes ['0', 'x']).of_eq fun _ _ => rfl
          exact begins
        · have begins : Closes (fun text => number negative ('0' :: text)) (['X'] ++ rest) :=
            (closes ['0', 'X']).of_eq fun _ _ => rfl
          exact begins

/-- A minus, with the number behind it, ends with its line. -/
theorem closes_minus (signAllowed : Bool) : Closes (minus .cgif signAllowed) rest := by
  cases rest with
  | nil => nofun
  | cons char rest =>
      by_cases digit : char.isDigit = true
      · have begins : Closes (minus .cgif signAllowed) ([char] ++ rest) :=
          ((closes_number true digit).after ['-'] id).of_eq fun text _ => by
            simp [minus, digitFollows, digit]
        exact begins
      · intro taken found
        simp [minus, digitFollows, digit] at found

/-! ### Quotes and comments -/

/-- A quotation that is closed is closed where it was, whatever is below it. -/
theorem closes_quotedBody (delimiter : Char) (source : List Char) :
    Closes (quotedBody delimiter) source := by
  fun_induction quotedBody delimiter source with
  | case1 => nofun
  | case2 rest =>
      intro taken found
      rw [quotedBody.eq_def] at found
      cases found
  | case3 rest line =>
      have begins : Closes (quotedBody delimiter) ([delimiter] ++ rest) :=
        (Closes.ok [] [delimiter]).of_eq fun _ _ => quotedBody_close line
      exact begins
  | case4 line inside =>
      intro taken found
      simp [quotedBody, inside] at found
  | case5 next rest line inside ih =>
      have begins : Closes (quotedBody delimiter) (['\\', next] ++ rest) :=
        (ih.after ['\\', next] (Text.unescape next :: ·)).of_eq fun text _ => by
          rw [List.cons_append, quotedBody.eq_def]
          simp [inside]
      exact begins
  | case6 char rest line inside slash ih =>
      have begins : Closes (quotedBody delimiter) ([char] ++ rest) :=
        (ih.after [char] (char :: ·)).of_eq fun _ _ => quotedBody_plain line slash inside
      exact begins

/-- A comment that is closed is closed where it was, whatever follows. -/
theorem closes_commentBody (source : List Char) : Closes commentBody source := by
  induction source with
  | nil => nofun
  | cons char rest ih =>
      by_cases closing : ∃ others, char = '*' ∧ rest = '/' :: others
      · obtain ⟨others, rfl, rfl⟩ := closing
        have begins : Closes commentBody (['*', '/'] ++ others) :=
          (Closes.ok [] ['*', '/']).of_eq fun _ _ => rfl
        exact begins
      · cases rest with
        | nil =>
            intro taken found
            rw [commentBody.eq_def] at found
            split at found
            · cases found
            · next closes => exact absurd closes (by simp)
            · next begins => cases begins; cases found
        | cons second rest =>
            have begins : Closes commentBody ([char] ++ second :: rest) :=
              (ih.after [char] (char :: ·)).of_eq fun text before => by
                rw [List.singleton_append, commentBody.eq_def]
                split
                · next none_ => cases none_
                · next others closes =>
                  obtain ⟨rfl, rfl⟩ := List.cons.inj closes
                  obtain ⟨rfl, -⟩ := List.cons_prefix_cons.mp before
                  exact absurd ⟨rest, rfl, rfl⟩ closing
                · next same => cases same; rfl
            exact begins

/-- The comment of a node is the same with another line below it. -/
theorem closes_nodeComment : Closes nodeComment rest := by
  intro taken found
  unfold nodeComment at found ⊢
  simp only at found
  split at found
  · next node closer =>
    cases found
    have ends : (run (fun char => (NodeKind.ofCloser? char).isNone) rest).rest ≠ [] := by
      intro empty
      simp [empty] at closer
    have first (more : List Char) : (((run (fun char => (NodeKind.ofCloser? char).isNone)
        rest).rest ++ '\n' :: more).head?.bind NodeKind.ofCloser?) = some node := by
      obtain ⟨first, others, same⟩ := List.exists_cons_of_ne_nil ends
      rw [same] at closer ⊢
      exact closer
    refine ⟨List.dropWhile_suffix _, fun more => ?_⟩
    simp only [run_append_of_rest ends, first]
  · cases found

/-! ### Tokens -/

theorem closes_quote (found : String → Token) : Closes (quote char found) rest :=
  (closes_quotedBody char rest).after [char] fun text => found (String.ofList text)

/-- Every token that is complete stays the same token with another line below. -/
theorem closes_token (signAllowed : Bool) : Closes (token .cgif signAllowed char) rest := by
  intro taken found
  -- Whether a sign begins a label is seen from the next character, which no line break changes.
  have letters (more : List Char) :
      (rest ++ '\n' :: more).head?.any startsWord = rest.head?.any startsWord :=
    head?_any_line more
  simp only [token] at found ⊢
  split at found
  · next double =>
    simp only [double, if_true]
    exact closes_quote _ taken (double ▸ found)
  split at found
  · next double single =>
    simp only [single]
    exact closes_quote _ taken (single ▸ found)
  split at found
  · next double single digit =>
    simp only [double, single, digit, if_true, if_false]
    exact closes_number false digit taken found
  split at found
  · next double single digit starts =>
    simp only [double, single, digit, starts, if_true, if_false]
    exact closes_word starts taken found
  split at found
  · next double single digit starts star =>
    simp only [double, single, digit, starts, letters, star, if_true, if_false]
    exact closes_label _ taken found
  split at found
  · next double single digit starts star question =>
    simp only [double, single, digit, starts, letters, star, question, if_true, if_false]
    exact closes_label _ taken found
  split at found
  · next double single digit starts star question hash =>
    subst hash
    exact closes_marker taken found
  split at found
  · next double single digit starts star question hash semicolon =>
    subst semicolon
    exact closes_nodeComment taken found
  split at found
  · next double single digit starts star question hash semicolon dash =>
    subst dash
    exact closes_minus signAllowed taken found
  split at found
  · next arrow => simp at arrow
  split at found
  · next double single digit starts star question hash semicolon dash _ _ mark punct =>
    cases found
    refine ⟨List.suffix_rfl, fun more => ?_⟩
    simp only [double, single, digit, starts, letters, star, question, hash, semicolon, dash,
      reduceCtorEq, decide_false, Bool.and_false, Bool.false_and, Bool.false_eq_true, if_false]
  · cases found

/-- What a step finds in a text is what it finds with more text after a line break, unless it goes
past white space, which may go on after the text. -/
theorem closes_step (signAllowed : Bool) (blank : Text.isBlank char = false) :
    Closes (step .cgif signAllowed char) rest := by
  by_cases slash : char = '/'
  · subst slash
    have letter : startsWord '/' = false := not_startsWord_of_lt (by decide)
    intro taken found
    simp only [step, blank, Bool.false_eq_true, if_false] at found ⊢
    split at found
    · cases found
      exact ⟨⟨['*', '*', '/'], rfl⟩, fun more => rfl⟩
    · next source empty _ =>
      obtain ⟨suffix, same⟩ := (closes_commentBody source).after ['/', '*', '*']
        (fun text => Found.token (.formalComment (String.ofList (Text.trim text)))) taken found
      refine ⟨suffix.trans ⟨['*', '*'], rfl⟩, fun more => ?_⟩
      rw [← same more]
      cases source with
      | nil => cases found
      | cons first source =>
          have apart : first ≠ '/' := fun same => empty source (by rw [same])
          simp [apart]
    · next source _ formal _ =>
      obtain ⟨suffix, same⟩ := (closes_commentBody source).after ['/', '*']
        (fun _ => Found.gap) taken found
      refine ⟨suffix.trans ⟨['*'], rfl⟩, fun more => ?_⟩
      rw [← same more]
      cases source with
      | nil => cases found
      | cons first source =>
          have apart : first ≠ '*' := fun same => formal source (by rw [same])
          simp [apart]
    · simp [token, letter, Punct.ofChar?, Attempt.after] at found
  · have steps (text : List Char) : step .cgif signAllowed char text =
        (token .cgif signAllowed char text).after [] Found.token := step_eq_token blank slash
    have closes : Closes (step .cgif signAllowed char) ([] ++ rest) :=
      ((closes_token signAllowed).after [] Found.token).of_eq fun text _ => steps text
    exact closes

/-- A step goes past its first character at least. -/
theorem length_rest_le {signAllowed : Bool} {taken : Taken Found}
    (found : step .cgif signAllowed char rest = .ok taken) : taken.rest.length ≤ rest.length := by
  by_cases blank : Text.isBlank char = true
  · simp only [step, blank, if_true, Except.ok.injEq] at found
    subst found
    exact (List.dropWhile_suffix _).length_le
  · exact (closes_step signAllowed (by simpa using blank) taken found).1.length_le

/-! ## Texts -/

/-- Steps that are left over have no effect on a text of the interchange form, nor has what stood
before it, because a sign may stand before every number. -/
theorem scanFrom_of_le {steps more : Nat} {position : Position} {signAllowed other : Bool}
    (enough : source.length ≤ steps) (le : source.length ≤ more) :
    scanFrom .cgif steps position signAllowed source =
      scanFrom .cgif more position other source := by
  induction steps generalizing more position signAllowed other source with
  | zero =>
      obtain rfl : source = [] := List.length_eq_zero_iff.mp (Nat.le_zero.mp enough)
      cases more <;> rfl
  | succ steps ih =>
      cases source with
      | nil => cases more <;> rfl
      | cons char rest =>
          obtain ⟨more, rfl⟩ : ∃ count, more = count + 1 :=
            Nat.exists_eq_succ_of_ne_zero (by rintro rfl; simp at le)
          have same : step .cgif signAllowed char rest = step .cgif other char rest := rfl
          simp only [scanFrom, same]
          cases found : step .cgif other char rest with
          | error stuck => rfl
          | ok taken =>
              have shorter := length_rest_le found
              have within : taken.rest.length ≤ steps :=
                Nat.le_trans shorter (Nat.le_of_succ_le_succ enough)
              have within' : taken.rest.length ≤ more :=
                Nat.le_trans shorter (Nat.le_of_succ_le_succ le)
              obtain ⟨value, text, rest⟩ := taken
              cases value with
              | gap => exact ih within within'
              | token token =>
                  have later : scanFrom .cgif steps (position.advance text)
                      (signAfter signAllowed token) rest =
                    scanFrom .cgif more (position.advance text) (signAfter other token) rest :=
                    ih within within'
                  simp only [later]

/-- What scanning finds in a text of the interchange form that begins at a place. -/
def scanAt (position : Position) (source : List Char) : Scan :=
  scanFrom .cgif source.length position false source

variable {position : Position}

/-- A gap that is found at the head of the text is passed. -/
theorem scanAt_gap {text others : List Char}
    (found : step .cgif false char rest = .ok ⟨.gap, text, others⟩) :
    scanAt position (char :: rest) = scanAt (position.advance text) others := by
  simp only [scanAt, List.length_cons, scanFrom, found]
  exact scanFrom_of_le (length_rest_le found) (Nat.le_refl _)

/-- A token that is found at the head of the text comes first, and the scan goes on behind it. -/
theorem scanAt_token {text others : List Char} {token : Token}
    (found : step .cgif false char rest = .ok ⟨.token token, text, others⟩) :
    scanAt position (char :: rest) =
      { scanAt (position.advance text) others with
        tokens := ⟨token, ⟨position, position.advance text⟩⟩ ::
          (scanAt (position.advance text) others).tokens } := by
  simp only [scanAt, List.length_cons, scanFrom, found]
  rw [scanFrom_of_le (length_rest_le found) (Nat.le_refl _)]

/-- White space may be gone past one character after another. -/
theorem scanAt_blank (blank : Text.isBlank char = true) :
    scanAt position (char :: rest) = scanAt (position.next char) rest := by
  have all : scanAt position (char :: rest) =
      scanAt (position.advance (char :: rest.takeWhile Text.isBlank))
        (rest.dropWhile Text.isBlank) :=
    scanAt_gap (by simp only [step, blank, if_true])
  rw [all]
  cases rest with
  | nil => rfl
  | cons next rest =>
      by_cases more : Text.isBlank next = true
      · rw [List.takeWhile_cons_of_pos more, List.dropWhile_cons_of_pos more]
        symm
        exact scanAt_gap (by simp only [step, more, if_true])
      · rw [List.takeWhile_cons_of_neg more, List.dropWhile_cons_of_neg more]
        rfl

/-- A text below another one begins in the first column of the next line, and has the tokens that
it has there; those of the text above it stay as they are. -/
theorem scanAt_append {stop : Position} (source more : List Char)
    (ended : (scanAt position source).stop = .ok stop) :
    scanAt position (source ++ '\n' :: more) =
      { scanAt ⟨stop.line + 1, 1⟩ more with
        tokens := (scanAt position source).tokens ++ (scanAt ⟨stop.line + 1, 1⟩ more).tokens } := by
  induction count : source.length using Nat.strongRecOn generalizing source position with
  | ind count ih =>
      cases source with
      | nil =>
          obtain rfl : position = stop := Except.ok.inj ended
          exact scanAt_blank (by decide)
      | cons char rest =>
          subst count
          by_cases blank : Text.isBlank char = true
          · rw [scanAt_blank blank] at ended ⊢
            rw [List.cons_append, scanAt_blank blank]
            exact ih _ (by simp) rest ended rfl
          have closes : Closes (step .cgif false char) rest :=
            closes_step false (by simpa using blank)
          cases found : step .cgif false char rest with
          | error stuck => simp [scanAt, scanFrom, found] at ended
          | ok taken =>
              obtain ⟨suffix, same⟩ := closes taken found
              have shorter := Nat.lt_succ_of_le suffix.length_le
              obtain ⟨value, text, others⟩ := taken
              cases value with
              | gap =>
                  rw [scanAt_gap found] at ended ⊢
                  rw [List.cons_append, scanAt_gap (same more)]
                  exact ih _ shorter others ended rfl
              | token token =>
                  rw [scanAt_token found] at ended ⊢
                  rw [List.cons_append, scanAt_token (same more), ih _ shorter others ended rfl]
                  rfl

/-- Two texts of the interchange form, one below the other, have the tokens of the first and then
those of the second, further down by the lines of the first. -/
theorem ofText_append {first second : String} {stop : Position}
    (ended : (ofText .cgif first).stop = .ok stop) :
    ofText .cgif (first ++ "\n" ++ second) =
      { (ofText .cgif second).below stop.line with
        tokens := (ofText .cgif first).tokens ++
          ((ofText .cgif second).below stop.line).tokens } := by
  have whole : (first ++ "\n" ++ second).toList = first.toList ++ '\n' :: second.toList := by
    simp
  have first_line : ({} : Position).below stop.line = ⟨stop.line + 1, 1⟩ := rfl
  have lower : scanAt (({} : Position).below stop.line) second.toList =
      (ofText .cgif second).below stop.line :=
    scanFrom_below stop.line second.toList.length {} false second.toList
  have joined := scanAt_append first.toList second.toList ended
  rw [← first_line, lower, ← whole] at joined
  exact joined

/-- Two texts on lines of their own are scanned one after the other, the second from where the first
has ended. -/
theorem ofText_append_of_ok {first second : String} {stop lower : Position}
    (ended : (ofText .cgif first).stop = .ok stop)
    (ended' : (ofText .cgif second).stop = .ok lower) :
    ofText .cgif (first ++ "\n" ++ second) =
      { tokens := (ofText .cgif first).tokens ++
          (ofText .cgif second).tokens.map (Located.below stop.line)
        stop := .ok (lower.below stop.line) } := by
  rw [ofText_append ended]
  simp [below, ended', Except.map, Except.mapError]

end Scan

end ConceptualGraph
