/-
Module: ConceptualGraph.Proofs.Token.Scanned
Purpose: What holds of every token that is scanned from a text, and is needed to write
  it again.
Main exports: Token.IsName, Token.Scanned, Scan.scanned_of_mem, Scan.length_tokens_le
-/
import ConceptualGraph.Proofs.Token.Spelling
import Mathlib.Data.List.DropRight

namespace ConceptualGraph

/-! ## Conditions on a token -/

/-- Whether a word is none of the reserved words of a notation. -/
def Token.IsName (form : Notation) (word : String) : Prop :=
  IsWord word ∧ Keyword.ofWord? form word.toList = none

instance (form : Notation) (word : String) : Decidable (Token.IsName form word) :=
  inferInstanceAs (Decidable (_ ∧ _))

/-- Whether a text can be a comment inside a node. -/
def Token.IsNodeComment (text : String) : Prop :=
  Text.trim text.toList = text.toList ∧
    text.toList.all (fun char => (NodeKind.ofCloser? char).isNone) = true

/-- Whether a text can be a comment of a graph. -/
def Token.IsGraphComment (text : String) : Prop :=
  Text.trim text.toList = text.toList ∧ ¬ ['*', '/'] <:+: text.toList

/-- What is known of a token that has been scanned. -/
def Token.Scanned (form : Notation) : Token → Prop
  | .ident word => IsName form word
  | .int value => value.natAbs ≤ Text.largestSigned
  | .nodeComment _ text => IsNodeComment text
  | .formalComment text => IsGraphComment text
  | _ => True

/-! ## Trimmed texts -/

/-- A text that has been trimmed has nothing to trim. -/
theorem Text.trim_trim (text : List Char) : trim (trim text) = trim text := by
  have shape : ∀ text, trim text = (text.dropWhile isBlank).rdropWhile isBlank := fun _ => rfl
  have leading : (trim text).dropWhile isBlank = trim text := by
    rw [shape]
    cases kept : text.dropWhile isBlank with
    | nil => rfl
    | cons char others =>
        have plain : ¬ isBlank char = true := by
          have first : isBlank ((text.dropWhile isBlank).head (by simp [kept])) = false :=
            List.head_dropWhile_not _ _
          simpa [kept] using first
        cases ended : (char :: others).rdropWhile isBlank with
        | nil => rfl
        | cons first later =>
            obtain ⟨same, -⟩ :=
              List.cons_prefix_cons.mp (ended ▸ List.rdropWhile_prefix isBlank (char :: others))
            rw [List.dropWhile_cons_of_neg (same ▸ plain)]
  rw [shape (trim text), leading, shape, List.rdropWhile_idempotent]

/-- A text without the white space at its ends is a part of the text. -/
theorem Text.trim_infix (text : List Char) : trim text <:+: text :=
  (List.rdropWhile_prefix Text.isBlank _).isInfix.trans
    (List.dropWhile_suffix Text.isBlank).isInfix

namespace Scan

variable {form : Notation} {signAllowed : Bool}

/-! ## One token -/

/-- An attempt at a token yields one of which enough is known, and never the end of input. -/
def Attempt.Yields (form : Notation) (attempt : Attempt Token) : Prop :=
  ∀ taken, attempt = .ok taken → taken.value.Scanned form ∧ taken.value ≠ .endOfInput

theorem Attempt.Yields.after {attempt : Attempt Token} (yields : attempt.Yields form)
    (before : List Char) : (attempt.after before id).Yields form := by
  intro taken found
  cases attempt with
  | error stuck => cases found
  | ok former =>
      cases found
      exact yields former rfl

/-- What is scanned as a word is a word or a keyword. -/
theorem scanned_word {char : Char} {rest : List Char} (starts : startsWord char = true) :
    (word form (char :: rest)).value.Scanned form ∧
      (word form (char :: rest)).value ≠ .endOfInput := by
  have continues : continuesWord char = true := by
    simp only [startsWord, continuesWord, Bool.or_eq_true] at starts ⊢
    tauto
  have legible : Token.IsWord (String.ofList ((char :: rest).takeWhile continuesWord)) := by
    simp only [Token.IsWord, String.toList_ofList, List.takeWhile_cons_of_pos continues,
      List.head?_cons, Option.any_some, starts, Bool.true_and, List.all_eq_true]
    intro other member
    cases member with
    | head => exact continues
    | tail _ member => exact List.mem_takeWhile_imp member
  simp only [word, run]
  split
  · exact ⟨trivial, by simp⟩
  · next unreserved => exact ⟨⟨legible, by simpa using unreserved⟩, by simp⟩

/-- An integer that is read is within 64 bits. -/
theorem natAbs_integer? {negative : Bool} {base : Nat} {digits : List Char} {value : Int}
    (found : integer? negative base digits = some value) :
    value.natAbs ≤ Text.largestSigned := by
  unfold integer? at found
  split at found
  · cases found
  · split at found
    · cases found
      cases negative <;> simpa
    · cases found

/-- What is scanned as a number is a number that could be written. -/
theorem yields_number (negative : Bool) (source : List Char) :
    (number negative source).Yields form := by
  have hexadecimal : ∀ source, (hexadecimal negative source).Yields form := by
    intro source taken found
    unfold Scan.hexadecimal at found
    simp only at found
    split at found
    · next value known =>
      cases found
      exact ⟨natAbs_integer? known, nofun⟩
    · cases found
  have decimal : (decimal negative source).Yields form := by
    intro taken found
    unfold Scan.decimal at found
    simp only at found
    split at found
    · split at found
      · next value known =>
        cases found
        exact ⟨natAbs_integer? known, nofun⟩
      · cases found
    · cases found
      exact ⟨trivial, nofun⟩
  unfold number
  split
  · exact (hexadecimal _).after _
  · exact (hexadecimal _).after _
  · exact decimal

/-- What is scanned from a minus on could be written. -/
theorem yields_minus (source : List Char) : (minus form signAllowed source).Yields form := by
  unfold minus
  split
  · split
    · exact (yields_number _ _).after _
    · intro taken found
      cases found
  · split
    · exact (yields_number _ _).after _
    · split <;> (intro taken found; cases found; exact ⟨trivial, nofun⟩)

/-- A quotation yields a token that could be written if every text makes one. -/
theorem yields_quote {delimiter : Char} {found : String → Token} {source : List Char}
    (any : ∀ text, (found text).Scanned form ∧ found text ≠ .endOfInput) :
    (quote delimiter found source).Yields form := by
  intro taken ended
  unfold quote at ended
  cases body : quotedBody delimiter source with
  | error stuck => simp [body, Attempt.after] at ended
  | ok former =>
      simp only [body, Attempt.after, Except.ok.injEq] at ended
      subst ended
      exact any _

theorem yields_nodeComment (source : List Char) : (nodeComment source).Yields form := by
  intro taken found
  unfold nodeComment at found
  simp only at found
  split at found
  · cases found
    refine ⟨⟨by simp [Text.trim_trim], ?_⟩, nofun⟩
    simp only [run, String.toList_ofList, List.all_eq_true]
    intro char member
    have inside := (Text.trim_infix _).subset member
    exact List.mem_takeWhile_imp (p := fun char => (NodeKind.ofCloser? char).isNone) inside
  · cases found

/-- Every token that is scanned could be written. -/
theorem yields_token (char : Char) (rest : List Char) :
    (token form signAllowed char rest).Yields form := by
  unfold token
  split
  · exact yields_quote fun _ => ⟨trivial, nofun⟩
  split
  · exact yields_quote fun _ => ⟨trivial, nofun⟩
  split
  · exact yields_number _ _
  split
  · next starts =>
    intro taken found
    cases found
    exact scanned_word starts
  split
  · intro taken found
    cases found
    exact ⟨trivial, nofun⟩
  split
  · intro taken found
    cases found
    exact ⟨trivial, nofun⟩
  split
  · intro taken found
    cases found
    exact ⟨trivial, nofun⟩
  split
  · exact yields_nodeComment _
  split
  · exact yields_minus _
  split
  · intro taken found
    cases found
    exact ⟨trivial, nofun⟩
  · split <;> (intro taken found; cases found; try exact ⟨trivial, nofun⟩)

/-- The body of a comment is the text before the first closing mark. -/
theorem commentBody_eq {source : List Char} {taken : Taken (List Char)}
    (found : commentBody source = .ok taken) :
    source = taken.value ++ '*' :: '/' :: taken.rest ∧ ¬ ['*', '/'] <:+: taken.value := by
  induction source generalizing taken with
  | nil => simp [commentBody] at found
  | cons char rest ih =>
      rw [commentBody.eq_def] at found
      split at found
      · cases found
      · next closed =>
        obtain ⟨rfl, rfl⟩ := List.cons.inj closed
        cases found
        exact ⟨rfl, by simp⟩
      · next first others open' closed =>
        obtain ⟨rfl, rfl⟩ := List.cons.inj closed
        cases inner : commentBody rest with
        | error stuck => simp [inner, Attempt.after] at found
        | ok former =>
            simp only [inner, Attempt.after, Except.ok.injEq] at found
            subst found
            obtain ⟨split, unclosed⟩ := ih inner
            refine ⟨by simpa using split, ?_⟩
            rw [List.infix_cons_iff]
            rintro (starts | inside)
            · obtain ⟨rfl, slash⟩ := List.cons_prefix_cons.mp starts
              obtain ⟨later, same⟩ := slash
              rw [← same] at split
              exact open' (later ++ '*' :: '/' :: former.rest) rfl (by simpa using split)
            · exact unclosed inside

/-- Every token that a step of scanning finds could be written. -/
theorem yields_step {char : Char} {rest : List Char} {taken : Taken Found} {found : Token}
    (ended : step form signAllowed char rest = .ok taken) (value : taken.value = .token found) :
    found.Scanned form ∧ found ≠ .endOfInput := by
  unfold step at ended
  split at ended
  · cases ended
    cases value
  · split at ended
    · cases ended
      cases value
    · next source _ _ =>
      cases body : commentBody source with
      | error stuck => simp [body, Attempt.after] at ended
      | ok former =>
          simp only [body, Attempt.after, Except.ok.injEq] at ended
          subst ended
          cases value
          obtain ⟨-, unclosed⟩ := commentBody_eq body
          refine ⟨⟨by simp [Text.trim_trim], fun inside => unclosed ?_⟩, nofun⟩
          rw [String.toList_ofList] at inside
          exact inside.trans (Text.trim_infix _)
    · next source _ _ _ =>
      cases body : commentBody source with
      | error stuck => simp [body, Attempt.after] at ended
      | ok former =>
          simp only [body, Attempt.after, Except.ok.injEq] at ended
          subst ended
          cases value
    · cases attempted : token form signAllowed char rest with
      | error stuck => simp [attempted, Attempt.after] at ended
      | ok former =>
          simp only [attempted, Attempt.after, Except.ok.injEq] at ended
          subst ended
          cases value
          exact yields_token _ _ former attempted

/-! ## All tokens of a text -/

/-- Every token of a text could be written, and none of them is the end of input. -/
theorem scanned_of_mem_scanFrom {steps : Nat} {position : Position} {source : List Char}
    {located : Located}
    (member : located ∈ (scanFrom form steps position signAllowed source).tokens) :
    located.token.Scanned form ∧ located.token ≠ .endOfInput := by
  induction steps generalizing position signAllowed source with
  | zero => cases source <;> simp [scanFrom] at member
  | succ steps ih =>
      cases source with
      | nil => simp [scanFrom] at member
      | cons char rest =>
          rw [scanFrom] at member
          split at member
          · simp at member
          · next taken ended =>
            simp only at member
            split at member
            · exact ih member
            · next found value =>
              cases member with
              | head => exact yields_step ended value
              | tail _ member => exact ih member

/-- Every token takes a step. -/
theorem length_tokens_scanFrom_le (steps : Nat) (position : Position) (source : List Char) :
    (scanFrom form steps position signAllowed source).tokens.length ≤ steps := by
  induction steps generalizing position signAllowed source with
  | zero => cases source <;> simp [scanFrom]
  | succ steps ih =>
      cases source with
      | nil => simp [scanFrom]
      | cons char rest =>
          rw [scanFrom]
          split
          · simp
          · simp only
            split
            · exact Nat.le_succ_of_le (ih _ _)
            · exact Nat.succ_le_succ (ih _ _)

theorem scanned_of_mem {source : String} {located : Located}
    (member : located ∈ (ofText form source).tokens) : located.token.Scanned form :=
  (scanned_of_mem_scanFrom member).1

/-- The end of input is no token of a text. -/
theorem ne_endOfInput_of_mem {source : String} {located : Located}
    (member : located ∈ (ofText form source).tokens) : located.token ≠ .endOfInput :=
  (scanned_of_mem_scanFrom member).2

/-- A text has at most as many tokens as characters. -/
theorem length_tokens_le (source : String) :
    (ofText form source).tokens.length ≤ source.length := by
  rw [← String.length_toList]
  exact length_tokens_scanFrom_le _ _ _

end Scan

end ConceptualGraph
