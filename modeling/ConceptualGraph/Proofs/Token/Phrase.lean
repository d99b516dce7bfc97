/-
Module: ConceptualGraph.Proofs.Token.Phrase
Purpose: A written phrase is scanned into its tokens.
Main exports: Phrase.chars, Phrase.Legible, Phrase.Legible.append, Phrase.Legible.finds,
  Phrase.Legible.ofText
-/
import ConceptualGraph.Proofs.Token.Opening

namespace ConceptualGraph.Phrase

open Text (isBlank)
open Scan (Finds signAfter)

variable {form : Notation} {signAllowed : Bool} {rest : List Char}

/-! ## Characters -/

/-- The characters of a phrase. -/
def chars (phrase : Phrase) : List Char :=
  phrase.flatMap fun piece => piece.text.toList

@[simp] theorem chars_nil : chars [] = [] := rfl

@[simp] theorem chars_cons (piece : Piece) (phrase : Phrase) :
    chars (piece :: phrase) = piece.text.toList ++ phrase.chars := by
  simp [chars]

@[simp] theorem chars_append (front back : Phrase) :
    chars (front ++ back) = front.chars ++ back.chars := by
  simp [chars]

/-- The text of a phrase is made of its characters. -/
theorem toList_text (phrase : Phrase) : phrase.text.toList = phrase.chars := by
  induction phrase with
  | nil => rfl
  | cons piece phrase ih =>
      rw [chars_cons, ← ih, ← String.toList_append]
      simp [text, String.join_cons]

@[simp] theorem tokens_nil : tokens [] = [] := rfl

@[simp] theorem tokens_cons_token (token : Token) (phrase : Phrase) :
    tokens (.token token :: phrase) = token :: phrase.tokens := rfl

@[simp] theorem tokens_cons_blank (space : String) (phrase : Phrase) :
    tokens (.blank space :: phrase) = phrase.tokens := rfl

@[simp] theorem tokens_append (front back : Phrase) :
    tokens (front ++ back) = front.tokens ++ back.tokens := by
  simp [tokens, List.filterMap_append]

@[simp] theorem tokens_mark (mark : Punct) : (Phrase.mark mark).tokens = [.punct mark] := rfl

@[simp] theorem tokens_ofToken (token : Token) : (ofToken token).tokens = [token] := rfl

@[simp] theorem tokens_space : space.tokens = [] := rfl

@[simp] theorem join_nil (separator : String) : join separator [] = [] := rfl

@[simp] theorem join_singleton (separator : String) (phrase : Phrase) :
    join separator [phrase] = phrase := by
  simp [join]

/-- A separator stands between the first phrase and those that follow. -/
theorem join_cons_cons (separator : String) (phrase second : Phrase) (phrases : List Phrase) :
    join separator (phrase :: second :: phrases) =
      phrase ++ (.blank separator :: join separator (second :: phrases)) := by
  simp [join, List.intercalate, List.intersperse]

/-- The tokens of phrases that are joined are those of the phrases in order. -/
theorem tokens_join (separator : String) (phrases : List Phrase) :
    (join separator phrases).tokens = phrases.flatMap tokens := by
  induction phrases with
  | nil => rfl
  | cons phrase phrases ih =>
      cases phrases with
      | nil => simp
      | cons second phrases =>
          rw [join_cons_cons, tokens_append, tokens_cons_blank, ih, ← List.flatMap_cons]

/-! ## Legible phrases -/

/-- Whether signs are allowed after a phrase. -/
def signThrough (form : Notation) : Bool → Phrase → Bool
  | signAllowed, [] => signAllowed
  | signAllowed, .blank _ :: phrase => signThrough form signAllowed phrase
  | signAllowed, .token token :: phrase =>
      signThrough form (signAfter signAllowed (token.reread form)) phrase

/-- Whether a phrase is scanned piece by piece where `rest` follows it: every token is
legible where it stands and ends before the next character. -/
def Legible (form : Notation) : (signAllowed : Bool) → Phrase → (rest : List Char) → Prop
  | _, [], _ => True
  | signAllowed, .blank space :: phrase, rest =>
      (∀ char ∈ space.toList, isBlank char = true) ∧ Legible form signAllowed phrase rest
  | signAllowed, .token token :: phrase, rest =>
      token.Legible form signAllowed ∧ token.EndsBefore form (chars phrase ++ rest) ∧
        Legible form (signAfter signAllowed (token.reread form)) phrase rest

/-- A phrase is legible before what follows it if its front is before its back and its back before
that. -/
theorem Legible.append {front back : Phrase}
    (before : front.Legible form signAllowed (back.chars ++ rest))
    (after : back.Legible form (signThrough form signAllowed front) rest) :
    (front ++ back).Legible form signAllowed rest := by
  induction front generalizing signAllowed with
  | nil => exact after
  | cons piece front ih =>
      cases piece with
      | blank space =>
          exact ⟨before.1, ih before.2 after⟩
      | token token =>
          obtain ⟨legible, ends, others⟩ := before
          refine ⟨legible, ?_, ih others after⟩
          simpa [List.append_assoc] using ends

/-- A legible phrase is scanned into its tokens. -/
theorem Legible.finds {phrase : Phrase} (legible : phrase.Legible form signAllowed []) :
    Finds form signAllowed phrase.chars (phrase.tokens.map (Token.reread form)) := by
  induction phrase generalizing signAllowed with
  | nil => exact Finds.nil
  | cons piece phrase ih =>
      cases piece with
      | blank space =>
          rw [chars_cons, tokens_cons_blank]
          exact Finds.blanks legible.1 (ih legible.2)
      | token token =>
          obtain ⟨legible, ends, others⟩ := legible
          rw [List.append_nil] at ends
          rw [chars_cons, tokens_cons_token, List.map_cons]
          exact Finds.token (Scan.opens_spelling legible ends) (ih others)

/-- The text of a legible phrase is scanned into its tokens. -/
theorem Legible.ofText {phrase : Phrase} (legible : phrase.Legible form false []) :
    ∃ located stop, Scan.ofText form phrase.text = ⟨located, .ok stop⟩ ∧
      located.map Located.token = phrase.tokens.map (Token.reread form) := by
  unfold Scan.ofText
  rw [toList_text]
  exact legible.finds _ _ (Nat.le_refl _)

end ConceptualGraph.Phrase
