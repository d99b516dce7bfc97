/-
Module: ConceptualGraph.Proofs.Token.Tiling
Purpose: The tokens of a text cover it without overlap: what no token covers is white space or a
  plain comment, and the places of the tokens count the lines and characters before them.
Main exports: lineAfter, columnAfter, Position.after, Scan.Tiling, Extent, Scan.Tiles,
  Scan.tiles_ofText
-/
import ConceptualGraph.Proofs.Token.Lexeme
import ConceptualGraph.Reading.Basic

namespace ConceptualGraph

open Text (isBlank)

/-! ## Places -/

/-- The line on which a text ends, from one: it counts the line feeds. -/
def lineAfter (text : List Char) : Nat := 1 + text.count '\n'

/-- The column in which a text ends, from one: it counts the characters after the last line feed. -/
def columnAfter (text : List Char) : Nat := 1 + (text.reverse.takeWhile (· ≠ '\n')).length

/-- The place after a text, as far as 32 bits hold its numbers. -/
def Position.after (text : List Char) : Position where
  line := .ofNat (lineAfter text)
  column := .ofNat (columnAfter text)

/-- Whether a place has the line and the column of the end of a text, and not only what is left of
them in 32 bits. -/
def Position.Counts (position : Position) (text : List Char) : Prop :=
  position.line.toNat = lineAfter text ∧ position.column.toNat = columnAfter text

/-- Counting character by character comes to the same as counting the lines and the last column. -/
theorem Position.advance_eq_after (text : List Char) :
    ({} : Position).advance text = after text := by
  induction text using List.reverseRecOn with
  | nil => rfl
  | append_singleton text char ih =>
      have last : ({} : Position).advance (text ++ [char]) = (after text).next char := by
        rw [← ih, advance, advance, List.foldl_append]
        rfl
      rw [last]
      by_cases line : char = '\n'
      · subst line
        simp [next, after, lineAfter, columnAfter, UInt32.ofNat_add, UInt32.add_assoc]
      · simp [next, after, lineAfter, columnAfter, line, UInt32.ofNat_add, UInt32.add_comm]

/-- A text that is shorter than the greatest number of 32 bits has lines and columns below it. -/
theorem Position.counts_after {text : List Char} (short : text.length + 1 < UInt32.size) :
    (after text).Counts text := by
  have lines : lineAfter text ≤ text.length + 1 := by
    rw [lineAfter, Nat.add_comm]
    exact Nat.succ_le_succ List.count_le_length
  have columns : columnAfter text ≤ text.length + 1 := by
    have within := (List.takeWhile_prefix (l := text.reverse) (· ≠ '\n')).length_le
    rw [List.length_reverse] at within
    rw [columnAfter, Nat.add_comm]
    exact Nat.succ_le_succ within
  exact ⟨UInt32.toNat_ofNat_of_lt (Nat.lt_of_le_of_lt lines short),
    UInt32.toNat_ofNat_of_lt (Nat.lt_of_le_of_lt columns short)⟩

namespace Scan

variable {form : Notation}

/-! ## From one place to the next -/

end Scan

/-! ## Stretches of the whole text -/

/-- A stretch of a text, by the numbers of characters before its start and before its end. -/
structure Extent where
  start : Nat
  stop : Nat
  deriving DecidableEq, Repr

namespace Extent

variable (source : List Char) (extent other : Extent)

/-- The characters in a stretch of a text. -/
def chars : List Char := (source.drop extent.start).take (extent.stop - extent.start)

/-- The places where a stretch of a text starts and ends, as far as 32 bits hold them. -/
def span : Span := ⟨.after (source.take extent.start), .after (source.take extent.stop)⟩

/-- Whether a span has the very lines and columns where a stretch of a text starts and ends. -/
def CountedBy (span : Span) : Prop :=
  span.start.Counts (source.take extent.start) ∧ span.stop.Counts (source.take extent.stop)

/-- Whether a character, by its number, is in a stretch. -/
def Holds (index : Nat) : Prop := extent.start ≤ index ∧ index < extent.stop

/-- Whether a stretch ends where another one starts, or before. -/
def Precedes : Prop := extent.stop ≤ other.start

/-- A stretch has the characters between what comes before and after. -/
theorem chars_between (front text rest : List Char) :
    (Extent.mk front.length (front.length + text.length)).chars (front ++ (text ++ rest)) =
      text := by
  simp [chars]

/-- A stretch spans the places between what comes before and after. -/
theorem span_between (front text rest : List Char) :
    (Extent.mk front.length (front.length + text.length)).span (front ++ (text ++ rest)) =
      ⟨({} : Position).advance front, (({} : Position).advance front).advance text⟩ := by
  rw [← Position.advance_append, Position.advance_eq_after, Position.advance_eq_after, span,
    ← List.append_assoc, ← List.length_append, List.take_left, List.append_assoc, List.take_left]

/-- In a text that is not too long for 32 bits, no place has lost anything of its numbers. -/
theorem countedBy_span (short : source.length + 1 < UInt32.size) :
    extent.CountedBy source (extent.span source) := by
  have within (count : Nat) : (source.take count).length + 1 < UInt32.size := by
    have shorter := List.length_take_le' count source
    omega
  exact ⟨Position.counts_after (within extent.start), Position.counts_after (within extent.stop)⟩

end Extent

/-- A token is what exactly the characters of a stretch write, and has their places: in 32 bits, and
so the very lines and columns unless the text is too long for these. -/
structure Located.Covers (form : Notation) (source : List Char) (located : Located)
    (extent : Extent) : Prop where
  filled : extent.start < extent.stop
  inside : extent.stop ≤ source.length
  span : located.span = extent.span source
  counted : source.length + 1 < UInt32.size → extent.CountedBy source located.span
  lexeme : located.token.Lexeme form (extent.chars source)

/-- Tokens cover stretches of a text that follow one another, from some character on; a character
outside of them is white space or in a comment that does not belong to the graph. -/
structure Scan.Tiles (form : Notation) (source : List Char) (first : Nat) (located : List Located)
    (extents : List Extent) : Prop where
  covers : List.Forall₂ (Located.Covers form source) located extents
  starts : ∀ extent ∈ extents, first ≤ extent.start
  ordered : extents.Pairwise Extent.Precedes
  gaps : ∀ index char, first ≤ index → source[index]? = some char →
    (∀ extent ∈ extents, ¬ extent.Holds index) → isBlank char = true ∨
      ∃ comment : Extent, comment.Holds index ∧ first ≤ comment.start ∧
        comment.stop ≤ source.length ∧ IsPlainComment (comment.chars source) ∧
        ∀ extent ∈ extents, extent.Precedes comment ∨ comment.Precedes extent

namespace Scan

variable {form : Notation} {front text rest : List Char} {located : List Located}
  {extents : List Extent}

namespace Tiles

/-- At the end of the text no stretches are left. -/
theorem done : Tiles form (front ++ []) front.length [] [] where
  covers := .nil
  starts := nofun
  ordered := .nil
  gaps index char from_ found := by
    have := (List.getElem?_eq_some_iff.mp found).1
    simp at this
    omega

/-- A gap adds no stretch, and its characters are blank or in a comment. -/
theorem gap (gap : Gap text)
    (others : Tiles form (front ++ (text ++ rest)) (front.length + text.length) located extents) :
    Tiles form (front ++ (text ++ rest)) front.length located extents where
  covers := others.covers
  starts extent member := Nat.le_trans (Nat.le_add_right ..) (others.starts extent member)
  ordered := others.ordered
  gaps index char from_ found outside := by
    by_cases inside : index < front.length + text.length
    · rcases gap with blank | comment
      · left
        have member : char ∈ text := by
          rw [List.getElem?_append_right from_, List.getElem?_append_left (by omega)] at found
          exact List.mem_of_getElem? found
        exact blank char member
      · right
        refine ⟨⟨front.length, front.length + text.length⟩, ⟨from_, inside⟩, Nat.le_refl _, ?_, ?_,
          fun extent member => Or.inr (others.starts extent member)⟩
        · simp
        · rw [Extent.chars_between]
          exact comment
    · apply (others.gaps index char (by omega) found outside).imp_right
      rintro ⟨comment, holds, from', rest⟩
      exact ⟨comment, holds, by omega, rest⟩

/-- A token adds the stretch of its characters, before those of all others. -/
theorem token {found : Token} (filled : text ≠ []) (lexeme : found.Lexeme form text)
    (others : Tiles form (front ++ (text ++ rest)) (front.length + text.length) located extents) :
    Tiles form (front ++ (text ++ rest)) front.length
      (⟨found, ⟨({} : Position).advance front, (({} : Position).advance front).advance text⟩⟩ ::
        located)
      (⟨front.length, front.length + text.length⟩ :: extents) where
  covers := by
    constructor
    · have here := Extent.span_between front text rest
      constructor
      · simpa using List.length_pos_iff.mpr filled
      · simp
      · exact here.symm
      · intro short
        rw [← here]
        exact Extent.countedBy_span _ _ short
      · rw [Extent.chars_between]
        exact lexeme
    · exact others.covers
  starts extent member := by
    cases member with
    | head => exact Nat.le_refl _
    | tail _ member => exact Nat.le_trans (Nat.le_add_right ..) (others.starts extent member)
  ordered := .cons others.starts others.ordered
  gaps index char from_ found' outside := by
    have beyond : front.length + text.length ≤ index := by
      have notHere := outside _ (List.mem_cons_self ..)
      simp only [Extent.Holds, not_and, Nat.not_lt] at notHere
      exact notHere from_
    apply (others.gaps index char beyond found' fun extent member =>
      outside extent (List.mem_cons_of_mem _ member)).imp_right
    rintro ⟨comment, holds, from', inside, plain, apart⟩
    refine ⟨comment, holds, by omega, inside, plain, fun extent member => ?_⟩
    cases member with
    | head => exact Or.inl from'
    | tail _ member => exact apart extent member

end Tiles

end Scan

end ConceptualGraph
