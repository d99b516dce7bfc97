/-
Module: ConceptualGraph.Proofs.Writing.Twin
Purpose: A step of writing and the same step where every marker has its own number for its
  identifier: they come to the same, but for the identifiers, and each of these is paired with the
  marker whose number stands in its place.
Main exports: MarkerTable.numbering, Piece.Alike, Phrase.Alike, Write.Twin, Write.Twin.bind,
  Write.Twin.concat
-/
import ConceptualGraph.Proofs.Reading.Marked
import ConceptualGraph.Writing.Basic
import Mathlib.Data.List.Forall2

namespace ConceptualGraph

/-! ## Tables -/

namespace MarkerTable

variable {count : Nat} {table later last : MarkerTable} {marker : MarkerId}

/-- A table in which markers have their numbers for identifiers. -/
def numbering (count : Nat) : MarkerTable where
  pairs := (List.range count).map fun number => (number.repr, ⟨number⟩)

/-- Where markers have their numbers for identifiers, a marker is written by its number and takes
none. -/
theorem foreignIdFor_numbering (inside : marker.index < count) :
    (numbering count).foreignIdFor marker = (marker.index.repr, numbering count) := by
  have found : (numbering count).foreignId? marker = some marker.index.repr := by
    have first : (List.range count).find? (fun number => (⟨number⟩ : MarkerId) == marker) =
        some marker.index := by
      rw [List.find?_range_eq_some]
      refine ⟨beq_self_eq_true marker, List.mem_range.mpr inside, fun number before => ?_⟩
      rw [Bool.not_eq_true', beq_eq_false_iff_ne]
      rintro rfl
      exact Nat.lt_irrefl _ before
    unfold foreignId? numbering
    rw [List.find?_map, Option.map_map]
    exact congrArg _ first
  rw [foreignIdFor, found]

/-- A table goes on as another one in which all pairs are kept and, as before, only markers of an
arena are paired. -/
structure Onto (count : Nat) (table later : MarkerTable) : Prop where
  keeps : table.Keeps later
  sound : table.Sound count → later.Sound count

theorem Onto.refl (table : MarkerTable) : table.Onto count table := ⟨.refl table, id⟩

theorem Onto.trans (first : table.Onto count later) (second : later.Onto count last) :
    table.Onto count last :=
  ⟨first.keeps.trans second.keeps, second.sound ∘ first.sound⟩

theorem onto_foreignIdFor (inside : marker.index < count) :
    table.Onto count (table.foreignIdFor marker).2 :=
  ⟨keeps_foreignIdFor marker, fun sound => sound.foreignIdFor inside⟩

end MarkerTable

/-! ## Texts -/

/-- Whether a part of a text is no marker. -/
def Piece.IsPlain : Piece → Prop
  | .token lexeme => lexeme.digits? = none
  | .blank _ => True

/-- Parts of two texts are the same, or markers: one with an identifier, the other one with the
number of the marker that is paired with it. -/
inductive Piece.Alike (table : MarkerTable) : Piece → Piece → Prop
  | plain {piece : Piece} (plain : piece.IsPlain) : Alike table piece piece
  | marker {foreign : String} {marker : MarkerId}
      (paired : table.Vacant → (foreign, marker) ∈ table.pairs) :
      Alike table (.token (.marker (some foreign))) (.token (.marker (some marker.index.repr)))

/-- Two texts are alike part by part. -/
abbrev Phrase.Alike (table : MarkerTable) : Phrase → Phrase → Prop :=
  List.Forall₂ (Piece.Alike table)

/-- Lists of texts are alike text by text. -/
abbrev Phrase.AllAlike (table : MarkerTable) : List Phrase → List Phrase → Prop :=
  List.Forall₂ (Phrase.Alike table)

/-- Whether what is alike remains so as a table goes on. -/
def Lasting {α : Type} (alike : MarkerTable → α → α → Prop) : Prop :=
  ∀ ⦃table later : MarkerTable⦄ ⦃value other : α⦄, table.Keeps later →
    alike table value other → alike later value other

theorem Lasting.forall₂ {α : Type} {alike : MarkerTable → α → α → Prop} (lasting : Lasting alike) :
    Lasting fun table => List.Forall₂ (alike table) :=
  fun _ _ _ _ keeps => List.Forall₂.imp fun _ _ => lasting keeps

/-- Pieces that are alike stay alike as names are added. -/
theorem Piece.lasting_alike : Lasting Piece.Alike := by
  intro table later piece other keeps alike
  cases alike with
  | plain plain => exact .plain plain
  | marker paired =>
      refine .marker fun vacant => ?_
      have ⟨before, pairs⟩ := keeps vacant
      exact pairs.subset (paired before)

namespace Phrase

variable {table later : MarkerTable} {first second third fourth : Phrase}

theorem lasting_alike : Lasting Phrase.Alike := Piece.lasting_alike.forall₂

theorem lasting_allAlike : Lasting Phrase.AllAlike := lasting_alike.forall₂

theorem Alike.plain {phrase : Phrase} (plain : ∀ piece ∈ phrase, piece.IsPlain) :
    Phrase.Alike table phrase phrase :=
  List.forall₂_same.mpr fun piece member => .plain (plain piece member)

theorem Alike.append (left : Phrase.Alike table first second)
    (right : Phrase.Alike table third fourth) :
    Phrase.Alike table (first ++ third) (second ++ fourth) :=
  List.rel_append left right

/-- Phrases that are alike are alike when they are joined. -/
theorem alike_intercalate {separator other : Phrase} {phrases others : List Phrase}
    (between : Phrase.Alike table separator other) (alike : Phrase.AllAlike table phrases others) :
    Phrase.Alike table (separator.intercalate phrases) (other.intercalate others) := by
  induction alike with
  | nil => exact .nil
  | @cons phrase image phrases others here rest ih =>
      cases rest with
      | nil => simpa using here
      | cons next rest =>
          rw [List.intercalate_cons_cons, List.intercalate_cons_cons]
          exact (here.append between).append ih

/-- Phrases that are alike are so when they are joined. -/
theorem alike_join (separator : String) {phrases others : List Phrase}
    (alike : Phrase.AllAlike table phrases others) :
    Phrase.Alike table (join separator phrases) (join separator others) :=
  alike_intercalate (.plain (List.forall_mem_singleton.mpr True.intro)) alike

theorem AllAlike.isEmpty_eq {phrases others : List Phrase}
    (alike : Phrase.AllAlike table phrases others) : phrases.isEmpty = others.isEmpty := by
  cases alike <;> rfl

end Phrase

/-! ## Steps -/

/-- The state of writing with numbers for the identifiers of markers. -/
def Writer.numbered (count : Nat) (writer : Writer) : Writer :=
  { writer with markers := .numbering count }

namespace Write

variable {count : Nat} {α β γ δ : Type} {alike : MarkerTable → α → α → Prop}
  {also : MarkerTable → β → β → Prop} {step twin other otherTwin : Write α}
  {next nextTwin : α → Write β} {writer : Writer}

/-- A step comes to the same as another one that has numbers for the identifiers of markers, but for
the identifiers in its result. -/
def Twin (count : Nat) (alike : MarkerTable → α → α → Prop) (step twin : Write α)
    (writer : Writer) : Prop :=
  match step writer, twin (writer.numbered count) with
  | .ok value later, .ok other after =>
      after = later.numbered count ∧ writer.markers.Onto count later.markers ∧
        alike later.markers value other
  | .error error later, .error also after =>
      also = error ∧ after = later.numbered count ∧ writer.markers.Onto count later.markers
  | _, _ => False

namespace Twin

theorem of_ok (twins : Twin count alike step twin writer) {value : α} {later : Writer}
    (ran : step writer = .ok value later) : ∃ other,
      twin (writer.numbered count) = .ok other (later.numbered count) ∧
        writer.markers.Onto count later.markers ∧ alike later.markers value other := by
  unfold Twin at twins
  rw [ran] at twins
  cases went : twin (writer.numbered count) with
  | ok other after =>
      rw [went] at twins
      obtain ⟨rfl, onto, alike⟩ := twins
      exact ⟨other, rfl, onto, alike⟩
  | error error after =>
      rw [went] at twins
      exact twins.elim

theorem of_error (twins : Twin count alike step twin writer) {error : GenerateError}
    {later : Writer} (ran : step writer = .error error later) :
    twin (writer.numbered count) = .error error (later.numbered count) ∧
      writer.markers.Onto count later.markers := by
  unfold Twin at twins
  rw [ran] at twins
  cases went : twin (writer.numbered count) with
  | ok other after =>
      rw [went] at twins
      exact twins.elim
  | error also after =>
      rw [went] at twins
      obtain ⟨rfl, rfl, onto⟩ := twins
      exact ⟨rfl, onto⟩

/-- A twin that succeeds alike is one. -/
theorem intro_ok {value result : α} {later : Writer} (ran : step writer = .ok value later)
    (went : twin (writer.numbered count) = .ok result (later.numbered count))
    (onto : writer.markers.Onto count later.markers) (same : alike later.markers value result) :
    Twin count alike step twin writer := by
  unfold Twin
  rw [ran, went]
  exact ⟨rfl, onto, same⟩

/-- A twin that fails alike is one. -/
theorem intro_error {error : GenerateError} {later : Writer}
    (ran : step writer = .error error later)
    (went : twin (writer.numbered count) = .error error (later.numbered count))
    (onto : writer.markers.Onto count later.markers) : Twin count alike step twin writer := by
  unfold Twin
  rw [ran, went]
  exact ⟨rfl, rfl, onto⟩

/-- One step after another.  What is alike remains so. -/
theorem bind (first : Twin count alike step twin writer)
    (others : ∀ value result later, writer.markers.Keeps later.markers →
      alike later.markers value result → Twin count also (next value) (nextTwin result) later) :
    Twin count also (step >>= next) (twin >>= nextTwin) writer := by
  cases ran : step writer with
  | error error later =>
      have ⟨went, onto⟩ := first.of_error ran
      exact intro_error (bind_of_error ran) (bind_of_error went) onto
  | ok value later =>
      obtain ⟨result, went, onto, same⟩ := first.of_ok ran
      have goesOn := others value result later onto.keeps same
      cases ended : next value later with
      | ok final last =>
          obtain ⟨image, closed, further, holds⟩ := goesOn.of_ok ended
          exact intro_ok ((bind_of_ok ran).trans ended) ((bind_of_ok went).trans closed)
            (onto.trans further) holds
      | error error last =>
          have ⟨closed, further⟩ := goesOn.of_error ended
          exact intro_error ((bind_of_ok ran).trans ended) ((bind_of_ok went).trans closed)
            (onto.trans further)

theorem pure {value result : α} (same : alike writer.markers value result) :
    Twin count alike (Pure.pure value) (Pure.pure result) writer :=
  ⟨rfl, .refl _, same⟩

theorem throw (error : GenerateError) :
    Twin count alike (MonadExcept.throw error) (MonadExcept.throw error) writer :=
  ⟨rfl, rfl, .refl _⟩

theorem get {next nextTwin : Writer → Write β}
    (twins : Twin count also (next writer) (nextTwin (writer.numbered count)) writer) :
    Twin count also (MonadState.get >>= next) (MonadState.get >>= nextTwin) writer :=
  twins

/-- The state is changed, but not the markers. -/
theorem modify {change : Writer → Writer} {next nextTwin : PUnit → Write β}
    (markers : (change writer).markers = writer.markers)
    (same : change (writer.numbered count) = (change writer).numbered count)
    (twins : Twin count also (next ⟨⟩) (nextTwin ⟨⟩) (change writer)) :
    Twin count also (modify change >>= next) (modify change >>= nextTwin) writer := by
  unfold Twin at twins ⊢
  rw [← same, markers] at twins
  exact twins

/-- A choice has a twin if both of its branches do. -/
theorem ite {condition : Prop} [Decidable condition]
    (yes : condition → Twin count alike step twin writer)
    (no : ¬condition → Twin count alike other otherTwin writer) :
    Twin count alike (if condition then step else other) (if condition then twin else otherTwin)
      writer := by
  split
  · exact yes ‹_›
  · exact no ‹_›

/-- A step runs between two changes of the state that leave the markers as they are. -/
theorem between {around aroundTwin : Write α} {start : Writer} (leave : Writer → Writer)
    (twins : Twin count alike step twin start) (entered : start.markers = writer.markers)
    (left : ∀ later, (leave later).markers = later.markers)
    (same : ∀ later, leave (later.numbered count) = (leave later).numbered count)
    (runs : around writer = match step start with
      | .ok value later => .ok value (leave later)
      | .error error later => .error error (leave later))
    (goes : aroundTwin (writer.numbered count) = match twin (start.numbered count) with
      | .ok value later => .ok value (leave later)
      | .error error later => .error error (leave later)) :
    Twin count alike around aroundTwin writer := by
  cases ran : step start with
  | ok value later =>
      obtain ⟨result, went, onto, holds⟩ := twins.of_ok ran
      rw [ran] at runs
      rw [went] at goes
      refine intro_ok runs (goes.trans (congrArg _ (same later))) ?_ ?_
      · rw [left, ← entered]
        exact onto
      · rw [left]
        exact holds
  | error error later =>
      obtain ⟨went, onto⟩ := twins.of_error ran
      rw [ran] at runs
      rw [went] at goes
      refine intro_error runs (goes.trans (congrArg _ (same later))) ?_
      rw [left, ← entered]
      exact onto

/-- Twins stay twins in a context of their own. -/
theorem inContext
    (twins : Twin count alike step twin { writer with labels := writer.labels.push }) :
    Twin count alike (inContext step) (inContext twin) writer :=
  between (fun later => { later with labels := later.labels.pop }) twins rfl
    (fun _ => rfl) (fun _ => rfl) rfl rfl

/-- Twins stay twins where nothing has been written yet. -/
theorem apart (twins : Twin count alike step twin { writer with emitted := [], written := [] }) :
    Twin count alike (apart step) (apart twin) writer :=
  between (fun later => { later with emitted := writer.emitted, written := writer.written })
    twins rfl (fun _ => rfl) (fun _ => rfl) rfl rfl

/-- A step for several arguments, one after the other. -/
theorem concat {step twin : γ → Write (List α)} (lasting : Lasting alike) (arguments : List γ)
    (each : ∀ argument ∈ arguments, ∀ writer,
      Twin count (fun table => List.Forall₂ (alike table)) (step argument) (twin argument) writer) :
    Twin count (fun table => List.Forall₂ (alike table)) (concat step arguments)
      (concat twin arguments) writer := by
  induction arguments generalizing writer with
  | nil => exact .pure .nil
  | cons argument others ih =>
      have ⟨here, rest⟩ := List.forall_mem_cons.mp each
      refine (here writer).bind fun first firstTwin middle _ one => ?_
      refine (ih rest).bind fun more moreTwin later keeps two => .pure ?_
      exact List.rel_append (lasting.forall₂ keeps one) two

end Twin

end Write

end ConceptualGraph
