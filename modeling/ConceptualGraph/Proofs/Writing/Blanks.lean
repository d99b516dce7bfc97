/-
Module: ConceptualGraph.Proofs.Writing.Blanks
Purpose: The text that is written for a graph or a node leaves blanks for the identifiers of
  markers; where these stand, and for which markers, does not depend on the identifiers that there
  are.
Main exports: Slot, Slot.fill, Session.Rendering, Session.Rendering.Leaves,
  Session.Rendering.exists_fills
-/
import ConceptualGraph.Proofs.Writing.Numbered
import ConceptualGraph.Session

namespace ConceptualGraph

/-! ## Blanks -/

/-- A part of a text, or the place of a marker in it. -/
inductive Slot where
  | text (text : String)
  | marker (marker : MarkerId)
  deriving DecidableEq, Repr

/-- The marker of a place. -/
def Slot.marker? : Slot → Option MarkerId
  | .text _ => none
  | .marker id => some id

/-- The identifier with which a marker is written, once it has been counted out. -/
def MarkerTable.identifier (table : MarkerTable) (marker : MarkerId) : String :=
  (table.foreignId? marker).getD ""

/-- What stands in a place, with the identifiers of a table. -/
def Slot.fill (table : MarkerTable) : Slot → String
  | .text words => words
  | .marker id => "#" ++ table.identifier id

/-- A text with the identifiers of a table. -/
def Slot.fillAll (table : MarkerTable) (slots : List Slot) : String :=
  String.join (slots.map (Slot.fill table))

/-- The place that a part of a text has left, if the digits of markers are their numbers. -/
def Piece.slot : Piece → Slot
  | .token (.marker (some digits)) => .marker ⟨(Text.natural? 10 digits.toList).getD 0⟩
  | piece => .text piece.text

section

variable {table : MarkerTable} {piece other : Piece} {phrase twin : Phrase}

/-- A part that is plain stands for itself. -/
theorem Piece.slot_of_plain (plain : piece.IsPlain) : piece.slot = .text piece.text := by
  rcases piece with token | space
  · cases token <;> first | rfl | cases plain
  · rfl

/-- A marker leaves a place for its identifier. -/
theorem Piece.slot_marker (marker : MarkerId) :
    (Piece.token (.marker (some marker.index.repr))).slot = .marker marker := by
  have digits : marker.index.repr.toList = Nat.toDigits 10 marker.index := by simp [Nat.repr]
  rw [Piece.slot, digits, Text.natural?_toDigits, Option.getD_some]

/-- A part of a text is what fills the place that its twin has left. -/
theorem Piece.Alike.fill (alike : Piece.Alike table piece other) (distinct : table.Distinct)
    (vacant : table.Vacant) : other.slot.fill table = piece.text := by
  cases alike with
  | plain plain => rw [Piece.slot_of_plain plain, Slot.fill]
  | marker paired =>
      rw [Piece.slot_marker, Slot.fill, MarkerTable.identifier,
        distinct.foreignId?_eq_some_iff.mpr (paired vacant)]
      rfl

/-- A phrase with blanks for its names has the text of the phrase when they are filled. -/
theorem Phrase.Alike.fill (alike : Phrase.Alike table phrase twin) (distinct : table.Distinct)
    (vacant : table.Vacant) : Slot.fillAll table (twin.map Piece.slot) = phrase.text := by
  unfold Slot.fillAll Phrase.text
  rw [List.map_map]
  refine congrArg String.join ?_
  induction alike with
  | nil => rfl
  | cons here _ ih =>
      rw [List.map_cons, List.map_cons, ih, Function.comp, here.fill distinct vacant]

/-- Every marker for which a twin has left a place has an identifier. -/
theorem Phrase.Alike.paired (alike : Phrase.Alike table phrase twin) (vacant : table.Vacant)
    {marker : MarkerId} (left : marker ∈ (twin.map Piece.slot).filterMap Slot.marker?) :
    ∃ foreign, (foreign, marker) ∈ table.pairs := by
  induction alike with
  | nil => cases left
  | @cons piece other _ _ here _ ih =>
      rw [List.map_cons] at left
      cases here with
      | plain plain =>
          rw [Piece.slot_of_plain plain, List.filterMap_cons_none rfl] at left
          exact ih left
      | marker paired =>
          rw [Piece.slot_marker, List.filterMap_cons_some (f := Slot.marker?) rfl,
            List.mem_cons] at left
          rcases left with rfl | left
          · exact ⟨_, paired vacant⟩
          · exact ih left

end

/-! ## Calls that write -/

namespace Session

/-- A call that writes a text. -/
inductive Rendering where
  | graph (graph : GraphId)
  | outermostGraph (graph : GraphId)
  | lines (graph : GraphId)
  | concept (concept : ConceptId)
  | relation (relation : RelationId)
  | actor (actor : RelationId)
  deriving DecidableEq, Repr

/-- The text of a call, and the session after it. -/
def Rendering.perform (rendering : Rendering) (session : Session) (model : Model)
    (form : Notation) : Writing :=
  match rendering with
  | .graph id => session.generateGraph model form id
  | .outermostGraph id => session.generateOutermostGraph model form id
  | .lines id => session.writeGraph model form id
  | .concept id => session.generateConcept model form id
  | .relation id => session.generateRelation model form id
  | .actor id => session.generateActor model form id

/-- With whatever table a call is made, its text has the given places, filled with the identifiers
that markers have in the table afterwards. -/
def Rendering.Leaves (rendering : Rendering) (session : Session) (model : Model)
    (form : Notation) (slots : List Slot) : Prop :=
  ∀ (table : MarkerTable) (text : String) (later : Session), table.Sound model.markers →
    rendering.perform { session with markers := table } model form = (.ok text, later) →
      later.markers.Vacant → text = Slot.fillAll later.markers slots

/-- What comes of writing: nothing is unpaired, and places for markers are filled. -/
structure Fills (count : Nat) (table : MarkerTable) (slots : List Slot) (writing : Writing) :
    Prop where
  onto : table.Onto count writing.2.markers
  text : ∀ text, writing.1 = .ok text → table.Sound count → writing.2.markers.Vacant →
    text = Slot.fillAll writing.2.markers slots
  paired : ∀ text, writing.1 = .ok text → writing.2.markers.Vacant →
    ∀ marker ∈ slots.filterMap Slot.marker?, ∃ foreign, (foreign, marker) ∈ writing.2.markers.pairs

/-- The places that a phrase has left, if it has been written. -/
def slotsOf : EStateM.Result GenerateError Writer Phrase → List Slot
  | .ok phrase _ => phrase.map Piece.slot
  | .error _ _ => []

/-- Where no text is written, there is none whose places are filled. -/
theorem Fills.of_error {count : Nat} {table : MarkerTable} {slots : List Slot} {writing : Writing}
    {error : Error} (failed : writing.1 = .error error)
    (onto : table.Onto count writing.2.markers) : Fills count table slots writing := by
  refine ⟨onto, fun text written => ?_, fun text written => ?_⟩
  · rw [failed] at written
    cases written
  · rw [failed] at written
    cases written

/-- The line break after a text is no marker's place. -/
theorem Fills.line {count : Nat} {table : MarkerTable} {slots : List Slot} {writing : Writing}
    (fills : Fills count table slots writing) :
    Fills count table (slots ++ [.text "\n"]) (writing.1.map (· ++ "\n"), writing.2) := by
  obtain ⟨result, session⟩ := writing
  cases result with
  | error error => exact .of_error rfl fills.onto
  | ok text =>
      refine ⟨fills.onto, ?_, ?_⟩
      · rintro _ ⟨⟩ sound vacant
        rw [fills.text text rfl sound vacant]
        simp [Slot.fillAll, Slot.fill]
      · rintro _ ⟨⟩ vacant marker left
        refine fills.paired text rfl vacant marker ?_
        simpa [Slot.marker?] using left

variable {model : Model} {session : Session} {form : Notation}

/-- What has twins for all writers has blanks that any table fills. -/
theorem fills_write {count : Nat} {step : Write Phrase} (session : Session)
    (twins : ∀ writer, Write.Twin count Phrase.Alike step step writer) :
    ∃ slots, ∀ table, Fills count table slots (write { session with markers := table } step) := by
  let numbered : Writer := { labels := session.labels, markers := .numbering count }
  refine ⟨slotsOf (step numbered), fun table => ?_⟩
  have twins := twins { labels := session.labels, markers := table }
  unfold write
  cases ran : step { labels := session.labels, markers := table } with
  | ok phrase later =>
      obtain ⟨twin, went, onto, alike⟩ := twins.of_ok ran
      rw [show step numbered = _ from went]
      refine ⟨onto, ?_, ?_⟩
      · rintro _ ⟨⟩ sound vacant
        exact (alike.fill (onto.sound sound).toDistinct vacant).symm
      · rintro _ ⟨⟩ vacant marker left
        exact alike.paired vacant left
  | error error later => exact .of_error rfl (twins.of_error ran).2

/-- Every call that writes leaves blanks for markers. -/
theorem Rendering.exists_fills (rendering : Rendering) (session : Session) (form : Notation)
    (inside : ∀ concept marker, (model.concept concept).marker? = some marker →
      marker.index < model.markers) :
    ∃ slots, ∀ table, Fills model.markers table slots
      (rendering.perform { session with markers := table } model form) := by
  have items := Write.twin_items inside form
  have graphs (session : Session) (graph : GraphId) : ∃ slots, ∀ table,
      Fills model.markers table slots
        (generateOutermostGraph { session with markers := table } model form graph) :=
    fills_write session fun writer => (items graph writer).bind fun _ _ _ _ alike =>
      .pure (Phrase.alike_join "\n" alike)
  have apart (session : Session) (graph : GraphId) : ∃ slots, ∀ table,
      Fills model.markers table slots
        (generateGraph { session with markers := table } model form graph) := by
    obtain ⟨slots, fills⟩ := graphs { session with labels := session.labels.push } graph
    exact ⟨slots, fun table => ⟨(fills table).onto, (fills table).text, (fills table).paired⟩⟩
  cases rendering with
  | outermostGraph graph => exact graphs session graph
  | graph graph => exact apart session graph
  | lines graph =>
      obtain ⟨slots, fills⟩ := apart session graph
      exact ⟨slots ++ [.text "\n"], fun table => (fills table).line⟩
  | concept concept =>
      exact fills_write session fun writer => Write.twin_firstEmission items inside concept
  | relation relation =>
      exact fills_write session fun writer =>
        (Write.twin_relationItems items inside _ none relation).bind fun _ _ _ _ alike =>
          .pure (Phrase.alike_join "\n" alike)
  | actor actor => exact fills_write session fun writer => Write.twin_actor items actor

end Session

end ConceptualGraph
