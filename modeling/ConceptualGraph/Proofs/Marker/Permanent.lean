/-
Module: ConceptualGraph.Proofs.Marker.Permanent
Purpose: In a session that reads and writes in any order a marker and its identifier stay with each
  other: neither is ever given to another one.
Main exports: Session.Call.Denotes, Session.Turn, Session.run, Session.Turn.Shows,
  Session.marker_identity
-/
import ConceptualGraph.Proofs.Reading.Enacted.Graphs
import ConceptualGraph.Proofs.Reading.Marked
import ConceptualGraph.Proofs.Reading.Reached
import ConceptualGraph.Proofs.Token.Scanned
import ConceptualGraph.Proofs.Writing.Blanks

namespace ConceptualGraph

/-! ## What has been read -/

/-- What the markers of a text denote that has been read: in the order of the text they are
designated by the new concepts, which come after those before.  Where reading has failed, only the
first markers have been read, and some of the concepts have not been given their referents. -/
structure Denoted (text : List (Option String)) (succeeds : Bool) (before after : List MarkerId)
    (read : List Occurrence) : Prop where
  digits : read.map Occurrence.digits <+: text
  kept : ∃ kept : List MarkerId, kept.Sublist (read.map Occurrence.marker) ∧ after = before ++ kept
  all : succeeds = true → read.map Occurrence.digits = text ∧
    after = before ++ read.map Occurrence.marker

/-- What has been read is recorded, while new markers may have been made: nothing is unpaired, and
digits are paired with what they denote. -/
structure Recorded (markers : Nat) (table : MarkerTable) (more : Nat) (after : MarkerTable)
    (read : List Occurrence) : Prop where
  sound : after.Sound more
  pairs : table.pairs <:+ after.pairs
  paired : ∀ occurrence ∈ read, ∀ foreign, occurrence.digits = some foreign →
    (foreign, occurrence.marker) ∈ after.pairs
  grown : markers ≤ more
  inside : ∀ occurrence ∈ read, occurrence.marker.index < more

namespace Session

variable {α : Type} {session : Session} {model : Model} {form : Notation} {source : String}

/-- A reading tells what the markers of its text denote. -/
def Reading.Tells (reading : Reading α) (text : List (Option String)) (before : List MarkerId)
    (markers : Nat) (table : MarkerTable) : Prop :=
  ∃ read, Denoted text reading.result.isOk before reading.model.marked read ∧
    Recorded markers table reading.model.markers reading.session.markers read

/-- What one text tells about markers: each identifier in it is told of the marker that it stands
for. -/
theorem tells_read {production : Setting → Read α} (form : Notation) (source : String)
    (sound : session.markers.Sound model.markers)
    (enacted : ∀ setting reader, Read.Enacted [] (production setting) reader (fun _ => [])
      fun _ later => (later.ahead 0).token = .endOfInput) :
    (session.read model form source production).Tells (marks (Scan.ofText form source).tokens)
      model.marked model.markers session.markers := by
  obtain ⟨stop, moment, path, arena, -, table, ended⟩ :=
    session.exists_leads model form source enacted
  obtain ⟨read, since⟩ := path.since sound
  refine ⟨read, ⟨since.digits_isPrefix, arena ▸ since.marked, fun succeeds => ?_⟩, ?_⟩
  · obtain ⟨reader, awaiting⟩ := moment
    obtain ⟨rfl, ended⟩ := ended succeeds
    have digits := since.digits_eq (fun _ member => Scan.ne_endOfInput_of_mem member) ended
    exact ⟨digits, arena ▸ since.marked_eq⟩
  · rw [← arena, ← table]
    exact ⟨since.sound, since.pairs, since.paired, since.markers, since.inside⟩

/-- A text of its own tells about its markers alone. -/
theorem tells_parseOutermostGraph (form : Notation) (source : String)
    (sound : session.markers.Sound model.markers) :
    (session.parseOutermostGraph model form source).Tells (marks (Scan.ofText form source).tokens)
      model.marked model.markers session.markers := by
  have read : (session.parseOutermostGraph model form source).Tells
      (marks (Scan.ofText form source).tokens) (model.newGraph none).2.marked
      (model.newGraph none).2.markers session.markers := by
    rw [parseOutermostGraph_scoped]
    exact tells_read form source sound fun _ _ =>
      (Read.enacted_graphInto _).bind fun _ _ _ ended => .pure ended
  exact read

/-- A relation that is put into its graph tells nothing of markers. -/
theorem Reading.Tells.into {reading : Reading RelationId} {text : List (Option String)}
    {before : List MarkerId} {markers : Nat} {table : MarkerTable}
    (tells : reading.Tells text before markers table) (home : Option GraphId) :
    (reading.into home).Tells text before markers table := by
  unfold Reading.into
  split
  · exact tells
  · exact tells

/-- Whether a call succeeds. -/
def Call.succeeds (call : Call) (session : Session) (model : Model) (form : Notation)
    (source : String) : Bool :=
  match call with
  | .graph => (session.parseGraph model form source).result.isOk
  | .outermostGraph => (session.parseOutermostGraph model form source).result.isOk
  | .concept home => (session.parseConcept model form home source).result.isOk
  | .relation home => (session.parseRelation model form home source).result.isOk
  | .actor home => (session.parseActor model form home source).result.isOk

/-- What the markers of a text denote that a call reads. -/
def Call.Denotes (call : Call) (session : Session) (model : Model) (form : Notation)
    (source : String) (read : List Occurrence) : Prop :=
  Denoted (marks (Scan.ofText form source).tokens) (call.succeeds session model form source)
    model.marked (call.after session model form source).2.marked read

/-- A call that reads leaves behind what the markers of its text denote. -/
theorem Call.exists_denotes (call : Call) (form : Notation) (source : String)
    (sound : session.markers.Sound model.markers) :
    ∃ read, call.Denotes session model form source read ∧
      Recorded model.markers session.markers (call.after session model form source).2.markers
        (call.after session model form source).1.markers read := by
  cases call with
  | graph =>
      let inside : Session := { session with labels := session.labels.push }
      have tells : (inside.parseOutermostGraph model form source).Tells _ _ _ inside.markers :=
        tells_parseOutermostGraph form source sound
      exact tells
  | outermostGraph => exact tells_parseOutermostGraph form source sound
  | concept home =>
      have tells : (session.parseConcept model form home source).Tells
          (marks (Scan.ofText form source).tokens) model.marked model.markers session.markers := by
        rw [parseConcept_scoped]
        exact tells_read form source sound fun _ _ =>
          Read.enacted_single (Read.enacted_concept (Read.roomEnacted _))
      exact tells
  | relation home =>
      have tells : (session.parseRelation model form home source).Tells
          (marks (Scan.ofText form source).tokens) model.marked model.markers session.markers := by
        rw [parseRelation_scoped]
        exact Reading.Tells.into (tells_read form source sound fun _ _ =>
          Read.enacted_single (Read.enacted_relation (Read.roomEnacted _))) home
      exact tells
  | actor home =>
      have tells : (session.parseActor model form home source).Tells
          (marks (Scan.ofText form source).tokens) model.marked model.markers session.markers := by
        rw [parseActor_scoped]
        exact Reading.Tells.into (tells_read form source sound fun _ _ =>
          Read.enacted_single (Read.enacted_actor (Read.roomEnacted _))) home
      exact tells

/-! ## Reading and writing in any order -/

/-- What may be done in a session: a text is read or written, options are changed, or labels are
bound and unbound. -/
inductive Turn where
  | read (call : Call) (form : Notation) (source : String)
  | write (rendering : Rendering) (form : Notation)
  | configure (options : Options)
  | relabel (labels : LabelTable)

/-- The session and the arena after a turn, whatever comes of it. -/
def Turn.after (turn : Turn) (state : Session × Model) : Session × Model :=
  match turn with
  | .read call form source => call.after state.1 state.2 form source
  | .write rendering form => ((rendering.perform state.1 state.2 form).2, state.2)
  | .configure options => ({ state.1 with options }, state.2)
  | .relabel labels => ({ state.1 with labels }, state.2)

/-- A new session on an arena in which there is nothing yet. -/
def outset (hierarchy : Hierarchy) (options : Options) : Session × Model :=
  (.withOptions options, { hierarchy })

/-- The session and the arena after any number of turns. -/
def run (turns : List Turn) (state : Session × Model) : Session × Model :=
  turns.foldl (fun state turn => turn.after state) state

/-- The markers that stand in the places of a text, if it is written at all. -/
def shownBy (slots : List Slot) (writing : Writing) : List Occurrence :=
  match writing.1 with
  | .ok _ => (slots.filterMap Slot.marker?).map fun marker =>
      ⟨some (writing.2.markers.identifier marker), marker⟩
  | .error _ => []

/-- The markers that a text shows which is read or written in a turn.  Those of a written text stand
in the places that it leaves for them. -/
def Turn.Shows (turn : Turn) (state : Session × Model) (shown : List Occurrence) : Prop :=
  match turn with
  | .read call form source => call.Denotes state.1 state.2 form source shown
  | .write rendering form => ∃ slots, rendering.Leaves state.1 state.2 form slots ∧
      shown = shownBy slots (rendering.perform state.1 state.2 form)
  | .configure _ | .relabel _ => shown = []

/-- The markers that texts show which are read or written in turns, one after the other. -/
def ShowAll : List Turn → Session × Model → List Occurrence → Prop
  | [], _, shown => shown = []
  | turn :: turns, state, shown => ∃ first rest,
      turn.Shows state first ∧ ShowAll turns (turn.after state) rest ∧ shown = first ++ rest

end Session

namespace MarkerTable

/-- An identifier and a marker are paired with each other. -/
def Associates (table : MarkerTable) (foreign : String) (marker : MarkerId) : Prop :=
  table.marker? foreign = some marker ∧ table.foreignId? marker = some foreign

theorem Distinct.associates_iff {table : MarkerTable} (distinct : table.Distinct) {foreign : String}
    {marker : MarkerId} : table.Associates foreign marker ↔ (foreign, marker) ∈ table.pairs := by
  rw [Associates, distinct.marker?_iff_foreignId?, and_self, distinct.foreignId?_eq_some_iff]

end MarkerTable

namespace Model

theorem mem_marked {model : Model} {concept : ConceptId} {marker : MarkerId}
    (designates : (model.concept concept).marker? = some marker) : marker ∈ model.marked := by
  by_cases inside : concept.index < model.concepts.size
  · exact List.mem_filterMap.mpr ⟨concept.index, List.mem_range.mpr inside, designates⟩
  · rw [concept_of_le (Nat.le_of_not_lt inside)] at designates
    cases designates

end Model

namespace Session

/-- A table pairs, and concepts designate, only markers that have been made. -/
structure Fit (state : Session × Model) : Prop where
  sound : state.1.markers.Sound state.2.markers
  inside : ∀ marker ∈ state.2.marked, marker.index < state.2.markers

/-- What a turn does to markers: nothing is unpaired, and what its text shows is paired. -/
structure Turn.Takes (turn : Turn) (state : Session × Model) (shown : List Occurrence) : Prop where
  shows : turn.Shows state shown
  fit : Fit (turn.after state)
  keeps : state.1.markers.Keeps (turn.after state).1.markers
  paired : (turn.after state).1.markers.Vacant → ∀ occurrence ∈ shown, ∀ foreign,
    occurrence.digits = some foreign →
      (foreign, occurrence.marker) ∈ (turn.after state).1.markers.pairs

variable {state : Session × Model}

/-- The markers that stand in a text are paired with what stands there for them. -/
theorem Fills.paired_shownBy {count : Nat} {table : MarkerTable} {slots : List Slot}
    {writing : Writing} (fills : Fills count table slots writing)
    (distinct : writing.2.markers.Distinct) (vacant : writing.2.markers.Vacant) :
    ∀ occurrence ∈ shownBy slots writing, ∀ foreign, occurrence.digits = some foreign →
      (foreign, occurrence.marker) ∈ writing.2.markers.pairs := by
  intro occurrence member
  unfold shownBy at member
  split at member
  · next text written =>
    obtain ⟨marker, left, rfl⟩ := List.mem_map.mp member
    obtain ⟨foreign, paired⟩ := fills.paired text written vacant marker left
    have identified : writing.2.markers.identifier marker = foreign := by
      rw [MarkerTable.identifier, distinct.foreignId?_eq_some_iff.mpr paired, Option.getD_some]
    rintro _ ⟨⟩
    exact identified ▸ paired
  · cases member

/-- A reading is a turn that can always be taken. -/
theorem Call.exists_takes (call : Call) (form : Notation) (source : String) (fit : Fit state) :
    ∃ shown, (Turn.read call form source).Takes state shown := by
  obtain ⟨read, denotes, recorded⟩ := call.exists_denotes form source fit.sound
  refine ⟨read, denotes, ⟨recorded.sound, fun marker member => ?_⟩, .of_suffix recorded.pairs,
    fun _ => recorded.paired⟩
  obtain ⟨kept, among, marked⟩ := denotes.kept
  have member : marker ∈ state.2.marked ++ kept := marked ▸ member
  rcases List.mem_append.mp member with old | new
  · exact Nat.lt_of_lt_of_le (fit.inside marker old) recorded.grown
  · obtain ⟨occurrence, here, rfl⟩ := List.mem_map.mp (among.subset new)
    exact recorded.inside occurrence here

/-- A rendering is a turn that can always be taken. -/
theorem Rendering.exists_takes (rendering : Rendering) (form : Notation) (fit : Fit state) :
    ∃ shown, (Turn.write rendering form).Takes state shown := by
  have inside concept marker (designates : (state.2.concept concept).marker? = some marker) :=
    fit.inside marker (Model.mem_marked designates)
  obtain ⟨slots, fills⟩ := rendering.exists_fills state.1 form inside
  have leaves : rendering.Leaves state.1 state.2 form slots := by
    intro table text later sound written vacant
    have there := fills table
    rw [written] at there
    exact there.text text rfl sound vacant
  have here : Fills state.2.markers state.1.markers slots
      (rendering.perform state.1 state.2 form) := fills state.1.markers
  have fit : Fit ((Turn.write rendering form).after state) :=
    ⟨here.onto.sound fit.sound, fit.inside⟩
  exact ⟨_, ⟨slots, leaves, rfl⟩, fit, here.onto.keeps, here.paired_shownBy fit.sound.toDistinct⟩

/-- Every turn shows the markers that it reads or writes. -/
theorem Turn.exists_takes (turn : Turn) (fit : Fit state) : ∃ shown, turn.Takes state shown := by
  cases turn with
  | read call form source => exact call.exists_takes form source fit
  | write rendering form => exact rendering.exists_takes form fit
  | configure options => exact ⟨[], rfl, ⟨fit.sound, fit.inside⟩, .refl _, nofun⟩
  | relabel labels => exact ⟨[], rfl, ⟨fit.sound, fit.inside⟩, .refl _, nofun⟩

/-- What turns do to markers, one after the other. -/
theorem exists_showAll (turns : List Turn) (fit : Fit state) : Fit (run turns state) ∧
    state.1.markers.Keeps (run turns state).1.markers ∧
    ((run turns state).1.markers.Vacant → ∃ shown, ShowAll turns state shown ∧
      ∀ occurrence ∈ shown, ∀ foreign, occurrence.digits = some foreign →
        (foreign, occurrence.marker) ∈ (run turns state).1.markers.pairs) := by
  induction turns generalizing state with
  | nil => exact ⟨fit, .refl _, fun _ => ⟨[], rfl, nofun⟩⟩
  | cons turn turns ih =>
      obtain ⟨first, takes⟩ := turn.exists_takes fit
      obtain ⟨last, keeps, others⟩ := ih takes.fit
      refine ⟨last, takes.keeps.trans keeps, fun vacant => ?_⟩
      obtain ⟨rest, shows, paired⟩ := others vacant
      obtain ⟨before, pairs⟩ := keeps vacant
      refine ⟨first ++ rest, ⟨first, rest, takes.shows, shows, rfl⟩, ?_⟩
      refine List.forall_mem_append.mpr ⟨fun occurrence member foreign digits => ?_, paired⟩
      exact pairs.subset (takes.paired before occurrence member foreign digits)

theorem fit_outset (hierarchy : Hierarchy) (options : Options) : Fit (outset hierarchy options) :=
  ⟨.empty, nofun⟩

/-- Whatever is read and written in a session, in any order and with any outcome, as long as there
are numerals left to be counted out: an identifier and a marker that have been associated stay so;
the markers that stand in texts with digits, whether they are read or written, are associated with
these; and so two of them are the same marker exactly if they have the same digits. -/
theorem marker_identity (hierarchy : Hierarchy) (options : Options) (turns : List Turn)
    (vacant : (run turns (outset hierarchy options)).1.markers.Vacant) :
    let table := (run turns (outset hierarchy options)).1.markers
    (∀ earlier, earlier <+: turns → ∀ foreign marker,
      (run earlier (outset hierarchy options)).1.markers.marker? foreign = some marker ∨
        (run earlier (outset hierarchy options)).1.markers.foreignId? marker = some foreign →
          table.Associates foreign marker) ∧
      ∃ shown, ShowAll turns (outset hierarchy options) shown ∧
        (∀ occurrence ∈ shown, ∀ foreign, occurrence.digits = some foreign →
          table.Associates foreign occurrence.marker) ∧
        ∀ first ∈ shown, ∀ second ∈ shown, ∀ foreign other, first.digits = some foreign →
          second.digits = some other → (foreign = other ↔ first.marker = second.marker) := by
  intro table
  have fit := fit_outset hierarchy options
  -- Turns are taken one after the other, so that later ones keep what earlier ones have paired.
  obtain ⟨last, -, shown⟩ := exists_showAll turns fit
  have distinct : table.Distinct := last.sound.toDistinct
  constructor
  · rintro earlier ⟨rest, rfl⟩ foreign marker associated
    have split : run (earlier ++ rest) (outset hierarchy options) =
        run rest (run earlier (outset hierarchy options)) := List.foldl_append ..
    have keeps := (exists_showAll rest (exists_showAll earlier fit).1).2.1
    rw [← split] at keeps
    have member := associated.elim MarkerTable.mem_of_marker? MarkerTable.mem_of_foreignId?
    exact distinct.associates_iff.mpr ((keeps vacant).2.subset member)
  · obtain ⟨shown, shows, paired⟩ := shown vacant
    have associated : ∀ occurrence ∈ shown, ∀ foreign, occurrence.digits = some foreign →
        table.Associates foreign occurrence.marker := fun occurrence member foreign digits =>
      distinct.associates_iff.mpr (paired occurrence member foreign digits)
    refine ⟨shown, shows, associated, fun first one second two foreign other read also => ?_⟩
    have here := associated first one foreign read
    have there := associated second two other also
    constructor
    · rintro rfl
      exact Option.some.inj (here.1.symm.trans there.1)
    · intro same
      rw [← same] at there
      exact Option.some.inj (here.2.symm.trans there.2)

/-- A marker is read without digits and then written. -/
def bare : List Turn :=
  [.read .outermostGraph .cgif "[A: #2] [B: #] [C: #1]", .write (.graph ⟨0⟩) .cgif]

/-- The number with which the marker has been written is read, once in a text that fails. -/
def reread : List Turn :=
  bare ++ [.read (.concept none) .linear "[D: #3", .read .graph .linear "[E: #3]"]

/-- The marker has the number after those that have been read, and is what the number denotes. -/
theorem marker_identity_reread :
    (run reread (outset {} {})).1.markers.Vacant ∧
      (run reread (outset {} {})).2.marked = [⟨0⟩, ⟨1⟩, ⟨2⟩, ⟨1⟩, ⟨1⟩] ∧
      (run reread (outset {} {})).1.markers.Associates "3" ⟨1⟩ := by
  have vacant : (run reread (outset {} {})).1.markers.Vacant := .of_length (by decide +kernel)
  have minted : (run bare (outset {} {})).1.markers.marker? "3" = some ⟨1⟩ := by decide +kernel
  exact ⟨vacant, by decide +kernel, (marker_identity {} {} reread vacant).1 bare
    (List.prefix_append _ _) "3" ⟨1⟩ (.inl minted)⟩

end Session

end ConceptualGraph
