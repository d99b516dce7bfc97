/-
Module: ConceptualGraph.Proofs.Reading.Whole
Purpose: What the reading of a whole text comes to, from what the reading of its tokens comes to.
Main exports: Notation.Spells, Session.parseInto, Session.reader, Session.parseGraph_of_ok,
  Session.parseGraph_of_error, Session.exists_of_parsed
-/
import ConceptualGraph.Proofs.Reading.Counted

namespace ConceptualGraph

/-- Whether a text in a notation is scanned to its end, into certain tokens. -/
def Notation.Spells (form : Notation) (text : String) (tokens : List Token) : Prop :=
  ∃ stop, (Scan.ofText form text).stop = .ok stop ∧
    (Scan.ofText form text).tokens.map Located.token = tokens

instance (form : Notation) (text : String) (tokens : List Token) :
    Decidable (form.Spells text tokens) :=
  decidable_of_iff ((Scan.ofText form text).stop.isOk ∧
      (Scan.ofText form text).tokens.map Located.token = tokens) <| by
    unfold Notation.Spells
    cases (Scan.ofText form text).stop <;> simp [Except.isOk, Except.toBool]

namespace Session

variable {session : Session} {model : Model} {form : Notation} {source : String} {graph : GraphId}
  {stop : Position} {later : Reader}

/-! ## Texts that are read into a graph -/

/-- Reads a text into a graph. -/
def parseInto (session : Session) (model : Model) (form : Notation) (graph : GraphId)
    (source : String) : Reading Unit :=
  session.read model form source fun setting =>
    Read.graphText setting (Read.counted setting) graph

/-- The items of a graph are read with the room that is left. -/
theorem parseInto_scoped :
    session.parseInto model form graph source =
      session.read model form source (Read.graphInto · graph) :=
  session.read_of_simulates model form source fun _ => Read.simulates_graphInto graph

/-- An outermost graph is a new graph into which a text is read. -/
theorem parseOutermostGraph_eq :
    session.parseOutermostGraph model form source =
      let (graph, model) := model.newGraph none
      let reading := session.parseInto model form graph source
      { reading with result := reading.result.map fun _ => graph } := by
  unfold parseOutermostGraph parseInto read
  dsimp only
  split
  · rfl
  · cases ran : Read.graphText ⟨form, session.options⟩ _ (model.newGraph none).1 _ with
    | ok value later => rw [bind_of_ok ran]; rfl
    | error error later => rw [bind_of_error ran]; rfl

/-- The state in which the tokens of a text begin to be read. -/
def opening (session : Session) (model : Model) (rest : List Located) (stop : Position) :
    Reader where
  rest := rest
  stop := stop
  model := model
  labels := session.labels
  markers := session.markers

/-- What a session makes of the end of a reading. -/
def closing {α : Type} (session : Session) : EStateM.Result Error Reader α → Reading α
  | .ok value later =>
      ⟨.ok value, { session with labels := later.labels, markers := later.markers }, later.model⟩
  | .error error later =>
      ⟨.error error, { session with labels := later.labels, markers := later.markers },
        later.model⟩

/-- What a session makes of a reading with room does not depend on the count of brackets. -/
theorem closing_scoped (setting : Setting) (graph : GraphId) (reader : Reader) :
    session.closing (Read.graphInto setting graph reader) =
      session.closing
        (Read.graphText setting (Read.counted setting) graph (reader.atDepth 0)) := by
  have same : Read.Simulates 0 0 (Read.graphInto setting graph)
      (Read.graphText setting (Read.counted setting) graph) := Read.simulates_graphInto graph
  cases ran : Read.graphInto setting graph reader with
  | ok value later =>
      rw [same.of_ok ran]
      rfl
  | error error later =>
      obtain ⟨last, failed⟩ := same.of_error ran
      rw [failed]
      rfl

/-- A text whose scan does not fail is parsed as the items of its tokens. -/
theorem parseInto_of_scanned
    (scanned : (Scan.ofText form source).stop = .ok stop) :
    session.parseInto model form graph source =
      session.closing (Read.graphInto ⟨form, session.options⟩ graph
        (session.opening model (Scan.ofText form source).tokens stop)) := by
  rw [parseInto_scoped]
  unfold read
  simp only [scanned]
  rfl

/-! ## Graphs in a context of their own -/

/-- The state in which the tokens of a graph begin to be read. -/
def reader (session : Session) (model : Model) (form : Notation) (source : String)
    (stop : Position) : Reader where
  rest := (Scan.ofText form source).tokens
  stop := stop
  model := (model.newGraph none).2
  labels := session.labels.push
  markers := session.markers

/-- What a session keeps of a reading in a context of its own. -/
def keeping (session : Session) (later : Reader) : Session :=
  { session with labels := later.labels.pop, markers := later.markers }

/-- A graph is a new one, into which its text is read in a context of its own. -/
theorem parseGraph_of_scanned (scanned : (Scan.ofText form source).stop = .ok stop) :
    session.parseGraph model form source =
      let inner := { session with labels := session.labels.push }
      let reading := inner.closing (Read.graphInto ⟨form, session.options⟩ (model.newGraph none).1
        (session.reader model form source stop))
      { result := reading.result.map fun _ => (model.newGraph none).1
        session := { reading.session with labels := reading.session.labels.pop }
        model := reading.model } := by
  simp only [parseGraph, parseOutermostGraph_eq, parseInto_of_scanned scanned]
  rfl

/-- A graph is the result where reading its items succeeds. -/
theorem parseGraph_of_ok (scanned : (Scan.ofText form source).stop = .ok stop)
    (ran : Read.graphInto ⟨form, session.options⟩ (model.newGraph none).1
      (session.reader model form source stop) = .ok () later) :
    session.parseGraph model form source =
      ⟨.ok (model.newGraph none).1, session.keeping later, later.model⟩ := by
  rw [parseGraph_of_scanned scanned, ran]
  rfl

/-- A failure is the result where reading its items fails, and what was read stays. -/
theorem parseGraph_of_error {error : Error} (scanned : (Scan.ofText form source).stop = .ok stop)
    (failed : Read.graphInto ⟨form, session.options⟩ (model.newGraph none).1
      (session.reader model form source stop) = .error error later) :
    session.parseGraph model form source = ⟨.error error, session.keeping later, later.model⟩ := by
  rw [parseGraph_of_scanned scanned, failed]
  rfl

/-- Where a graph is read, its text can be scanned and its tokens can be read to the end. -/
theorem exists_of_parsed (parsed : (session.parseGraph model form source).result = .ok graph) :
    ∃ stop later, (Scan.ofText form source).stop = .ok stop ∧
      Read.graphInto ⟨form, session.options⟩ (model.newGraph none).1
        (session.reader model form source stop) = .ok () later := by
  cases scanned : (Scan.ofText form source).stop with
  | error error => simp [parseGraph, parseOutermostGraph, read, scanned] at parsed
  | ok stop =>
      cases ran : Read.graphInto ⟨form, session.options⟩ (model.newGraph none).1
          (session.reader model form source stop) with
      | ok _ later => exact ⟨stop, later, rfl, ran⟩
      | error error later =>
          rw [parseGraph_of_error scanned ran] at parsed
          cases parsed

end Session

end ConceptualGraph
