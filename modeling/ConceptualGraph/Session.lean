/-
Module: ConceptualGraph.Session
Purpose: Reading and writing graphs with labels and markers that are kept from one
  call to the next.
Main exports: Session, Session.parseGraph, Session.parseOutermostGraph,
  Session.parseConcept, Session.parseRelation, Session.parseActor,
  Session.generateGraph, Session.generateConcept
-/
import ConceptualGraph.Reading.Nesting
import ConceptualGraph.Writing.Graph

namespace ConceptualGraph

/-- What is kept between calls. -/
structure Session where
  labels : LabelTable := {}
  markers : MarkerTable := {}
  options : Options := {}
  deriving DecidableEq, Repr, Inhabited

namespace Session

/-- A session with nothing in its tables. -/
def withOptions (options : Options) : Session := { options }

/-- Forgets all labels and markers. -/
def resetUnits (session : Session) : Session := .withOptions session.options

/-! ## Reading -/

/-- What comes of reading: the result, and the session and the model as the reading
left them, whether it succeeded or not. -/
structure Reading (α : Type) where
  result : Except Error α
  session : Session
  model : Model

variable (session : Session) (model : Model) (form : Notation)

/-- Reads a text by a production. -/
def read {α : Type} (source : String) (production : Setting → Read α) : Reading α :=
  let scan := Scan.ofText form source
  match scan.stop with
  | .error error => ⟨.error (.lex error), session, model⟩
  | .ok stop =>
      let reader : Reader :=
        { rest := scan.tokens, stop, model, labels := session.labels,
          markers := session.markers }
      match production { form, options := session.options } reader with
      | .ok value reader =>
          ⟨.ok value, { session with labels := reader.labels, markers := reader.markers },
            reader.model⟩
      | .error error reader =>
          ⟨.error error, { session with labels := reader.labels, markers := reader.markers },
            reader.model⟩

/-- Reads a graph whose labels stay bound. -/
def parseOutermostGraph (source : String) : Reading GraphId :=
  let (graph, model) := model.newGraph none
  session.read model form source fun setting => do
    Read.graphText setting (Read.counted setting) graph
    return graph

/-- Reads a graph in a context of its own. -/
def parseGraph (source : String) : Reading GraphId :=
  let session := { session with labels := session.labels.push }
  let reading := session.parseOutermostGraph model form source
  { reading with session := { reading.session with labels := reading.session.labels.pop } }

/-- Reads a graph from bytes in UTF-8. -/
def parseGraphBytes (bytes : ByteArray) : Reading GraphId :=
  match String.fromUTF8? bytes with
  | some source => session.parseGraph model form source
  | none => ⟨.error (.io .invalidUtf8), session, model⟩

/-- Reads a concept into a graph, if one is given. -/
def parseConcept (graph : Option GraphId) (source : String) : Reading ConceptId :=
  session.read model form source fun setting =>
    Read.single setting .concept (Read.concept setting (Read.counted setting) graph)

/-- Puts a relation or actor that was read into a graph, if one is given. -/
def Reading.into (reading : Reading RelationId) (graph : Option GraphId) :
    Reading RelationId :=
  match reading.result, graph with
  | .ok relation, some graph =>
      { reading with model := reading.model.addRelation graph relation }
  | _, _ => reading

/-- Reads a relation into a graph, if one is given. -/
def parseRelation (graph : Option GraphId) (source : String) : Reading RelationId :=
  let reading := session.read model form source fun setting =>
    Read.single setting .relation (Read.relation setting (Read.counted setting) graph)
  reading.into graph

/-- Reads an actor into a graph, if one is given. -/
def parseActor (graph : Option GraphId) (source : String) : Reading RelationId :=
  let reading := session.read model form source fun setting =>
    Read.single setting .actor (Read.actor setting (Read.counted setting) graph)
  reading.into graph

/-! ## Writing -/

/-- What comes of writing: the text, and the session as the writing left it. -/
abbrev Writing := Except Error String × Session

/-- Writes the text of a phrase. -/
def write (step : Write Phrase) : Writing :=
  match step { labels := session.labels, markers := session.markers } with
  | .ok phrase writer =>
      (.ok phrase.text, { session with labels := writer.labels, markers := writer.markers })
  | .error error writer =>
      (.error (.generate error),
        { session with labels := writer.labels, markers := writer.markers })

/-- Writes a graph with the labels that are bound, and leaves its own bound. -/
def generateOutermostGraph (graph : GraphId) : Writing :=
  session.write (Write.graph model form graph)

/-- Writes a graph in a context of its own. -/
def generateGraph (graph : GraphId) : Writing :=
  let session := { session with labels := session.labels.push }
  let (text, session) := session.generateOutermostGraph model form graph
  (text, { session with labels := session.labels.pop })

/-- Writes a graph as whole lines. -/
def writeGraph (graph : GraphId) : Writing :=
  let (text, session) := session.generateGraph model form graph
  (text.map (· ++ "\n"), session)

/-- Writes a concept. -/
def generateConcept (concept : ConceptId) : Writing :=
  session.write (Write.concept model form concept)

/-- Writes a relation. -/
def generateRelation (relation : RelationId) : Writing :=
  session.write (Write.relation model form relation)

/-- Writes an actor. -/
def generateActor (actor : RelationId) : Writing :=
  session.write (Write.actor model (Write.items model form) actor)

end Session

end ConceptualGraph
