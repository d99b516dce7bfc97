/-
Module: ConceptualGraph.Command
Purpose: What the command `cgx` prints in answer to a request.
Main exports: Command.Outcome, Command.FileSystem, Command.Request.run, Command.run
-/
import ConceptualGraph.Command.Request
import ConceptualGraph.Config
import ConceptualGraph.Session
import ConceptualGraph.Summary
import ConceptualGraph.Toml

namespace ConceptualGraph.Command

/-! ## Answers -/

/-- What the command leaves behind: its exit code and what it printed. -/
structure Outcome where
  exit : Nat := 0
  stdout : String := ""
  stderr : String := ""
  deriving DecidableEq, Repr

/-- The content of a file, or why it cannot be read. -/
abbrev FileSystem := String → Except IoError ByteArray

/-- Why a configuration file is of no use. -/
inductive LoadError where
  | unreadable (file : String) (cause : IoError)
  | malformed (file : String) (cause : TomlError)
  /-- The document holds a field of the wrong shape. -/
  | misshapen (file : String)
  | declarations (cause : ConfigError)
  deriving DecidableEq, Repr

/-- The wording of a load error. -/
def LoadError.message : LoadError → String
  | .unreadable file cause => "could not read '" ++ file ++ "': " ++ cause.message
  | .malformed file cause => "could not parse '" ++ file ++ "': " ++ cause.message
  | .misshapen file => "could not parse '" ++ file ++ "': a field has the wrong shape"
  | .declarations cause => cause.message

/-- The text of a file. -/
def readText (files : FileSystem) (file : String) : Except IoError String := do
  match String.fromUTF8? (← files file) with
  | some text => return text
  | none => .error .invalidUtf8

/-- The options and the hierarchy of a configuration file. -/
def loadConfig (files : FileSystem) (file : String) :
    Except LoadError (Options × Hierarchy) := do
  let text ← (readText files file).mapError (LoadError.unreadable file)
  let document ← (Toml.parse text).mapError (LoadError.malformed file)
  match Config.ofValue? true document with
  | none => .error (.misshapen file)
  | some config =>
      let hierarchy ← config.hierarchy.mapError LoadError.declarations
      return (config.options, hierarchy)

/-- What every action uses. -/
structure Context where
  options : Options := {}
  hierarchy : Hierarchy := {}
  output : OutputFormat
  quiet : Bool

namespace Context

variable (context : Context)

/-- A session with the options of the context. -/
def session : Session := .withOptions context.options

/-- A model with the types of the context. -/
def model : Model := { hierarchy := context.hierarchy }

/-- The graph of a reading and the model around it. -/
def graphOf (reading : Session.Reading GraphId) : Except Error (Model × GraphId) :=
  reading.result.map (reading.model, ·)

/-- A graph of a file. -/
def readGraph (files : FileSystem) (file : String) (form : Notation) :
    Except Error (Model × GraphId) := do
  let bytes ← (files file).mapError Error.io
  graphOf (context.session.parseGraphBytes context.model form bytes)

/-- A graph written with labels and markers of its own. -/
def generate (model : Model) (graph : GraphId) (form : Notation) : Except Error String :=
  (Session.generateGraph {} model form graph).1

/-- The line of a text, or of the data that holds it. -/
def line (text : String) (data : Value) : String :=
  match context.output with
  | .text => text ++ "\n"
  | .json => data.sorted.compact ++ "\n"

/-- An answer to `parse`: the summary over several lines. -/
def runParse (files : FileSystem) (file : String) (form : Notation) :
    Except Error Outcome := do
  let (model, graph) ← context.readGraph files file form
  return { stdout := (Summary.ofGraph model graph).value.pretty ++ "\n" }

/-- An answer to `convert`: the text of the graph. -/
def runConvert (files : FileSystem) (file : String) (source target : Notation) :
    Except Error Outcome := do
  let (model, graph) ← context.readGraph files file source
  let text ← generate model graph target
  return { stdout := context.line text (.table [("text", .text text)]) }

/-- What is said about the comparison of a graph with its second reading. -/
def verdict (stable : Bool) : String :=
  if stable then "round trip stable" else "round trip changed the graph"

/-- An answer to `roundtrip`: the text of the graph, and whether the graph that it
reads back as has the same summary. -/
def runRoundtrip (files : FileSystem) (file : String) (form : Notation) :
    Except Error Outcome := do
  let (model, graph) ← context.readGraph files file form
  let text ← generate model graph form
  let (reread, again) ← graphOf (context.session.parseGraph context.model form text)
  let before := Summary.ofGraph model graph
  let after := Summary.ofGraph reread again
  let stable := decide (before = after)
  let data := Value.table
    [("text", .text text), ("stable", .bool stable), ("before", before.value),
      ("after", after.value)]
  let silent := context.quiet || context.output == .json
  return {
    exit := if stable then 0 else 1
    stdout := context.line text data
    stderr := if silent then "" else verdict stable ++ "\n" }

/-- The errors behind an error, each on a line. -/
def causeLines (error : Error) : String :=
  String.join (error.causes.map fun cause => "  caused by: " ++ cause ++ "\n")

/-- The outcome of a failed action. -/
def failed (error : Error) : Outcome :=
  { exit := 1
    stderr :=
      if context.quiet then ""
      else
        match context.output with
        | .text => "error: " ++ error.message ++ "\n" ++ causeLines error
        | .json => error.report.sorted.compact ++ "\n" }

/-- The outcome of an action. -/
def run (files : FileSystem) (file : String) (action : Action) : Outcome :=
  let answer :=
    match action with
    | .parse form => context.runParse files file form
    | .convert source target => context.runConvert files file source target
    | .roundtrip form => context.runRoundtrip files file form
  match answer with
  | .ok outcome => outcome
  | .error error => context.failed error

end Context

/-- The outcome of a call whose configuration cannot be loaded. -/
def Invocation.unconfigured (invocation : Invocation) (error : LoadError) : Outcome :=
  { exit := 1
    stderr :=
      if invocation.quiet then ""
      else
        match invocation.output with
        | .text => error.message ++ "\n"
        | .json => (Value.table [("error", .text error.message)]).compact ++ "\n" }

/-- The outcome of a call. -/
def Invocation.run (files : FileSystem) (invocation : Invocation) : Outcome :=
  let context : Context := { output := invocation.output, quiet := invocation.quiet }
  match invocation.config.mapM (loadConfig files) with
  | .error error => invocation.unconfigured error
  | .ok none => context.run files invocation.file invocation.action
  | .ok (some (options, hierarchy)) =>
      { context with options, hierarchy }.run files invocation.file invocation.action

/-- The outcome of a request. -/
def Request.run (files : FileSystem) : Request → Outcome
  | .version => { stdout := "cgx 0.1.0\n" }
  | .invocation call => call.run files

/-- The outcome of a call with arguments. -/
def run (files : FileSystem) (args : List String) : Outcome :=
  match Request.ofArgs? args with
  | .ok request => request.run files
  | .error argument =>
      { exit := 2, stderr := "error: unexpected argument '" ++ argument ++ "'\n" }

end ConceptualGraph.Command
