/-
Module: ConceptualGraph.Reading.Basic
Purpose: The state of reading a sequence of tokens into a model, and the steps of
  which every production is made.
Main exports: Setting, Reader, Read, Inside, Room, Room.counted, Read.descend, Read.ascend
-/
import ConceptualGraph.Error
import ConceptualGraph.LabelTable
import ConceptualGraph.MarkerTable
import ConceptualGraph.Options

namespace ConceptualGraph

/-! ## State

Reading edits the model and the tables of the session as it goes.  A failure keeps
the state in which it arose: the nodes made and the labels bound until then
remain. -/

/-- What stays fixed while a text is read. -/
structure Setting where
  form : Notation
  options : Options

/-- The tokens still to be read, and what they are read into. -/
structure Reader where
  rest : List Located
  /-- Where the text ends. -/
  stop : Position
  model : Model
  labels : LabelTable
  markers : MarkerTable
  /-- How many brackets are open. -/
  depth : Nat := 0

/-- The token a number of places ahead; past the end, the end of input. -/
def Reader.ahead (reader : Reader) (places : Nat) : Located :=
  reader.rest[places]?.getD ⟨.endOfInput, ⟨reader.stop, reader.stop⟩⟩

/-- A step of reading. -/
abbrev Read := EStateM Error Reader

namespace Read

/-! ## Tokens -/

/-- The token a number of places ahead, with its place. -/
def located (places : Nat) : Read Located :=
  return (← get).ahead places

/-- The token a number of places ahead. -/
def ahead (places : Nat) : Read Token :=
  return (← located places).token

/-- The next token. -/
def peek : Read Token := ahead 0

/-- Goes past the next token. -/
def advance : Read Unit :=
  modify fun reader => { reader with rest := reader.rest.tail }

/-- Fails at a token. -/
def failAt {α : Type} (found : Located) (fault : ParseFault) : Read α :=
  throw (.parse ⟨fault, found⟩)

/-- Fails at the next token. -/
def fail {α : Type} (fault : ParseFault) : Read α := do
  failAt (← located 0) fault

/-- Goes past the next token if it is the given one, and says whether it was. -/
def eat (token : Token) : Read Bool := do
  if (← peek) = token then
    advance
    return true
  else
    return false

/-- Goes past a token that has to follow. -/
def expect (token : Token) (what : Expected) : Read Unit := do
  unless ← eat token do fail (.expected what)

/-! ## Model and labels -/

/-- The model as it stands. -/
def model : Read Model :=
  return (← get).model

/-- Changes the model. -/
def edit (change : Model → Model) : Read Unit :=
  modify fun reader => { reader with model := change reader.model }

/-- Makes something in the model and names it. -/
def make {α : Type} (change : Model → α × Model) : Read α := do
  let (made, model) := change (← model)
  edit fun _ => model
  return made

/-- The labels as they stand. -/
def labels : Read LabelTable :=
  return (← get).labels

/-- Binds a label. -/
def bindLabel (label : String) (target : Target) : Read Unit :=
  modify fun reader => { reader with labels := reader.labels.bind label target }

/-- Runs a step in a context of its own: the labels that it binds are unbound when
it ends, also when it fails. -/
def inContext {α : Type} (step : Read α) : Read α := fun reader =>
  match step { reader with labels := reader.labels.push } with
  | .ok value reader => .ok value { reader with labels := reader.labels.pop }
  | .error error reader => .error error { reader with labels := reader.labels.pop }

end Read

/-! ## Nesting

The brackets that are open are counted: a production that opens a bracket counts it
before it goes past it, and takes it off the count when it has read all that the bracket
needs.  A production that fails leaves the count as it stands, for nothing is read
afterwards. -/

/-- The productions available inside an open bracket. -/
structure Inside where
  concept : Option GraphId → Read (Option ConceptId)
  lambda : Read Definition
  items : GraphId → Read Unit

/-- How a bracket is opened, and how it is closed. -/
structure Room where
  /-- Opens a bracket, if there may be one more, and gives what is read inside it. -/
  enter : Setting → Read Inside
  /-- Closes the bracket that was opened last. -/
  leave : Read Unit

namespace Read

/-- Refuses a further bracket. -/
def refuseBracket {α : Type} (setting : Setting) : Read α :=
  fail (.nestingTooDeep setting.options.maxDepth)

/-- Counts a bracket more, and refuses it where too many are open. -/
def countUp (setting : Setting) : Read Unit := do
  modify fun reader => { reader with depth := reader.depth + 1 }
  if setting.options.maxDepth < (← get).depth then refuseBracket setting

/-- Counts a bracket less. -/
def countDown : Read Unit :=
  modify fun reader => { reader with depth := reader.depth - 1 }

/-- Enters the bracket at the next token, without going past it. -/
def descend (setting : Setting) (room : Room) : Read Inside :=
  room.enter setting

/-- Leaves the bracket that was entered last. -/
def ascend (room : Room) : Read Unit :=
  room.leave

end Read

/-- Brackets are opened as the count allows it.  What is read inside is given as long as
there are levels to recur on, which give out after the count does. -/
def Room.counted (level : Option Inside) : Room where
  enter setting := do
    Read.countUp setting
    match level with
    | some inside => return inside
    | none => Read.refuseBracket setting
  leave := Read.countDown

end ConceptualGraph
