/-
Module: ConceptualGraph.Command.Request
Purpose: What the arguments of the command `cgx` ask for.
Main exports: Command.Action, Command.Invocation, Command.Request,
  Command.Request.ofArgs?, Command.Request.files
-/
import ConceptualGraph.Token

namespace ConceptualGraph.Command

/-! ## Requests -/

/-- The layout of what is printed. -/
inductive OutputFormat where
  | text
  | json
  deriving DecidableEq, Repr

/-- What is to be done with a source file. -/
inductive Action where
  /-- Print a summary. -/
  | parse (form : Notation)
  /-- Write the graph in another form. -/
  | convert (source target : Notation)
  /-- Write the graph, read it back, and compare. -/
  | roundtrip (form : Notation)
  deriving DecidableEq, Repr

/-- A call of the command on a file. -/
structure Invocation where
  action : Action
  file : String
  output : OutputFormat := .text
  quiet : Bool := false
  config : Option String := none
  deriving DecidableEq, Repr

/-- What the arguments ask for. -/
inductive Request where
  | version
  | invocation (invocation : Invocation)
  deriving DecidableEq, Repr

/-! ## Arguments

The name of an action divides the arguments.  The options that every action has may
stand on either side of it, those of the action itself and the file only after it.  The
value of an option follows it, or an equals sign.  After two hyphens everything is a
word. -/

/-- The names of the actions. -/
inductive ActionName where
  | parse
  | convert
  | roundtrip
  deriving DecidableEq, Repr

/-- The action that a word names. -/
def ActionName.ofWord? : String → Option ActionName
  | "parse" => some .parse
  | "convert" => some .convert
  | "roundtrip" => some .roundtrip
  | _ => none

/-- The options of an action by itself. -/
def ActionName.options : ActionName → List String
  | .parse | .roundtrip => ["--notation"]
  | .convert => ["--from", "--to"]

/-- The options of every action. -/
def commonOptions : List String := ["--output", "--config"]

/-- The flags of every action. -/
def commonFlags : List String := ["--quiet", "--verbose"]

/-- The flags that ask for the version instead of an action. -/
def versionFlags : List String := ["--version", "-V"]

/-- What the arguments on one side of the name of the action set. -/
structure Settings where
  options : List (String × String) := []
  flags : List String := []

/-- Sets an option, which may not be empty or set twice on one side. -/
def Settings.setOption (settings : Settings) (option value : String) :
    Except String Settings :=
  if value.isEmpty || (settings.options.lookup option).isSome then .error option
  else .ok { settings with options := (option, value) :: settings.options }

/-- Sets a flag, which may not be set twice on one side. -/
def Settings.setFlag (settings : Settings) (flag : String) : Except String Settings :=
  if settings.flags.contains flag then .error flag
  else .ok { settings with flags := flag :: settings.flags }

/-- Arguments sorted by what they are. -/
structure Sorted where
  /-- What is set before the name of the action. -/
  outer : Settings := {}
  action : Option ActionName := none
  /-- What is set after it. -/
  inner : Settings := {}
  words : List String := []

namespace Sorted

/-- The options that may stand where the arguments so far end. -/
def allowed (sorted : Sorted) : List String :=
  commonOptions ++ sorted.action.elim [] ActionName.options

/-- Changes the settings of the side on which the arguments so far end. -/
def set (sorted : Sorted) (change : Settings → Except String Settings) :
    Except String Sorted := do
  if sorted.action.isNone then return { sorted with outer := ← change sorted.outer }
  else return { sorted with inner := ← change sorted.inner }

/-- Adds a word: the name of the action, or what follows it. -/
def addWord (sorted : Sorted) (word : String) : Except String Sorted :=
  if sorted.action.isSome then
    if word.isEmpty then .error word else .ok { sorted with words := sorted.words ++ [word] }
  else
    match ActionName.ofWord? word with
    | some action => .ok { sorted with action := some action }
    | none => .error word

/-- The value of an option, the one set after the name of the action first. -/
def option? (sorted : Sorted) (option : String) : Option String :=
  (sorted.inner.options.lookup option).or (sorted.outer.options.lookup option)

/-- Whether a flag is set on either side. -/
def hasFlag (sorted : Sorted) (flag : String) : Bool :=
  sorted.inner.flags.contains flag || sorted.outer.flags.contains flag

end Sorted

/-- Whether an argument looks like an option.  A single hyphen is a word. -/
def looksLikeOption (argument : String) : Bool :=
  argument.toList.head? == some '-' && argument != "-"

/-- An argument cut at its first equals sign. -/
def splitEquals (argument : String) : Option (String × String) :=
  let chars := argument.toList
  match chars.dropWhile (· != '=') with
  | _ :: value => some (String.ofList (chars.takeWhile (· != '=')), String.ofList value)
  | [] => none

/-- Sorts arguments, or names the first one that cannot stand where it does.  There is
nothing to sort when the version is asked for. -/
def sortArgs : Sorted → List String → Except String (Option Sorted)
  | sorted, [] => .ok (some sorted)
  | sorted, argument :: others =>
      if !looksLikeOption argument then do sortArgs (← sorted.addWord argument) others
      else if argument = "--" then
        if sorted.action.isNone then .error argument
        else return some (← others.foldlM Sorted.addWord sorted)
      else if argument ∈ versionFlags && sorted.action.isNone then .ok none
      else if argument ∈ commonFlags then do
        sortArgs (← sorted.set (Settings.setFlag · argument)) others
      else if argument ∈ sorted.allowed then
        match others with
        | [] => .error argument
        | value :: others =>
            if looksLikeOption value then .error argument
            else do sortArgs (← sorted.set (Settings.setOption · argument value)) others
      else
        match splitEquals argument with
        | none => .error argument
        | some (option, value) =>
            if option ∈ sorted.allowed then do
              sortArgs (← sorted.set (Settings.setOption · option value)) others
            else .error argument

/-- The form that an option names, or a standard one without the option. -/
def Sorted.form (sorted : Sorted) (option : String) (standard : Notation) :
    Except String Notation :=
  match sorted.option? option with
  | none => .ok standard
  | some "cgif" => .ok .cgif
  | some "linear" => .ok .linear
  | some other => .error other

/-- The layout that the options name. -/
def Sorted.output (sorted : Sorted) : Except String OutputFormat :=
  match sorted.option? "--output" with
  | none => .ok .text
  | some "text" => .ok .text
  | some "json" => .ok .json
  | some other => .error other

/-- An action with its options. -/
def Sorted.actionOf (sorted : Sorted) : ActionName → Except String Action
  | .parse => return .parse (← sorted.form "--notation" .cgif)
  | .convert => return .convert (← sorted.form "--from" .cgif) (← sorted.form "--to" .linear)
  | .roundtrip => return .roundtrip (← sorted.form "--notation" .cgif)

/-- What the arguments ask for, or the argument that cannot be understood. -/
def Request.ofArgs? (args : List String) : Except String Request := do
  match ← sortArgs {} args with
  | none => return .version
  | some sorted =>
      match sorted.action, sorted.words with
      | some action, [file] =>
          return .invocation
            { action := ← sorted.actionOf action
              file
              output := ← sorted.output
              quiet := sorted.hasFlag "--quiet"
              config := sorted.option? "--config" }
      | some _, _ :: extra :: _ => .error extra
      | _, _ => .error "<COMMAND> <FILE>"

/-- The files that a request reads. -/
def Request.files : Request → List String
  | .version => []
  | .invocation call => call.config.toList ++ [call.file]

end ConceptualGraph.Command
