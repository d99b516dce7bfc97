/-
Module: ConceptualGraph.Toml
Purpose: TOML documents read into plain data.
Main exports: TomlError, Toml.parse
-/
import ConceptualGraph.Toml.Scalar

namespace ConceptualGraph

/-- A fault in a TOML document and the line on which it stands. -/
structure TomlError where
  fault : TomlFault
  line : Nat
  deriving DecidableEq, Repr

/-- The wording of a document error. -/
def TomlError.message (error : TomlError) : String :=
  "line " ++ error.line.repr ++ ": " ++ error.fault.message

namespace Toml

/-! ## Keys -/

/-- Whether a character may stand in a key without quotes. -/
def isBareKey (char : Char) : Bool :=
  char.isAlphanum || char == '_' || char == '-'

/-- One part of a key.  A quoted part stays on its line. -/
def simpleKey : Reader String := fun text =>
  match text with
  | '"' :: rest => lineString '"' rest
  | '\'' :: rest => lineString '\'' rest
  | _ =>
      let key := text.takeWhile isBareKey
      if key = [] then .error (.expectedKey, text)
      else .ok (String.ofList key, text.dropWhile isBareKey)

/-- A key may have fewer parts than this, and brackets be nested less deep. -/
def depthLimit : Nat := 80

/-- A key with dots between its parts, at most as many as there are steps. -/
def keyParts : (steps : Nat) → Reader (List String)
  | 0, text => .error (.tooDeep, text)
  | steps + 1, text => do
      let (key, rest) ← simpleKey (skipBlanks text)
      match skipBlanks rest with
      | '.' :: rest =>
          let (path, rest) ← keyParts steps rest
          return (key :: path, rest)
      | rest => return ([key], rest)

/-- A key with dots between its parts. -/
def dottedKey : Reader (List String) := keyParts (depthLimit - 1)

/-- A key and the equals sign after it. -/
def keyBefore : Reader (List String) := fun text => do
  let (path, rest) ← dottedKey text
  match rest with
  | '=' :: rest => return (path, skipBlanks rest)
  | rest => .error (.expectedEquals, rest)

/-- Places a fault of the tables at a rest. -/
def placed {α : Type} (rest : List Char) (result : Except TomlFault α) :
    Except Failure α :=
  result.mapError fun fault => (fault, rest)

/-! ## Values -/

/-- The items of an array up to its closing bracket.  Every step takes an item. -/
def arrayItems (item : Reader Value) : (steps : Nat) → Reader (List Value)
  | 0, text => .error (.expectedBracket, text)
  | steps + 1, text =>
      match skipLines false text with
      | ']' :: rest => return ([], rest)
      | text => do
          let (first, rest) ← item text
          match skipLines false rest with
          | ',' :: rest =>
              let (others, rest) ← arrayItems item steps rest
              return (first :: others, rest)
          | ']' :: rest => return ([first], rest)
          | rest => .error (.expectedBracket, rest)

/-- The fields of a table on one line up to its closing brace.  Every step takes a
field. -/
def inlineFields (item : Reader Value) : (steps : Nat) → Fields → Reader Fields
  | 0, _, text => .error (.expectedBracket, text)
  | steps + 1, fields, text => do
      let (path, rest) ← keyBefore text
      let (value, rest) ← item rest
      let fields ← placed rest (fields.assign value path)
      match skipBlanks rest with
      | ',' :: rest => inlineFields item steps fields rest
      | '\x7d' :: rest => return (fields, rest)
      | rest => .error (.expectedBracket, rest)

/-- A table on one line, after its opening brace. -/
def inlineTable (item : Reader Value) : Reader Value := fun text =>
  match skipBlanks text with
  | '\x7d' :: rest => return (.table [], rest)
  | rest => do
      let (fields, rest) ← inlineFields item rest.length [] rest
      return (fields.value, rest)

/-- A value in which brackets are nested at most as deep as there are levels. -/
def value : (levels : Nat) → Reader Value
  | _, '"' :: rest => do
      let (text, rest) ← string '"' rest
      return (.text text, rest)
  | _, '\'' :: rest => do
      let (text, rest) ← string '\'' rest
      return (.text text, rest)
  | 0, '[' :: rest => .error (.tooDeep, rest)
  | 0, '\x7b' :: rest => .error (.tooDeep, rest)
  | levels + 1, '[' :: rest => do
      let (items, rest) ← arrayItems (value levels) rest.length rest
      return (.list items, rest)
  | levels + 1, '\x7b' :: rest => inlineTable (value levels) rest
  | _, text => scalar text

/-! ## Documents -/

/-- What has been read of a document: its tables, and the one that is being filled. -/
structure Document where
  fields : Fields := []
  current : List String := []

/-- Opens a table or, between double brackets, adds one to a list of tables. -/
def Document.opening (document : Document) (listed : Bool) (path : List String) :
    Except TomlFault Document := do
  let change := if listed then Fields.openTables else Fields.openTable
  match path.getLast? with
  | none => .error .expectedKey
  | some key =>
      let fields ← Fields.within (change key) path.dropLast document.fields
      return { fields, current := path }

/-- Assigns a value in the table that is being filled. -/
def Document.assigning (document : Document) (path : List String) (item : Value) :
    Except TomlFault Document := do
  let fields ← Fields.within (Fields.assign item path) document.current document.fields
  return { document with fields }

/-- The header of a table after its opening brackets. -/
def header (document : Document) (listed : Bool) (text : List Char) :
    Except Failure (Document × List Char) := do
  let (path, rest) ← dottedKey text
  let rest ←
    match listed, rest with
    | false, ']' :: rest => pure rest
    | true, ']' :: ']' :: rest => pure rest
    | _, rest => .error (.expectedBracket, rest)
  let ((), after) ← lineEnd rest
  return (← placed rest (document.opening listed path), after)

/-- A key and its value on a line of their own. -/
def assignment (document : Document) (text : List Char) :
    Except Failure (Document × List Char) := do
  let (path, rest) ← keyBefore text
  let (item, rest) ← value (depthLimit - 1) rest
  let ((), after) ← lineEnd rest
  return (← placed rest (document.assigning path item), after)

/-- The lines of a document.  Every step takes a line. -/
def lines : (steps : Nat) → Document → List Char → Except Failure Document
  | 0, document, _ => .ok document
  | steps + 1, document, text =>
      match skipLines false text with
      | [] => .ok document
      | '[' :: '[' :: rest => do
          let (document, rest) ← header document true rest
          lines steps document rest
      | '[' :: rest => do
          let (document, rest) ← header document false rest
          lines steps document rest
      | rest => do
          let (document, rest) ← assignment document rest
          lines steps document rest

/-- The text after a byte order mark, if it begins with one. -/
def skipByteOrderMark : List Char → List Char
  | '\ufeff' :: rest => rest
  | text => text

/-- The data of a document. -/
def parse (source : String) : Except TomlError Value :=
  let chars := skipByteOrderMark source.toList
  match lines (chars.length + 1) {} chars with
  | .ok document => .ok document.fields.value
  | .error (fault, rest) =>
      let line := (chars.take (chars.length - rest.length)).count '\n' + 1
      .error { fault, line }

end Toml

end ConceptualGraph
