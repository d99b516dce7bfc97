/-
Module: ConceptualGraph.Toml.Table
Purpose: The tables of a TOML document while it is read.  A table may be opened once
  by a header and filled by the keys after it; a table that exists only because a
  longer name passes through it may still be opened.
Main exports: TomlFault, Entry, Fields, Fields.assign, Fields.openTable,
  Fields.openTables, Fields.within, Fields.value
-/
import ConceptualGraph.Value

namespace ConceptualGraph

/-- Why a TOML document cannot be read. -/
inductive TomlFault where
  | expectedKey
  | expectedEquals
  | expectedValue
  | expectedLineEnd
  | expectedBracket
  | unterminatedString
  | invalidEscape
  | controlCharacter
  | invalidNumber
  /-- Brackets, or the parts of a key, are nested too deep. -/
  | tooDeep
  /-- The key or table is already defined. -/
  | duplicate (key : String)
  /-- The name passes through something that is not a table. -/
  | notATable (key : String)
  deriving DecidableEq, Repr

/-- The wording of a fault. -/
def TomlFault.message : TomlFault → String
  | .expectedKey => "expected a key"
  | .expectedEquals => "expected '=' after a key"
  | .expectedValue => "expected a value"
  | .expectedLineEnd => "expected the end of the line"
  | .expectedBracket => "expected a closing bracket"
  | .unterminatedString => "unterminated string"
  | .invalidEscape => "invalid escape"
  | .controlCharacter => "control character"
  | .invalidNumber => "invalid number"
  | .tooDeep => "nested too deep"
  | .duplicate key => "duplicate key '" ++ key ++ "'"
  | .notATable key => "key '" ++ key ++ "' is not a table"

namespace Toml

/-- How a table came to be. -/
inductive Origin where
  /-- A longer header passes through it. -/
  | passed
  /-- A dotted key passes through it. -/
  | dotted
  /-- A header opened it. -/
  | opened
  deriving DecidableEq, Repr

/-- What a key stands for. -/
inductive Entry where
  | value (value : Value)
  | table (origin : Origin) (fields : List (String × Entry))
  /-- A list of tables, of which only the last one is still open. -/
  | tables (earlier : List (List (String × Entry))) (last : List (String × Entry))

/-- The entries of a table in the order in which they were made. -/
abbrev Fields := List (String × Entry)

namespace Fields

/-- Puts an entry in the place of the one with its key, or at the end. -/
def replace (key : String) (entry : Entry) : Fields → Fields
  | [] => [(key, entry)]
  | first :: others =>
      if first.1 = key then (key, entry) :: others else first :: replace key entry others

/-- Changes the table that a header names, passing through its parents. -/
def within (change : Fields → Except TomlFault Fields) :
    List String → Fields → Except TomlFault Fields
  | [], fields => change fields
  | key :: path, fields =>
      match fields.lookup key with
      | none => do
          let inner ← within change path []
          return replace key (.table .passed inner) fields
      | some (.table origin inner) => do
          let inner ← within change path inner
          return replace key (.table origin inner) fields
      | some (.tables earlier last) => do
          let last ← within change path last
          return replace key (.tables earlier last) fields
      | some (.value _) => .error (.notATable key)

/-- Assigns a value to a dotted key.  A key may pass through tables without a header of
their own and through the last one of a list, but it adds to a table only if dotted keys
have made it. -/
def assign (value : Value) : List String → Fields → Except TomlFault Fields
  | [], _ => .error .expectedKey
  | [key], fields =>
      if (fields.lookup key).isSome then .error (.duplicate key)
      else .ok (replace key (.value value) fields)
  | key :: path, fields =>
      let adds := path.length == 1
      match fields.lookup key with
      | none => do
          let inner ← assign value path []
          return replace key (.table .dotted inner) fields
      | some (.table origin inner) =>
          if origin == .opened || (adds && origin == .passed) then .error (.duplicate key)
          else do
            let inner ← assign value path inner
            return replace key (.table origin inner) fields
      | some (.tables earlier last) =>
          if adds then .error (.duplicate key)
          else do
            let last ← assign value path last
            return replace key (.tables earlier last) fields
      | some (.value _) => .error (.notATable key)

/-- Opens a table by its header. -/
def openTable (key : String) (fields : Fields) : Except TomlFault Fields :=
  match fields.lookup key with
  | none => .ok (replace key (.table .opened []) fields)
  | some (.table .passed inner) => .ok (replace key (.table .opened inner) fields)
  | some _ => .error (.duplicate key)

/-- Adds a table to a list of tables by its header. -/
def openTables (key : String) (fields : Fields) : Except TomlFault Fields :=
  match fields.lookup key with
  | none => .ok (replace key (.tables [] []) fields)
  | some (.tables earlier last) => .ok (replace key (.tables (earlier ++ [last]) []) fields)
  | some _ => .error (.duplicate key)

end Fields

mutual

/-- The data that an entry holds. -/
def Entry.data : Entry → Value
  | .value value => value
  | .table _ fields => .table (fieldsData fields)
  | .tables earlier last => .list (tablesData earlier ++ [.table (fieldsData last)])

/-- The data that entries hold. -/
def fieldsData : List (String × Entry) → List (String × Value)
  | [] => []
  | (key, entry) :: fields => (key, entry.data) :: fieldsData fields

/-- The data that tables hold. -/
def tablesData : List (List (String × Entry)) → List Value
  | [] => []
  | fields :: tables => .table (fieldsData fields) :: tablesData tables

end

/-- The table as data. -/
def Fields.value (fields : Fields) : Value := .table (fieldsData fields)

end Toml

end ConceptualGraph
