/-
Module: ConceptualGraph.Value
Purpose: Plain data as it stands in configuration files and reports, and its JSON
  text in the two layouts that the command uses.
Main exports: Value, Value.sorted, Value.compact, Value.pretty
-/
import ConceptualGraph.Binary64.Decimal

namespace ConceptualGraph

/-- Plain data. -/
inductive Value where
  | null
  | bool (value : Bool)
  | int (value : Int)
  | real (value : Binary64)
  | text (value : String)
  | list (items : List Value)
  /-- Named fields, in the order in which they were given. -/
  | table (fields : List (String × Value))
  deriving Repr, Inhabited

namespace Value

/-! ## Text -/

/-- One character inside a JSON string. -/
def textChar (char : Char) : List Char :=
  match char with
  | '"' => ['\\', '"']
  | '\\' => ['\\', '\\']
  | '\x08' => ['\\', 'b']
  | '\t' => ['\\', 't']
  | '\n' => ['\\', 'n']
  | '\x0c' => ['\\', 'f']
  | '\r' => ['\\', 'r']
  | _ =>
      if char.toNat < 0x20 then
        let digits := Nat.toDigits 16 char.toNat
        ['\\', 'u'] ++ List.replicate (4 - digits.length) '0' ++ digits
      else [char]

/-- A JSON string. -/
def quote (text : String) : String :=
  String.ofList ('"' :: text.toList.flatMap textChar ++ ['"'])

/-- Adds a field to fields sorted by name. -/
def insertField (name : String) (value : Value) : List (String × Value) → List (String × Value)
  | [] => [(name, value)]
  | field :: fields =>
      if name < field.1 then (name, value) :: field :: fields
      else field :: insertField name value fields

mutual

/-- The value with the fields of every table sorted by name. -/
def sorted : Value → Value
  | .list items => .list (sortedItems items)
  | .table fields => .table (sortedFields fields)
  | value => value

/-- The items, each with its fields sorted. -/
def sortedItems : List Value → List Value
  | [] => []
  | item :: items => sorted item :: sortedItems items

/-- The fields sorted by name. -/
def sortedFields : List (String × Value) → List (String × Value)
  | [] => []
  | (name, value) :: fields => insertField name (sorted value) (sortedFields fields)

end

mutual

/-- The JSON text of a value without blanks. -/
def compact : Value → String
  | .null => "null"
  | .bool value => if value then "true" else "false"
  | .int value => value.repr
  | .real value => value.text
  | .text value => quote value
  | .list items => "[" ++ ",".intercalate (compactItems items) ++ "]"
  | .table fields => "\x7b" ++ ",".intercalate (compactFields fields) ++ "\x7d"

/-- The texts of items. -/
def compactItems : List Value → List String
  | [] => []
  | item :: items => compact item :: compactItems items

/-- The texts of fields. -/
def compactFields : List (String × Value) → List String
  | [] => []
  | (name, value) :: fields => (quote name ++ ":" ++ compact value) :: compactFields fields

end

/-- Parts between two brackets, each on a line of its own. -/
def block (opening closing indent : String) (parts : List String) : String :=
  if parts.isEmpty then opening ++ closing
  else
    opening ++ "\n  " ++ indent ++ (",\n  " ++ indent).intercalate parts
      ++ "\n" ++ indent ++ closing

mutual

/-- The JSON text of a value over several lines, every level indented by two more
blanks than `indent`. -/
def prettyAt (indent : String) : Value → String
  | .list items => block "[" "]" indent (prettyItems ("  " ++ indent) items)
  | .table fields => block "\x7b" "\x7d" indent (prettyFields ("  " ++ indent) fields)
  | .null => compact .null
  | .bool value => compact (.bool value)
  | .int value => compact (.int value)
  | .real value => compact (.real value)
  | .text value => compact (.text value)

/-- The texts of items one level further in. -/
def prettyItems (indent : String) : List Value → List String
  | [] => []
  | item :: items => prettyAt indent item :: prettyItems indent items

/-- The texts of fields one level further in. -/
def prettyFields (indent : String) : List (String × Value) → List String
  | [] => []
  | (name, value) :: fields =>
      (quote name ++ ": " ++ prettyAt indent value) :: prettyFields indent fields

end

/-- The JSON text of a value over several lines. -/
def pretty (value : Value) : String := prettyAt "" value

end Value

end ConceptualGraph
