/-
Module: ConceptualGraph.Config
Purpose: Options and types declared before any text is read.
Main exports: ConceptTypeDeclaration, RelationTypeDeclaration, Config,
  Config.ofValue?, Config.hierarchy
-/
import ConceptualGraph.Hierarchy
import ConceptualGraph.Options
import ConceptualGraph.Text.Numeral
import ConceptualGraph.Value

namespace ConceptualGraph

/-! ## Declarations -/

/-- A declared concept type. -/
structure ConceptTypeDeclaration where
  label : String
  parents : List String := []
  deriving DecidableEq, Repr

/-- A declared relation type. -/
structure RelationTypeDeclaration where
  label : String
  valence : Option Nat := none
  parents : List String := []
  deriving DecidableEq, Repr

/-- A configuration. -/
structure Config where
  options : Options := {}
  conceptTypes : List ConceptTypeDeclaration := []
  relationTypes : List RelationTypeDeclaration := []
  deriving DecidableEq, Repr

/-! ## Reading a configuration

A configuration and its declarations are tables; a list of the fields in their order
is as good as a table.  Other fields are ignored, but a field of the wrong shape
spoils the whole.  Whether the items of a list beyond the last field are ignored too is
up to the format that the value comes from: `spare` says so. -/

namespace Value

/-- The fields with the given names, those missing left open. -/
def fields? (spare : Bool) (names : List String) : Value → Option (List (Option Value))
  | .table fields => some (names.map fun name => fields.lookup name)
  | .list items =>
      if spare || items.length ≤ names.length then
        some ((List.range names.length).map fun place => items[place]?)
      else none
  | _ => none

/-- A truth value. -/
def bool? : Value → Option Bool
  | .bool value => some value
  | _ => none

/-- A whole number that fits an unsigned word. -/
def count? : Value → Option Nat
  | .int (.ofNat number) => if number ≤ Text.largestUnsigned then some number else none
  | _ => none

/-- A text. -/
def text? : Value → Option String
  | .text content => some content
  | _ => none

/-- A list of items of one shape. -/
def list? {α : Type} (item? : Value → Option α) : Value → Option (List α)
  | .list items => items.mapM item?
  | _ => none

/-- An optional item: nothing at all, or an item. -/
def option? {α : Type} (item? : Value → Option α) : Value → Option (Option α)
  | .null => some none
  | value => (item? value).map some

/-- A field that may be missing. -/
def orElse {α : Type} (item? : Value → Option α) (missing : α) : Option Value → Option α
  | none => some missing
  | some value => item? value

end Value

/-- The options that a value describes. -/
def Options.ofValue? (spare : Bool) (value : Value) : Option Options := do
  match ← value.fields? spare ["create_types_on_demand", "max_depth"] with
  | [onDemand, depth] =>
      let standard : Options := {}
      let createTypesOnDemand ← Value.orElse Value.bool? standard.createTypesOnDemand onDemand
      let maxDepth ← Value.orElse Value.count? standard.maxDepth depth
      return { createTypesOnDemand, maxDepth }
  | _ => none

/-- The declaration of a concept type that a value describes. -/
def ConceptTypeDeclaration.ofValue? (spare : Bool) (value : Value) :
    Option ConceptTypeDeclaration := do
  match ← value.fields? spare ["label", "parents"] with
  | [some label, parents] =>
      let label ← label.text?
      let parents ← Value.orElse (Value.list? Value.text?) [] parents
      return { label, parents }
  | _ => none

/-- The declaration of a relation type that a value describes. -/
def RelationTypeDeclaration.ofValue? (spare : Bool) (value : Value) :
    Option RelationTypeDeclaration := do
  match ← value.fields? spare ["label", "valence", "parents"] with
  | [some label, valence, parents] =>
      let label ← label.text?
      let valence ← Value.orElse (Value.option? Value.count?) none valence
      let parents ← Value.orElse (Value.list? Value.text?) [] parents
      return { label, valence, parents }
  | _ => none

namespace Config

/-- The configuration that a value describes. -/
def ofValue? (spare : Bool) (value : Value) : Option Config := do
  match ← value.fields? spare ["parse", "concept_types", "relation_types"] with
  | [options, conceptTypes, relationTypes] =>
      let options ← Value.orElse (Options.ofValue? spare) {} options
      let conceptTypes ←
        Value.orElse (Value.list? (ConceptTypeDeclaration.ofValue? spare)) [] conceptTypes
      let relationTypes ←
        Value.orElse (Value.list? (RelationTypeDeclaration.ofValue? spare)) [] relationTypes
      return { options, conceptTypes, relationTypes }
  | _ => none

end Config

/-! ## The declared hierarchy -/

/-- Why declarations do not make a hierarchy. -/
inductive ConfigError where
  /-- A parent is not declared before its child. -/
  | undeclaredParent (child parent : String)
  | hierarchy (error : HierarchyError)
  deriving DecidableEq, Repr

/-- The wording of a configuration error. -/
def ConfigError.message : ConfigError → String
  | .undeclaredParent child parent =>
      "type '" ++ child ++ "' names undeclared parent '" ++ parent ++ "'"
  | .hierarchy error => error.message

namespace Config

/-- The parents of a declared type. -/
def resolveParents {kind : TypeKind} (lattice : Lattice kind) (child : String) :
    List String → Except ConfigError (List (TypeRef kind))
  | [] => .ok []
  | parent :: others =>
      match lattice.find? parent with
      | none => .error (.undeclaredParent child parent)
      | some type => (resolveParents lattice child others).map (type :: ·)

/-- A lattice with one more declared type. -/
def declare {kind : TypeKind} (lattice : Lattice kind) (label : String)
    (parents : List String) (valence : Option Nat) : Except ConfigError (Lattice kind) := do
  let parents ← resolveParents lattice label parents
  match lattice.create label parents [] with
  | .error error => .error (.hierarchy error)
  | .ok (type, lattice) => return valence.elim lattice (lattice.setValence type)

/-- The hierarchy of the declared types. -/
def hierarchy (config : Config) : Except ConfigError Hierarchy := do
  let standard : Hierarchy := {}
  let concepts ← config.conceptTypes.foldlM (fun lattice declaration =>
    declare lattice declaration.label declaration.parents none) standard.concepts
  let relations ← config.relationTypes.foldlM (fun lattice declaration =>
    declare lattice declaration.label declaration.parents declaration.valence)
    standard.relations
  return { concepts, relations }

end Config

end ConceptualGraph
