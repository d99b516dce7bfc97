/-
Module: ConceptualGraph.Lattice
Purpose: A lattice of types under one top and above one bottom element, with
  its edits and its subtype order.
Main exports: Parameter, Definition, TypeNode, HierarchyError, Lattice,
  Lattice.isSubtype, Lattice.create, Lattice.createDefined,
  Lattice.addSupertype
-/
import ConceptualGraph.Handle

namespace ConceptualGraph

/-! ## Nodes

A labelled type is declared or created on demand.  A type without a label is
given by a definition: formal parameters and, unless the definition is only a
signature, the graph that says what holds of them. -/

/-- One formal parameter of a definition. -/
structure Parameter where
  type : ConceptType
  label : String
  /-- The concept of the body that the label stands for; absent without a body. -/
  concept : Option ConceptId
  deriving DecidableEq, Repr

/-- The definition of a type without a label. -/
structure Definition where
  parameters : List Parameter
  body : Option GraphId
  deriving DecidableEq, Repr

/-- A node of a lattice.  Parents and children stand in the order in which they
were linked; a neighbour linked twice is listed twice. -/
structure TypeNode (kind : TypeKind) where
  label : Option String := none
  parents : List (TypeRef kind) := []
  children : List (TypeRef kind) := []
  /-- The number of arguments that a relation type asks for, when it asks. -/
  valence : Option Nat := none
  definition : Option Definition := none
  deriving DecidableEq, Repr, Inhabited

/-- Why a lattice refuses an edit or a label. -/
inductive HierarchyError where
  /-- The label already names a type. -/
  | duplicateLabel (label : String)
  /-- The label names no type, and types are not created on demand. -/
  | unknownLabel (label : String)
  /-- The link from `child` up to `parent` would close a cycle. -/
  | cycle (parent child : String)
  deriving DecidableEq, Repr

/-- The wording of a lattice error. -/
def HierarchyError.message : HierarchyError → String
  | .duplicateLabel label => "type '" ++ label ++ "' is already defined"
  | .unknownLabel label => "unknown type '" ++ label ++ "'"
  | .cycle parent child =>
      "making '" ++ child ++ "' a subtype of '" ++ parent ++ "' would create a cycle"

/-- A lattice of types of one kind: its nodes in the order of their creation. -/
structure Lattice (kind : TypeKind) where
  nodes : Array (TypeNode kind)
  deriving DecidableEq, Repr

namespace Lattice

variable {kind : TypeKind}

/-- The type above all others: the first node. -/
def top : TypeRef kind := ⟨0⟩

/-- The type below all others: the second node. -/
def bottom : TypeRef kind := ⟨1⟩

/-! ## Looking up -/

/-- The node of a type; outside the lattice, a node without label and links. -/
def node (lattice : Lattice kind) (type : TypeRef kind) : TypeNode kind :=
  lattice.nodes[type.index]?.getD {}

/-- The number of types. -/
def size (lattice : Lattice kind) : Nat := lattice.nodes.size

/-- All types of a lattice. -/
def types (lattice : Lattice kind) : List (TypeRef kind) :=
  (List.range lattice.size).map TypeRef.mk

/-- The label of a type, if it has one. -/
def label? (lattice : Lattice kind) (type : TypeRef kind) : Option String :=
  (lattice.node type).label

/-- The type that a label names: the last one that was made with it.  Only the
two extremes can have a label in common. -/
def find? (lattice : Lattice kind) (label : String) : Option (TypeRef kind) :=
  lattice.types.findRev? fun type => lattice.label? type == some label

/-- The number of arguments that a relation type asks for, when it asks. -/
def valence? (lattice : Lattice kind) (type : TypeRef kind) : Option Nat :=
  (lattice.node type).valence

/-- How a type is named in a message: by its label, else by its position. -/
def displayName (lattice : Lattice kind) (type : TypeRef kind) : String :=
  (lattice.label? type).getD type.anonymousName

/-! ## The subtype order

A type is below another when the other is itself or is reached through parent
links.  The search keeps the types not yet reached apart from the queue of
those reached but not yet expanded: a type leaves the first list when it enters
the queue, so no type is expanded twice and one more step than there are types
empties the queue. -/

/-- Whether a type of the queue has a proper ancestor `goal`. -/
def climbs (lattice : Lattice kind) (goal : TypeRef kind) :
    Nat → (unreached queue : List (TypeRef kind)) → Bool
  | 0, _, _ => false
  | _, _, [] => false
  | steps + 1, unreached, type :: queue =>
      let parents := (lattice.node type).parents
      if goal ∈ parents then true
      else
        lattice.climbs goal steps
          (unreached.filter (· ∉ parents))
          (queue ++ unreached.filter (· ∈ parents))

/-- Whether `sub` is `sup` or reaches it through parent links. -/
def isSubtype (lattice : Lattice kind) (sub sup : TypeRef kind) : Bool :=
  sub == sup || lattice.climbs sup (lattice.size + 1) lattice.types [sub]

/-! ## Edits -/

/-- Changes one node. -/
def modify (lattice : Lattice kind) (type : TypeRef kind)
    (change : TypeNode kind → TypeNode kind) : Lattice kind :=
  ⟨lattice.nodes.modify type.index change⟩

/-- Adds a node without links. -/
def push (lattice : Lattice kind) (label : Option String) :
    TypeRef kind × Lattice kind :=
  (⟨lattice.size⟩, ⟨lattice.nodes.push { label }⟩)

/-- Puts `child` directly under `parent`; both ends list the link. -/
def link (lattice : Lattice kind) (parent child : TypeRef kind) : Lattice kind :=
  (lattice.modify parent fun node => { node with children := node.children ++ [child] })
    |>.modify child fun node => { node with parents := node.parents ++ [parent] }

/-- A lattice of two types, the top one above the bottom one. -/
def withExtremes (topLabel bottomLabel : String) : Lattice kind :=
  link ⟨#[{ label := some topLabel }, { label := some bottomLabel }]⟩ top bottom

/-- A parent and a child between which a new type would close a cycle: the child
is already above the parent. -/
def obstruction? (lattice : Lattice kind) (parents children : List (TypeRef kind)) :
    Option (TypeRef kind × TypeRef kind) :=
  (parents.flatMap fun parent => children.map (parent, ·)).find? fun (parent, child) =>
    lattice.isSubtype parent child

/-- Adds a labelled type under `parents` and above `children`.  No parents means
the top type, no children the bottom type. -/
def create (lattice : Lattice kind) (label : String)
    (parents children : List (TypeRef kind)) :
    Except HierarchyError (TypeRef kind × Lattice kind) :=
  if (lattice.find? label).isSome then
    .error (.duplicateLabel label)
  else
    let parents := if parents.isEmpty then [top] else parents
    let children := if children.isEmpty then [bottom] else children
    match lattice.obstruction? parents children with
    | some (parent, child) =>
        .error (.cycle (lattice.displayName parent) (lattice.displayName child))
    | none =>
        let (type, lattice) := lattice.push (some label)
        let lattice := parents.foldl (fun lattice parent => lattice.link parent type) lattice
        .ok (type, children.foldl (fun lattice child => lattice.link type child) lattice)

/-- Adds a labelled type directly between top and bottom. -/
def createOnDemand (lattice : Lattice kind) (label : String) :
    Except HierarchyError (TypeRef kind × Lattice kind) :=
  lattice.create label [top] [bottom]

/-- Adds a type given by its definition, directly between top and bottom. -/
def createDefined (lattice : Lattice kind) (definition : Definition) :
    TypeRef kind × Lattice kind :=
  let (type, lattice) := lattice.push none
  let linked := (lattice.link top type).link type bottom
  (type, linked.modify type fun node => { node with definition := some definition })

/-- Puts `child` directly under `parent`, unless it stands there already. -/
def addSupertype (lattice : Lattice kind) (child parent : TypeRef kind) :
    Except HierarchyError (Lattice kind) :=
  if child == parent || lattice.isSubtype parent child then
    .error (.cycle (lattice.displayName parent) (lattice.displayName child))
  else if parent ∈ (lattice.node child).parents then
    .ok lattice
  else
    .ok (lattice.link parent child)

/-- Fixes the number of arguments that a type asks for. -/
def setValence (lattice : Lattice kind) (type : TypeRef kind) (valence : Nat) :
    Lattice kind :=
  lattice.modify type fun node => { node with valence := some valence }

end Lattice

end ConceptualGraph
