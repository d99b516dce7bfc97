/-
Module: ConceptualGraph.Handle
Purpose: Names for the nodes of a model and of its type lattices.  A handle is
  the position of its node in the arena that owns it, counted from zero.
Main exports: GraphId, ConceptId, RelationId, CorefSetId, MarkerId, TypeKind,
  TypeRef, ConceptType, RelationType
-/

namespace ConceptualGraph

/-- A graph of a model. -/
structure GraphId where
  index : Nat
  deriving DecidableEq, Repr, Inhabited

/-- A concept of a model. -/
structure ConceptId where
  index : Nat
  deriving DecidableEq, Repr, Inhabited

/-- A relation or actor of a model. -/
structure RelationId where
  index : Nat
  deriving DecidableEq, Repr, Inhabited

/-- A coreference set of a model. -/
structure CorefSetId where
  index : Nat
  deriving DecidableEq, Repr, Inhabited

/-- An individual marker of a model. -/
structure MarkerId where
  index : Nat
  deriving DecidableEq, Repr, Inhabited

/-- How a concept is named in a message. -/
def ConceptId.text (concept : ConceptId) : String :=
  "c" ++ concept.index.repr

/-- How a relation or actor is named in a message. -/
def RelationId.text (relation : RelationId) : String :=
  "r" ++ relation.index.repr

/-- How a coreference set is named in a message. -/
def CorefSetId.text (set : CorefSetId) : String :=
  "s" ++ set.index.repr

/-- The two lattices of types: one orders the types of concepts, the other the
types of relations and actors. -/
inductive TypeKind where
  | concept
  | relation
  deriving DecidableEq, Repr

/-- A type of one of the two lattices.  The kind is part of the reference, so a
concept type cannot be looked up among the relation types. -/
structure TypeRef (kind : TypeKind) where
  index : Nat
  deriving DecidableEq, Repr, Inhabited

/-- A type that classifies concepts. -/
abbrev ConceptType := TypeRef .concept

/-- A type that classifies relations and actors. -/
abbrev RelationType := TypeRef .relation

/-- How a type without a label is named in a message. -/
def TypeRef.anonymousName : {kind : TypeKind} → TypeRef kind → String
  | .concept, type => "TypeId(" ++ type.index.repr ++ ")"
  | .relation, type => "RelationTypeId(" ++ type.index.repr ++ ")"

end ConceptualGraph
