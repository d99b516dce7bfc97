/-
Module: ConceptualGraph.Referent
Purpose: What a concept refers to: how many individuals, which one, and the graph
  that describes it.
Main exports: Number, Literal, Designator, Quantifier, Referent
-/
import ConceptualGraph.Binary64
import ConceptualGraph.Handle

namespace ConceptualGraph

/-- A number, whole when it was written without fraction and exponent. -/
inductive Number where
  | int (value : Int)
  | float (value : Binary64)
  deriving DecidableEq, Repr

/-- A literal. -/
inductive Literal where
  | number (value : Number)
  | string (value : String)
  /-- A payload in an encoding that the model does not interpret. -/
  | encoded (encoding payload : String)
  deriving DecidableEq, Repr

/-- Names the individual that a concept refers to. -/
inductive Designator where
  | literal (literal : Literal)
  | marker (marker : MarkerId)
  | name (name : String)
  /-- The individual that another concept denotes. -/
  | defined (concept : ConceptId)
  deriving DecidableEq, Repr

/-- Says how many individuals a concept refers to. -/
inductive Quantifier where
  | every
  | some
  | count (number : Nat)
  | named (word : String)
  deriving DecidableEq, Repr

/-- The referent of a concept. -/
structure Referent where
  quantifier : Option Quantifier := none
  designator : Option Designator := none
  /-- The nested graph that describes the individual. -/
  descriptor : Option GraphId := none
  deriving DecidableEq, Repr, Inhabited

/-- Whether a referent says nothing. -/
def Referent.isEmpty (referent : Referent) : Bool :=
  referent.quantifier.isNone && referent.designator.isNone && referent.descriptor.isNone

/-- The concept whose individual a referent designates, if it does so. -/
def Referent.definedBy? (referent : Referent) : Option ConceptId :=
  match referent.designator with
  | some (.defined concept) => some concept
  | _ => none

end ConceptualGraph
