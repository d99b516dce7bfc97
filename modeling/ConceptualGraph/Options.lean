/-
Module: ConceptualGraph.Options
Purpose: What a session allows a source text to do.
Main exports: Options
-/

namespace ConceptualGraph

/-- The options of a session. -/
structure Options where
  /-- Whether an unknown type label makes a type directly below the top. -/
  createTypesOnDemand : Bool := true
  /-- How many brackets may be open at once. -/
  maxDepth : Nat := 256
  deriving DecidableEq, Repr, Inhabited

end ConceptualGraph
