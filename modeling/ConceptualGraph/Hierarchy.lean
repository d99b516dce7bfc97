/-
Module: ConceptualGraph.Hierarchy
Purpose: The two lattices that one model uses.
Main exports: Hierarchy, Hierarchy.declareRelation
-/
import ConceptualGraph.Lattice

namespace ConceptualGraph

/-- The concept types and the relation types of a model. -/
structure Hierarchy where
  concepts : Lattice .concept := .withExtremes "Universal" "Absurd"
  relations : Lattice .relation := .withExtremes "Link" "AbsurdLink"
  deriving DecidableEq, Repr

namespace Hierarchy

instance : Inhabited Hierarchy := ⟨{}⟩

/-- Declares a relation type with a fixed number of arguments. -/
def declareRelation (hierarchy : Hierarchy) (label : String) (valence : Nat)
    (parents : List RelationType) : Except HierarchyError (RelationType × Hierarchy) := do
  let (type, relations) ← hierarchy.relations.create label parents []
  return (type, { hierarchy with relations := relations.setValence type valence })

end Hierarchy

end ConceptualGraph
