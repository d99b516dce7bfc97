/-
Module: ConceptualGraph.Writing.Graph
Purpose: Whole graphs and single nodes as text, in either form.
Main exports: Write.graphItems, Write.graph, Write.concept, Write.relation
-/
import ConceptualGraph.Writing.Bracket
import ConceptualGraph.Writing.Chain

namespace ConceptualGraph.Write

open Phrase (join)

variable (model : Model) (form : Notation)

/-- The items of a graph, with the graphs nested in it down to a number of levels. -/
def graphItems : (levels : Nat) → Inner
  | 0, _ => return []
  | levels + 1, graph =>
      match form with
      | .cgif => bracketGraph model (graphItems levels) graph
      | .linear => linearGraph model (graphItems levels) graph

/-- A number of levels that no writing that ends goes beyond.  A graph may describe a
concept of its own, so it may come up again among the graphs nested in it.  But every
nested graph belongs to a concept or a negation not written before, until a definition
sets aside what has been written; and a definition inside itself goes round for ever
unless another label has been bound since. -/
def levelBound : Nat :=
  let types := model.hierarchy.concepts.size + model.hierarchy.relations.size
  let targets := model.concepts.size + model.corefSets.size
  let nodes := model.concepts.size + model.relations.size
  (types * (targets + 1) + 1) * (nodes + 1)

/-- The items of a graph. -/
def items : Inner :=
  graphItems model form (levelBound model)

/-- A graph, every item on a line of its own. -/
def graph (graph : GraphId) : Write Phrase := do
  return join "\n" (← items model form graph)

/-- A concept by itself. -/
def concept (concept : ConceptId) : Write Phrase :=
  firstEmission model (items model form) .detached concept

/-- A relation by itself, always in the interchange form. -/
def relation (relation : RelationId) : Write Phrase := do
  return join "\n"
    (← relationItems model (items model form) .detached (relationSteps model) none relation)

end ConceptualGraph.Write
