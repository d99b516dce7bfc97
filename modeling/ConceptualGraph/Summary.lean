/-
Module: ConceptualGraph.Summary
Purpose: Counts over a graph and every graph nested in it, by which two readings of
  a graph can be compared.
Main exports: Summary, Summary.ofGraph, Summary.value
-/
import ConceptualGraph.Model
import ConceptualGraph.Value

namespace ConceptualGraph

/-- What a graph holds, nested graphs included. -/
structure Summary where
  graphs : Nat
  concepts : Nat
  relations : Nat
  actors : Nat
  corefSets : Nat
  /-- The labels of the types of concepts, each once, in ascending order. -/
  conceptTypes : List String
  /-- The labels of the types of relations and actors. -/
  relationTypes : List String
  deriving DecidableEq, Repr

namespace Summary

/-- Adds a label to labels in ascending order, unless it is among them. -/
def insertLabel (label : String) : List String → List String
  | [] => [label]
  | first :: others =>
      if label < first then label :: first :: others
      else if label = first then first :: others
      else first :: insertLabel label others

/-- Labels in ascending order, each once. -/
def distinct (labels : List String) : List String :=
  labels.foldr insertLabel []

/-- How a type without a label counts. -/
def anonymousLabel : String := "(lambda)"

variable (model : Model)

/-- A graph and the graphs nested in it, down to a number of levels. -/
def nested : (levels : Nat) → GraphId → List GraphId
  | 0, _ => []
  | levels + 1, graph =>
      graph :: (model.graph graph).concepts.flatMap fun concept =>
        (model.descriptor? concept).elim [] (nested levels)

/-- The summary of a graph.  A chain of nested graphs visits every graph of the model
at most once. -/
def ofGraph (graph : GraphId) : Summary :=
  let graphs := nested model (model.graphs.size + 1) graph
  let concepts := (graphs.flatMap fun graph => (model.graph graph).concepts).map model.concept
  let relations :=
    (graphs.flatMap fun graph => (model.graph graph).relations).map model.relation
  let hierarchy := model.hierarchy
  { graphs := graphs.length
    concepts := concepts.length
    relations := relations.countP fun relation => !relation.isActor
    actors := relations.countP Relation.isActor
    corefSets := (concepts.flatMap Concept.corefSets).eraseDups.length
    conceptTypes := distinct ((concepts.filterMap Concept.type).map fun type =>
      (hierarchy.concepts.label? type).getD anonymousLabel)
    relationTypes := distinct ((relations.filterMap Relation.type).map fun type =>
      (hierarchy.relations.label? type).getD anonymousLabel) }

/-- The summary as data. -/
def value (summary : Summary) : Value :=
  .table
    [("graphs", .int summary.graphs), ("concepts", .int summary.concepts),
      ("relations", .int summary.relations), ("actors", .int summary.actors),
      ("coreference_sets", .int summary.corefSets),
      ("concept_types", .list (summary.conceptTypes.map .text)),
      ("relation_types", .list (summary.relationTypes.map .text))]

end Summary

end ConceptualGraph
