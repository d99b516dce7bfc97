/-
Module: ConceptualGraph.Writing.Plan
Purpose: The order in which the concepts of a graph are written, the relations that
  follow each of them, and the concepts that need a label because something written
  later refers back to them.
Main exports: Model.isNegation, Model.sharedSet?, Plan, Plan.ofGraph
-/
import ConceptualGraph.Model

namespace ConceptualGraph

namespace Model

variable (model : Model)

/-- Whether a relation negates: its one argument is a hidden concept. -/
def isNegation (relation : RelationId) : Bool :=
  match (model.relation relation).args with
  | [concept] => (model.concept concept).hidden
  | _ => false

/-- The first coreference set of a concept that has another member. -/
def sharedSet? (concept : ConceptId) : Option CorefSetId :=
  (model.concept concept).corefSets.find? fun set => 1 < (model.corefSet set).members.length

/-- Whether a concept is the defining member of a set that it shares. -/
def definesSharedSet (concept : ConceptId) : Bool :=
  (model.sharedSet? concept).any fun set => (model.corefSet set).defining == concept

/-- The concept whose individual the designator of a concept names. -/
def designates? (concept : ConceptId) : Option ConceptId :=
  (model.concept concept).referent.bind Referent.definedBy?

/-- The concepts that designators in a graph and in the graphs nested in it name,
down to a number of levels. -/
def designated : (levels : Nat) → GraphId → List ConceptId
  | 0, _ => []
  | levels + 1, graph =>
      (model.graph graph).concepts.flatMap fun concept =>
        (model.designates? concept).toList
          ++ (model.descriptor? concept).elim [] (designated levels)

end Model

/-- What a graph asks of its writing. -/
structure Plan where
  /-- The concepts that are not hidden, each once, in the order of writing. -/
  order : List ConceptId := []
  /-- The relations of which a concept is the first argument. -/
  primary : ConceptId → List RelationId := fun _ => []
  /-- Whether a concept is referred to after it is written. -/
  needsLabel : ConceptId → Bool := fun _ => false

namespace Plan

variable (model : Model)

/-- The plan for a node that is written by itself. -/
def detached : Plan := {}

/-- The relations and actors of a graph that do not negate. -/
def links (graph : GraphId) : List RelationId :=
  (model.graph graph).relations.filter fun relation => !model.isNegation relation

/-- How often a concept is an argument of the given relations and actors. -/
def references (links : List RelationId) (concept : ConceptId) : Nat :=
  (links.map fun relation => (model.relation relation).args.count concept).foldr (· + ·) 0

/-- Whether a concept is an argument of an actor, which can only refer to it. -/
def servesActor (links : List RelationId) (concept : ConceptId) : Bool :=
  links.any fun relation =>
    (model.relation relation).isActor && (model.relation relation).args.contains concept

/-- The relations among the given ones whose first argument is a concept. -/
def primaries (links : List RelationId) (concept : ConceptId) : List RelationId :=
  links.filter fun relation =>
    !(model.relation relation).isActor && (model.relation relation).args.head? == some concept

/-- The plan of a graph.  Concepts to which designators or coreferent concepts refer
come first, those that begin relations next, the others last. -/
def ofGraph (graph : GraphId) : Plan :=
  let links := links model graph
  let designated := model.designated (model.graphs.size + 1) graph
  let primary := primaries model links
  let visible := (model.graph graph).concepts.filter fun concept =>
    !(model.concept concept).hidden
  let leading := visible.filter fun concept =>
    designated.contains concept || model.definesSharedSet concept
  let starting := visible.filter fun concept => !(primary concept).isEmpty
  { order := (leading ++ starting ++ visible).eraseDups
    primary
    needsLabel := fun concept =>
      2 ≤ references model links concept || servesActor model links concept
        || designated.contains concept }

end Plan

end ConceptualGraph
