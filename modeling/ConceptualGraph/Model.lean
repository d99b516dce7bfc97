/-
Module: ConceptualGraph.Model
Purpose: The arena of a session: every graph, concept, relation, coreference set
  and marker made so far, with the hierarchy that classifies them.
Main exports: Graph, Concept, RelationRole, Relation, CorefSet, ModelError, Model
-/
import ConceptualGraph.Hierarchy
import ConceptualGraph.Referent

namespace ConceptualGraph

/-! ## Nodes -/

/-- A graph: the concepts and relations that stand directly in it. -/
structure Graph where
  concepts : List ConceptId := []
  relations : List RelationId := []
  /-- The comments of the graph, in source order. -/
  comments : List String := []
  /-- The concept that the graph describes. -/
  owner : Option ConceptId := none
  deriving DecidableEq, Repr, Inhabited

/-- A concept. -/
structure Concept where
  type : Option ConceptType := none
  referent : Option Referent := none
  comment : Option String := none
  /-- The context label that stands in place of a type; carried, not interpreted. -/
  special : Option String := none
  /-- Set for the concept inside a negation, which is reached only through the
  relation that negates it. -/
  hidden : Bool := false
  graph : Option GraphId := none
  corefSets : List CorefSetId := []
  deriving DecidableEq, Repr, Inhabited

/-- Whether a node relates its arguments or computes some of them. -/
inductive RelationRole where
  | relation
  /-- The arguments before `outputsFrom` are inputs, the others outputs. -/
  | actor (outputsFrom : Nat)
  deriving DecidableEq, Repr, Inhabited

/-- A relation or an actor. -/
structure Relation where
  type : Option RelationType := none
  args : List ConceptId := []
  comment : Option String := none
  role : RelationRole := .relation
  graph : Option GraphId := none
  deriving DecidableEq, Repr, Inhabited

/-- Whether a node is an actor. -/
def Relation.isActor (relation : Relation) : Bool :=
  match relation.role with
  | .relation => false
  | .actor _ => true

/-- The arguments that a relation or actor takes. -/
def Relation.inputs (relation : Relation) : List ConceptId :=
  match relation.role with
  | .relation => relation.args
  | .actor outputsFrom => relation.args.take outputsFrom

/-- The arguments that an actor computes. -/
def Relation.outputs (relation : Relation) : List ConceptId :=
  match relation.role with
  | .relation => []
  | .actor outputsFrom => relation.args.drop outputsFrom

/-- Concepts that denote one individual. -/
structure CorefSet where
  /-- The member whose scope is the scope of the set. -/
  defining : ConceptId
  members : List ConceptId
  /-- Off when the defining member stood outside any graph when the set began. -/
  scopeChecked : Bool
  deriving DecidableEq, Repr, Inhabited

/-- Why the model refuses an edit. -/
inductive ModelError where
  /-- A member must stand in the graph of the defining member or inside it. -/
  | coreferenceScope (set : CorefSetId) (defining member : ConceptId)
  deriving DecidableEq, Repr

/-- The wording of a model error. -/
def ModelError.message : ModelError → String
  | .coreferenceScope set defining member =>
      "concept " ++ member.text ++ " is outside the scope of coreference set " ++ set.text
        ++ " (defined by " ++ defining.text ++ ")"

/-- The arena.  Nodes are never removed. -/
structure Model where
  graphs : Array Graph := #[]
  concepts : Array Concept := #[]
  relations : Array Relation := #[]
  corefSets : Array CorefSet := #[]
  /-- The number of markers made so far. -/
  markers : Nat := 0
  hierarchy : Hierarchy := {}
  deriving DecidableEq, Repr, Inhabited

namespace Model

/-! ## Looking up -/

/-- A graph; outside the arena, an empty one. -/
def graph (model : Model) (id : GraphId) : Graph :=
  model.graphs[id.index]?.getD default

/-- A concept; outside the arena, one that says nothing. -/
def concept (model : Model) (id : ConceptId) : Concept :=
  model.concepts[id.index]?.getD default

/-- A relation or actor; outside the arena, a relation without arguments. -/
def relation (model : Model) (id : RelationId) : Relation :=
  model.relations[id.index]?.getD default

/-- A coreference set; outside the arena, one without members. -/
def corefSet (model : Model) (id : CorefSetId) : CorefSet :=
  model.corefSets[id.index]?.getD default

/-- The nested graph that describes a concept. -/
def descriptor? (model : Model) (concept : ConceptId) : Option GraphId :=
  (model.concept concept).referent.bind Referent.descriptor

/-! ## Graphs -/

/-- Makes an empty graph. -/
def newGraph (model : Model) (owner : Option ConceptId) : GraphId × Model :=
  (⟨model.graphs.size⟩, { model with graphs := model.graphs.push { owner } })

/-- Changes one graph. -/
def modifyGraph (model : Model) (id : GraphId) (change : Graph → Graph) : Model :=
  { model with graphs := model.graphs.modify id.index change }

/-- Adds a comment to a graph. -/
def addComment (model : Model) (graph : GraphId) (comment : String) : Model :=
  model.modifyGraph graph fun data => { data with comments := data.comments ++ [comment] }

/-- The graph in which the concept stands that a graph describes. -/
def parent? (model : Model) (graph : GraphId) : Option GraphId :=
  (model.graph graph).owner.bind fun owner => (model.concept owner).graph

/-- Whether at most `steps` steps outwards lead from one graph to another. -/
def climbsTo (model : Model) (ancestor : GraphId) : Nat → GraphId → Bool
  | 0, graph => graph == ancestor
  | steps + 1, graph =>
      graph == ancestor || (model.parent? graph).any (model.climbsTo ancestor steps)

/-- Whether a graph is another one or lies inside it at any depth.  Where no graph
lies inside itself, a chain of nested graphs visits every graph of the arena at most
once.  Edits may put a graph inside itself; then a search that does not come to the
ancestor goes round without end, and the answer here is that it does not lie there. -/
def isNestedIn (model : Model) (graph ancestor : GraphId) : Bool :=
  model.climbsTo ancestor model.graphs.size graph

/-! ## Concepts -/

/-- Makes a concept that stands in no graph. -/
def newConcept (model : Model) (type : Option ConceptType) : ConceptId × Model :=
  (⟨model.concepts.size⟩, { model with concepts := model.concepts.push { type } })

/-- Changes one concept. -/
def modifyConcept (model : Model) (id : ConceptId) (change : Concept → Concept) : Model :=
  { model with concepts := model.concepts.modify id.index change }

/-- A list with an element at its end, unless it contains the element. -/
def appendNew {α : Type} [DecidableEq α] (elements : List α) (element : α) : List α :=
  if element ∈ elements then elements else elements ++ [element]

/-- Puts a concept into a graph. -/
def addConcept (model : Model) (graph : GraphId) (concept : ConceptId) : Model :=
  (model.modifyConcept concept fun data => { data with graph := some graph })
    |>.modifyGraph graph fun data => { data with concepts := appendNew data.concepts concept }

/-- Whether a concept stands directly in a graph. -/
def encloses (model : Model) (graph : GraphId) (concept : ConceptId) : Bool :=
  (model.concept concept).graph == some graph

/-- Gives a concept a referent; the concept owns the descriptor. -/
def setReferent (model : Model) (concept : ConceptId) (referent : Referent) : Model :=
  let owned :=
    match referent.descriptor with
    | some graph => model.modifyGraph graph fun data => { data with owner := some concept }
    | none => model
  owned.modifyConcept concept fun data => { data with referent := some referent }

/-! ## Relations -/

/-- Makes a relation or actor that stands in no graph. -/
def newRelation (model : Model) (type : Option RelationType) (args : List ConceptId)
    (role : RelationRole) : RelationId × Model :=
  (⟨model.relations.size⟩,
    { model with relations := model.relations.push { type, args, role } })

/-- Changes one relation or actor. -/
def modifyRelation (model : Model) (id : RelationId) (change : Relation → Relation) : Model :=
  { model with relations := model.relations.modify id.index change }

/-- Puts a relation or actor into a graph. -/
def addRelation (model : Model) (graph : GraphId) (relation : RelationId) : Model :=
  (model.modifyRelation relation fun data => { data with graph := some graph })
    |>.modifyGraph graph fun data =>
      { data with relations := appendNew data.relations relation }

/-! ## Coreference -/

/-- Changes one coreference set. -/
def modifyCorefSet (model : Model) (id : CorefSetId) (change : CorefSet → CorefSet) : Model :=
  { model with corefSets := model.corefSets.modify id.index change }

/-- Lists a coreference set at one of its members. -/
def noteMembership (model : Model) (set : CorefSetId) (concept : ConceptId) : Model :=
  model.modifyConcept concept fun data => { data with corefSets := data.corefSets ++ [set] }

/-- Begins a coreference set with its defining member. -/
def newCorefSet (model : Model) (defining : ConceptId) : CorefSetId × Model :=
  let id : CorefSetId := ⟨model.corefSets.size⟩
  let set : CorefSet :=
    { defining, members := [defining]
      scopeChecked := (model.concept defining).graph.isSome }
  (id, { model with corefSets := model.corefSets.push set }.noteMembership id defining)

/-- Whether a concept stands where a coreference set may have a member. -/
def inScope (model : Model) (set : CorefSet) (concept : ConceptId) : Bool :=
  match (model.concept concept).graph, (model.concept set.defining).graph with
  | some graph, some scope => model.isNestedIn graph scope
  | _, _ => false

/-- Adds a member to a coreference set; a member stays as it is. -/
def addToCorefSet (model : Model) (id : CorefSetId) (concept : ConceptId) :
    Except ModelError Model :=
  let set := model.corefSet id
  if concept ∈ set.members then .ok model
  else if set.scopeChecked && !model.inScope set concept then
    .error (.coreferenceScope id set.defining concept)
  else
    .ok ((model.modifyCorefSet id fun set =>
      { set with members := set.members ++ [concept] }).noteMembership id concept)

/-- The first member of a coreference set that stands directly in a graph. -/
def corefMemberIn? (model : Model) (set : CorefSetId) (graph : GraphId) : Option ConceptId :=
  (model.corefSet set).members.find? (model.encloses graph)

/-! ## Markers -/

/-- Makes a marker. -/
def newMarker (model : Model) : MarkerId × Model :=
  (⟨model.markers⟩, { model with markers := model.markers + 1 })

end Model

end ConceptualGraph
