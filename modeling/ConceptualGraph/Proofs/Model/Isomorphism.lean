/-
Module: ConceptualGraph.Proofs.Model.Isomorphism
Purpose: What it means that two graphs are the same, with everything nested in them, but for
  the handles of their parts.
Main exports: Model.Within, Renaming, Model.Isomorphism
-/
import ConceptualGraph.Model
import Mathlib.Data.Set.Function

namespace ConceptualGraph

/-! ## What a graph holds -/

namespace Model

/-- Whether a graph is another one or describes a concept of a graph within it. -/
inductive Within (model : Model) (root : GraphId) : GraphId → Prop
  | root : Within model root root
  | described {graph inner : GraphId} {concept : ConceptId} (within : Within model root graph)
      (stands : (model.concept concept).graph = some graph)
      (describes : model.descriptor? concept = some inner) : Within model root inner

/-- Whether a concept stands in a graph or in one within it. -/
def HasConcept (model : Model) (root : GraphId) (concept : ConceptId) : Prop :=
  ∃ graph, model.Within root graph ∧ (model.concept concept).graph = some graph

/-- Whether a relation or actor stands in a graph or in one within it. -/
def HasRelation (model : Model) (root : GraphId) (relation : RelationId) : Prop :=
  ∃ graph, model.Within root graph ∧ (model.relation relation).graph = some graph

/-- Whether a concept of a graph, or of one within it, is designated by a marker. -/
def HasMarker (model : Model) (root : GraphId) (marker : MarkerId) : Prop :=
  ∃ concept referent, model.HasConcept root concept ∧
    (model.concept concept).referent = some referent ∧ referent.designator = some (.marker marker)

end Model

/-! ## Renaming -/

/-- New handles for the parts of a model. -/
structure Renaming where
  concept : ConceptId → ConceptId
  relation : RelationId → RelationId
  graph : GraphId → GraphId
  marker : MarkerId → MarkerId

namespace Renaming

variable (handles : Renaming)

/-- A designator under new handles. -/
def designator : Designator → Designator
  | .literal value => .literal value
  | .name name => .name name
  | .marker id => .marker (handles.marker id)
  | .defined concept => .defined (handles.concept concept)

/-- A referent under new handles. -/
def referent (referent : Referent) : Referent where
  quantifier := referent.quantifier
  designator := referent.designator.map handles.designator
  descriptor := referent.descriptor.map handles.graph

end Renaming

/-! ## Isomorphism -/

namespace Model

variable (model other : Model) (handles : Renaming)

/-- Whether a concept keeps its data under a new handle, apart from its coreference sets.  Of
its type that is the label. -/
structure KeepsConcept (concept copy : ConceptId) : Prop where
  type : (other.concept copy).type.map other.hierarchy.concepts.label? =
    (model.concept concept).type.map model.hierarchy.concepts.label?
  referent : (other.concept copy).referent =
    (model.concept concept).referent.map handles.referent
  comment : (other.concept copy).comment = (model.concept concept).comment
  special : (other.concept copy).special = (model.concept concept).special
  hidden : (other.concept copy).hidden = (model.concept concept).hidden
  graph : (other.concept copy).graph = (model.concept concept).graph.map handles.graph

/-- Whether a relation or actor keeps its data under a new handle: its arguments in their
order, and with its role the place where the outputs of an actor begin. -/
structure KeepsRelation (relation copy : RelationId) : Prop where
  type : (other.relation copy).type.map other.hierarchy.relations.label? =
    (model.relation relation).type.map model.hierarchy.relations.label?
  args : (other.relation copy).args = (model.relation relation).args.map handles.concept
  comment : (other.relation copy).comment = (model.relation relation).comment
  role : (other.relation copy).role = (model.relation relation).role
  graph : (other.relation copy).graph = (model.relation relation).graph.map handles.graph

/-- Whether new handles make one graph, with everything in it, into another one: what is in
the one corresponds one to one to what is in the other, and keeps its data.  Coreference sets
are left out. -/
structure Isomorphism (root image : GraphId) : Prop where
  outermost : handles.graph root = image
  graphs : Set.BijOn handles.graph {graph | model.Within root graph}
    {graph | other.Within image graph}
  concepts : Set.BijOn handles.concept {concept | model.HasConcept root concept}
    {concept | other.HasConcept image concept}
  relations : Set.BijOn handles.relation {relation | model.HasRelation root relation}
    {relation | other.HasRelation image relation}
  markers : Set.InjOn handles.marker {marker | model.HasMarker root marker}
  comments : ∀ graph, model.Within root graph →
    (other.graph (handles.graph graph)).comments = (model.graph graph).comments
  concept : ∀ concept, model.HasConcept root concept →
    model.KeepsConcept other handles concept (handles.concept concept)
  relation : ∀ relation, model.HasRelation root relation →
    model.KeepsRelation other handles relation (handles.relation relation)

/-- Whether two graphs are the same but for the handles of their parts. -/
def Isomorphic (root image : GraphId) : Prop :=
  ∃ handles, model.Isomorphism other handles root image

end Model

end ConceptualGraph
