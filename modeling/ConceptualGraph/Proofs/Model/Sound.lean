/-
Module: ConceptualGraph.Proofs.Model.Sound
Purpose: What holds of every model that is read from texts: nodes stand where their
  graph lists them, and each of them can be written again.
Main exports: Model.ConceptSound, Model.RelationSound, Model.Sound, Model.Frame,
  Model.ConceptSound.frame
-/
import ConceptualGraph.Proofs.Model.Edits
import ConceptualGraph.Proofs.Model.Types
import ConceptualGraph.Proofs.Token.Scanned
import ConceptualGraph.Reading.Graph

namespace ConceptualGraph

/-! ## Referents -/

/-- A quantifier that can be written in a notation. -/
def Quantifier.Sound (form : Notation) : Quantifier → Prop
  | .count number => number ≤ Text.largestSigned
  | .named word => Token.IsName form word ∧ Read.quantifierOfWord word = .named word
  | .every | .some => True

/-- A designator that can be written in a notation, where so many markers exist. -/
def Designator.Sound (form : Notation) (markers : Nat) : Designator → Prop
  | .literal (.number (.int value)) => value.natAbs ≤ Text.largestSigned
  | .literal (.encoded encoding _) => Token.IsName form encoding
  | .marker id => id.index < markers
  | _ => True

/-- A designator that can be read back stays so with more markers. -/
theorem Designator.Sound.mono {form : Notation} {markers more : Nat} {designator : Designator}
    (sound : designator.Sound form markers) (le : markers ≤ more) :
    designator.Sound form more := by
  cases designator with
  | marker id => exact Nat.lt_of_lt_of_le sound le
  | literal value =>
      cases value with
      | number value => cases value <;> exact sound
      | string text => trivial
      | encoded encoding payload => exact sound
  | name text => trivial
  | defined concept => trivial

/-- A referent that says something, and says it in parts that can be written. -/
structure Referent.Sound (form : Notation) (markers : Nat) (referent : Referent) : Prop where
  quantifier : ∀ quantifier, referent.quantifier = some quantifier → quantifier.Sound form
  designator : ∀ designator, referent.designator = some designator →
    designator.Sound form markers
  nonempty : referent.isEmpty = false

/-! ## Types -/

/-- Every type has a label that is a word of a notation, or else a definition. -/
structure Lattice.Named {kind : TypeKind} (form : Notation) (lattice : Lattice kind) :
    Prop where
  label : ∀ type label, lattice.label? type = some label → Token.IsName form label
  known : ∀ type : TypeRef kind, type.index < lattice.size →
    (lattice.label? type).isSome ∨ (lattice.node type).definition.isSome

/-- The data of a concept apart from its coreference sets, which later concepts add to. -/
def Concept.bare (concept : Concept) : Concept :=
  { concept with corefSets := [] }

/-- A concept to which labels may refer: it is neither hidden nor a context. -/
def Concept.IsPlain (concept : Concept) : Prop :=
  concept.hidden = false ∧ concept.special = none

namespace Model

/-! ## Nodes -/

/-- Whether a graph has a node or a comment. -/
def IsInhabited (model : Model) (graph : GraphId) : Prop :=
  (∃ concept, (model.concept concept).graph = some graph) ∨
    (∃ relation, (model.relation relation).graph = some graph) ∨
    (model.graph graph).comments ≠ []

/-- A graph describes a concept that was made before everything in it. -/
structure DescribedBy (model : Model) (concept : ConceptId) (graph : GraphId) : Prop where
  inside : graph.index < model.graphs.size
  owner : (model.graph graph).owner = some concept
  later : ∀ other, (model.concept other).graph = some graph → concept.index < other.index
  inhabited : (model.concept concept).hidden = false → model.IsInhabited graph

/-- A relation negates: it stands beside the hidden concept that is its one argument. -/
structure Negates (model : Model) (relation : RelationId) (concept : ConceptId) : Prop where
  inside : relation.index < model.relations.size
  args : (model.relation relation).args = [concept]
  role : (model.relation relation).role = .relation
  comment : (model.relation relation).comment = none
  graph : (model.relation relation).graph = (model.concept concept).graph
  type : ∃ type, (model.relation relation).type = some type ∧
    model.hierarchy.relations.label? type = some Read.negationLabel

/-- What a concept is that was read under a context label. -/
structure IsContext (model : Model) (concept : ConceptId) (label : ContextLabel) : Prop where
  allowed : label ≠ .elseLabel
  type : (model.concept concept).type = none
  comment : (model.concept concept).comment = none
  visible : (model.concept concept).hidden = false
  quantifier : ∀ referent, (model.concept concept).referent = some referent →
    referent.quantifier = none
  designator : ∀ referent, (model.concept concept).referent = some referent →
    referent.designator = none

/-- What a concept is that was read inside a negation. -/
structure IsWrapper (model : Model) (concept : ConceptId) : Prop where
  type : (model.concept concept).type = none
  comment : (model.concept concept).comment = none
  special : (model.concept concept).special = none
  referent : ∃ graph, (model.concept concept).referent = some { descriptor := some graph }
  negation : ∃ relation, model.Negates relation concept ∧
    ∀ other, concept ∈ (model.relation other).args → other = relation

/-- A concept that can be written in a notation. -/
structure ConceptSound (form : Notation) (model : Model) (concept : ConceptId) : Prop where
  type : ∀ type, (model.concept concept).type = some type →
    type.index < model.hierarchy.concepts.size
  referent : ∀ referent, (model.concept concept).referent = some referent →
    referent.Sound form model.markers
  descriptor : ∀ graph, model.descriptor? concept = some graph →
    model.DescribedBy concept graph
  comment : ∀ text, (model.concept concept).comment = some text → Token.IsNodeComment text
  special : ∀ special, (model.concept concept).special = some special →
    ∃ label, special = ContextLabel.spelling label ∧ model.IsContext concept label
  hidden : (model.concept concept).hidden = true → model.IsWrapper concept

/-- A relation or actor that can be written in a notation. -/
structure RelationSound (form : Notation) (model : Model) (relation : RelationId) : Prop where
  type : ∃ type, (model.relation relation).type = some type ∧
    type.index < model.hierarchy.relations.size
  inside : ∀ concept ∈ (model.relation relation).args, concept.index < model.concepts.size
  graph : ∀ concept ∈ (model.relation relation).args,
    ∀ graph, (model.relation relation).graph = some graph →
      (model.concept concept).graph = some graph
  role : ∀ outputsFrom, (model.relation relation).role = .actor outputsFrom →
    outputsFrom ≤ (model.relation relation).args.length
  comment : ∀ text, (model.relation relation).comment = some text → Token.IsNodeComment text
  visible : (∀ concept ∈ (model.relation relation).args,
      (model.concept concept).IsPlain) ∨
    ∃ concept, (model.concept concept).hidden = true ∧ model.Negates relation concept

/-! ## Whole models -/

/-- Nodes stand in the graphs that list them, each listed once. -/
structure Listed (model : Model) : Prop where
  concept_graph : ∀ concept graph, (model.concept concept).graph = some graph →
    graph.index < model.graphs.size
  relation_graph : ∀ relation graph, (model.relation relation).graph = some graph →
    graph.index < model.graphs.size
  mem_concepts : ∀ graph concept, concept ∈ (model.graph graph).concepts ↔
    (model.concept concept).graph = some graph
  nodup_concepts : ∀ graph, (model.graph graph).concepts.Nodup
  mem_relations : ∀ graph relation, relation ∈ (model.graph graph).relations ↔
    (model.relation relation).graph = some graph
  nodup_relations : ∀ graph, (model.graph graph).relations.Nodup

/-- Plain concepts are members of the coreference sets that they list. -/
structure Joined (model : Model) : Prop where
  defining : ∀ set : CorefSetId, set.index < model.corefSets.size →
    (model.corefSet set).defining ∈ (model.corefSet set).members
  members : ∀ set concept, concept ∈ (model.corefSet set).members ↔
    set ∈ (model.concept concept).corefSets
  shown : ∀ concept, (model.concept concept).corefSets ≠ [] →
    (model.concept concept).IsPlain

/-- A model read from texts in a notation.  The unfinished concepts are the hidden ones
that are still being read: no relation negates them yet. -/
structure Sound (form : Notation) (unfinished : List ConceptId) (model : Model) : Prop where
  listed : model.Listed
  comments : ∀ graph, ∀ text ∈ (model.graph graph).comments, Token.IsGraphComment text
  concepts : ∀ concept : ConceptId, concept.index < model.concepts.size →
    concept ∉ unfinished → model.ConceptSound form concept
  unfinished : ∀ concept ∈ unfinished, (model.concept concept).hidden = true ∧
    ∀ relation, concept ∉ (model.relation relation).args
  relations : ∀ relation : RelationId, relation.index < model.relations.size →
    model.RelationSound form relation
  conceptTypes : model.hierarchy.concepts.Named form
  relationTypes : model.hierarchy.relations.Named form
  joined : model.Joined

/-! ## Looking up outside the arena -/

section Outside

variable {model : Model}

theorem concept_of_le {concept : ConceptId} (outside : model.concepts.size ≤ concept.index) :
    model.concept concept = default := by
  simp [Model.concept, Array.getElem?_eq_none outside]

theorem relation_of_le {relation : RelationId}
    (outside : model.relations.size ≤ relation.index) : model.relation relation = default := by
  simp [Model.relation, Array.getElem?_eq_none outside]

theorem graph_of_le {graph : GraphId} (outside : model.graphs.size ≤ graph.index) :
    model.graph graph = default := by
  simp [Model.graph, Array.getElem?_eq_none outside]

theorem corefSet_of_le {set : CorefSetId} (outside : model.corefSets.size ≤ set.index) :
    model.corefSet set = default := by
  simp [Model.corefSet, Array.getElem?_eq_none outside]

/-- A concept that stands in a graph is one of the model. -/
theorem lt_of_graph {concept : ConceptId} {graph : GraphId}
    (stands : (model.concept concept).graph = some graph) :
    concept.index < model.concepts.size := by
  by_contra outside
  rw [concept_of_le (Nat.le_of_not_lt outside)] at stands
  cases stands

/-- A relation that stands in a graph is one of the model. -/
theorem lt_of_relation_graph {relation : RelationId} {graph : GraphId}
    (stands : (model.relation relation).graph = some graph) :
    relation.index < model.relations.size := by
  by_contra outside
  rw [relation_of_le (Nat.le_of_not_lt outside)] at stands
  cases stands

/-- A concept with a type is one of the model. -/
theorem lt_of_type {concept : ConceptId} {type : ConceptType}
    (typed : (model.concept concept).type = some type) : concept.index < model.concepts.size := by
  by_contra outside
  rw [concept_of_le (Nat.le_of_not_lt outside)] at typed
  cases typed

/-- A relation with a type is one of the model. -/
theorem lt_of_relation_type {relation : RelationId} {type : RelationType}
    (typed : (model.relation relation).type = some type) :
    relation.index < model.relations.size := by
  by_contra outside
  rw [relation_of_le (Nat.le_of_not_lt outside)] at typed
  cases typed

/-- A relation with arguments is one of the model. -/
theorem lt_of_mem_args {relation : RelationId} {concept : ConceptId}
    (argument : concept ∈ (model.relation relation).args) :
    relation.index < model.relations.size := by
  by_contra outside
  rw [relation_of_le (Nat.le_of_not_lt outside)] at argument
  cases argument

/-- A set with members is one of the model. -/
theorem lt_of_mem_members {set : CorefSetId} {concept : ConceptId}
    (member : concept ∈ (model.corefSet set).members) : set.index < model.corefSets.size := by
  by_contra outside
  rw [corefSet_of_le (Nat.le_of_not_lt outside)] at member
  cases member

/-- A concept that lists a set is one of the model. -/
theorem lt_of_mem_corefSets {set : CorefSetId} {concept : ConceptId}
    (member : set ∈ (model.concept concept).corefSets) :
    concept.index < model.concepts.size := by
  by_contra outside
  rw [concept_of_le (Nat.le_of_not_lt outside)] at member
  cases member

/-- A concept that is hidden is one of the model. -/
theorem lt_of_hidden {concept : ConceptId} (hidden : (model.concept concept).hidden = true) :
    concept.index < model.concepts.size := by
  by_contra outside
  rw [concept_of_le (Nat.le_of_not_lt outside)] at hidden
  cases hidden

end Outside

/-! ## What reading leaves alone -/

/-- What an edit leaves alone that touches no concept but the given ones, and of those
neither the graph nor whether they are hidden or contexts.  A relation that it makes has no hidden
argument but one of them. -/
structure Frame (touched : List ConceptId) (model later : Model) : Prop where
  concepts_le : model.concepts.size ≤ later.concepts.size
  relations_le : model.relations.size ≤ later.relations.size
  graphs_le : model.graphs.size ≤ later.graphs.size
  markers_le : model.markers ≤ later.markers
  concept : ∀ concept : ConceptId, concept.index < model.concepts.size → concept ∉ touched →
    (later.concept concept).bare = (model.concept concept).bare
  graph : ∀ concept : ConceptId, concept.index < model.concepts.size →
    (later.concept concept).graph = (model.concept concept).graph
  hidden : ∀ concept : ConceptId, concept.index < model.concepts.size →
    (later.concept concept).hidden = (model.concept concept).hidden
  special : ∀ concept : ConceptId, concept.index < model.concepts.size →
    (later.concept concept).special = (model.concept concept).special
  relation : ∀ relation : RelationId, relation.index < model.relations.size →
    later.relation relation = model.relation relation
  owner : ∀ graph : GraphId, graph.index < model.graphs.size →
    (later.graph graph).owner = (model.graph graph).owner
  comments : ∀ graph : GraphId, graph.index < model.graphs.size →
    (model.graph graph).comments <+: (later.graph graph).comments
  conceptTypes : model.hierarchy.concepts.Extends later.hierarchy.concepts
  relationTypes : model.hierarchy.relations.Extends later.hierarchy.relations
  visible : ∀ relation : RelationId, model.relations.size ≤ relation.index →
    ∀ concept ∈ (later.relation relation).args, concept.index < model.concepts.size →
      concept ∉ touched → (model.concept concept).hidden = false

namespace Frame

variable {touched : List ConceptId} {model later last : Model} {concept : ConceptId}

/-- An arena goes on from itself. -/
theorem refl (model : Model) : model.Frame touched model where
  concepts_le := Nat.le_refl _
  relations_le := Nat.le_refl _
  graphs_le := Nat.le_refl _
  markers_le := Nat.le_refl _
  concept _ _ _ := rfl
  graph _ _ := rfl
  hidden _ _ := rfl
  special _ _ := rfl
  relation _ _ := rfl
  owner _ _ := rfl
  comments _ _ := List.prefix_rfl
  conceptTypes := .refl _
  relationTypes := .refl _
  visible relation new concept argument := by
    rw [relation_of_le new] at argument
    cases argument

/-- What is left as it is twice is left as it is. -/
theorem trans (first : model.Frame touched later) (second : later.Frame touched last) :
    model.Frame touched last where
  concepts_le := Nat.le_trans first.concepts_le second.concepts_le
  relations_le := Nat.le_trans first.relations_le second.relations_le
  graphs_le := Nat.le_trans first.graphs_le second.graphs_le
  markers_le := Nat.le_trans first.markers_le second.markers_le
  concept id inside apart := by
    rw [second.concept id (Nat.lt_of_lt_of_le inside first.concepts_le) apart,
      first.concept id inside apart]
  graph id inside := by
    rw [second.graph id (Nat.lt_of_lt_of_le inside first.concepts_le), first.graph id inside]
  hidden id inside := by
    rw [second.hidden id (Nat.lt_of_lt_of_le inside first.concepts_le), first.hidden id inside]
  special id inside := by
    rw [second.special id (Nat.lt_of_lt_of_le inside first.concepts_le),
      first.special id inside]
  relation id inside := by
    rw [second.relation id (Nat.lt_of_lt_of_le inside first.relations_le),
      first.relation id inside]
  owner id inside := by
    rw [second.owner id (Nat.lt_of_lt_of_le inside first.graphs_le), first.owner id inside]
  comments id inside :=
    (first.comments id inside).trans
      (second.comments id (Nat.lt_of_lt_of_le inside first.graphs_le))
  conceptTypes := first.conceptTypes.trans second.conceptTypes
  relationTypes := first.relationTypes.trans second.relationTypes
  visible id new concept argument inside apart := by
    by_cases old : id.index < later.relations.size
    · rw [second.relation id old] at argument
      exact first.visible id new concept argument inside apart
    · rw [← first.hidden concept inside]
      exact second.visible id (Nat.le_of_not_lt old) concept argument
        (Nat.lt_of_lt_of_le inside first.concepts_le) apart

/-- Concepts that may be touched need not be. -/
theorem weaken (frame : model.Frame [] later) : model.Frame touched later where
  concepts_le := frame.concepts_le
  relations_le := frame.relations_le
  graphs_le := frame.graphs_le
  markers_le := frame.markers_le
  concept id inside _ := frame.concept id inside List.not_mem_nil
  graph := frame.graph
  hidden := frame.hidden
  special := frame.special
  relation := frame.relation
  owner := frame.owner
  comments := frame.comments
  conceptTypes := frame.conceptTypes
  relationTypes := frame.relationTypes
  visible id new concept argument inside _ :=
    frame.visible id new concept argument inside List.not_mem_nil

/-- Concepts that were made meanwhile do not count as touched. -/
theorem of_new (frame : model.Frame touched later)
    (new : ∀ concept ∈ touched, model.concepts.size ≤ concept.index) :
    model.Frame [] later where
  concepts_le := frame.concepts_le
  relations_le := frame.relations_le
  graphs_le := frame.graphs_le
  markers_le := frame.markers_le
  concept id inside _ := frame.concept id inside fun member =>
    absurd (new id member) (Nat.not_le_of_lt inside)
  graph := frame.graph
  hidden := frame.hidden
  special := frame.special
  relation := frame.relation
  owner := frame.owner
  comments := frame.comments
  conceptTypes := frame.conceptTypes
  relationTypes := frame.relationTypes
  visible id fresh concept argument inside _ :=
    frame.visible id fresh concept argument inside fun member =>
      absurd (new concept member) (Nat.not_le_of_lt inside)

section Bare

variable (frame : model.Frame touched later) (inside : concept.index < model.concepts.size)
  (apart : concept ∉ touched)

include frame inside apart

theorem type : (later.concept concept).type = (model.concept concept).type := by
  have same := congrArg Concept.type (frame.concept concept inside apart)
  exact same

theorem referent : (later.concept concept).referent = (model.concept concept).referent := by
  have same := congrArg Concept.referent (frame.concept concept inside apart)
  exact same

theorem comment : (later.concept concept).comment = (model.concept concept).comment := by
  have same := congrArg Concept.comment (frame.concept concept inside apart)
  exact same

theorem descriptor? : later.descriptor? concept = model.descriptor? concept := by
  simp only [Model.descriptor?, frame.referent inside apart]

end Bare

/-- A label that a relation type has, it keeps. -/
theorem label_relation (frame : model.Frame touched later) {type : RelationType} {label : String}
    (named : model.hierarchy.relations.label? type = some label) :
    later.hierarchy.relations.label? type = some label := by
  rw [frame.relationTypes.label type (Lattice.label?_of_lt named), named]

theorem isPlain (frame : model.Frame touched later) (inside : concept.index < model.concepts.size)
    (plain : (model.concept concept).IsPlain) : (later.concept concept).IsPlain :=
  ⟨by rw [frame.hidden concept inside, plain.1], by rw [frame.special concept inside, plain.2]⟩

/-- A graph that holds something goes on to hold something. -/
theorem isInhabited (frame : model.Frame touched later) {graph : GraphId}
    (inside : graph.index < model.graphs.size) (inhabited : model.IsInhabited graph) :
    later.IsInhabited graph := by
  rcases inhabited with ⟨concept, stands⟩ | ⟨relation, stands⟩ | commented
  · exact .inl ⟨concept, by rw [frame.graph concept (lt_of_graph stands), stands]⟩
  · exact .inr (.inl ⟨relation, by
      rw [frame.relation relation (lt_of_relation_graph stands), stands]⟩)
  · obtain ⟨others, same⟩ := frame.comments graph inside
    refine .inr (.inr ?_)
    rw [← same]
    simp [commented]

/-- A graph that a concept describes stays described by it. -/
theorem describedBy (frame : model.Frame touched later) {graph : GraphId}
    (inside : concept.index < model.concepts.size)
    (described : model.DescribedBy concept graph) : later.DescribedBy concept graph where
  inside := Nat.lt_of_lt_of_le described.inside frame.graphs_le
  owner := by rw [frame.owner graph described.inside, described.owner]
  later other stands := by
    by_cases old : other.index < model.concepts.size
    · exact described.later other (by rw [← frame.graph other old, stands])
    · exact Nat.lt_of_lt_of_le inside (Nat.le_of_not_lt old)
  inhabited visible := by
    rw [frame.hidden concept inside] at visible
    exact frame.isInhabited described.inside (described.inhabited visible)

/-- A negation stays one. -/
theorem negates (frame : model.Frame touched later) {relation : RelationId}
    (inside : concept.index < model.concepts.size) (negates : model.Negates relation concept) :
    later.Negates relation concept where
  inside := Nat.lt_of_lt_of_le negates.inside frame.relations_le
  args := by rw [frame.relation relation negates.inside, negates.args]
  role := by rw [frame.relation relation negates.inside, negates.role]
  comment := by rw [frame.relation relation negates.inside, negates.comment]
  graph := by
    rw [frame.relation relation negates.inside, negates.graph, frame.graph concept inside]
  type := by
    obtain ⟨type, typed, named⟩ := negates.type
    exact ⟨type, by rw [frame.relation relation negates.inside, typed],
      frame.label_relation named⟩

end Frame

/-! ## Soundness is kept -/

section Kept

variable {form : Notation} {touched : List ConceptId} {model later : Model}
  {concept : ConceptId} {relation : RelationId}

/-- A context stays one while its concept is not touched. -/
theorem IsContext.frame {label : ContextLabel} (context : model.IsContext concept label)
    (frame : model.Frame touched later) (inside : concept.index < model.concepts.size)
    (apart : concept ∉ touched) : later.IsContext concept label where
  allowed := context.allowed
  type := by rw [frame.type inside apart, context.type]
  comment := by rw [frame.comment inside apart, context.comment]
  visible := by rw [frame.hidden concept inside, context.visible]
  quantifier := by
    rw [frame.referent inside apart]
    exact context.quantifier
  designator := by
    rw [frame.referent inside apart]
    exact context.designator

/-- A hidden wrapper of a negation stays one while its concept is not touched. -/
theorem IsWrapper.frame (wrapper : model.IsWrapper concept)
    (hidden : (model.concept concept).hidden = true)
    (frame : model.Frame touched later) (inside : concept.index < model.concepts.size)
    (apart : concept ∉ touched) : later.IsWrapper concept where
  type := by rw [frame.type inside apart, wrapper.type]
  comment := by rw [frame.comment inside apart, wrapper.comment]
  special := by rw [frame.special concept inside, wrapper.special]
  referent := by
    rw [frame.referent inside apart]
    exact wrapper.referent
  negation := by
    obtain ⟨relation, negates, only⟩ := wrapper.negation
    refine ⟨relation, frame.negates inside negates, fun other argument => ?_⟩
    by_cases old : other.index < model.relations.size
    · rw [frame.relation other old] at argument
      exact only other argument
    · have visible := frame.visible other (Nat.le_of_not_lt old) concept argument inside apart
      rw [hidden] at visible
      cases visible

/-- What is sound of a concept stays so while the concept is not touched. -/
theorem ConceptSound.frame (sound : model.ConceptSound form concept)
    (frame : model.Frame touched later) (inside : concept.index < model.concepts.size)
    (apart : concept ∉ touched) : later.ConceptSound form concept where
  type type typed := by
    rw [frame.type inside apart] at typed
    exact frame.conceptTypes.lt_size (sound.type type typed)
  referent referent refers := by
    rw [frame.referent inside apart] at refers
    have former := sound.referent referent refers
    exact ⟨former.quantifier, fun designator designates =>
      (former.designator designator designates).mono frame.markers_le, former.nonempty⟩
  descriptor graph describes := by
    rw [frame.descriptor? inside apart] at describes
    exact frame.describedBy inside (sound.descriptor graph describes)
  comment := by
    rw [frame.comment inside apart]
    exact sound.comment
  special special labelled := by
    rw [frame.special concept inside] at labelled
    obtain ⟨label, spelled, context⟩ := sound.special special labelled
    exact ⟨label, spelled, context.frame frame inside apart⟩
  hidden hidden := by
    rw [frame.hidden concept inside] at hidden
    exact (sound.hidden hidden).frame hidden frame inside apart

/-- What is sound of a relation stays so, whatever concepts are touched. -/
theorem RelationSound.frame (sound : model.RelationSound form relation)
    (frame : model.Frame touched later) (inside : relation.index < model.relations.size) :
    later.RelationSound form relation where
  type := by
    obtain ⟨type, typed, known⟩ := sound.type
    exact ⟨type, by rw [frame.relation relation inside, typed],
      frame.relationTypes.lt_size known⟩
  inside := by
    rw [frame.relation relation inside]
    exact fun concept argument =>
      Nat.lt_of_lt_of_le (sound.inside concept argument) frame.concepts_le
  graph := by
    rw [frame.relation relation inside]
    intro concept argument graph stands
    rw [frame.graph concept (sound.inside concept argument)]
    exact sound.graph concept argument graph stands
  role := by
    rw [frame.relation relation inside]
    exact sound.role
  comment := by
    rw [frame.relation relation inside]
    exact sound.comment
  visible := by
    rw [frame.relation relation inside]
    rcases sound.visible with visible | ⟨concept, hidden, negates⟩
    · exact .inl fun concept argument =>
        frame.isPlain (sound.inside concept argument) (visible concept argument)
    · refine .inr ⟨concept, ?_, frame.negates (lt_of_hidden hidden) negates⟩
      rw [frame.hidden concept (lt_of_hidden hidden), hidden]

end Kept

end Model

end ConceptualGraph
