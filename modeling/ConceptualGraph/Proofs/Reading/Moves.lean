/-
Module: ConceptualGraph.Proofs.Reading.Moves
Purpose: The moves of which every reading consists, as a relation between the states before and
  after one, and what no move undoes.
Main exports: Hierarchy.Named, Hierarchy.Defined, Model.Edited, Juncture, Juncture.Moves,
  Juncture.Leads, Juncture.Refused, Juncture.Leads.endures
-/
import ConceptualGraph.Proofs.Reading.WellFormed

section

open Relation (ReflTransGen)

namespace ConceptualGraph

/-! ## Edits

What reading does to an arena, edit by edit.  An edit is described by what is known where
reading makes it. -/

/-- A hierarchy becomes another by one type that a text names. -/
inductive Hierarchy.Named (setting : Setting) (hierarchy : Hierarchy) : Hierarchy → Prop
  | conceptType {label : String} {type : ConceptType} {concepts : Lattice .concept}
      (allowed : setting.options.createTypesOnDemand = true)
      (created : hierarchy.concepts.createOnDemand label = .ok (type, concepts)) :
      Named setting hierarchy { hierarchy with concepts }
  | relationType {label : String} {type : RelationType} {relations : Lattice .relation}
      (allowed : setting.options.createTypesOnDemand = true)
      (created : hierarchy.relations.createOnDemand label = .ok (type, relations)) :
      Named setting hierarchy { hierarchy with relations }
  | negationType {type : RelationType} {relations : Lattice .relation}
      (created : hierarchy.relations.createOnDemand Read.negationLabel = .ok (type, relations)) :
      Named setting hierarchy { hierarchy with relations := relations.setValence type 1 }

/-- A hierarchy becomes another by one type that has a definition.  A concept type has one
parameter; a relation type asks for as many arguments as it has parameters. -/
inductive Hierarchy.Defined (hierarchy : Hierarchy) (definition : Definition) : Hierarchy → Prop
  | concept (one : definition.parameters.length = 1) :
      Defined hierarchy definition
        { hierarchy with concepts := (hierarchy.concepts.createDefined definition).2 }
  | relation :
      Defined hierarchy definition { hierarchy with
        relations := (hierarchy.relations.createDefined definition).2.setValence
          (hierarchy.relations.createDefined definition).1 definition.parameters.length }

/-- A hierarchy becomes another by one type that a text names or defines. -/
inductive Hierarchy.Extended (setting : Setting) (hierarchy : Hierarchy) : Hierarchy → Prop
  | named {later : Hierarchy} (named : hierarchy.Named setting later) :
      Extended setting hierarchy later
  | defined {definition : Definition} {later : Hierarchy}
      (defined : hierarchy.Defined definition later) : Extended setting hierarchy later

/-- An arena becomes another by one edit, while a graph is read.  A concept that is put there
stood nowhere; a relation has as many arguments as its type asks for, unless it is the relation
of a negation, which has the negated concept. -/
inductive Model.Edited (setting : Setting) (home : Option GraphId) (model : Model) : Model → Prop
  | graph (owner : Option ConceptId) : Edited setting home model (model.newGraph owner).2
  | concept (type : Option ConceptType) : Edited setting home model (model.newConcept type).2
  | place {graph : GraphId} {concept : ConceptId} (here : home = some graph)
      (adrift : (model.concept concept).graph = none) :
      Edited setting home model (model.addConcept graph concept)
  | annotate {concept : ConceptId} {change : Concept → Concept}
      (graph : ∀ data, (change data).graph = data.graph)
      (hidden : ∀ data, (change data).hidden = data.hidden)
      (type : ∀ data, (change data).type = data.type)
      (referent : ∀ data, (change data).referent = data.referent) :
      Edited setting home model (model.modifyConcept concept change)
  | hide {concept : ConceptId} (adrift : (model.concept concept).graph = none) :
      Edited setting home model
        (model.modifyConcept concept fun data => { data with hidden := true })
  | comment (graph : GraphId) (text : String) :
      Edited setting home model (model.addComment graph text)
  | marker : Edited setting home model model.newMarker.2
  | relation {type : RelationType} {args : List ConceptId} {role : RelationRole}
      (known : type.index < model.hierarchy.relations.size)
      (fits : ∀ valence, model.hierarchy.relations.valence? type = some valence →
        args.length = valence) :
      Edited setting home model (model.newRelation (some type) args role).2
  | negation {type : RelationType} {concept : ConceptId}
      (named : model.hierarchy.relations.find? Read.negationLabel = some type)
      (hidden : (model.concept concept).hidden = true) :
      Edited setting home model (model.newRelation (some type) [concept] .relation).2
  | note (relation : RelationId) (comment : Option String) :
      Edited setting home model (model.modifyRelation relation fun data => { data with comment })
  | insert (graph : GraphId) (relation : RelationId) :
      Edited setting home model (model.addRelation graph relation)
  | retype {hierarchy : Hierarchy} (named : model.hierarchy.Named setting hierarchy) :
      Edited setting home model { model with hierarchy }

/-- An arena with one more concept, which is put into a graph if there is one. -/
def Model.conceive (model : Model) (home : Option GraphId) (type : Option ConceptType) : Model :=
  match home with
  | none => (model.newConcept type).2
  | some graph => (model.newConcept type).2.addConcept graph (model.newConcept type).1

/-- Whether a concept that shows itself stands in a graph or in one around it.  The search takes no
more steps than there are graphs made before, which is what the search for the members of a set
allows itself. -/
def Model.Anchors (model : Model) (home : GraphId) (concept : ConceptId) : Prop :=
  ∃ outer, (model.concept concept).graph = some outer ∧ (model.concept concept).hidden = false ∧
    model.climbsTo outer home.index home = true

/-! ## Junctures -/

/-- The state of reading with other markers. -/
def Reader.withMarkers (reader : Reader) (markers : MarkerTable) : Reader := { reader with markers }

/-- A state of reading with the graphs that are being read, the innermost first.  For each
context of labels there is the graph in which these are bound; there is none while the
parameters of a definition are read, and where a node is read that goes into no graph. -/
structure Juncture where
  homes : List (Option GraphId)
  reader : Reader

namespace Juncture

/-- A juncture becomes another by one move.  Definitions are entered only where `defines` holds. -/
inductive Moves (setting : Setting) (defines : Prop) : Juncture → Juncture → Prop
  | past {homes : List (Option GraphId)} {reader : Reader} {rest : List Located}
      (further : rest <:+ reader.rest) :
      Moves setting defines ⟨homes, reader⟩ ⟨homes, reader.withRest rest⟩
  | edit {home : Option GraphId} {homes : List (Option GraphId)} {reader : Reader} {model : Model}
      (edited : reader.model.Edited setting home model) :
      Moves setting defines ⟨home :: homes, reader⟩ ⟨home :: homes, reader.withModel model⟩
  /-- The digits of a marker are read. -/
  | mark {homes : List (Option GraphId)} {reader : Reader} (foreign : String) :
      Moves setting defines ⟨homes, reader⟩
        ⟨homes, (reader.withModel (reader.markers.markerFor foreign reader.model).2.2).withMarkers
          (reader.markers.markerFor foreign reader.model).2.1⟩
  /-- A concept is made for the graph that is being read, and a label is bound to it. -/
  | define {home : Option GraphId} {homes : List (Option GraphId)} {reader : Reader}
      {label : String} {type : Option ConceptType} (unbound : reader.labels.isBound label = false) :
      Moves setting defines ⟨home :: homes, reader⟩
        ⟨home :: homes, (reader.withModel (reader.model.conceive home type)).withLabels
          (reader.labels.bind label (.concept (reader.model.newConcept type).1))⟩
  /-- A coreference set begins with the concept that a label denotes. -/
  | promote {homes : List (Option GraphId)} {reader : Reader} {label : String}
      {concept : ConceptId} (denotes : reader.labels.target? label = some (.concept concept)) :
      Moves setting defines ⟨homes, reader⟩
        ⟨homes, (reader.withModel (reader.model.newCorefSet concept).2).withLabels
          (reader.labels.bind label (.set (reader.model.newCorefSet concept).1))⟩
  /-- A concept of the graph that is being read joins the coreference set of a label. -/
  | join {home : Option GraphId} {homes : List (Option GraphId)} {reader : Reader}
      {label : String} {set : CorefSetId} {concept : ConceptId} {model : Model}
      (denotes : reader.labels.target? label = some (.set set))
      (seated : reader.model.Seats home concept)
      (added : reader.model.addToCorefSet set concept = .ok model) :
      Moves setting defines ⟨home :: homes, reader⟩ ⟨home :: homes, reader.withModel model⟩
  /-- A concept of the graph that is being read gets its referent.  Where no definition is entered,
  a concept that is named there is anchored in that graph. -/
  | refer {home : Option GraphId} {homes : List (Option GraphId)} {reader : Reader}
      {concept : ConceptId} {referent : Referent} (seated : reader.model.Seats home concept)
      (owned : ∀ graph, referent.descriptor = some graph →
        (reader.model.graph graph).owner = some concept)
      (anchored : ¬defines → ∀ target, referent.definedBy? = some target → ∀ graph,
        home = some graph → reader.model.Anchors graph target) :
      Moves setting defines ⟨home :: homes, reader⟩
        ⟨home :: homes, reader.withModel (reader.model.setReferent concept referent)⟩
  /-- The graph that describes a concept begins, in a context of its own. -/
  | enter {home : Option GraphId} {homes : List (Option GraphId)} {reader : Reader}
      {owner : ConceptId} (seated : reader.model.Seats home owner) :
      Moves setting defines ⟨home :: homes, reader⟩
        ⟨some (reader.model.newGraph (some owner)).1 :: home :: homes,
          (reader.withModel (reader.model.newGraph (some owner)).2).withLabels reader.labels.push⟩
  /-- The innermost context is closed. -/
  | leave {home : Option GraphId} {homes : List (Option GraphId)} {reader : Reader} :
      Moves setting defines ⟨home :: homes, reader⟩
        ⟨homes, reader.withLabels reader.labels.pop⟩
  /-- A definition begins, in a context of its own. -/
  | beginDefinition {homes : List (Option GraphId)} {reader : Reader} (allowed : defines) :
      Moves setting defines ⟨homes, reader⟩
        ⟨none :: homes, reader.withLabels reader.labels.push⟩
  | beginBody {homes : List (Option GraphId)} {reader : Reader} (allowed : defines) :
      Moves setting defines ⟨homes, reader⟩
        ⟨some (reader.model.newGraph none).1 :: homes,
          reader.withModel (reader.model.newGraph none).2⟩
  | endBody {home : Option GraphId} {homes : List (Option GraphId)} {reader : Reader}
      (allowed : defines) : Moves setting defines ⟨home :: homes, reader⟩ ⟨homes, reader⟩
  /-- A definition that has been read, with its body if it has one, becomes a type.  Its parameters
  are linked as the labels stand before its context is closed. -/
  | conclude {homes : List (Option GraphId)} {reader : Reader} {declared : List Read.Declared}
      {definition : Definition} {hierarchy : Hierarchy} (allowed : defines)
      (linked : declared.mapM (Read.linkParameter definition.body) reader =
        .ok definition.parameters reader)
      (defined : reader.model.hierarchy.Defined definition hierarchy) :
      Moves setting defines ⟨none :: homes, reader⟩
        ⟨homes, (reader.withModel { reader.model with hierarchy }).withLabels reader.labels.pop⟩

/-- Any number of moves. -/
abbrev Leads (setting : Setting) (defines : Prop) : Juncture → Juncture → Prop :=
  ReflTransGen (Moves setting defines)

/-- Why reading cannot go on from a juncture. -/
inductive Refused (setting : Setting) : Juncture → Error → Prop
  | fault {juncture : Juncture} {fault : ParseFault} {found : Located}
      (otherwise : fault.kind ≠ .coreference) : Refused setting juncture (.parse ⟨fault, found⟩)
  /-- A concept of the graph that is being read may not join the set of a label. -/
  | coreference {home : Option GraphId} {homes : List (Option GraphId)} {reader : Reader}
      {label : String} {set : CorefSetId} {concept : ConceptId} {cause : ModelError}
      {found : Located} (denotes : reader.labels.target? label = some (.set set))
      (seated : reader.model.Seats home concept)
      (refused : reader.model.addToCorefSet set concept = .error cause) :
      Refused setting ⟨home :: homes, reader⟩ (.parse ⟨.outsideCoreference label cause, found⟩)
  | conceptType {juncture : Juncture} {label : String} {error : HierarchyError}
      (missing : juncture.reader.model.hierarchy.concepts.find? label = none)
      (refused : juncture.reader.model.hierarchy.concepts.createOnDemand label = .error error) :
      Refused setting juncture (.hierarchy error)
  | relationType {juncture : Juncture} {label : String} {error : HierarchyError}
      (missing : juncture.reader.model.hierarchy.relations.find? label = none)
      (refused : juncture.reader.model.hierarchy.relations.createOnDemand label = .error error) :
      Refused setting juncture (.hierarchy error)

end Juncture

/-! ## What stays -/

/-- Types of relations keep their labels and their definitions, and new ones come after them. -/
theorem Hierarchy.Extended.extends_ {setting : Setting} {hierarchy later : Hierarchy}
    (extended : hierarchy.Extended setting later) :
    hierarchy.relations.Extends later.relations := by
  cases extended with
  | named named =>
      cases named with
      | conceptType allowed created => exact .refl _
      | relationType allowed created =>
          obtain ⟨-, rfl, -⟩ := Lattice.eq_of_createOnDemand created
          exact .withType
      | negationType created =>
          obtain ⟨-, rfl, -⟩ := Lattice.eq_of_createOnDemand created
          exact Lattice.Extends.withType.trans (.setValence 1)
  | defined defined =>
      cases defined with
      | concept one => exact .refl _
      | relation => exact (Lattice.Extends.createDefined _).trans (.setValence _)

/-- What is not undone while a text is read: nodes stay where they stand, graphs with their
owners, types in the hierarchy, concepts of their types.  What is hidden stays so, and so does what
shows itself in a graph. -/
structure Model.Endures (model later : Model) : Prop extends model.Persists later where
  types : model.hierarchy.relations.size ≤ later.hierarchy.relations.size
  hidden : ∀ concept, (model.concept concept).hidden = true →
    (later.concept concept).hidden = true
  visible : ∀ concept, (model.concept concept).graph ≠ none →
    (model.concept concept).hidden = false → (later.concept concept).hidden = false
  typed : ∀ concept type, (model.concept concept).type = some type →
    (later.concept concept).type = some type

namespace Model

variable {model later last : Model} {setting : Setting} {home : Option GraphId}
  {graph : GraphId} {concept : ConceptId}

/-- A change that keeps a field keeps it everywhere. -/
theorem field_modifyGraph {α : Type} (model : Model) (id : GraphId) {change : Graph → Graph}
    (field : Graph → α) (keeps : ∀ data, field (change data) = field data) (graph : GraphId) :
    field ((model.modifyGraph id change).graph graph) = field (model.graph graph) := by
  by_cases here : graph = id
  · subst here
    by_cases inside : graph.index < model.graphs.size
    · rw [graph_modifyGraph inside, keeps]
    · rw [graph_of_le (by simpa using Nat.le_of_not_lt inside),
        graph_of_le (Nat.le_of_not_lt inside)]
  · rw [graph_modifyGraph_of_ne here]

/-- A referent changes no hierarchy. -/
theorem hierarchy_setReferent (referent : Referent) :
    (model.setReferent concept referent).hierarchy = model.hierarchy := by
  unfold setReferent
  dsimp only
  split <;> rfl

/-- A referent changes no relation. -/
theorem relations_setReferent (referent : Referent) :
    (model.setReferent concept referent).relations = model.relations := by
  unfold setReferent
  dsimp only
  split <;> rfl

/-- A concept that stood nowhere is put into a graph. -/
theorem Persists.addConcept (adrift : (model.concept concept).graph = none) :
    model.Persists (model.addConcept graph concept) where
  concepts := by simp [Model.addConcept]
  graphs := by simp [Model.addConcept]
  stands other home stands := by
    have apart : other ≠ concept := fun same => by simp [same, adrift] at stands
    rw [Model.addConcept, concept_modifyGraph, concept_modifyConcept_of_ne apart, stands]
  owner other owner owned := by
    refine (field_modifyGraph _ graph Graph.owner ?_ other).trans owned
    exact fun _ => rfl

theorem Persists.graph_ne_none (persists : model.Persists later)
    (stands : (model.concept concept).graph ≠ none) : (later.concept concept).graph ≠ none := by
  obtain ⟨graph, here⟩ := Option.ne_none_iff_exists'.mp stands
  simp [persists.stands concept graph here]

theorem graph_addConcept (inside : concept.index < model.concepts.size) :
    ((model.addConcept graph concept).concept concept).graph = some graph := by
  rw [addConcept, concept_modifyGraph, concept_modifyConcept inside]

/-- A concept that has been made for a graph stands there. -/
theorem seats_conceive (model : Model) (home : Option GraphId) (type : Option ConceptType) :
    (model.conceive home type).Seats home (model.newConcept type).1 := by
  rintro graph rfl
  exact graph_addConcept (by simp)

/-- A concept that has just been made is not hidden. -/
theorem hidden_conceive (model : Model) (home : Option GraphId) (type : Option ConceptType) :
    ((model.conceive home type).concept (model.newConcept type).1).hidden = false := by
  cases home with
  | none => simp [conceive, concept_newConcept]
  | some graph =>
      refine (field_modifyConcept _ _ Concept.hidden ?_ _).trans (by simp [concept_newConcept])
      exact fun _ => rfl

namespace Endures

theorem refl (model : Model) : model.Endures model :=
  ⟨.refl model, Nat.le_refl _, fun _ hidden => hidden, fun _ _ visible => visible,
    fun _ _ typed => typed⟩

theorem trans (first : model.Endures later) (second : later.Endures last) : model.Endures last where
  toPersists := first.toPersists.trans second.toPersists
  types := Nat.le_trans first.types second.types
  hidden concept hidden := second.hidden concept (first.hidden concept hidden)
  visible concept stands visible :=
    second.visible concept (first.graph_ne_none stands) (first.visible concept stands visible)
  typed concept type typed := second.typed concept type (first.typed concept type typed)

/-- An edit that leaves alone which concepts are hidden, and all types. -/
theorem of_persists (persists : model.Persists later) (types : later.hierarchy = model.hierarchy)
    (hidden : ∀ concept, (later.concept concept).hidden = (model.concept concept).hidden)
    (typed : ∀ concept, (later.concept concept).type = (model.concept concept).type) :
    model.Endures later :=
  ⟨persists, by rw [types], fun concept => by rw [hidden]; exact id,
    fun concept _ => by rw [hidden]; exact id, fun concept type => by rw [typed]; exact id⟩

/-- A concept that is made hides and shows nothing. -/
theorem newConcept (type : Option ConceptType) : model.Endures (model.newConcept type).2 where
  toPersists := .newConcept
  types := Nat.le_refl _
  hidden concept hidden := by
    rw [concept_newConcept_eq]
    split
    · next new =>
      rw [concept_of_le (Nat.le_of_eq new.symm)] at hidden
      cases hidden
    · exact hidden
  visible concept stands visible := by
    rw [concept_newConcept_eq]
    split
    · rfl
    · exact visible
  typed concept known typed := by
    rw [concept_newConcept_eq]
    split
    · next new =>
      rw [concept_of_le (Nat.le_of_eq new.symm)] at typed
      cases typed
    · exact typed

/-- A concept that is put into its first graph endures. -/
theorem addConcept (adrift : (model.concept concept).graph = none) :
    model.Endures (model.addConcept graph concept) := by
  apply of_persists (.addConcept adrift) rfl
  · refine field_modifyConcept model concept Concept.hidden ?_
    exact fun _ => rfl
  · refine field_modifyConcept model concept Concept.type ?_
    exact fun _ => rfl

/-- All that was there endures the making of a concept. -/
theorem conceive (home : Option GraphId) (type : Option ConceptType) :
    model.Endures (model.conceive home type) := by
  cases home with
  | none => exact .newConcept type
  | some graph => exact (newConcept type).trans (.addConcept (by simp [concept_newConcept]))

/-- A concept that is changed in place endures. -/
theorem modifyConcept {change : Concept → Concept}
    (graph : ∀ data, (change data).graph = data.graph)
    (hidden : ∀ data, (change data).hidden = data.hidden)
    (type : ∀ data, (change data).type = data.type) :
    model.Endures (model.modifyConcept concept change) :=
  .of_persists ⟨by simp, Nat.le_refl _, fun other home stands => by
      rw [field_modifyConcept model concept Concept.graph graph, stands],
    fun _ _ owned => owned⟩ rfl (field_modifyConcept model concept Concept.hidden hidden)
      (field_modifyConcept model concept Concept.type type)

/-- A concept is hidden that stands nowhere. -/
theorem hide (adrift : (model.concept concept).graph = none) :
    model.Endures (model.modifyConcept concept fun data => { data with hidden := true }) where
  concepts := by simp
  graphs := Nat.le_refl _
  stands other home stands := by
    refine (field_modifyConcept model concept Concept.graph ?_ other).trans stands
    exact fun _ => rfl
  owner _ _ owned := owned
  types := Nat.le_refl _
  hidden other before := by
    by_cases same : other = concept
    · subst same
      by_cases inside : other.index < model.concepts.size
      · rw [concept_modifyConcept inside]
      · rw [concept_of_le (Nat.le_of_not_lt inside)] at before
        cases before
    · rwa [concept_modifyConcept_of_ne same]
  visible other stands visible := by
    have apart : other ≠ concept := fun same => stands (same ▸ adrift)
    rwa [concept_modifyConcept_of_ne apart]
  typed other known before := by
    refine (field_modifyConcept model concept Concept.type ?_ other).trans before
    exact fun _ => rfl

/-- A referent endures if the graph that it describes is owned by the concept. -/
theorem setReferent {referent : Referent}
    (owned : ∀ graph, referent.descriptor = some graph → (model.graph graph).owner = some concept) :
    model.Endures (model.setReferent concept referent) := by
  rw [setReferent_eq fun graph describes =>
    ⟨lt_of_owner (owned graph describes), owned graph describes⟩]
  exact .modifyConcept (fun _ => rfl) (fun _ => rfl) fun _ => rfl

theorem modifyGraph {change : Graph → Graph} (owner : ∀ data, (change data).owner = data.owner) :
    model.Endures (model.modifyGraph graph change) :=
  .of_persists ⟨Nat.le_refl _, by simp, fun _ _ stands => stands, fun other _ owned => by
    rw [field_modifyGraph _ _ Graph.owner owner, owned]⟩ rfl (fun _ => rfl) fun _ => rfl

/-- Relations are no part of what endures. -/
theorem relations (relations : Array Relation) : model.Endures { model with relations } :=
  .of_persists ⟨Nat.le_refl _, Nat.le_refl _, fun _ _ stands => stands, fun _ _ owned => owned⟩
    rfl (fun _ => rfl) fun _ => rfl

/-- A membership that is noted changes no place. -/
theorem sets (sets : Array CorefSet) (set : CorefSetId) :
    model.Endures ({ model with corefSets := sets }.noteMembership set concept) := by
  have same : model.SameShape ({ model with corefSets := sets }.noteMembership set concept) :=
    .noteMembership sets
  refine .of_persists same.persists rfl
    (field_modifyConcept { model with corefSets := sets } concept Concept.hidden ?_)
    (field_modifyConcept { model with corefSets := sets } concept Concept.type ?_) <;>
  exact fun _ => rfl

theorem newCorefSet : model.Endures (model.newCorefSet concept).2 := .sets _ _

/-- All that was there endures the joining of a set. -/
theorem addToCorefSet {set : CorefSetId} (added : model.addToCorefSet set concept = .ok later) :
    model.Endures later := by
  rcases eq_of_addToCorefSet added with ⟨-, rfl⟩ | ⟨-, rfl⟩
  · exact .refl _
  · exact .sets _ _

/-- The lattice of relation types only grows. -/
theorem retype {hierarchy : Hierarchy} (extended : model.hierarchy.Extended setting hierarchy) :
    model.Endures { model with hierarchy } where
  toPersists := (SameShape.elsewhere hierarchy model.markers).persists
  types := extended.extends_.size_le
  hidden _ := id
  visible _ _ := id
  typed _ _ := id

end Endures

/-- What an edit leaves endures. -/
theorem Edited.endures (edited : model.Edited setting home later) : model.Endures later := by
  cases edited with
  | graph owner => exact .of_persists .newGraph rfl (fun _ => rfl) fun _ => rfl
  | concept type => exact .newConcept type
  | place here adrift => exact .addConcept adrift
  | annotate graph hidden type referent => exact .modifyConcept graph hidden type
  | hide adrift => exact .hide adrift
  | comment graph text => exact .modifyGraph fun _ => rfl
  | marker =>
      exact .of_persists (SameShape.elsewhere model.hierarchy _).persists rfl (fun _ => rfl)
        fun _ => rfl
  | relation known fits => exact .relations _
  | negation named hidden => exact .relations _
  | note relation comment => exact .relations _
  | insert graph relation => exact (Endures.relations _).trans (.modifyGraph fun _ => rfl)
  | retype named => exact .retype (.named named)

end Model

/-- All that was there endures the reading of a marker. -/
theorem MarkerTable.endures_markerFor (table : MarkerTable) (foreign : String) (model : Model) :
    model.Endures (table.markerFor foreign model).2.2 := by
  unfold markerFor
  split
  · exact .refl _
  · have edited : model.Edited ⟨.cgif, {}⟩ none model.newMarker.2 := .marker
    exact edited.endures

namespace Juncture

variable {setting : Setting} {defines : Prop} {juncture later last : Juncture}

/-- What a move leaves endures. -/
theorem Moves.endures (moves : Moves setting defines juncture later) :
    juncture.reader.model.Endures later.reader.model := by
  cases moves with
  | edit edited => exact edited.endures
  | mark foreign => exact MarkerTable.endures_markerFor _ _ _
  | promote denotes => exact .newCorefSet
  | join denotes seated added => exact .addToCorefSet added
  | define unbound => exact .conceive _ _
  | refer seated owned anchored => exact .setReferent owned
  | enter seated => exact .of_persists .newGraph rfl (fun _ => rfl) fun _ => rfl
  | beginBody allowed => exact .of_persists .newGraph rfl (fun _ => rfl) fun _ => rfl
  | @conclude _ reader _ _ hierarchy allowed linked defined =>
      have extended : reader.model.hierarchy.Extended setting hierarchy := .defined defined
      exact .retype extended
  | past | leave | beginDefinition | endBody => exact .refl _

/-- A move reads tokens and takes none back. -/
theorem Moves.rest (moves : Moves setting defines juncture later) :
    later.reader.rest <:+ juncture.reader.rest := by
  cases moves with
  | past further => exact further
  | _ => exact List.suffix_rfl

/-- Nothing that endures is undone by any number of moves. -/
theorem Leads.endures (leads : Leads setting defines juncture later) :
    juncture.reader.model.Endures later.reader.model := by
  induction leads with
  | refl => exact .refl _
  | tail _ moves ih => exact ih.trans moves.endures

/-- No token is read twice. -/
theorem Leads.rest (leads : Leads setting defines juncture later) :
    later.reader.rest <:+ juncture.reader.rest := by
  induction leads with
  | refl => exact List.suffix_rfl
  | tail _ moves ih => exact moves.rest.trans ih

end Juncture

end ConceptualGraph

end
