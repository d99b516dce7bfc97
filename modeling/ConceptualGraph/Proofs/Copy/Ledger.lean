/-
Module: ConceptualGraph.Proofs.Copy.Ledger
Purpose: What it means that nodes of one model are copies of nodes of another one that
  have been written in a certain order.
Main exports: Ledger, Writer.ledger, Writer.Onward, Model.CopiedConcept, Model.CopiedRelation,
  Model.CopiedConcept.mono
-/
import ConceptualGraph.Proofs.Copy.Source
import ConceptualGraph.Writing.Basic
import Mathlib.Data.List.Forall2

namespace ConceptualGraph

/-! ## What has been written -/

/-- The concepts, graphs and markers that have been written, in the order in which they
are read back.  The handle of a copy is the place of what it copies. -/
structure Ledger where
  concepts : List ConceptId
  graphs : List GraphId
  markers : List MarkerId

namespace Ledger

/-- Whether a concept copies another one. -/
def Concept (ledger : Ledger) (concept copy : ConceptId) : Prop :=
  ledger.concepts[copy.index]? = some concept

/-- Whether a graph copies another one. -/
def Graph (ledger : Ledger) (graph copy : GraphId) : Prop :=
  ledger.graphs[copy.index]? = some graph

/-- Whether a marker copies another one. -/
def Marker (ledger : Ledger) (marker copy : MarkerId) : Prop :=
  ledger.markers[copy.index]? = some marker

/-- A ledger goes on from another one. -/
structure Continues (ledger later : Ledger) : Prop where
  concepts : ledger.concepts <+: later.concepts
  graphs : ledger.graphs <+: later.graphs
  markers : ledger.markers <+: later.markers

variable {ledger later last : Ledger}

theorem Continues.refl (ledger : Ledger) : ledger.Continues ledger :=
  ⟨List.prefix_rfl, List.prefix_rfl, List.prefix_rfl⟩

theorem getElem?_of_prefix {α : Type} {front list : List α} (grown : front <+: list)
    {place : Nat} {element : α} (here : front[place]? = some element) :
    list[place]? = some element := by
  rw [List.prefix_iff_getElem?] at grown
  obtain ⟨inside, same⟩ := List.getElem?_eq_some_iff.mp here
  rw [grown place inside, same]

theorem Concept.mono {concept copy : ConceptId} (copies : ledger.Concept concept copy)
    (continues : ledger.Continues later) : later.Concept concept copy :=
  getElem?_of_prefix continues.concepts copies

theorem Graph.mono {graph copy : GraphId} (copies : ledger.Graph graph copy)
    (continues : ledger.Continues later) : later.Graph graph copy :=
  getElem?_of_prefix continues.graphs copies

theorem Marker.mono {marker copy : MarkerId} (copies : ledger.Marker marker copy)
    (continues : ledger.Continues later) : later.Marker marker copy :=
  getElem?_of_prefix continues.markers copies

theorem Concept.mem {concept copy : ConceptId} (copies : ledger.Concept concept copy) :
    concept ∈ ledger.concepts :=
  List.mem_of_getElem? copies

theorem Concept.lt {concept copy : ConceptId} (copies : ledger.Concept concept copy) :
    copy.index < ledger.concepts.length :=
  (List.getElem?_eq_some_iff.mp copies).1

theorem Graph.lt {graph copy : GraphId} (copies : ledger.Graph graph copy) :
    copy.index < ledger.graphs.length :=
  (List.getElem?_eq_some_iff.mp copies).1

/-- Every concept on the ledger has a copy. -/
theorem exists_concept {concept : ConceptId} (member : concept ∈ ledger.concepts) :
    ∃ copy, ledger.Concept concept copy := by
  obtain ⟨place, here⟩ := List.mem_iff_getElem?.mp member
  exact ⟨⟨place⟩, here⟩

end Ledger

/-- The concepts that have been written, the last one first. -/
def Writer.order (writer : Writer) : List ConceptId :=
  writer.emitted.map Prod.fst

/-- The graphs that have been begun: the outermost one, and those that describe concepts
that have been written. -/
def Model.opened (model : Model) (concepts : List ConceptId) : List GraphId :=
  ⟨0⟩ :: concepts.filterMap model.descriptor?

/-- What a state of writing has written. -/
def Writer.ledger (model : Model) (writer : Writer) : Ledger where
  concepts := writer.order.reverse
  graphs := model.opened writer.order.reverse
  markers := (writer.markers.pairs.map Prod.snd).reverse

/-- Graphs are opened in the order of the concepts that they describe. -/
theorem Model.opened_prefix {model : Model} {front concepts : List ConceptId}
    (grown : front <+: concepts) : model.opened front <+: model.opened concepts := by
  obtain ⟨back, rfl⟩ := grown
  refine ⟨back.filterMap model.descriptor?, ?_⟩
  simp [opened]

/-- Where a writer only goes on, so does its ledger. -/
theorem Writer.continues {model : Model} {writer later : Writer}
    (emitted : writer.emitted <:+ later.emitted)
    (markers : writer.markers.pairs <:+ later.markers.pairs) :
    (writer.ledger model).Continues (later.ledger model) := by
  have concepts : writer.order.reverse <+: later.order.reverse :=
    List.reverse_prefix.mpr (emitted.map Prod.fst)
  exact ⟨concepts, Model.opened_prefix concepts,
    List.reverse_prefix.mpr (markers.map Prod.snd)⟩

/-! ## Going on -/

/-- Writing goes on from a state. -/
structure Writer.Onward (writer later : Writer) : Prop where
  emitted : writer.emitted <:+ later.emitted
  markers : writer.markers.pairs <:+ later.markers.pairs
  written : writer.written ⊆ later.written

namespace Writer.Onward

variable {writer later last : Writer}

theorem refl (writer : Writer) : writer.Onward writer :=
  ⟨List.suffix_rfl, List.suffix_rfl, List.Subset.refl _⟩

theorem trans (first : writer.Onward later) (second : later.Onward last) : writer.Onward last :=
  ⟨first.emitted.trans second.emitted, first.markers.trans second.markers,
    List.Subset.trans first.written second.written⟩

theorem order (onward : writer.Onward later) : writer.order <:+ later.order :=
  onward.emitted.map Prod.fst

theorem continues (onward : writer.Onward later) (model : Model) :
    (writer.ledger model).Continues (later.ledger model) :=
  Writer.continues onward.emitted onward.markers

end Writer.Onward

/-! ## Copies of nodes -/

/-- Whether types of two lattices have the same label. -/
def Lattice.Alike {kind : TypeKind} (lattice other : Lattice kind) (type copy : TypeRef kind) :
    Prop :=
  ∃ label, lattice.label? type = some label ∧ other.label? copy = some label

theorem Lattice.Alike.mono {kind : TypeKind} {lattice other later : Lattice kind}
    {type copy : TypeRef kind} (alike : lattice.Alike other type copy)
    (grown : other.Extends later) : lattice.Alike later type copy := by
  obtain ⟨label, named, also⟩ := alike
  exact ⟨label, named, by rw [grown.label copy (Lattice.label?_of_lt also), also]⟩

/-- Whether a designator copies another one. -/
def Designator.Copied (ledger : Ledger) : Designator → Designator → Prop
  | .marker id, copy => ∃ other, copy = .marker other ∧ ledger.Marker id other
  | designator, copy => copy = designator

/-- Whether a referent copies another one. -/
structure Referent.Copied (ledger : Ledger) (referent copy : Referent) : Prop where
  quantifier : copy.quantifier = referent.quantifier
  designator : Option.Rel (Designator.Copied ledger) referent.designator copy.designator
  descriptor : Option.Rel ledger.Graph referent.descriptor copy.descriptor

/-- Whether the designator of a concept is a number with a fraction. -/
def Concept.IsFractional (concept : Concept) : Prop :=
  ∃ referent value, concept.referent = some referent ∧
    referent.designator = some (.literal (.number (.float value)))

/-- Whether a concept copies another one, apart from the graph in which it stands.  Of a
number with a fraction only the text is written, which need not read back as a number. -/
structure Model.CopiedConcept (model other : Model) (ledger : Ledger)
    (concept copy : ConceptId) : Prop where
  type : ¬(model.concept concept).IsFractional →
    Option.Rel (model.hierarchy.concepts.Alike other.hierarchy.concepts)
      (model.concept concept).type (other.concept copy).type
  referent : ¬(model.concept concept).IsFractional →
    Option.Rel (Referent.Copied ledger) (model.concept concept).referent
      (other.concept copy).referent
  comment : (other.concept copy).comment = (model.concept concept).comment
  special : (other.concept copy).special = (model.concept concept).special
  hidden : (other.concept copy).hidden = (model.concept concept).hidden

/-- Whether a concept is the copy to which a label under which another one is written
refers. -/
def Ledger.Names (ledger : Ledger) (model : Model) (concept copy : ConceptId) : Prop :=
  ledger.Concept (model.spokesman concept) copy

/-- Whether an argument is read back for another one: its copy, or the one to which its
label refers. -/
def Ledger.Cites (ledger : Ledger) (model : Model) (concept copy : ConceptId) : Prop :=
  ledger.Concept concept copy ∨ ledger.Names model concept copy

/-- Whether a relation or actor copies another one. -/
structure Model.CopiedRelation (model other : Model) (ledger : Ledger)
    (relation copy : RelationId) : Prop where
  type : Option.Rel (model.hierarchy.relations.Alike other.hierarchy.relations)
    (model.relation relation).type (other.relation copy).type
  args : List.Forall₂ (ledger.Cites model) (model.relation relation).args
    (other.relation copy).args
  comment : (other.relation copy).comment = (model.relation relation).comment
  role : (other.relation copy).role = (model.relation relation).role
  graph : Option.Rel ledger.Graph (model.relation relation).graph (other.relation copy).graph

/-! ## Copies remain copies -/

theorem rel_mono {α β : Type} {relation weaker : α → β → Prop} {first : Option α}
    {second : Option β} (related : Option.Rel relation first second)
    (weaken : ∀ left right, relation left right → weaker left right) :
    Option.Rel weaker first second := by
  cases related with
  | some holds => exact .some (weaken _ _ holds)
  | none => exact .none

theorem exists_of_some_rel {α β : Type} {relation : α → β → Prop} {first : α} {second : Option β}
    (related : Option.Rel relation (some first) second) :
    ∃ other, second = some other ∧ relation first other := by
  cases related with
  | some holds => exact ⟨_, rfl, holds⟩

theorem exists_of_rel_some {α β : Type} {relation : α → β → Prop} {first : Option α} {second : β}
    (related : Option.Rel relation first (some second)) :
    ∃ other, first = some other ∧ relation other second := by
  cases related with
  | some holds => exact ⟨_, rfl, holds⟩

theorem isNone_of_rel {α β : Type} {relation : α → β → Prop} {first : Option α}
    {second : Option β} (related : Option.Rel relation first second) :
    second.isNone = first.isNone := by
  cases related <;> rfl

section Mono

variable {model other grown : Model} {ledger later : Ledger}

/-- A designator that has been copied stays a copy while the ledger goes on. -/
theorem Designator.Copied.mono {designator copy : Designator}
    (copied : designator.Copied ledger copy) (continues : ledger.Continues later) :
    designator.Copied later copy := by
  cases designator with
  | marker marker =>
      obtain ⟨other, same, copies⟩ := copied
      exact ⟨other, same, copies.mono continues⟩
  | literal value => exact copied
  | name text => exact copied
  | defined concept => exact copied

theorem Referent.Copied.mono {referent copy : Referent} (copied : referent.Copied ledger copy)
    (continues : ledger.Continues later) : referent.Copied later copy where
  quantifier := copied.quantifier
  designator := rel_mono copied.designator fun _ _ copies => copies.mono continues
  descriptor := rel_mono copied.descriptor fun _ _ copies => copies.mono continues

theorem Ledger.Cites.mono {concept copy : ConceptId} (cites : ledger.Cites model concept copy)
    (continues : ledger.Continues later) : later.Cites model concept copy :=
  cites.imp (·.mono continues) (Ledger.Concept.mono · continues)

/-- A copy remains one as long as its own data, apart from its sets, are left alone. -/
theorem Model.CopiedConcept.mono {concept copy : ConceptId}
    (copied : model.CopiedConcept other ledger concept copy)
    (continues : ledger.Continues later)
    (types : other.hierarchy.concepts.Extends grown.hierarchy.concepts)
    (same : (grown.concept copy).bare = (other.concept copy).bare) :
    model.CopiedConcept grown later concept copy where
  type whole := by
    have kept : (grown.concept copy).type = (other.concept copy).type := by
      simpa only [Concept.bare] using congrArg Concept.type same
    rw [kept]
    exact rel_mono (copied.type whole) fun _ _ alike => alike.mono types
  referent whole := by
    have kept : (grown.concept copy).referent = (other.concept copy).referent := by
      simpa only [Concept.bare] using congrArg Concept.referent same
    rw [kept]
    exact rel_mono (copied.referent whole) fun _ _ copies => copies.mono continues
  comment := (congrArg Concept.comment same).trans copied.comment
  special := (congrArg Concept.special same).trans copied.special
  hidden := (congrArg Concept.hidden same).trans copied.hidden

/-- A concept with the data of a copy is one. -/
theorem Model.CopiedConcept.of_bare {concept copy : ConceptId} {data : Concept}
    (bare : (other.concept copy).bare = data)
    (type : ¬(model.concept concept).IsFractional →
      Option.Rel (model.hierarchy.concepts.Alike other.hierarchy.concepts)
        (model.concept concept).type data.type)
    (referent : ¬(model.concept concept).IsFractional →
      Option.Rel (Referent.Copied ledger) (model.concept concept).referent data.referent)
    (comment : data.comment = (model.concept concept).comment)
    (special : data.special = (model.concept concept).special)
    (hidden : data.hidden = (model.concept concept).hidden) :
    model.CopiedConcept other ledger concept copy := by
  subst bare
  exact ⟨type, referent, comment, special, hidden⟩

/-- A relation that has been copied stays a copy while both sides go on. -/
theorem Model.CopiedRelation.mono {relation copy : RelationId}
    (copied : model.CopiedRelation other ledger relation copy)
    (continues : ledger.Continues later)
    (types : other.hierarchy.relations.Extends grown.hierarchy.relations)
    (same : grown.relation copy = other.relation copy) :
    model.CopiedRelation grown later relation copy where
  type := by
    rw [same]
    exact rel_mono copied.type fun _ _ alike => alike.mono types
  args := by
    rw [same]
    exact copied.args.imp fun _ _ cites => cites.mono continues
  comment := by rw [same, copied.comment]
  role := by rw [same, copied.role]
  graph := by
    rw [same]
    exact rel_mono copied.graph fun _ _ copies => copies.mono continues

end Mono

end ConceptualGraph
