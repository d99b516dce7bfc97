/-
Module: ConceptualGraph.Proofs.Reading.Acts
Purpose: The acts of which every reading consists, with the concepts whose referents are being
  read and the markers that have been read for them.
Main exports: Designator.marker?, Concept.marker?, Concept.IsSettled, Model.Quiet, Moment,
  Moment.Acts, Moment.Leads
-/
import ConceptualGraph.Proofs.Marker.Lasting
import ConceptualGraph.Proofs.Model.Mutual
import ConceptualGraph.Proofs.Reading.Passes

section

open Relation (ReflTransGen)

namespace ConceptualGraph

/-! ## Markers -/

/-- The marker that a designator is, if it is one. -/
def Designator.marker? : Designator → Option MarkerId
  | .marker id => some id
  | _ => none

/-- The marker that a referent designates, if it does so. -/
def Referent.marker? (referent : Referent) : Option MarkerId :=
  referent.designator.bind Designator.marker?

/-- The marker that a concept designates, if it does so. -/
def Concept.marker? (concept : Concept) : Option MarkerId :=
  concept.referent.bind Referent.marker?

/-! ## Quiet edits -/

/-- Whether a concept has its place: it stands in a graph, or it is a member of a coreference set,
whose scope was checked by where the concept stood. -/
def Concept.IsSettled (concept : Concept) : Prop :=
  concept.graph ≠ none ∨ concept.corefSets ≠ []

/-- An edit that makes no concept, and neither gives one a referent nor touches coreference nor
takes a concept from its place. -/
structure Model.Quiet (model later : Model) : Prop extends model.SameSets later where
  marker : ∀ concept, (later.concept concept).marker? = (model.concept concept).marker?
  markers : later.markers = model.markers
  place : ∀ concept, (model.concept concept).IsSettled →
    (later.concept concept).graph = (model.concept concept).graph

namespace Model

variable {model later : Model} {concept : ConceptId} {graph : GraphId}

/-- What leaves the concepts alone is quiet. -/
theorem Quiet.of_eq (concepts : later.concepts = model.concepts)
    (sets : later.corefSets = model.corefSets) (markers : later.markers = model.markers) :
    model.Quiet later where
  toSameSets := .of_eq concepts sets
  marker id := by rw [Model.concept, concepts, Model.concept]
  markers := markers
  place id _ := by rw [Model.concept, concepts, Model.concept]

theorem Quiet.modifyConcept {change : Concept → Concept}
    (corefSets : ∀ data, (change data).corefSets = data.corefSets)
    (marker : ∀ data, (change data).marker? = data.marker?)
    (graph : ∀ data, (change data).graph = data.graph) :
    model.Quiet (model.modifyConcept concept change) where
  toSameSets := .modifyConcept (corefSets _)
  marker := field_modifyConcept model concept Concept.marker? marker
  markers := rfl
  place id _ := field_modifyConcept model concept Concept.graph graph id

/-- A concept without a place is put into a graph. -/
theorem Quiet.addConcept (adrift : ¬ (model.concept concept).IsSettled) :
    model.Quiet (model.addConcept graph concept) where
  toSameSets := .addConcept
  marker := field_modifyConcept model concept Concept.marker? fun _ => rfl
  markers := rfl
  place id settled := by
    have apart : id ≠ concept := fun same => adrift (same ▸ settled)
    exact congrArg Concept.graph (concept_modifyConcept_of_ne apart)

/-- A concept whose other data are changed has a place if it had one. -/
theorem isSettled_modifyConcept {change : Concept → Concept}
    (corefSets : ∀ data, (change data).corefSets = data.corefSets)
    (graph : ∀ data, (change data).graph = data.graph) (id : ConceptId) :
    ((model.modifyConcept concept change).concept id).IsSettled ↔ (model.concept id).IsSettled := by
  rw [Concept.IsSettled, field_modifyConcept model concept Concept.graph graph,
    field_modifyConcept model concept Concept.corefSets corefSets, Concept.IsSettled]

/-- A concept that has just been made has no place. -/
theorem adrift_newConcept (type : Option ConceptType) :
    ¬ ((model.newConcept type).2.concept (model.newConcept type).1).IsSettled := by
  rw [newConcept_fst, concept_newConcept]
  simp [Concept.IsSettled]

theorem size_setReferent {referent : Referent} :
    (model.setReferent concept referent).concepts.size = model.concepts.size :=
  SameSets.setReferent.size

theorem size_addToCorefSet {set : CorefSetId}
    (added : model.addToCorefSet set concept = .ok later) :
    later.concepts.size = model.concepts.size := by
  rcases eq_of_addToCorefSet added with ⟨-, rfl⟩ | ⟨-, rfl⟩
  · rfl
  · exact size_modifyConcept

end Model

/-! ## Acts -/

/-- The concepts that have been made and whose referents are still to be given to them, the
innermost first, each with the marker that has been read for it. -/
abbrev Awaiting := List (ConceptId × Option MarkerId)

/-- A state of reading with the concepts that await their referents. -/
structure Moment where
  reader : Reader
  awaiting : Awaiting

namespace Moment

/-- A moment becomes another by one act. -/
inductive Acts : Moment → Moment → Prop
  /-- A token that is no marker is gone past. -/
  | past {reader : Reader} {awaiting : Awaiting} {found : Located} {rest : List Located}
      (next : reader.rest = found :: rest) (plain : ∀ digits, found.token ≠ .marker digits) :
      Acts ⟨reader, awaiting⟩ ⟨reader.withRest rest, awaiting⟩
  | edit {reader : Reader} {awaiting : Awaiting} {model : Model}
      (quiet : reader.model.Quiet model) :
      Acts ⟨reader, awaiting⟩ ⟨reader.withModel model, awaiting⟩
  /-- A concept is made. -/
  | conceive {reader : Reader} {awaiting : Awaiting} (type : Option ConceptType) :
      Acts ⟨reader, awaiting⟩
        ⟨reader.withModel (reader.model.newConcept type).2,
          ((reader.model.newConcept type).1, none) :: awaiting⟩
  /-- A marker is read for the concept that was made last. -/
  | mark {reader : Reader} {awaiting : Awaiting} {concept : ConceptId} {digits : Option String}
      {found : Located} {rest : List Located} (next : reader.rest = found :: rest)
      (marks : found.token = .marker digits)
      (last : concept.index + 1 = reader.model.concepts.size) :
      Acts ⟨reader, (concept, none) :: awaiting⟩
        ⟨{ reader with
            rest
            markers := (reader.markers.read digits reader.model).2.1
            model := (reader.markers.read digits reader.model).2.2 },
          (concept, some (reader.markers.read digits reader.model).1) :: awaiting⟩
  /-- A concept is given its referent, with the marker that has been read for it. -/
  | refer {reader : Reader} {awaiting : Awaiting} {concept : ConceptId}
      {marker : Option MarkerId} {referent : Referent} (same : referent.marker? = marker) :
      Acts ⟨reader, (concept, marker) :: awaiting⟩
        ⟨reader.withModel (reader.model.setReferent concept referent), awaiting⟩
  /-- A concept for which no marker has been read is left without a referent. -/
  | leave {reader : Reader} {awaiting : Awaiting} {concept : ConceptId} :
      Acts ⟨reader, (concept, none) :: awaiting⟩ ⟨reader, awaiting⟩
  /-- A label that is not bound is bound to a concept of the arena. -/
  | define {reader : Reader} {awaiting : Awaiting} {concept : ConceptId} {label : String}
      (unbound : reader.labels.isBound label = false)
      (inside : concept.index < reader.model.concepts.size) :
      Acts ⟨reader, awaiting⟩
        ⟨reader.withLabels (reader.labels.bind label (.concept concept)), awaiting⟩
  /-- A coreference set begins with the concept that a label denotes. -/
  | promote {reader : Reader} {awaiting : Awaiting} {concept : ConceptId} {label : String}
      (denotes : reader.labels.target? label = some (.concept concept)) :
      Acts ⟨reader, awaiting⟩
        ⟨(reader.withModel (reader.model.newCorefSet concept).2).withLabels
          (reader.labels.bind label (.set (reader.model.newCorefSet concept).1)), awaiting⟩
  /-- A concept of the arena joins the coreference set of a label. -/
  | join {reader : Reader} {awaiting : Awaiting} {concept : ConceptId} {label : String}
      {set : CorefSetId} {model : Model}
      (denotes : reader.labels.target? label = some (.set set))
      (inside : concept.index < reader.model.concepts.size)
      (added : reader.model.addToCorefSet set concept = .ok model) :
      Acts ⟨reader, awaiting⟩ ⟨reader.withModel model, awaiting⟩
  | push {reader : Reader} {awaiting : Awaiting} :
      Acts ⟨reader, awaiting⟩ ⟨reader.withLabels reader.labels.push, awaiting⟩
  | pop {reader : Reader} {awaiting : Awaiting} :
      Acts ⟨reader, awaiting⟩ ⟨reader.withLabels reader.labels.pop, awaiting⟩
  /-- A bracket is put on the count or taken off it. -/
  | count {reader : Reader} {awaiting : Awaiting} (depth : Nat) :
      Acts ⟨reader, awaiting⟩ ⟨reader.atDepth depth, awaiting⟩

/-- Any number of acts. -/
abbrev Leads : Moment → Moment → Prop := ReflTransGen Acts

variable {moment later : Moment}

/-! ## What stays -/

/-- No act takes a concept away. -/
theorem Acts.size_le (acts : Acts moment later) :
    moment.reader.model.concepts.size ≤ later.reader.model.concepts.size := by
  cases acts with
  | edit quiet => exact Nat.le_of_eq quiet.size.symm
  | conceive type => simp [Model.newConcept]
  | @mark reader _ _ digits _ _ next marks last =>
      rcases reader.markers.model_read digits reader.model with same | same <;>
        exact Nat.le_of_eq (congrArg (·.concepts.size) same.symm)
  | refer same => exact Nat.le_of_eq Model.size_setReferent.symm
  | promote denotes => exact Nat.le_of_eq Model.size_modifyConcept.symm
  | join denotes inside added => exact Nat.le_of_eq (Model.size_addToCorefSet added).symm
  | past | leave | define | push | pop | count => exact Nat.le_refl _

/-- Concepts are never removed. -/
theorem Leads.size_le (leads : Leads moment later) :
    moment.reader.model.concepts.size ≤ later.reader.model.concepts.size := by
  induction leads with
  | refl => exact Nat.le_refl _
  | tail _ acts ih => exact Nat.le_trans ih acts.size_le

end Moment

end ConceptualGraph

end
