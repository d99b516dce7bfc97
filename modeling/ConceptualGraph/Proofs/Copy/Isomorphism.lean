/-
Module: ConceptualGraph.Proofs.Copy.Isomorphism
Purpose: A copy of a graph that has been written to its end is the same graph but for the
  handles of its parts.
Main exports: Ledger.handles, Model.Made, Tracks.isomorphic
-/
import ConceptualGraph.Proofs.Copy.Tracks
import ConceptualGraph.Proofs.Writing.Graph

namespace ConceptualGraph

/-! ## Handles of copies -/

/-- The place of an element in a list.  What is not in the list comes after it. -/
def placeIn {α : Type} [DecidableEq α] (number : α → Nat) (elements : List α) (element : α) : Nat :=
  elements.idxOf element + if element ∈ elements then 0 else number element

/-- In a list without repetitions an element has one place. -/
theorem eq_placeIn {α : Type} [DecidableEq α] {number : α → Nat} {elements : List α}
    (distinct : elements.Nodup) {place : Nat} {element : α}
    (here : elements[place]? = some element) : place = placeIn number elements element := by
  obtain ⟨inside, rfl⟩ := List.getElem?_eq_some_iff.mp here
  rw [placeIn, if_pos (List.getElem_mem inside), distinct.idxOf_getElem place inside, Nat.add_zero]

/-- Different elements have different places. -/
theorem placeIn_injective {α : Type} [DecidableEq α] {number : α → Nat} (elements : List α)
    (injective : Function.Injective number) : Function.Injective (placeIn number elements) := by
  intro first second same
  unfold placeIn at same
  by_cases one : first ∈ elements <;> by_cases two : second ∈ elements
  · rw [if_pos one, if_pos two] at same
    exact (List.idxOf_inj one).mp same
  · rw [if_pos one, if_neg two, List.idxOf_eq_length two] at same
    have inside := List.idxOf_lt_length_of_mem one
    omega
  · rw [if_neg one, if_pos two, List.idxOf_eq_length one] at same
    have inside := List.idxOf_lt_length_of_mem two
    omega
  · rw [if_neg one, if_neg two, List.idxOf_eq_length one, List.idxOf_eq_length two] at same
    exact injective (Nat.add_left_cancel same)

/-- The handles under which what has been written is read back: places in the order of
writing. -/
def Ledger.handles (ledger : Ledger) (made : List RelationId) : Renaming where
  concept concept := ⟨placeIn ConceptId.index ledger.concepts concept⟩
  relation relation := ⟨placeIn RelationId.index made relation⟩
  graph graph := ⟨placeIn GraphId.index ledger.graphs graph⟩
  marker marker := ⟨placeIn MarkerId.index ledger.markers marker⟩

/-- What has been written has a copy. -/
theorem Writer.exists_copy {model : Model} {writer : Writer} {concept : ConceptId}
    (member : concept ∈ writer.order) : ∃ copy, (writer.ledger model).Concept concept copy :=
  Ledger.exists_concept (List.mem_reverse.mpr member)

/-- What is left to read when everything has been read back. -/
def Unfinished.none : Unfinished := { graphs := [⟨0⟩] }

/-- The relations of a copy: in which order they were made, and what they copy. -/
structure Model.Made (model : Model) (writer : Writer) (copy : Model) (made : List RelationId) :
    Prop where
  length : made.length = copy.relations.size
  perm : made.Perm writer.written
  order : ∀ graph, model.relationsIn graph made = model.relationsIn graph writer.written.reverse
  copied : ∀ relation image : RelationId, made[image.index]? = some relation →
    model.CopiedRelation copy (writer.ledger model) relation image

namespace Model.Made

variable {model : Model} {writer : Writer} {copy : Model} {made : List RelationId}
  {relation image : RelationId} (lists : model.Made writer copy made)

include lists

theorem nodup (once : writer.written.Nodup) : made.Nodup := lists.perm.nodup_iff.mpr once

/-- The copy of a relation has its place among those that were made. -/
theorem relation_eq (once : writer.written.Nodup) (here : made[image.index]? = some relation) :
    image = ((writer.ledger model).handles made).relation relation :=
  congrArg RelationId.mk (eq_placeIn (lists.nodup once) here)

/-- A relation that has been written has a copy. -/
theorem exists_copy (known : relation ∈ writer.written) :
    ∃ image : RelationId, made[image.index]? = some relation := by
  obtain ⟨position, here⟩ := List.mem_iff_getElem?.mp (lists.perm.mem_iff.mpr known)
  exact ⟨⟨position⟩, here⟩

/-- Every relation of the copy copies one that has been written. -/
theorem exists_relation (inside : image.index < copy.relations.size) :
    ∃ relation, made[image.index]? = some relation := by
  rw [← lists.length] at inside
  exact ⟨_, List.getElem?_eq_getElem inside⟩

end Model.Made

namespace Tracks

variable {model : Model} {source form : Notation} {writer : Writer} {reader : Reader}
  {made : List RelationId} {concept copy : ConceptId} {graph place : GraphId}

/-! ## One copy of each part -/

section Copies

variable (tracks : Tracks model .none writer reader)

include tracks

theorem concept_eq (copies : (writer.ledger model).Concept concept copy) :
    copy = ((writer.ledger model).handles made).concept concept :=
  congrArg ConceptId.mk (eq_placeIn (List.nodup_reverse.mpr tracks.houses.distinct) copies)

theorem graph_eq (copyable : model.Copyable source form)
    (copies : (writer.ledger model).Graph graph place) :
    place = ((writer.ledger model).handles made).graph graph :=
  congrArg GraphId.mk (eq_placeIn (tracks.houses.nodup_opened copyable.toRooted) copies)

theorem marker_eq {marker other : MarkerId} (copies : (writer.ledger model).Marker marker other) :
    other = ((writer.ledger model).handles made).marker marker :=
  congrArg MarkerId.mk (eq_placeIn (List.nodup_reverse.mpr tracks.markers.distinct) copies)

/-- All relations that have been written have been made in the order of their writing. -/
theorem exists_made : ∃ made, model.Made writer reader.model made := by
  obtain ⟨made, length, perm, order, copied⟩ := tracks.nodes.relations
  simp only [Unfinished.none, List.append_nil] at perm
  exact ⟨made, length, perm,
    fun graph => by simpa [Unfinished.none, Model.relationsIn] using order graph,
    fun relation image here => copied image.index relation here⟩

/-- Every concept of the copy copies one that has been written. -/
theorem exists_concept (inside : copy.index < reader.model.concepts.size) :
    ∃ concept, (writer.ledger model).Concept concept copy := by
  rw [tracks.nodes.size] at inside
  exact ⟨_, List.getElem?_eq_getElem inside⟩

end Copies

/-! ## What corresponds -/

section Correspondence

variable (tracks : Tracks model .none writer reader)

include tracks

/-- A concept that has been written is read back as its copy. -/
theorem copied (copies : (writer.ledger model).Concept concept copy) :
    model.CopiedConcept reader.model (writer.ledger model) concept copy :=
  tracks.nodes.concept concept copy copies List.not_mem_nil

/-- A concept describes a graph exactly if its copy does, and this is the copy of that. -/
theorem descriptor_rel (whole : ¬(model.concept concept).IsFractional)
    (copies : (writer.ledger model).Concept concept copy) :
    Option.Rel (writer.ledger model).Graph (model.descriptor? concept)
      (reader.model.descriptor? copy) := by
  have related := (tracks.copied copies).referent whole
  unfold Model.descriptor?
  generalize (model.concept concept).referent = referent at related ⊢
  generalize (reader.model.concept copy).referent = other at related ⊢
  cases related with
  | none => exact .none
  | some same => exact same.descriptor

variable (copyable : model.Copyable source form)

include copyable

/-- A copy stands in the copy of a graph exactly if the concept stands in the graph. -/
theorem stands_iff (copies : (writer.ledger model).Concept concept copy)
    (there : (writer.ledger model).Graph graph place) :
    (reader.model.concept copy).graph = some place ↔
      (model.concept concept).graph = some graph := by
  obtain ⟨home, stands, -⟩ := tracks.houses.housed concept (List.mem_reverse.mp copies.mem)
  obtain ⟨position, located, here⟩ := tracks.nodes.stands concept copy copies home stands
  constructor
  · intro same
    obtain rfl : position = place := Option.some.inj (here.symm.trans same)
    rw [stands, Option.some.inj (located.symm.trans there)]
  · intro same
    obtain rfl : home = graph := Option.some.inj (stands.symm.trans same)
    rw [here, tracks.graph_unique copyable located there]

/-- A copy stands in the copy of a graph exactly if the relation stands in the graph. -/
theorem relation_stands_iff {relation image : RelationId}
    (copied : model.CopiedRelation reader.model (writer.ledger model) relation image)
    (there : (writer.ledger model).Graph graph place) :
    (reader.model.relation image).graph = some place ↔
      (model.relation relation).graph = some graph := by
  constructor
  · intro same
    obtain ⟨home, stands, located⟩ := exists_of_rel_some (same ▸ copied.graph)
    rw [stands, Option.some.inj (located.symm.trans there)]
  · intro stands
    obtain ⟨position, same, located⟩ := exists_of_some_rel (stands ▸ copied.graph)
    rw [same, tracks.graph_unique copyable located there]

variable (whole : ∀ concept, ¬(model.concept concept).IsFractional)

include whole

/-- Every graph within the outermost one has a copy within its copy. -/
theorem exists_within (complete : model.Complete writer) (within : model.Within ⟨0⟩ graph) :
    ∃ place, (writer.ledger model).Graph graph place ∧ reader.model.Within ⟨0⟩ place := by
  induction within with
  | root => exact ⟨⟨0⟩, rfl, .root⟩
  | @described graph inner concept within stands describes ih =>
      obtain ⟨place, there, around⟩ := ih
      have member := (complete.filled graph within).concepts concept stands
      obtain ⟨copy, copies⟩ := Writer.exists_copy member
      obtain ⟨image, described, located⟩ := exists_of_some_rel
        (describes ▸ tracks.descriptor_rel (whole concept) copies)
      exact ⟨image, located,
        around.described ((tracks.stands_iff copyable copies there).mpr stands) described⟩

/-- Every graph within the copy of the outermost one is the copy of a graph within that. -/
theorem exists_of_within (within : reader.model.Within ⟨0⟩ place) :
    ∃ graph, (writer.ledger model).Graph graph place ∧ model.Within ⟨0⟩ graph := by
  induction within with
  | root => exact ⟨⟨0⟩, rfl, .root⟩
  | @described place image copy within stands describes ih =>
      obtain ⟨graph, there, around⟩ := ih
      obtain ⟨concept, copies⟩ := tracks.exists_concept (Model.lt_of_graph stands)
      obtain ⟨inner, described, located⟩ := exists_of_rel_some
        (describes ▸ tracks.descriptor_rel (whole concept) copies)
      exact ⟨inner, located,
        around.described ((tracks.stands_iff copyable copies there).mp stands) described⟩

/-- Every concept of a graph that has been written whole has a copy in the graph that was read. -/
theorem exists_hasConcept (complete : model.Complete writer)
    (has : model.HasConcept ⟨0⟩ concept) :
    ∃ copy, (writer.ledger model).Concept concept copy ∧ reader.model.HasConcept ⟨0⟩ copy := by
  obtain ⟨graph, within, stands⟩ := has
  obtain ⟨place, there, around⟩ := tracks.exists_within copyable whole complete within
  have member := (complete.filled graph within).concepts concept stands
  obtain ⟨copy, copies⟩ := Writer.exists_copy member
  exact ⟨copy, copies, place, around, (tracks.stands_iff copyable copies there).mpr stands⟩

/-- Every copy in the graph is the copy of a concept in it. -/
theorem exists_of_hasConcept (has : reader.model.HasConcept ⟨0⟩ copy) :
    ∃ concept, (writer.ledger model).Concept concept copy ∧ model.HasConcept ⟨0⟩ concept := by
  obtain ⟨place, within, stands⟩ := has
  obtain ⟨graph, there, around⟩ := tracks.exists_of_within copyable whole within
  obtain ⟨concept, copies⟩ := tracks.exists_concept (Model.lt_of_graph stands)
  exact ⟨concept, copies, graph, around, (tracks.stands_iff copyable copies there).mp stands⟩

end Correspondence

/-! ## What is kept -/

/-- Types that have the same label. -/
theorem label_eq_of_rel {kind : TypeKind} {lattice other : Lattice kind}
    {type copy : Option (TypeRef kind)} (related : Option.Rel (lattice.Alike other) type copy) :
    copy.map other.label? = type.map lattice.label? := by
  cases related with
  | none => rfl
  | some alike =>
      obtain ⟨label, named, also⟩ := alike
      simp [named, also]

section Kept

variable (tracks : Tracks model .none writer reader) (copyable : model.Copyable source form)

include tracks copyable

/-- A copy of a referent is the referent under new handles. -/
theorem referent_eq {referent other : Referent} (undefined : referent.definedBy? = none)
    (copied : referent.Copied (writer.ledger model) other) :
    other = ((writer.ledger model).handles made).referent referent := by
  obtain ⟨quantifier, designator, descriptor⟩ := referent
  obtain ⟨read, designated, described⟩ := other
  obtain ⟨quantified, named, nested⟩ := copied
  dsimp only at quantified named nested
  simp only [Renaming.referent, Referent.mk.injEq]
  refine ⟨quantified, ?_, ?_⟩
  · cases named with
    | none => rfl
    | @some value image same =>
        cases value with
        | marker id =>
            obtain ⟨other, rfl, copies⟩ := same
            exact congrArg (some ∘ Designator.marker) (tracks.marker_eq copies)
        | literal value => exact congrArg some same
        | name text => exact congrArg some same
        | defined concept => cases undefined
  · cases nested with
    | none => rfl
    | some copies => exact congrArg some (tracks.graph_eq copyable copies)

/-- A concept and its copy are alike in type, referent and comments, up to the handles. -/
theorem keepsConcept (whole : ¬(model.concept concept).IsFractional)
    (copies : (writer.ledger model).Concept concept copy) :
    model.KeepsConcept reader.model ((writer.ledger model).handles made) concept copy := by
  have copied := tracks.copied copies
  constructor
  · exact label_eq_of_rel (copied.type whole)
  · have related := copied.referent whole
    have undefined := copyable.undefined concept
    unfold Model.designates? at undefined
    generalize (model.concept concept).referent = referent at related undefined ⊢
    generalize (reader.model.concept copy).referent = other at related ⊢
    cases related with
    | none => rfl
    | some same => exact congrArg some (tracks.referent_eq copyable undefined same)
  · exact copied.comment
  · exact copied.special
  · exact copied.hidden
  · obtain ⟨home, stands, -⟩ := tracks.houses.housed concept (List.mem_reverse.mp copies.mem)
    obtain ⟨place, there, here⟩ := tracks.nodes.stands concept copy copies home stands
    rw [here, stands, tracks.graph_eq copyable there]
    rfl

/-- A relation and its copy are alike in type, role, comment and arguments, up to the handles. -/
theorem keepsRelation (setless : model.corefSets = #[]) {relation image : RelationId}
    (copied : model.CopiedRelation reader.model (writer.ledger model) relation image) :
    model.KeepsRelation reader.model ((writer.ledger model).handles made) relation image := by
  constructor
  · exact label_eq_of_rel copied.type
  · have cited : ∀ concept copy, (writer.ledger model).Cites model concept copy →
        copy = ((writer.ledger model).handles made).concept concept := by
      intro concept copy cites
      have copies : (writer.ledger model).Concept concept copy := cites.elim id fun names => by
        rwa [Ledger.Names, Model.spokesman_of_none (Model.sharedSet?_of_setless setless concept)]
          at names
      exact tracks.concept_eq copies
    have args := copied.args
    generalize (model.relation relation).args = args at args ⊢
    generalize (reader.model.relation image).args = images at args ⊢
    induction args with
    | nil => rfl
    | cons first rest ih => rw [List.map_cons, ← ih, cited _ _ first]
  · exact copied.comment
  · exact copied.role
  · have graph := copied.graph
    generalize (model.relation relation).graph = home at graph ⊢
    generalize (reader.model.relation image).graph = place at graph ⊢
    cases graph with
    | none => rfl
    | some there => exact congrArg some (tracks.graph_eq copyable there)

end Kept

/-! ## Whole graphs -/

/-- A correspondence under which everything on one side has a partner on the other one is one to
one. -/
theorem bijOn_of_copies {α β : Type} {copies : α → β → Prop} {handle : α → β} {old : α → Prop}
    {new : β → Prop} (same : ∀ {element copy}, copies element copy → copy = handle element)
    (unique : ∀ {first second copy}, copies first copy → copies second copy → first = second)
    (forth : ∀ {element}, old element → ∃ copy, copies element copy ∧ new copy)
    (back : ∀ {copy}, new copy → ∃ element, copies element copy ∧ old element) :
    Set.BijOn handle {element | old element} {copy | new copy} := by
  refine ⟨fun element member => ?_, fun first one second two equal => ?_, fun copy member => ?_⟩
  · obtain ⟨copy, copied, among⟩ := forth member
    exact same copied ▸ among
  · obtain ⟨copy, copied, -⟩ := forth one
    obtain ⟨other, also, -⟩ := forth two
    exact unique copied (show copies second copy by
      rw [same copied, equal, ← same also]
      exact also)
  · obtain ⟨element, copied, among⟩ := back member
    exact ⟨element, among, (same copied).symm⟩

section Whole

variable (tracks : Tracks model .none writer reader) (copyable : model.Copyable source form)
  (whole : ∀ concept, ¬(model.concept concept).IsFractional)

include tracks copyable whole

/-- Every marker in a graph that has been written to its end has a copy. -/
theorem exists_hasMarker (complete : model.Complete writer) {marker : MarkerId}
    (has : model.HasMarker ⟨0⟩ marker) : ∃ other, (writer.ledger model).Marker marker other := by
  obtain ⟨concept, referent, among, described, designated⟩ := has
  obtain ⟨copy, copies, -⟩ := tracks.exists_hasConcept copyable whole complete among
  obtain ⟨other, -, same⟩ := exists_of_some_rel
    (described ▸ (tracks.copied copies).referent (whole concept))
  obtain ⟨image, -, named⟩ := exists_of_some_rel (designated ▸ same.designator)
  obtain ⟨copied, -, there⟩ := named
  exact ⟨copied, there⟩

section Relations

variable {relation image : RelationId} (lists : model.Made writer reader.model made)

include lists

/-- Every relation of a graph that has been written whole has a copy in the graph that was read. -/
theorem exists_hasRelation (complete : model.Complete writer)
    (has : model.HasRelation ⟨0⟩ relation) : ∃ image : RelationId,
      made[image.index]? = some relation ∧ reader.model.HasRelation ⟨0⟩ image := by
  obtain ⟨graph, within, stands⟩ := has
  obtain ⟨place, there, around⟩ := tracks.exists_within copyable whole complete within
  obtain ⟨image, here⟩ := lists.exists_copy ((complete.filled graph within).relations _ stands)
  exact ⟨image, here, place, around,
    (tracks.relation_stands_iff copyable (lists.copied _ _ here) there).mpr stands⟩

/-- Every relation that was made in the graph is the copy of one in it. -/
theorem exists_of_hasRelation (has : reader.model.HasRelation ⟨0⟩ image) :
    ∃ relation, made[image.index]? = some relation ∧ model.HasRelation ⟨0⟩ relation := by
  obtain ⟨place, within, stands⟩ := has
  obtain ⟨graph, there, around⟩ := tracks.exists_of_within copyable whole within
  obtain ⟨relation, here⟩ := lists.exists_relation (Model.lt_of_relation_graph stands)
  exact ⟨relation, here, graph, around,
    (tracks.relation_stands_iff copyable (lists.copied _ _ here) there).mp stands⟩

end Relations

/-- A graph that has been written to its end is read back as the same graph but for the
handles of its parts. -/
theorem isomorphic (setless : model.corefSets = #[]) (complete : model.Complete writer) :
    model.Isomorphic reader.model ⟨0⟩ ⟨0⟩ := by
  obtain ⟨made, lists⟩ := tracks.exists_made
  have once := complete.once
  refine ⟨(writer.ledger model).handles made, ?_⟩
  constructor
  · exact (tracks.graph_eq copyable (rfl : (writer.ledger model).Graph ⟨0⟩ ⟨0⟩)).symm
  · exact bijOn_of_copies (tracks.graph_eq copyable)
      (fun one two => Option.some.inj (one.symm.trans two))
      (tracks.exists_within copyable whole complete) (tracks.exists_of_within copyable whole)
  · exact bijOn_of_copies tracks.concept_eq (fun one two => Option.some.inj (one.symm.trans two))
      (tracks.exists_hasConcept copyable whole complete)
      (tracks.exists_of_hasConcept copyable whole)
  · exact bijOn_of_copies (lists.relation_eq once)
      (fun one two => Option.some.inj (one.symm.trans two))
      (tracks.exists_hasRelation copyable whole lists complete)
      (tracks.exists_of_hasRelation copyable whole lists)
  · intro first one second two same
    obtain ⟨other, here⟩ := tracks.exists_hasMarker copyable whole complete one
    obtain ⟨also, there⟩ := tracks.exists_hasMarker copyable whole complete two
    rw [← tracks.marker_eq here, ← tracks.marker_eq there] at same
    subst same
    exact Option.some.inj (here.symm.trans there)
  · intro graph within
    obtain ⟨place, there, -⟩ := tracks.exists_within copyable whole complete within
    rw [← tracks.graph_eq copyable there]
    exact tracks.nodes.comments graph place there (tracks.lt_graphs rfl there) List.not_mem_nil
  · intro concept has
    obtain ⟨copy, copies, -⟩ := tracks.exists_hasConcept copyable whole complete has
    rw [← tracks.concept_eq copies]
    exact tracks.keepsConcept copyable (whole concept) copies
  · intro relation has
    obtain ⟨image, here, -⟩ := tracks.exists_hasRelation copyable whole lists complete has
    rw [← lists.relation_eq once here]
    exact tracks.keepsRelation copyable setless (lists.copied relation image here)

end Whole

end Tracks

end ConceptualGraph
