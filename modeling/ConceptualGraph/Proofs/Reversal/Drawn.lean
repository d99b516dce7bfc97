/-
Module: ConceptualGraph.Proofs.Reversal.Drawn
Purpose: The model that a chain of concepts in place comes to, and how it grows with each concept
  and each relation.
Main exports: MarkerTable.Marks, Marked, Marked.mark, Marked.same_iff, Model.Draws,
  Model.Draws.retype, Model.Draws.place, Model.Draws.relate
-/
import ConceptualGraph.Proofs.Copy.Parts
import ConceptualGraph.Proofs.Marker.Lasting
import ConceptualGraph.Proofs.Reversal.Syntax

namespace ConceptualGraph

/-! ## Markers -/

variable {table later : MarkerTable} {markers more : Nat} {marker : MarkerId}
  {drawn : List (InlineConcept × MarkerId)} {concept : InlineConcept}

/-- What reading a concept makes of a table of markers and of their number, by the digits of the
marker that designates the concept, if there is one; and for which marker they stand. -/
inductive MarkerTable.Marks : Option (Option String) → MarkerTable → (markers : Nat) → MarkerId →
    MarkerTable → (more : Nat) → Prop
  | unmarked {table : MarkerTable} {markers : Nat} (marker : MarkerId) :
      Marks none table markers marker table markers
  | new {table : MarkerTable} {markers : Nat} :
      Marks (some none) table markers ⟨markers⟩ table (markers + 1)
  | known {table : MarkerTable} {markers : Nat} {marker : MarkerId} {foreign : String}
      (found : table.marker? foreign = some marker) :
      Marks (some (some foreign)) table markers marker table markers
  | paired {table : MarkerTable} {markers : Nat} {foreign : String}
      (missing : table.marker? foreign = none) :
      Marks (some (some foreign)) table markers ⟨markers⟩ (table.pair foreign ⟨markers⟩)
        (markers + 1)

/-- The markers of concepts that have been read one after another: equal digits stand for one
marker, and a marker without digits is no other one's. -/
structure Marked (drawn : List (InlineConcept × MarkerId)) (table : MarkerTable) (markers : Nat) :
    Prop where
  sound : table.Sound markers
  inside : ∀ entry ∈ drawn, entry.1.digits? ≠ none → entry.2.index < markers
  paired : ∀ entry ∈ drawn, ∀ foreign, entry.1.digits? = some (some foreign) →
    (foreign, entry.2) ∈ table.pairs
  unpaired : ∀ entry ∈ drawn, entry.1.digits? = some none → ∀ pair ∈ table.pairs, pair.2 ≠ entry.2
  apart : drawn.Pairwise fun first second => first.1.digits? = some none →
    second.1.digits? = some none → first.2 ≠ second.2

namespace Marked

theorem empty : Marked [] {} markers := ⟨.empty, nofun, nofun, nofun, .nil⟩

/-- What holds of all entries holds of one more. -/
theorem forall_mem_concat {α : Type} {elements : List α} {element : α} {property : α → Prop}
    (others : ∀ other ∈ elements, property other) (last : property element) :
    ∀ other ∈ elements ++ [element], property other := by
  simpa [or_imp, forall_and] using ⟨others, last⟩

/-- One more concept has been read. -/
theorem mark (marked : Marked drawn table markers)
    (marks : table.Marks concept.digits? markers marker later more) :
    Marked (drawn ++ [(concept, marker)]) later more := by
  have older (entry) (member : entry ∈ drawn) (designated : entry.1.digits? ≠ none) :
      entry.2 ≠ ⟨markers⟩ := fun same =>
    Nat.ne_of_lt (marked.inside entry member designated) (congrArg MarkerId.index same)
  have beyond (pair) (member : pair ∈ table.pairs) : pair.2 ≠ ⟨markers⟩ := fun same =>
    Nat.ne_of_lt (marked.sound.known pair member) (congrArg MarkerId.index same)
  generalize digits : concept.digits? = read at marks
  -- A concept is without a marker, has one of its own, or shares one that was read or is new.
  cases marks with
  | unmarked =>
      have never {digits' : Option String} : concept.digits? ≠ some digits' := by simp [digits]
      exact ⟨marked.sound, forall_mem_concat marked.inside (absurd digits),
        forall_mem_concat marked.paired fun _ same => absurd same never,
        forall_mem_concat marked.unpaired fun same => absurd same never,
        List.pairwise_append.mpr ⟨marked.apart, List.pairwise_singleton _ _, by
          simp [never]⟩⟩
  | new =>
      refine ⟨marked.sound.mono (Nat.le_succ _), forall_mem_concat (fun entry member given =>
          Nat.lt_succ_of_lt (marked.inside entry member given)) fun _ => Nat.lt_succ_self _,
        forall_mem_concat marked.paired fun _ same => by simp [digits] at same,
        forall_mem_concat marked.unpaired fun _ => beyond, List.pairwise_append.mpr
          ⟨marked.apart, List.pairwise_singleton _ _, fun first member second last here _ => ?_⟩⟩
      obtain rfl := List.mem_singleton.mp last
      exact older first member (by simp [here])
  | @known _ _ _ foreign found =>
      have member := MarkerTable.mem_of_marker? found
      refine ⟨marked.sound, forall_mem_concat marked.inside fun _ => marked.sound.known _ member,
        forall_mem_concat marked.paired fun _ same => ?_,
        forall_mem_concat marked.unpaired fun same => by simp [digits] at same,
        List.pairwise_append.mpr ⟨marked.apart, List.pairwise_singleton _ _, by simp [digits]⟩⟩
      obtain rfl : foreign = _ := Option.some.inj (Option.some.inj (digits.symm.trans same))
      exact member
  | @paired _ _ foreign missing =>
      have pairs : (table.pair foreign ⟨markers⟩).pairs = (foreign, ⟨markers⟩) :: table.pairs :=
        MarkerTable.Paired.pairs_pair foreign _ fun pair member =>
          ⟨MarkerTable.marker?_eq_none_iff.mp missing pair member, beyond pair member⟩
      refine ⟨(marked.sound.mono (Nat.le_succ _)).pair foreign (Nat.lt_succ_self _),
        forall_mem_concat (fun entry member given =>
          Nat.lt_succ_of_lt (marked.inside entry member given)) fun _ => Nat.lt_succ_self _,
        forall_mem_concat (fun entry member other same => ?_) fun other same => ?_,
        forall_mem_concat (fun entry member none_ pair paired => ?_) fun same => by
          simp [digits] at same,
        List.pairwise_append.mpr ⟨marked.apart, List.pairwise_singleton _ _, by simp [digits]⟩⟩
      · rw [pairs]
        exact List.mem_cons_of_mem _ (marked.paired entry member other same)
      · rw [pairs]
        obtain rfl : foreign = other := Option.some.inj (Option.some.inj (digits.symm.trans same))
        exact List.mem_cons_self
      · rw [pairs] at paired
        rcases List.mem_cons.mp paired with rfl | former
        · exact (older entry member (by simp [none_])).symm
        · exact marked.unpaired entry member none_ pair former

/-- Two concepts are designated by one marker exactly if they are the same concept or have the same
digits. -/
theorem same_iff (marked : Marked drawn table markers) {first second : Nat}
    {one other : InlineConcept × MarkerId} {digits digits' : Option String}
    (here : drawn[first]? = some one) (there : drawn[second]? = some other)
    (read : one.1.digits? = some digits) (read' : other.1.digits? = some digits') :
    one.2 = other.2 ↔ first = second ∨ digits = digits' ∧ digits ≠ none := by
  have member := List.mem_of_getElem? here
  have member' := List.mem_of_getElem? there
  by_cases place : first = second
  · subst place
    obtain rfl : one = other := Option.some.inj (here.symm.trans there)
    exact iff_of_true rfl (.inl rfl)
  -- Different places share a marker only if both read the same identifier.
  simp only [place, false_or]
  cases digits with
  | none =>
      refine iff_of_false (fun same => ?_) (by simp)
      cases digits' with
      | none =>
          obtain ⟨inside, rfl⟩ := List.getElem?_eq_some_iff.mp here
          obtain ⟨inside', rfl⟩ := List.getElem?_eq_some_iff.mp there
          rcases Nat.lt_or_gt_of_ne place with before | after
          · exact List.pairwise_iff_getElem.mp marked.apart _ _ inside inside' before read read'
              same
          · exact List.pairwise_iff_getElem.mp marked.apart _ _ inside' inside after read' read
              same.symm
      | some foreign =>
          have paired := marked.paired other member' foreign read'
          exact marked.unpaired one member read _ paired same.symm
  | some foreign =>
      have paired := marked.paired one member foreign read
      cases digits' with
      | none => exact iff_of_false (marked.unpaired other member' read' _ paired) (by simp)
      | some foreign' =>
          have paired' := marked.paired other member' foreign' read'
          have distinct := marked.sound.toDistinct
          rw [← distinct.foreignId?_eq_some_iff] at paired paired'
          constructor
          · intro same
            rw [same] at paired
            exact ⟨paired.symm.trans paired', by simp⟩
          · rintro ⟨same, -⟩
            cases same
            rw [distinct.foreignId?_eq_some_iff, ← distinct.marker?_eq_some_iff] at paired paired'
            exact Option.some.inj (paired.symm.trans paired')

end Marked

/-! ## Models -/

namespace Model

variable {model : Model} {arcs : List ChainArc}

/-- A concept of the outermost graph is as it is written, with a marker. -/
def ShowsConcept (model : Model) (entry : InlineConcept × MarkerId) (id : ConceptId) : Prop :=
  ∃ type, model.hierarchy.concepts.label? type = some entry.1.type ∧
    model.concept id =
      { type := some type, referent := entry.1.referent entry.2, comment := entry.1.comment
        graph := some ⟨0⟩ }

/-- The relation at a place of a chain is as it is written, between the two concepts beside it. -/
def ShowsArc (model : Model) (arc : ChainArc) (place : Nat) : Prop :=
  ∃ type, model.hierarchy.relations.label? type = some arc.type ∧
    model.relation ⟨place⟩ =
      { type := some type, args := arc.direction.order ⟨place⟩ ⟨place + 1⟩, comment := arc.comment
        graph := some ⟨0⟩ }

/-- A model has one graph, in which there are the concepts and the relations of a chain that have
been read so far and nothing else. -/
structure Draws (model : Model) (table : MarkerTable) (drawn : List (InlineConcept × MarkerId))
    (arcs : List ChainArc) : Prop where
  listed : model.Listed
  ready : model.hierarchy.Ready True
  graphs : model.graphs.size = 1
  comments : (model.graph ⟨0⟩).comments = []
  concepts : model.concepts.size = drawn.length
  relations : model.relations.size = arcs.length
  concept : ∀ place entry, drawn[place]? = some entry → model.ShowsConcept entry ⟨place⟩
  relation : ∀ place arc, arcs[place]? = some arc → model.ShowsArc arc place
  marked : Marked drawn table model.markers

variable {drawn : List (InlineConcept × MarkerId)} {table later : MarkerTable} {more : Nat}
  {hierarchy : Hierarchy} {type : ConceptType} {kind : RelationType}

/-- A concept that has been placed last is given the rest of its data. -/
theorem modifyConcept_placed {data : Concept} {graph : GraphId} {change : Concept → Concept}
    (keeps : change { data with graph := some graph } =
      { change data with graph := some graph }) :
    (model.placed data graph).modifyConcept ⟨model.concepts.size⟩ change =
      model.placed (change data) graph := by
  unfold placed modifyConcept modifyGraph
  simp only [modify_push, keeps]

theorem ShowsConcept.mono {copy : Model} {entry : InlineConcept × MarkerId} {id : ConceptId}
    (shown : model.ShowsConcept entry id) (same : copy.concept id = model.concept id)
    (types : model.hierarchy.Extends copy.hierarchy) : copy.ShowsConcept entry id := by
  obtain ⟨type, named, data⟩ := shown
  refine ⟨type, ?_, same.trans data⟩
  rw [types.concepts.label type (Lattice.label?_of_lt named), named]

theorem ShowsArc.mono {copy : Model} {arc : ChainArc} {place : Nat}
    (shown : model.ShowsArc arc place) (same : copy.relation ⟨place⟩ = model.relation ⟨place⟩)
    (types : model.hierarchy.Extends copy.hierarchy) : copy.ShowsArc arc place := by
  obtain ⟨type, named, data⟩ := shown
  refine ⟨type, ?_, same.trans data⟩
  rw [types.relations.label type (Lattice.label?_of_lt named), named]

namespace Draws

/-- New types leave what has been read as it is. -/
theorem retype (draws : model.Draws table drawn arcs) (types : model.hierarchy.Extends hierarchy)
    (ready : hierarchy.Ready True) :
    ({ model with hierarchy } : Model).Draws table drawn arcs where
  listed := draws.listed.of_eq rfl (fun _ => rfl) (fun _ => rfl) (fun _ => rfl) fun _ => rfl
  ready := ready
  graphs := draws.graphs
  comments := draws.comments
  concepts := draws.concepts
  relations := draws.relations
  concept place entry here := (draws.concept place entry here).mono rfl types
  relation place arc here := (draws.relation place arc here).mono rfl types
  marked := draws.marked

/-- One more concept has been read. -/
theorem place (draws : model.Draws table drawn arcs)
    (named : model.hierarchy.concepts.label? type = some concept.type)
    (marks : table.Marks concept.digits? model.markers marker later more) :
    (({ model with markers := more } : Model).placed
      { type := some type, referent := concept.referent marker, comment := concept.comment }
      ⟨0⟩).Draws later (drawn ++ [(concept, marker)]) arcs where
  listed := by
    have same : ({ model with markers := more } : Model).Listed :=
      draws.listed.of_eq rfl (fun _ => rfl) (fun _ => rfl) (fun _ => rfl) fun _ => rfl
    exact same.placed (by simp [draws.graphs])
  ready := draws.ready
  graphs := by simp [draws.graphs]
  comments := by
    rw [comments_placed (by simp [draws.graphs])]
    exact draws.comments
  concepts := by simp [draws.concepts]
  relations := draws.relations
  concept place entry here := by
    have size : model.concepts.size = drawn.length := draws.concepts
    rw [List.getElem?_append] at here
    split at here
    · next inside =>
      refine (draws.concept place entry here).mono ?_ (.refl _)
      exact concept_placed_of_lt (by rw [← size] at inside; exact inside)
    · next outside =>
      obtain ⟨inside, rfl⟩ := List.getElem?_eq_some_iff.mp here
      obtain rfl : place = drawn.length := by
        simp only [List.length_singleton] at inside
        omega
      refine ⟨type, by simpa using named, ?_⟩
      rw [concept_placed, if_pos size.symm]
      simp
  relation place arc here := (draws.relation place arc here).mono rfl (.refl _)
  marked := draws.marked.mark marks

/-- One more relation has been read, between the last two concepts. -/
theorem relate {arc : ChainArc} (draws : model.Draws table drawn arcs)
    (named : model.hierarchy.relations.label? kind = some arc.type) :
    (model.related
      { type := some kind, args := arc.direction.order ⟨arcs.length⟩ ⟨arcs.length + 1⟩
        comment := arc.comment } ⟨0⟩).Draws table drawn (arcs ++ [arc]) where
  listed := draws.listed.related (by simp [draws.graphs])
  ready := draws.ready
  graphs := by simp [draws.graphs]
  comments := by
    rw [graph_related (by simp [draws.graphs]), if_pos rfl]
    exact draws.comments
  concepts := draws.concepts
  relations := by simp [draws.relations]
  concept place entry here := (draws.concept place entry here).mono rfl (.refl _)
  relation place other here := by
    have size : model.relations.size = arcs.length := draws.relations
    rw [List.getElem?_append] at here
    split at here
    · next inside =>
      refine (draws.relation place other here).mono ?_ (.refl _)
      exact relation_related_of_lt (by rw [← size] at inside; exact inside)
    · next outside =>
      obtain ⟨inside, rfl⟩ := List.getElem?_eq_some_iff.mp here
      obtain rfl : place = arcs.length := by
        simp only [List.length_singleton] at inside
        omega
      refine ⟨kind, by simpa using named, ?_⟩
      rw [relation_related, if_pos size.symm]
      simp
  marked := draws.marked

end Draws

end Model

end ConceptualGraph
