/-
Module: ConceptualGraph.Proofs.Reading.Hierarchy
Purpose: Reading extends the hierarchy and changes nothing in it, whether it succeeds or fails.
Main exports: Hierarchy.Ordered, Hierarchy.Conserves, Juncture.Leads.conserves,
  Session.conserves_of_parsed
-/
import ConceptualGraph.Proofs.Lattice.Additions
import ConceptualGraph.Proofs.Reading.Parsed

section

open Relation (ReflTransGen)

namespace ConceptualGraph

/-! ## One move -/

namespace Hierarchy

/-- Both lattices are ordered. -/
structure Ordered (hierarchy : Hierarchy) : Prop where
  concepts : hierarchy.concepts.Ordered
  relations : hierarchy.relations.Ordered

/-- A hierarchy goes on from another.  New types that a text names are made only on demand, but
for the type of negations. -/
structure Conserves (options : Options) (hierarchy later : Hierarchy) : Prop where
  concepts : hierarchy.concepts.Conserves (fun _ => options.createTypesOnDemand = true)
    later.concepts
  relations : hierarchy.relations.Conserves
    (fun label => options.createTypesOnDemand = true ∨ label = Read.negationLabel) later.relations

variable {options : Options} {setting : Setting} {hierarchy later last : Hierarchy}

theorem Conserves.refl (hierarchy : Hierarchy) : hierarchy.Conserves options hierarchy :=
  ⟨.refl _, .refl _⟩

theorem Conserves.trans (ordered : hierarchy.Ordered) (first : hierarchy.Conserves options later)
    (second : later.Conserves options last) : hierarchy.Conserves options last :=
  ⟨first.concepts.trans ordered.concepts second.concepts,
    first.relations.trans ordered.relations second.relations⟩

/-- One type that a text names or defines leaves the lattices ordered and conserves them. -/
theorem Extended.conserves (extended : hierarchy.Extended setting later)
    (ordered : hierarchy.Ordered) :
    later.Ordered ∧ hierarchy.Conserves setting.options later := by
  obtain ⟨concepts, relations⟩ := ordered
  rcases extended with named | @⟨definition, _, defined⟩
  · cases named with
    | conceptType allowed created =>
        exact ⟨⟨concepts.createOnDemand created, relations⟩,
          .createOnDemand concepts allowed created, .refl _⟩
    | relationType allowed created =>
        exact ⟨⟨concepts, relations.createOnDemand created⟩,
          .refl _, .createOnDemand relations (.inl allowed) created⟩
    | negationType created =>
        have conserves : hierarchy.relations.Conserves (fun label =>
            setting.options.createTypesOnDemand = true ∨ label = Read.negationLabel) _ :=
          .createOnDemand relations (.inr rfl) created
        have still := relations.createOnDemand created
        obtain ⟨rfl, -, -⟩ := Lattice.eq_of_createOnDemand created
        exact ⟨⟨concepts, still.modify fun _ => rfl⟩, .refl _,
          conserves.setValence (Nat.le_refl _) 1⟩
  · cases defined with
    | concept one =>
        exact ⟨⟨concepts.createDefined definition, relations⟩,
          .createDefined concepts definition, .refl _⟩
    | relation =>
        exact ⟨⟨concepts, (relations.createDefined definition).modify fun _ => rfl⟩, .refl _,
          (Lattice.Conserves.createDefined relations definition).setValence (Nat.le_refl _) _⟩

end Hierarchy

/-- Only an edit that names a type changes the hierarchy. -/
theorem Model.Edited.hierarchy {setting : Setting} {home : Option GraphId} {model later : Model}
    (edited : model.Edited setting home later) :
    later.hierarchy = model.hierarchy ∨ model.hierarchy.Named setting later.hierarchy := by
  cases edited with
  | retype named => exact .inr named
  | _ => exact .inl rfl

namespace Juncture

variable {setting : Setting} {defines : Prop} {juncture later : Juncture}

/-- A move that changes the hierarchy names a type, or makes one of a definition, where such may be
entered, whose parameters are linked. -/
theorem Moves.hierarchy_cases (moves : Moves setting defines juncture later) :
    later.reader.model.hierarchy = juncture.reader.model.hierarchy ∨
      juncture.reader.model.hierarchy.Named setting later.reader.model.hierarchy ∨
      ∃ (declared : List Read.Declared) (definition : Definition), defines ∧
        declared.mapM (Read.linkParameter definition.body) juncture.reader =
          .ok definition.parameters juncture.reader ∧
        juncture.reader.model.hierarchy.Defined definition later.reader.model.hierarchy := by
  cases moves with
  | edit edited => exact edited.hierarchy.imp_right .inl
  | mark foreign =>
      refine .inl ?_
      change (MarkerTable.markerFor _ _ _).2.2.hierarchy = _
      unfold MarkerTable.markerFor
      split <;> rfl
  | refer => exact .inl (Model.hierarchy_setReferent _)
  | join denotes seated added =>
      rcases Model.eq_of_addToCorefSet added with ⟨-, rfl⟩ | ⟨-, rfl⟩ <;> exact .inl rfl
  | @define home =>
      refine .inl ?_
      cases home <;> rfl
  | conclude allowed linked defined => exact .inr (.inr ⟨_, _, allowed, linked, defined⟩)
  | _ => exact .inl rfl

/-- A move leaves the hierarchy or extends it as the setting allows. -/
theorem Moves.hierarchy (moves : Moves setting defines juncture later) :
    later.reader.model.hierarchy = juncture.reader.model.hierarchy ∨
      juncture.reader.model.hierarchy.Extended setting later.reader.model.hierarchy := by
  rcases moves.hierarchy_cases with same | named | ⟨_, _, _, _, defined⟩
  · exact .inl same
  · exact .inr (.named named)
  · exact .inr (.defined defined)

/-! ## Any number of moves -/

/-- However reading goes on, the hierarchy is ordered and goes on from what it was. -/
theorem Leads.conserves (leads : Leads setting defines juncture later)
    (ordered : juncture.reader.model.hierarchy.Ordered) :
    later.reader.model.hierarchy.Ordered ∧
      juncture.reader.model.hierarchy.Conserves setting.options later.reader.model.hierarchy := by
  induction leads with
  | refl => exact ⟨ordered, .refl _⟩
  | tail _ moves ih =>
      obtain ⟨still, conserves⟩ := ih
      rcases moves.hierarchy with same | extended
      · rw [same]
        exact ⟨still, conserves⟩
      · have ⟨kept, further⟩ := extended.conserves still
        exact ⟨kept, conserves.trans ordered further⟩

/-- Where the lattices are ordered, a type that a text names can always be made. -/
theorem Refused.not_hierarchy {cause : HierarchyError}
    (ordered : juncture.reader.model.hierarchy.Ordered) :
    ¬juncture.Refused setting (.hierarchy cause) := by
  intro refused
  cases refused with
  | conceptType missing refused =>
      rw [ordered.concepts.createOnDemand_ok missing] at refused
      cases refused
  | relationType missing refused =>
      rw [ordered.relations.createOnDemand_ok missing] at refused
      cases refused

end Juncture

/-! ## Calls -/

namespace Session

variable {session : Session} {model later : Model} {form : Notation} {failure : Option Error}

/-- What a call reads leaves the hierarchy ordered, conserves it, and never fails for a reason
that lies in the hierarchy alone. -/
theorem ordered_of_parsed (parsed : session.Parsed model form later failure)
    (ordered : model.hierarchy.Ordered) :
    later.hierarchy.Ordered ∧ model.hierarchy.Conserves session.options later.hierarchy ∧
      ∀ cause, failure ≠ some (.hierarchy cause) := by
  obtain ⟨homes, start, last, rfl, rfl, -, path, refused⟩ := comes_of_parsed parsed
  have ⟨still, conserves⟩ := path.conserves ordered
  refine ⟨still, conserves, fun cause failed => ?_⟩
  obtain ⟨stuck, before, holds⟩ := refused cause failed
  exact Juncture.Refused.not_hierarchy (before.conserves ordered).1 holds

/-- Whatever a call reads, and whether it succeeds or fails, every type that was there keeps its
label, its valence, its definition and its parents, but that the bottom type gains parents, and
of two such types the one is below the other as before.  Every labelled type that is new has the
top type for its only parent and the bottom type for its only child, and where types are not made
on demand it is the type of negations. -/
theorem conserves_of_parsed (concepts : model.hierarchy.concepts.Reached)
    (relations : model.hierarchy.relations.Reached)
    (parsed : session.Parsed model form later failure) :
    model.hierarchy.Conserves session.options later.hierarchy ∧
      (∀ low ∈ model.hierarchy.concepts.types, ∀ high ∈ model.hierarchy.concepts.types,
        later.hierarchy.concepts.isSubtype low high =
          model.hierarchy.concepts.isSubtype low high) ∧
      (∀ low ∈ model.hierarchy.relations.types, ∀ high ∈ model.hierarchy.relations.types,
        later.hierarchy.relations.isSubtype low high =
          model.hierarchy.relations.isSubtype low high) ∧
      (session.options.createTypesOnDemand = false →
        (∀ type label, later.hierarchy.concepts.label? type = some label →
          type ∈ model.hierarchy.concepts.types) ∧
        ∀ type label, later.hierarchy.relations.label? type = some label →
          type ∈ model.hierarchy.relations.types ∨ label = "Neg") := by
  have ordered : model.hierarchy.Ordered := ⟨concepts.ordered, relations.ordered⟩
  have ⟨still, conserves, _⟩ := ordered_of_parsed parsed ordered
  refine ⟨conserves, fun low lower high upper => ?_, fun low lower high upper => ?_,
    fun closed => ⟨fun type label labelled => ?_, fun type label labelled => ?_⟩⟩
  · exact conserves.concepts.isSubtype_eq ordered.concepts still.concepts
      (Lattice.mem_types.mp lower) (Lattice.mem_types.mp upper)
  · exact conserves.relations.isSubtype_eq ordered.relations still.relations
      (Lattice.mem_types.mp lower) (Lattice.mem_types.mp upper)
  -- A type that was not there before has been made on demand, which the options forbid.
  · by_contra new
    have outside := Nat.le_of_not_lt fun inside => new (Lattice.mem_types.mpr inside)
    have ⟨_, _, demanded⟩ := conserves.concepts.added type label outside labelled
    rw [closed] at demanded
    cases demanded
  · by_cases inside : type.index < model.hierarchy.relations.size
    · exact .inl (Lattice.mem_types.mpr inside)
    · have ⟨_, _, named⟩ :=
        conserves.relations.added type label (Nat.le_of_not_lt inside) labelled
      rw [closed] at named
      exact .inr (named.resolve_left Bool.false_ne_true)

/-- A text that negates a graph and then names a type that is not there: the reading fails, and
the type of negations remains, between the extremes and beside a type declared before. -/
theorem conserves_of_parsed_negation :
    let declared : Hierarchy :=
      { relations := (Lattice.Call.create "On" [] []).after (.withExtremes "Link" "AbsurdLink") }
    let session : Session := .withOptions { createTypesOnDemand := false }
    let later := (Call.graph.after session { hierarchy := declared } .cgif
      "~[[Universal]] [Cat]").2.hierarchy.relations
    let on : RelationType := ⟨2⟩
    Call.graph.failure? session { hierarchy := declared } .cgif "~[[Universal]] [Cat]" ≠ none ∧
      later.size = 4 ∧ later.label? ⟨3⟩ = some "Neg" ∧ (later.node ⟨3⟩).parents = [Lattice.top] ∧
      later.label? on = some "On" ∧ (later.node on).parents = [Lattice.top] ∧
      later.isSubtype on Lattice.top = true := by
  intro declared session later on
  have relations : declared.relations.Reached :=
    .call (.create "On" [] []) (by decide +kernel) (.start "Link" "AbsurdLink")
  have concepts : declared.concepts.Reached := .start "Universal" "Absurd"
  have parsed : session.Parsed { hierarchy := declared } .cgif _ _ :=
    .text .graph "~[[Universal]] [Cat]"
  have ⟨conserves, _, subtypes, new⟩ := conserves_of_parsed concepts relations parsed
  have neg : later.label? ⟨3⟩ = some "Neg" := by decide +kernel
  have added := conserves.relations.added ⟨3⟩ "Neg" (by decide +kernel) neg
  refine ⟨by decide +kernel, by decide +kernel, neg, added.1, ?_, ?_, ?_⟩
  · rw [conserves.relations.label on (by decide +kernel)]
    decide +kernel
  · rw [conserves.relations.parents on (by decide +kernel) (by decide)]
    decide +kernel
  · rw [subtypes on (by decide +kernel) _ (by decide +kernel)]
    decide +kernel

end Session

end ConceptualGraph

end
