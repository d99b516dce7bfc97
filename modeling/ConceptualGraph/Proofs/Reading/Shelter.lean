/-
Module: ConceptualGraph.Proofs.Reading.Shelter
Purpose: Where no definition is read, what a label denotes shows itself in a graph around the one
  that is read.
Main exports: ScopeEntry.Anchored, Model.Shelters, Juncture.Sheltered, Juncture.Moves.retainsSets,
  Juncture.Leads.sheltered
-/
import ConceptualGraph.Proofs.Reading.Moves
import ConceptualGraph.Proofs.Reading.Scope

section

open Relation (ReflTransGen)

namespace ConceptualGraph

/-! ## Labels and graphs -/

/-- Whether the concept that an entry binds, or that defines the set that it binds, stands in a
graph or in one around it. -/
def ScopeEntry.Anchored (model : Model) (home : GraphId) : ScopeEntry → Prop
  | .boundary => True
  | .binding _ (.concept concept) => model.Anchors home concept
  | .binding _ (.set set) =>
      set.index < model.corefSets.size ∧ model.Anchors home (model.corefSet set).defining

/-- The contexts of a scope are those of the graphs that are being read, the innermost first: in
each of them, all that is bound there and further out is anchored in the graph. -/
inductive Model.Shelters (model : Model) : List (Option GraphId) → List ScopeEntry → Prop
  | outside : Shelters model [] []
  | level {home : GraphId} {homes : List (Option GraphId)} {bound scope : List ScopeEntry}
      (made : home.index < model.graphs.size) (inner : .boundary ∉ bound)
      (anchored : ∀ entry ∈ bound ++ scope, entry.Anchored model home)
      (outer : Shelters model homes scope) :
      Shelters model (some home :: homes) (bound ++ .boundary :: scope)

namespace Model

variable {model later : Model} {home inner : GraphId} {homes : List (Option GraphId)}
  {concept : ConceptId} {entry : ScopeEntry} {scope : List ScopeEntry}

namespace Anchors

theorem here (stands : (model.concept concept).graph = some home)
    (visible : (model.concept concept).hidden = false) : model.Anchors home concept :=
  ⟨home, stands, visible, by cases home.index <;> simp [climbsTo]⟩

/-- An anchor endures with its model. -/
theorem endures (anchors : model.Anchors home concept) (endures : model.Endures later) :
    later.Anchors home concept := by
  obtain ⟨outer, stands, visible, climbs⟩ := anchors
  exact ⟨outer, endures.stands _ _ stands, endures.visible _ (by simp [stands]) visible,
    endures.toPersists.climbsTo (Nat.le_refl _) climbs⟩

/-- What is anchored in a graph is so in one inside it that was made later. -/
theorem inward (anchors : model.Anchors home concept) (lies : model.LiesIn inner home)
    (earlier : home.index < inner.index) : model.Anchors inner concept := by
  obtain ⟨outer, stands, visible, climbs⟩ := anchors
  refine ⟨outer, stands, visible, ?_⟩
  have parent : model.parent? inner = some home := lies
  obtain ⟨steps, count⟩ : ∃ steps, inner.index = steps + 1 := ⟨inner.index - 1, by omega⟩
  have further := (Persists.refl model).climbsTo (by omega : home.index ≤ steps) climbs
  simp [count, climbsTo, parent, further]

/-- A concept of a graph may join a set whose defining member is anchored there. -/
theorem inScope {set : CorefSet} (anchors : model.Anchors home set.defining)
    (stands : (model.concept concept).graph = some home) (made : home.index < model.graphs.size) :
    model.inScope set concept = true := by
  obtain ⟨outer, defined, -, climbs⟩ := anchors
  simp only [Model.inScope, stands, defined, isNestedIn]
  exact (Persists.refl model).climbsTo (Nat.le_of_lt made) climbs

end Anchors

end Model

/-- What an entry binds stays where it is anchored. -/
theorem ScopeEntry.Anchored.endures {model later : Model} {home : GraphId} {entry : ScopeEntry}
    (anchored : entry.Anchored model home) (endures : model.Endures later)
    (retains : model.RetainsSets later) : entry.Anchored later home := by
  cases entry with
  | boundary => exact True.intro
  | binding label target =>
      cases target with
      | concept concept => exact Model.Anchors.endures anchored endures
      | set set =>
          obtain ⟨within, anchors⟩ := anchored
          have ⟨still, same⟩ := retains set within
          exact ⟨still, by rw [same]; exact anchors.endures endures⟩

namespace Model.Shelters

variable {model later : Model} {home inner : GraphId} {homes : List (Option GraphId)}
  {entry : ScopeEntry} {scope : List ScopeEntry}

/-- All that is bound is anchored in the graph that is being read. -/
theorem anchored (shelters : model.Shelters (some home :: homes) scope) :
    ∀ entry ∈ scope, entry.Anchored model home := by
  cases shelters with
  | level made inner anchored outer =>
      intro entry member
      rcases List.mem_append.mp member with near | further
      · exact anchored entry (List.mem_append_left _ near)
      · rcases List.mem_cons.mp further with rfl | further
        · exact True.intro
        · exact anchored entry (List.mem_append_right _ further)

/-- The graph that shelters labels is one of the model. -/
theorem made (shelters : model.Shelters (some home :: homes) scope) :
    home.index < model.graphs.size := by
  cases shelters with
  | level made inner anchored outer => exact made

/-- Entries are replaced by others that are anchored wherever they were. -/
theorem map {change : ScopeEntry → ScopeEntry} (shelters : model.Shelters homes scope)
    (labels : ∀ entry, (change entry).label? = entry.label?)
    (graphs : model.graphs.size ≤ later.graphs.size)
    (keeps : ∀ entry ∈ scope, ∀ home, entry.Anchored model home →
      (change entry).Anchored later home) : later.Shelters homes (scope.map change) := by
  induction shelters with
  | outside => exact .outside
  | @level home homes bound scope made inner anchored outer ih =>
      have edge : change .boundary = .boundary :=
        ScopeEntry.label?_eq_none.mp (labels .boundary)
      rw [List.map_append, List.map_cons, edge]
      refine .level (Nat.lt_of_lt_of_le made graphs) ?_ ?_ (ih ?_)
      · intro member
        obtain ⟨entry, there, same⟩ := List.mem_map.mp member
        have none : entry.label? = none := by rw [← labels, same]; rfl
        exact inner (ScopeEntry.label?_eq_none.mp none ▸ there)
      · rw [← List.map_append]
        intro entry member
        obtain ⟨former, there, rfl⟩ := List.mem_map.mp member
        refine keeps former ?_ home (anchored former there)
        simp only [List.mem_append, List.mem_cons] at there ⊢
        tauto
      · exact fun entry member =>
          keeps entry (List.mem_append_right _ (List.mem_cons_of_mem _ member))

/-- While nothing is bound, nothing changes. -/
theorem endures (shelters : model.Shelters homes scope) (endures : model.Endures later)
    (retains : model.RetainsSets later) : later.Shelters homes scope := by
  rw [← List.map_id scope]
  refine shelters.map (fun _ => rfl) endures.graphs fun entry _ home anchored => ?_
  exact anchored.endures endures retains

/-- A label is bound in the innermost context. -/
theorem bind (shelters : model.Shelters (some home :: homes) scope) {label : String}
    {target : Target} (anchored : (ScopeEntry.binding label target).Anchored model home) :
    model.Shelters (some home :: homes) (.binding label target :: scope) := by
  cases shelters with
  | @level _ _ bound scope made inner others outer =>
      rw [← List.cons_append]
      refine .level made ?_ ?_ outer
      · simpa using inner
      · rintro entry (_ | ⟨_, member⟩)
        · exact anchored
        · exact others entry member

/-- A graph begins inside the one that is being read. -/
theorem push (shelters : model.Shelters (some home :: homes) scope) (lies : model.LiesIn inner home)
    (earlier : home.index < inner.index) (made : inner.index < model.graphs.size) :
    model.Shelters (some inner :: some home :: homes) (.boundary :: scope) := by
  rw [← List.nil_append (.boundary :: scope)]
  refine .level made List.not_mem_nil (fun entry member => ?_) shelters
  have anchored := shelters.anchored entry member
  cases entry with
  | boundary => exact True.intro
  | binding label target =>
      cases target with
      | concept concept => exact Model.Anchors.inward anchored lies earlier
      | set set => exact ⟨anchored.1, anchored.2.inward lies earlier⟩

/-- The innermost context is closed. -/
theorem pop (shelters : model.Shelters (some home :: homes) scope)
    (names : List (Target × String)) :
    model.Shelters homes (LabelTable.unwind scope names).1 := by
  cases shelters with
  | level made inner anchored outer =>
      rw [LabelTable.unwind_append inner]
      exact outer

end Model.Shelters

/-! ## One move -/

/-- Edits leave the coreference sets alone. -/
theorem Model.Edited.corefSets {setting : Setting} {home : Option GraphId} {model later : Model}
    (edited : model.Edited setting home later) : later.corefSets = model.corefSets := by
  cases edited <;> rfl

namespace Juncture

variable {setting : Setting} {defines : Prop} {juncture later : Juncture}

/-- Labels are bound once each, in the contexts of the graphs that are being read, and all that
they denote is anchored there. -/
structure Sheltered (juncture : Juncture) : Prop where
  distinct : juncture.reader.labels.Distinct
  shelters : juncture.reader.model.Shelters juncture.homes juncture.reader.labels.scope

/-- No move takes a member out of a set. -/
theorem Moves.retainsSets (moves : Moves setting defines juncture later) :
    juncture.reader.model.RetainsSets later.reader.model := by
  cases moves with
  | edit edited => exact .of_eq edited.corefSets
  | mark foreign =>
      refine .of_eq ?_
      change (MarkerTable.markerFor _ _ _).2.2.corefSets = _
      unfold MarkerTable.markerFor
      split <;> rfl
  | promote denotes => exact .newCorefSet _ _
  | join denotes seated added => exact .addToCorefSet added
  | @define home =>
      refine .of_eq ?_
      cases home <;> rfl
  | refer seated owned anchored => exact .of_eq (Read.setReferent_corefSets _ _ _)
  | enter | beginBody | conclude => exact .of_eq rfl
  | _ => exact .refl _

/-- Where no definition is read, every move keeps what labels denote anchored. -/
theorem Moves.sheltered (moves : Moves setting defines juncture later) (without : ¬defines)
    (sheltered : juncture.Sheltered) : later.Sheltered := by
  obtain ⟨distinct, shelters⟩ := sheltered
  have endures := moves.endures
  have retains := moves.retainsSets
  cases moves with
  | past | edit | mark | join | refer => exact ⟨distinct, shelters.endures endures retains⟩
  | @define home homes reader label type unbound =>
      refine ⟨distinct.bind _ _, ?_⟩
      have fresh : reader.labels.target? label = none :=
        LabelTable.target?_eq_none.mpr unbound
      simp only [Reader.withLabels, LabelTable.bind, fresh]
      cases home with
      | none => cases shelters
      | some home =>
          refine (shelters.endures endures retains).bind (Model.Anchors.here ?_ ?_)
          · exact Model.seats_conceive reader.model (some home) type home rfl
          · exact Model.hidden_conceive reader.model (some home) type
  | @promote homes reader label concept denotes =>
      refine ⟨distinct.bind _ _, ?_⟩
      simp only [Reader.withLabels, LabelTable.bind, denotes]
      refine shelters.map (LabelTable.label?_retarget _ _) endures.graphs ?_
      intro entry member home anchored
      unfold LabelTable.retarget
      split
      · next binds =>
        -- Only one entry binds the label, so it is the one that denotes the concept.
        cases entry with
        | boundary => cases binds
        | binding bound former =>
            obtain rfl : bound = label := by simpa [ScopeEntry.binds] using binds
            have same := (LabelTable.target?_eq_some_iff distinct).mpr member
            obtain rfl : former = .concept concept := Option.some.inj (same.symm.trans denotes)
            obtain ⟨within, defines⟩ := Read.newCorefSet_defines reader.model concept
            exact ⟨within, defines.symm ▸ Model.Anchors.endures anchored endures⟩
      · exact anchored.endures endures retains
  | @enter home homes reader owner seated =>
      refine ⟨distinct.push, ?_⟩
      cases home with
      | none => cases shelters
      | some home =>
          have lies : (reader.model.newGraph (some owner)).2.LiesIn
              (reader.model.newGraph (some owner)).1 home := by
            simp [Model.LiesIn, Model.parent?, Model.graph_newGraph, Model.concept_newGraph,
              seated home rfl]
          have around := shelters.endures endures retains
          exact around.push lies (by simpa using shelters.made) (by simp)
  | @leave home homes reader =>
      refine ⟨distinct.pop, ?_⟩
      cases home with
      | none => cases shelters
      | some home => exact shelters.pop _
  | beginDefinition allowed | beginBody allowed | endBody allowed | conclude allowed =>
      exact absurd allowed without

/-! ## Any number of moves -/

/-- Where no definition is read, all that labels denote is anchored in the graphs that are being
read, however reading goes on. -/
theorem Leads.sheltered (leads : Leads setting defines juncture later) (without : ¬defines)
    (sheltered : juncture.Sheltered) : later.Sheltered := by
  induction leads with
  | refl => exact sheltered
  | tail _ moves ih => exact moves.sheltered without ih

end Juncture

end ConceptualGraph

end
