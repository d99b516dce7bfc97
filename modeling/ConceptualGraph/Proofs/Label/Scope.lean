/-
Module: ConceptualGraph.Proofs.Label.Scope
Purpose: What happens to the scope of a table of labels while a text is read: labels are
  bound in the contexts that are open, and a label that denotes a concept may come to
  denote a coreference set that the concept defines.
Main exports: LabelTable.Reachable, LabelTable.Distinct, LabelTable.Follows,
  LabelTable.Restored, LabelTable.Follows.pop
-/
import ConceptualGraph.LabelTable
import ConceptualGraph.Model
import Mathlib.Data.List.Forall2

namespace ConceptualGraph

/-! ## Tables that operations lead to -/

/-- The label that an entry binds. -/
def ScopeEntry.label? : ScopeEntry → Option String
  | .boundary => none
  | .binding label _ => some label

theorem ScopeEntry.label?_eq_none {entry : ScopeEntry} :
    entry.label? = none ↔ entry = .boundary := by
  cases entry <;> simp [label?]

theorem ScopeEntry.binds_iff {label : String} {entry : ScopeEntry} :
    entry.binds label = true ↔ entry.label? = some label := by
  cases entry <;> simp [binds, label?]

namespace LabelTable

/-- A table to which the operations lead from an empty one.  Forgetting all labels
leads back to the empty table. -/
inductive Reachable : LabelTable → Prop
  | empty : Reachable {}
  | bind {table : LabelTable} (label : String) (target : Target) :
      Reachable table → Reachable (table.bind label target)
  | push {table : LabelTable} : Reachable table → Reachable table.push
  | pop {table : LabelTable} : Reachable table → Reachable table.pop
  | freshLabel {table : LabelTable} : Reachable table → Reachable table.freshLabel.2

/-- No label is bound twice. -/
def Distinct (table : LabelTable) : Prop :=
  (table.scope.filterMap ScopeEntry.label?).Nodup

theorem isBound_iff {table : LabelTable} {label : String} :
    table.isBound label = true ↔ label ∈ table.scope.filterMap ScopeEntry.label? := by
  simp only [isBound, List.any_eq_true, ScopeEntry.binds_iff, List.mem_filterMap]

/-- A label is bound exactly if it denotes something. -/
theorem target?_eq_none {table : LabelTable} {label : String} :
    table.target? label = none ↔ table.isBound label = false := by
  unfold target? isBound
  induction table.scope with
  | nil => simp
  | cons entry scope ih =>
      cases binds : entry.binds label with
      | false => simpa [binds] using ih
      | true => cases entry <;> simp_all [ScopeEntry.binds, ScopeEntry.target?]

/-- Where no label is bound twice, a label denotes the target of the entry that binds it. -/
theorem target?_eq_some_iff {table : LabelTable} (distinct : table.Distinct) {label : String}
    {target : Target} :
    table.target? label = some target ↔ .binding label target ∈ table.scope := by
  unfold Distinct at distinct
  unfold target?
  generalize table.scope = scope at distinct
  induction scope with
  | nil => simp
  | cons entry scope ih =>
      cases entry with
      | boundary =>
          rw [List.find?_cons_of_neg (by simp [ScopeEntry.binds])]
          simpa using ih distinct
      | binding bound denoted =>
          obtain ⟨apart, distinct⟩ := List.nodup_cons.mp distinct
          by_cases same : bound = label
          · subst same
            have others : ScopeEntry.binding bound target ∉ scope := fun member =>
              apart (List.mem_filterMap.mpr ⟨_, member, rfl⟩)
            rw [List.find?_cons_of_pos (by simp [ScopeEntry.binds])]
            simp [ScopeEntry.target?, others, eq_comm]
          · rw [List.find?_cons_of_neg (by simpa [ScopeEntry.binds] using same)]
            simpa [Ne.symm same] using ih distinct

theorem counter_bind {table : LabelTable} {label : String} {target : Target} :
    (table.bind label target).counter = table.counter := by
  unfold bind
  split <;> rfl

/-- Another target leaves the label of an entry. -/
theorem label?_retarget (label : String) (target : Target) (entry : ScopeEntry) :
    (retarget label target entry).label? = entry.label? := by
  unfold retarget
  split
  · next binds => exact (ScopeEntry.binds_iff.mp binds).symm
  · rfl

/-- The scope past the innermost boundary. -/
theorem unwind_suffix (scope : List ScopeEntry) (names : List (Target × String)) :
    (unwind scope names).1 <:+ scope := by
  induction scope generalizing names with
  | nil => exact List.suffix_rfl
  | cons entry scope ih =>
      cases entry with
      | boundary => exact List.suffix_cons _ _
      | binding label target => exact (ih _).trans (List.suffix_cons _ _)

theorem pop_scope (table : LabelTable) :
    table.pop.scope = (unwind table.scope table.names).1 := rfl

/-- What stands before the innermost boundary is unbound. -/
theorem unwind_append {bound : List ScopeEntry} (inner : .boundary ∉ bound)
    (scope : List ScopeEntry) (names : List (Target × String)) :
    (unwind (bound ++ .boundary :: scope) names).1 = scope := by
  induction bound generalizing names with
  | nil => rfl
  | cons entry bound ih =>
      cases entry with
      | boundary => exact absurd List.mem_cons_self inner
      | binding label target => exact ih (fun member => inner (List.mem_cons_of_mem _ member)) _

theorem filterMap_label? (scope : List ScopeEntry) :
    scope.filterMap ScopeEntry.label? = (scope.map ScopeEntry.label?).filterMap id := by
  rw [List.filterMap_map]
  rfl

/-- Boundaries are the entries without a label. -/
theorem count_boundary (scope : List ScopeEntry) :
    scope.count .boundary = (scope.map ScopeEntry.label?).count none := by
  rw [List.count_eq_countP, List.count_eq_countP, List.countP_map]
  refine List.countP_congr fun entry _ => ?_
  simp [ScopeEntry.label?_eq_none]

namespace Distinct

variable {table : LabelTable}

/-- Binding a label that is bound replaces its entry, so that no label has two. -/
theorem bind (distinct : table.Distinct) (label : String) (target : Target) :
    (table.bind label target).Distinct := by
  unfold LabelTable.bind
  split
  · next unbound =>
    have absent : label ∉ table.scope.filterMap ScopeEntry.label? := by
      rw [← isBound_iff, target?_eq_none.mp unbound]
      exact Bool.false_ne_true
    exact List.nodup_cons.mpr ⟨absent, distinct⟩
  · have same : ScopeEntry.label? ∘ retarget label target = ScopeEntry.label? :=
      funext (label?_retarget label target)
    simpa only [Distinct, List.filterMap_map, same] using distinct

theorem push (distinct : table.Distinct) : table.push.Distinct := distinct

theorem pop (distinct : table.Distinct) : table.pop.Distinct :=
  distinct.sublist ((unwind_suffix _ _).sublist.filterMap _)

end Distinct

/-- In every table that operations lead to, no label is bound twice. -/
theorem Reachable.distinct {table : LabelTable} (reachable : table.Reachable) :
    table.Distinct := by
  induction reachable with
  | empty => exact List.nodup_nil
  | bind label target _ ih => exact ih.bind label target
  | push _ ih => exact ih
  | pop _ ih => exact ih.pop
  | freshLabel _ ih => exact ih

end LabelTable

/-! ## Promotion

A label denotes a concept until a second concept turns out to be the same individual.
From then on it denotes a coreference set, and the concept defines the set. -/

/-- The coreference sets of a model are still there, under the concepts that define
them. -/
def Model.RetainsSets (model later : Model) : Prop :=
  ∀ set : CorefSetId, set.index < model.corefSets.size →
    set.index < later.corefSets.size ∧
      (later.corefSet set).defining = (model.corefSet set).defining

/-- An entry remains as it is, or its label is promoted from a concept to a set that the
concept defines. -/
inductive ScopeEntry.Kept (model : Model) : ScopeEntry → ScopeEntry → Prop
  | same (entry : ScopeEntry) : Kept model entry entry
  | promoted {label : String} {concept : ConceptId} {set : CorefSetId}
      (within : set.index < model.corefSets.size)
      (defines : (model.corefSet set).defining = concept) :
      Kept model (.binding label (.concept concept)) (.binding label (.set set))

namespace Model.RetainsSets

variable {model later last : Model}

theorem refl (model : Model) : model.RetainsSets model :=
  fun _ within => ⟨within, rfl⟩

theorem trans (first : model.RetainsSets later) (second : later.RetainsSets last) :
    model.RetainsSets last := fun set within =>
  have here := first set within
  have there := second set here.1
  ⟨there.1, there.2.trans here.2⟩

theorem of_eq (same : later.corefSets = model.corefSets) : model.RetainsSets later := by
  intro set within
  simp only [Model.corefSet, same]
  exact ⟨within, trivial⟩

/-- A new set does not touch the others. -/
theorem newCorefSet (model : Model) (defining : ConceptId) :
    model.RetainsSets (model.newCorefSet defining).2 := by
  intro set within
  simp only [Model.newCorefSet, Model.noteMembership, Model.modifyConcept, Model.corefSet,
    Array.size_push]
  exact ⟨by omega, by rw [Array.getElem?_push_lt within, Array.getElem?_eq_getElem within]⟩

/-- No set loses a member where one is added. -/
theorem addToCorefSet {set : CorefSetId} {concept : ConceptId}
    (added : model.addToCorefSet set concept = .ok later) : model.RetainsSets later := by
  unfold Model.addToCorefSet at added
  dsimp only at added
  split at added
  · cases added
    exact .refl _
  split at added
  · cases added
  cases added
  intro other within
  simp only [Model.noteMembership, Model.modifyConcept, Model.modifyCorefSet, Model.corefSet,
    Array.size_modify]
  refine ⟨within, ?_⟩
  rw [Array.getElem?_modify]
  split
  · cases model.corefSets[other.index]? <;> rfl
  · rfl

end Model.RetainsSets

namespace ScopeEntry

variable {model later : Model} {entry next last : ScopeEntry}

/-- An entry is kept in every later model that retains its sets. -/
theorem Kept.retained (kept : Kept model entry next) (retains : model.RetainsSets later) :
    Kept later entry next := by
  cases kept with
  | same => exact .same _
  | promoted within defines =>
      have there := retains _ within
      exact .promoted there.1 (there.2.trans defines)

theorem Kept.trans (first : Kept model entry next) (second : Kept model next last) :
    Kept model entry last := by
  cases first with
  | same => exact second
  | promoted within defines =>
      cases second with
      | same => exact .promoted within defines

theorem Kept.label?_eq (kept : Kept model entry next) : next.label? = entry.label? := by
  cases kept <;> rfl

variable {scope kept others : List ScopeEntry}

/-- Entries that are kept are boundaries, or bind their labels, where they were. -/
theorem Kept.map_label? (entries : List.Forall₂ (Kept model) scope kept) :
    kept.map label? = scope.map label? := by
  induction entries with
  | nil => rfl
  | cons entry _ ih => rw [List.map_cons, List.map_cons, ih, entry.label?_eq]

/-- Every entry that was kept is there, itself or promoted. -/
theorem Kept.exists_of_mem (entries : List.Forall₂ (Kept model) scope kept)
    (member : entry ∈ scope) : ∃ later ∈ kept, Kept model entry later := by
  induction entries with
  | nil => cases member
  | cons keeps _ ih =>
      rcases List.mem_cons.mp member with rfl | member
      · exact ⟨_, List.mem_cons_self, keeps⟩
      · obtain ⟨later, there, keeps⟩ := ih member
        exact ⟨later, List.mem_cons_of_mem _ there, keeps⟩

/-- A boundary is kept, and no other entry becomes one. -/
theorem Kept.boundary_mem (entries : List.Forall₂ (Kept model) scope kept) :
    .boundary ∈ kept ↔ .boundary ∈ scope := by
  have listed (entries : List ScopeEntry) : none ∈ entries.map label? ↔ .boundary ∈ entries := by
    simp only [List.mem_map, label?_eq_none, exists_eq_right]
  rw [← listed, ← listed, Kept.map_label? entries]

theorem Kept.forall₂_trans (first : List.Forall₂ (Kept model) scope kept)
    (second : List.Forall₂ (Kept model) kept others) : List.Forall₂ (Kept model) scope others := by
  induction first generalizing others with
  | nil => exact second
  | cons entry _ ih =>
      cases second with
      | cons next rest => exact .cons (entry.trans next) (ih rest)

end ScopeEntry

/-! ## Scopes before and after -/

namespace LabelTable

/-- A table follows another: the entries are still there, some of them promoted, after
a number of labels bound since in the innermost context, if `binding` allows any. -/
structure Follows (binding : Bool) (model : Model) (table later : LabelTable) : Prop where
  counter : later.counter = table.counter
  distinct : later.Distinct
  scope : ∃ bound, List.Forall₂ (ScopeEntry.Kept model) table.scope (later.scope.drop bound) ∧
    .boundary ∉ later.scope.take bound ∧ (binding = false → bound = 0)

/-- What a reading restores of a table: the open contexts, the number of labels tried as
fresh ones, the labels that are bound, and what they denote but for promotions. -/
structure Restored (model : Model) (table later : LabelTable) : Prop where
  depth : later.depth = table.depth
  counter : later.counter = table.counter
  isBound : ∀ label, later.isBound label = table.isBound label
  target : ∀ label target, table.target? label = some target →
    later.target? label = some target ∨
      ∃ concept set, target = .concept concept ∧ later.target? label = some (.set set) ∧
        set.index < model.corefSets.size ∧ (model.corefSet set).defining = concept

namespace Follows

variable {binding : Bool} {model laterModel : Model} {table later last : LabelTable}

theorem refl (distinct : table.Distinct) : Follows binding model table table where
  counter := rfl
  distinct := distinct
  scope := ⟨0, List.forall₂_same.mpr fun entry _ => .same entry, List.not_mem_nil, fun _ => rfl⟩

/-- Two stretches of reading, the second with what the first has kept, are one. -/
theorem trans (first : Follows binding model table later)
    (second : Follows binding laterModel later last) (retains : model.RetainsSets laterModel) :
    Follows binding laterModel table last := by
  obtain ⟨bound, entries, inner, none⟩ := first.scope
  obtain ⟨more, others, innermost, noMore⟩ := second.scope
  have former := entries.imp fun _ _ kept => kept.retained retains
  -- What the first step bound is kept by the second like all else.
  have outer := List.forall₂_drop bound others
  have between := List.forall₂_take bound others
  refine ⟨second.counter.trans first.counter, second.distinct, bound + more, ?_, ?_, ?_⟩
  · rw [List.drop_drop, Nat.add_comm more] at outer
    exact ScopeEntry.Kept.forall₂_trans former outer
  · rw [Nat.add_comm, List.take_add, List.mem_append, not_or]
    exact ⟨innermost, fun member => inner ((ScopeEntry.Kept.boundary_mem between).mp member)⟩
  · intro closed
    rw [none closed, noMore closed]

/-- A label that was not bound is bound. -/
theorem bind_unbound (distinct : table.Distinct) {label : String} (target : Target)
    (unbound : table.isBound label = false) :
    Follows true model table (table.bind label target) where
  counter := counter_bind
  distinct := distinct.bind label target
  scope := by
    refine ⟨1, ?_, ?_, nofun⟩ <;> simp only [LabelTable.bind, target?_eq_none.mpr unbound]
    · exact List.forall₂_same.mpr fun entry _ => .same entry
    · simp

/-- A label that denotes a concept is promoted to a set that the concept defines. -/
theorem bind_promoted (distinct : table.Distinct) {label : String} {concept : ConceptId}
    {set : CorefSetId} (denotes : table.target? label = some (.concept concept))
    (within : set.index < model.corefSets.size)
    (defines : (model.corefSet set).defining = concept) :
    Follows binding model table (table.bind label (.set set)) where
  counter := counter_bind
  distinct := distinct.bind label _
  scope := by
    refine ⟨0, ?_, List.not_mem_nil, fun _ => rfl⟩
    simp only [LabelTable.bind, denotes, List.drop_zero]
    refine List.forall₂_map_right_iff.mpr (List.forall₂_same.mpr fun entry member => ?_)
    unfold retarget
    split
    · next binds =>
      -- Only one entry binds the label, so it is the one that denotes the concept.
      cases entry with
      | boundary => cases binds
      | binding bound former =>
          obtain rfl : bound = label := by simpa [ScopeEntry.binds] using binds
          have same := (target?_eq_some_iff distinct).mpr member
          obtain rfl : former = .concept concept := Option.some.inj (same.symm.trans denotes)
          exact .promoted within defines
    · exact .same entry

/-- A context is opened, used and closed. -/
theorem pop (follows : Follows true model table.push later) :
    Follows binding model table later.pop := by
  obtain ⟨bound, entries, inner, -⟩ := follows.scope
  obtain ⟨_, kept, edge, others, rest⟩ := List.forall₂_cons_left_iff.mp entries
  obtain rfl : _ = ScopeEntry.boundary := ScopeEntry.label?_eq_none.mp edge.label?_eq
  have popped : later.pop.scope = kept := by
    rw [pop_scope, ← List.take_append_drop bound later.scope, rest]
    exact unwind_append inner kept _
  refine ⟨follows.counter, follows.distinct.pop, 0, ?_, List.not_mem_nil, fun _ => rfl⟩
  rw [List.drop_zero, popped]
  exact others

end Follows

/-- When all contexts that were opened have been closed, the table is what it was, but for labels
that have been promoted. -/
theorem Follows.restored {model : Model} {table later : LabelTable}
    (follows : Follows false model table later) (distinct : table.Distinct) :
    Restored model table later := by
  obtain ⟨bound, entries, -, none⟩ := follows.scope
  obtain rfl := none rfl
  rw [List.drop_zero] at entries
  have labels := ScopeEntry.Kept.map_label? entries
  refine ⟨?_, follows.counter, fun label => ?_, fun label target denotes => ?_⟩
  · simp only [depth, count_boundary, labels]
  · rw [Bool.eq_iff_iff, isBound_iff, isBound_iff, filterMap_label?, filterMap_label?, labels]
  · have member := (target?_eq_some_iff distinct).mp denotes
    obtain ⟨entry, there, kept⟩ := ScopeEntry.Kept.exists_of_mem entries member
    rw [target?_eq_some_iff follows.distinct]
    cases kept with
    | same => exact .inl there
    | promoted within defines =>
        exact .inr ⟨_, _, rfl, (target?_eq_some_iff follows.distinct).mpr there, within, defines⟩

end LabelTable

end ConceptualGraph
