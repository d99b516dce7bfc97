/-
Module: ConceptualGraph.Proofs.Stable.Renamed
Purpose: The tables of a session and the state of writing under new handles: whatever is done
  to them comes to the same under the old handles and under the new ones, as long as these
  tell apart what the old ones did.
Main exports: Renaming.Injective, LabelTable.rename, MarkerTable.rename, Writer.rename,
  LabelTable.bind_rename, LabelTable.pop_rename, MarkerTable.foreignIdFor_rename
-/
import ConceptualGraph.Proofs.Model.Isomorphism
import ConceptualGraph.Proofs.Label.Names
import ConceptualGraph.Writing.Basic

namespace ConceptualGraph

/-- Whether new handles tell apart what the old ones told apart.  Of graphs nothing is kept in
a state of writing. -/
structure Renaming.Injective (handles : Renaming) : Prop where
  concept : Function.Injective handles.concept
  relation : Function.Injective handles.relation
  marker : Function.Injective handles.marker

variable {handles : Renaming}

/-! ## Labels -/

/-- A target under new handles. -/
def Target.rename (handles : Renaming) : Target → Target
  | .concept id => .concept (handles.concept id)
  | .set id => .set id

@[simp] theorem Target.rename_concept (concept : ConceptId) :
    (Target.concept concept).rename handles = .concept (handles.concept concept) := rfl

theorem Target.rename_inj (injective : handles.Injective) {target other : Target} :
    target.rename handles = other.rename handles ↔ target = other := by
  cases target <;> cases other <;> simp [rename, injective.concept.eq_iff]

/-- An entry of the stack of contexts under new handles. -/
def ScopeEntry.rename (handles : Renaming) : ScopeEntry → ScopeEntry
  | .boundary => .boundary
  | .binding label target => .binding label (target.rename handles)

@[simp] theorem ScopeEntry.binds_rename (label : String) (entry : ScopeEntry) :
    (entry.rename handles).binds label = entry.binds label := by
  cases entry <;> rfl

/-- The names of targets under new handles. -/
def LabelTable.renameNames (handles : Renaming) (names : List (Target × String)) :
    List (Target × String) :=
  names.map fun entry => (entry.1.rename handles, entry.2)

/-- A table of labels under new handles. -/
def LabelTable.rename (handles : Renaming) (table : LabelTable) : LabelTable where
  scope := table.scope.map (ScopeEntry.rename handles)
  names := renameNames handles table.names
  counter := table.counter

namespace LabelTable

variable {table : LabelTable}

/-- A label denotes the copy of what it denoted. -/
theorem target?_rename (label : String) :
    (table.rename handles).target? label = (table.target? label).map (Target.rename handles) := by
  unfold target? rename
  rw [List.find?_map]
  have same : (fun entry => ScopeEntry.binds label (entry.rename handles)) =
      ScopeEntry.binds label := funext (ScopeEntry.binds_rename label)
  simp only [Function.comp_def, same]
  cases table.scope.find? (ScopeEntry.binds label) with
  | none => rfl
  | some entry => cases entry <;> rfl

@[simp] theorem isBound_rename (label : String) :
    (table.rename handles).isBound label = table.isBound label := by
  simp [isBound, rename, List.any_map, Function.comp_def]

/-- A copy has the name that its target had. -/
theorem lookup_rename (injective : handles.Injective) (names : List (Target × String))
    (target : Target) :
    (renameNames handles names).lookup (target.rename handles) = names.lookup target := by
  induction names with
  | nil => rfl
  | cons entry names ih =>
      obtain ⟨other, name⟩ := entry
      simp only [renameNames, List.map_cons, List.lookup_cons] at ih ⊢
      rw [ih]
      have same : (target.rename handles == other.rename handles) = (target == other) := by
        rw [Bool.eq_iff_iff, beq_iff_eq, beq_iff_eq, Target.rename_inj injective]
      rw [same]

theorem name?_rename (injective : handles.Injective) (target : Target) :
    (table.rename handles).name? (target.rename handles) = table.name? target :=
  lookup_rename injective table.names target

/-- Forgetting a target and renaming the names can be done in either order. -/
theorem forget_rename (injective : handles.Injective) (names : List (Target × String))
    (target : Target) :
    forget (renameNames handles names) (target.rename handles) =
      renameNames handles (forget names target) := by
  unfold forget renameNames
  rw [List.filter_map]
  refine congrArg _ (List.filter_congr fun entry _ => ?_)
  simp [Target.rename_inj injective]

/-- Retargeting a label and renaming its entry can be done in either order. -/
theorem retarget_rename (label : String) (target : Target) (entry : ScopeEntry) :
    retarget label (target.rename handles) (entry.rename handles) =
      (retarget label target entry).rename handles := by
  unfold retarget
  rw [ScopeEntry.binds_rename]
  split <;> rfl

/-- Binding a label to a copy is binding it to the target and taking copies afterwards. -/
theorem bind_rename (injective : handles.Injective) (label : String) (target : Target) :
    (table.rename handles).bind label (target.rename handles) =
      (table.bind label target).rename handles := by
  unfold bind
  rw [target?_rename]
  cases table.target? label with
  | none =>
      simp only [Option.map_none, rename, List.map_cons, forget_rename injective]
      rfl
  | some former =>
      have entries : (table.scope.map (ScopeEntry.rename handles)).map
          (retarget label (target.rename handles)) =
            (table.scope.map (retarget label target)).map (ScopeEntry.rename handles) := by
        simp only [List.map_map]
        exact List.map_congr_left fun entry _ => retarget_rename label target entry
      simp only [Option.map_some, rename, forget_rename injective, entries]
      rfl

/-- The end of a context may come before copies are taken or after. -/
theorem pop_rename (injective : handles.Injective) :
    (table.rename handles).pop = table.pop.rename handles := by
  have unwound : ∀ (scope : List ScopeEntry) (names : List (Target × String)),
      unwind (scope.map (ScopeEntry.rename handles)) (renameNames handles names) =
        ((unwind scope names).1.map (ScopeEntry.rename handles),
          renameNames handles (unwind scope names).2) := by
    intro scope
    induction scope with
    | nil => exact fun names => rfl
    | cons entry scope ih =>
        intro names
        cases entry with
        | boundary => rfl
        | binding label target =>
            simp only [List.map_cons, ScopeEntry.rename, unwind, forget_rename injective, ih]
  simp only [pop, rename, unwound]

/-- A fresh label does not depend on what labels stand for. -/
theorem freshLabel_rename :
    (table.rename handles).freshLabel =
    (table.freshLabel.1, table.freshLabel.2.rename handles) := by
  have counted : ∀ bound counter, (table.rename handles).nextNumber bound counter =
      table.nextNumber bound counter := by
    intro bound
    induction bound with
    | zero => exact fun counter => rfl
    | succ bound ih =>
        intro counter
        simp only [nextNumber, isBound_rename, ih]
  have stacked : (table.rename handles).scope.length = table.scope.length := List.length_map _
  unfold freshLabel
  rw [counted, stacked]
  rfl

end LabelTable

/-! ## Markers -/

/-- A table of markers under new handles. -/
def MarkerTable.rename (handles : Renaming) (table : MarkerTable) : MarkerTable where
  pairs := table.pairs.map fun pair => (pair.1, handles.marker pair.2)
  counter := table.counter

namespace MarkerTable

variable {table : MarkerTable}

/-- A marker that has been renamed is known by the foreign identifier that it had. -/
theorem foreignId?_rename (injective : handles.Injective) (marker : MarkerId) :
    (table.rename handles).foreignId? (handles.marker marker) = table.foreignId? marker := by
  unfold foreignId? rename
  rw [List.find?_map]
  have same : (fun pair : String × MarkerId => handles.marker pair.2 == handles.marker marker) =
      fun pair => pair.2 == marker := funext fun pair => by
    rw [Bool.eq_iff_iff, beq_iff_eq, beq_iff_eq, injective.marker.eq_iff]
  simp only [Function.comp_def, same, Option.map_map]

theorem isSome_marker?_rename (foreign : String) :
    ((table.rename handles).marker? foreign).isSome = (table.marker? foreign).isSome := by
  simp [marker?, rename, List.find?_map, Function.comp_def]

/-- Pairing a marker and renaming the table can be done in either order. -/
theorem pair_rename (injective : handles.Injective) (foreign : String) (marker : MarkerId) :
    (table.rename handles).pair foreign (handles.marker marker) =
      (table.pair foreign marker).rename handles := by
  simp only [pair, rename, List.map_cons, List.filter_map, mk.injEq, and_true]
  refine congrArg _ (congrArg _ (List.filter_congr fun former _ => ?_))
  simp [injective.marker.eq_iff]

/-- A copy of a marker has the identifier of the marker. -/
theorem foreignIdFor_rename (injective : handles.Injective) (marker : MarkerId) :
    (table.rename handles).foreignIdFor (handles.marker marker) =
      ((table.foreignIdFor marker).1, (table.foreignIdFor marker).2.rename handles) := by
  have counted : ∀ paired counter, (table.rename handles).nextNumber paired counter =
      table.nextNumber paired counter := by
    intro paired
    induction paired with
    | zero => exact fun counter => rfl
    | succ paired ih =>
        intro counter
        simp only [nextNumber, isSome_marker?_rename, ih]
  unfold foreignIdFor
  rw [foreignId?_rename injective]
  cases table.foreignId? marker with
  | some foreign => rfl
  | none =>
      dsimp only
      rw [counted, show (table.rename handles).pairs.length = table.pairs.length by simp [rename],
        show (table.rename handles).counter = table.counter from rfl]
      generalize table.nextNumber table.pairs.length table.counter = number
      have paired : (rename handles { table with counter := number }).pair number.toNat.repr
          (handles.marker marker) = _ := pair_rename injective number.toNat.repr marker
      exact congrArg _ paired

end MarkerTable

/-! ## States of writing -/

/-- A state of writing under new handles. -/
def Writer.rename (handles : Renaming) (writer : Writer) : Writer where
  labels := writer.labels.rename handles
  markers := writer.markers.rename handles
  emitted := writer.emitted.map fun entry => (handles.concept entry.1, entry.2)
  written := writer.written.map handles.relation

namespace Writer

variable {writer : Writer}

@[simp] theorem labels_rename : (writer.rename handles).labels = writer.labels.rename handles := rfl

@[simp] theorem markers_rename :
    (writer.rename handles).markers = writer.markers.rename handles := rfl

/-- A copy has been written with the label with which its concept has. -/
theorem lookup_rename (injective : handles.Injective) (concept : ConceptId) :
    (writer.rename handles).emitted.lookup (handles.concept concept) =
      writer.emitted.lookup concept := by
  unfold rename
  induction writer.emitted with
  | nil => rfl
  | cons entry emitted ih =>
      obtain ⟨other, label⟩ := entry
      simp only [List.map_cons, List.lookup_cons] at ih ⊢
      rw [ih]
      have same : (handles.concept concept == handles.concept other) = (concept == other) := by
        rw [Bool.eq_iff_iff, beq_iff_eq, beq_iff_eq, injective.concept.eq_iff]
      rw [same]

/-- A relation has been written exactly if its copy has. -/
theorem contains_written_rename (injective : handles.Injective) (relation : RelationId) :
    (writer.rename handles).written.contains (handles.relation relation) =
      writer.written.contains relation := by
  rw [Bool.eq_iff_iff, List.contains_iff_mem, List.contains_iff_mem]
  exact List.mem_map_of_injective injective.relation

end Writer

end ConceptualGraph
