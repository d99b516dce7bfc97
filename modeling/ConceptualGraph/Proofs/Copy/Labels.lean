/-
Module: ConceptualGraph.Proofs.Copy.Labels
Purpose: The labels under which concepts have been written denote their copies where
  they are read back.
Main exports: LabelTable.Minted, Model.Denotes, Model.Framed, Model.Labels
-/
import ConceptualGraph.Proofs.Copy.Ledger
import ConceptualGraph.Proofs.Label.Fresh
import ConceptualGraph.Proofs.Reading.Sound.State

namespace ConceptualGraph

/-! ## Tables -/

namespace LabelTable

variable {table : LabelTable} {label other : String} {target : Target}

/-- Whether a label has been made by counting as far as a number. -/
def Minted (counter : Nat) (label : String) : Prop :=
  ∃ number, number ≤ counter ∧ label = numbered number

theorem Minted.mono {counter later : Nat} (minted : Minted counter label)
    (le : counter ≤ later) : Minted later label := by
  obtain ⟨number, below, same⟩ := minted
  exact ⟨number, Nat.le_trans below le, same⟩

/-- A number beyond the counter has not been minted. -/
theorem not_minted {number counter : Nat} (further : counter < number) :
    ¬Minted counter (numbered number) := by
  rintro ⟨former, below, same⟩
  have equal := numbered_injective same
  omega

/-- A label that is not bound is bound in the innermost context, and names its target. -/
theorem bind_of_unbound (unbound : table.isBound label = false) :
    table.bind label target =
      { table with
        scope := .binding label target :: table.scope
        names := (target, label) :: forget table.names target } := by
  have missing : table.target? label = none := by
    rw [isBound_eq_seek] at unbound
    rw [target?_eq]
    exact Option.isNone_iff_eq_none.mp (by simpa using unbound)
  simp [bind, missing]

/-- Binding a fresh label binds no other one. -/
theorem isBound_bind_of_unbound (unbound : table.isBound label = false)
    (bound : (table.bind label target).isBound other = true) :
    other = label ∨ table.isBound other = true := by
  rw [bind_of_unbound unbound] at bound
  by_cases same : other = label
  · exact .inl same
  · exact .inr (by simpa [isBound, ScopeEntry.binds, Ne.symm same] using bound)

theorem mem_names_bind_of_unbound {entry : Target × String}
    (unbound : table.isBound label = false) (member : entry ∈ (table.bind label target).names) :
    entry = (target, label) ∨ entry ∈ table.names := by
  rw [bind_of_unbound unbound] at member
  exact (List.mem_cons.mp member).imp id List.mem_of_mem_filter

/-- A label that is bound for the first time becomes the name of its target. -/
theorem name?_bind_of_unbound (unbound : table.isBound label = false) (id : Target) :
    (table.bind label target).name? id =
      if id = target then some label else table.name? id := by
  rw [bind_of_unbound unbound]
  unfold name?
  split
  · next same =>
    rw [same, List.lookup_cons_self]
  · next apart =>
    rw [List.lookup_cons, beq_eq_false_iff_ne.mpr apart]
    exact lookup_forget apart

theorem scope_bind_of_bound {former : Target} (bound : table.target? label = some former) :
    (table.bind label target).scope = table.scope.map (retarget label target) := by
  simp [bind, bound]

/-- Closing a context unbinds what was bound since it was opened. -/
theorem scope_pop {here around : List ScopeEntry}
    (scope : table.scope = here ++ .boundary :: around) (inner : .boundary ∉ here) :
    table.pop.scope = around := by
  have unwound : ∀ names, (unwind (here ++ .boundary :: around) names).1 = around := by
    intro names
    clear scope
    induction here generalizing names with
    | nil => rfl
    | cons entry here ih =>
        cases entry with
        | boundary => simp at inner
        | binding bound denoted =>
            exact ih (fun member => inner (List.mem_cons_of_mem _ member)) _
  unfold pop
  rw [scope]
  exact unwound _

/-- The end of a context makes no names. -/
theorem mem_names_pop {entry : Target × String} (member : entry ∈ table.pop.names) :
    entry ∈ table.names := by
  unfold pop at member
  have subset : ∀ (scope : List ScopeEntry) (names : List (Target × String)),
      entry ∈ (unwind scope names).2 → entry ∈ names := by
    intro scope
    induction scope with
    | nil => exact fun _ member => member
    | cons first scope ih =>
        intro names member
        cases first with
        | boundary => exact member
        | binding bound denoted => exact List.mem_of_mem_filter (ih _ member)
  exact subset _ _ member

end LabelTable

/-! ## What labels denote in the copy -/

namespace Model

/-- Whether a concept is the one that a target stands for. -/
def Represents (model : Model) : Target → ConceptId → Prop
  | .concept concept, other => concept = other
  | .set set, other =>
      set.index < model.corefSets.size ∧ (model.corefSet set).defining = other

/-- Whether a label denotes a concept. -/
def Denotes (model : Model) (scope : List ScopeEntry) (label : String) (concept : ConceptId) :
    Prop :=
  ∃ target, LabelTable.seek scope label = some target ∧ model.Represents target concept

/-- Whether every label under which a concept of an open graph has been written denotes its
copy in the context of the graph, the innermost graph standing first. -/
def Framed (model : Model) (emitted : List (ConceptId × Option String)) (ledger : Ledger)
    (copy : Model) : List GraphId → List ScopeEntry → Prop
  | [], _ => True
  | graph :: outer, scope =>
      (∀ concept label, (concept, some label) ∈ emitted →
        (model.concept concept).graph = some graph → (model.concept concept).special = none →
        ∃ other, ledger.Names model concept other ∧ copy.Denotes scope label other) ∧
      ∃ here around, scope = here ++ .boundary :: around ∧ .boundary ∉ here ∧
        Framed model emitted ledger copy outer around

/-- Whether a target that has a name has been written. -/
def Written (model : Model) (writer : Writer) (label : String) : Target → Prop
  | .concept concept => concept ∈ writer.order
  | .set set => ∃ concept, (concept, some label) ∈ writer.emitted ∧
      model.sharedSet? concept = some set

/-- The labels that have been given out: their numbers have been counted, and their targets
have been written under them. -/
structure Labelled (model : Model) (writer : Writer) : Prop where
  own : ∀ label, writer.labels.isBound label = true →
    LabelTable.Minted writer.labels.counter label
  named : ∀ target label, (target, label) ∈ writer.labels.names →
    LabelTable.Minted writer.labels.counter label ∧ model.Written writer label target
  shared : ∀ concept label, (concept, label) ∈ writer.emitted →
    ∀ set, model.sharedSet? concept = some set →
      ∃ word, label = some word ∧ writer.labels.name? (.set set) = some word

/-- The labels that have been read back are those that have been given out, and denote what
has been written under them. -/
structure Labels (model : Model) (graphs : List GraphId) (writer : Writer) (copy : Model)
    (table : LabelTable) : Prop where
  labelled : model.Labelled writer
  bound : ∀ label, table.isBound label = true → LabelTable.Minted writer.labels.counter label
  framed : model.Framed writer.emitted (writer.ledger model) copy graphs table.scope

variable {model copy grown : Model} {ledger later : Ledger}
  {emitted : List (ConceptId × Option String)} {graphs : List GraphId} {scope : List ScopeEntry}

/-- The sets of a model keep their defining members. -/
def SetsKept (copy grown : Model) : Prop :=
  ∀ set : CorefSetId, set.index < copy.corefSets.size →
    set.index < grown.corefSets.size ∧
      (grown.corefSet set).defining = (copy.corefSet set).defining

theorem SetsKept.refl (copy : Model) : copy.SetsKept copy := fun _ inside => ⟨inside, rfl⟩

theorem SetsKept.of_eq (same : grown.corefSets = copy.corefSets) : copy.SetsKept grown := by
  intro set inside
  refine ⟨by rw [same]; exact inside, ?_⟩
  simp only [Model.corefSet, same]

/-- A label goes on denoting a concept while no set is lost. -/
theorem Denotes.mono {label : String} {concept : ConceptId}
    (denotes : copy.Denotes scope label concept) (kept : copy.SetsKept grown) :
    grown.Denotes scope label concept := by
  obtain ⟨target, found, represents⟩ := denotes
  refine ⟨target, found, ?_⟩
  cases target with
  | concept other => exact represents
  | set set =>
      obtain ⟨inside, same⟩ := kept set represents.1
      exact ⟨inside, same.trans represents.2⟩

/-- What has been written goes on to be framed while the ledger and the sets grow. -/
theorem Framed.mono (framed : model.Framed emitted ledger copy graphs scope)
    (continues : ledger.Continues later) (kept : copy.SetsKept grown) :
    model.Framed emitted later grown graphs scope := by
  induction graphs generalizing scope with
  | nil => trivial
  | cons graph outer ih =>
      obtain ⟨known, here, around, split, inner, others⟩ := framed
      refine ⟨fun concept label member stands plain => ?_, here, around, split, inner, ih others⟩
      obtain ⟨other, names, denotes⟩ := known concept label member stands plain
      exact ⟨other, Ledger.Concept.mono names continues, denotes.mono kept⟩

/-- A concept that is written without a label is not referred to. -/
theorem Framed.unlabelled {concept : ConceptId} {label : Option String}
    (framed : model.Framed emitted ledger copy graphs scope)
    (silent : label = none ∨ (model.concept concept).special ≠ none) :
    model.Framed ((concept, label) :: emitted) ledger copy graphs scope := by
  induction graphs generalizing scope with
  | nil => trivial
  | cons graph outer ih =>
      obtain ⟨known, here, around, split, inner, others⟩ := framed
      refine ⟨fun other word member stands plain => ?_, here, around, split, inner, ih others⟩
      rcases List.mem_cons.mp member with same | member
      · cases same
        exact silent.elim nofun fun contexts => absurd plain contexts
      · exact known other word member stands plain

/-- A concept that is written in one graph is not looked for in others. -/
theorem Framed.elsewhere {concept : ConceptId} {label : Option String}
    (framed : model.Framed emitted ledger copy graphs scope)
    (apart : ∀ graph ∈ graphs, (model.concept concept).graph ≠ some graph) :
    model.Framed ((concept, label) :: emitted) ledger copy graphs scope := by
  induction graphs generalizing scope with
  | nil => trivial
  | cons graph outer ih =>
      obtain ⟨known, here, around, split, inner, others⟩ := framed
      refine ⟨fun other word member stands plain => ?_, here, around, split, inner,
        ih others fun id among => apart id (List.mem_cons_of_mem _ among)⟩
      rcases List.mem_cons.mp member with same | member
      · cases same
        exact absurd stands (apart graph (List.mem_cons_self ..))
      · exact known other word member stands plain

/-- A concept is written with a defining label. -/
theorem Framed.defined {concept other : ConceptId} {graph : GraphId} {outer : List GraphId}
    {label : String} (framed : model.Framed emitted ledger copy (graph :: outer) scope)
    (apart : ∀ id ∈ outer, (model.concept concept).graph ≠ some id)
    (unbound : LabelTable.seek scope label = none) (names : ledger.Names model concept other) :
    model.Framed ((concept, some label) :: emitted) ledger copy (graph :: outer)
      (.binding label (.concept other) :: scope) := by
  obtain ⟨known, here, around, split, inner, others⟩ := framed
  refine ⟨fun id word member stands plain => ?_, .binding label (.concept other) :: here, around,
    by rw [split]; rfl, ?_, others.elsewhere apart⟩
  · rcases List.mem_cons.mp member with same | member
    · cases same
      exact ⟨other, names, .concept other, by rw [LabelTable.seek_binding, if_pos rfl], rfl⟩
    · obtain ⟨copied, cited, target, found, represents⟩ := known id word member stands plain
      refine ⟨copied, cited, target, ?_, represents⟩
      rw [LabelTable.seek_binding, if_neg, found]
      rintro rfl
      rw [unbound] at found
      cases found
  · simpa using inner

/-- A label that denoted a concept denotes its set, of which the concept is the defining
member. -/
theorem Framed.retargeted {graph : GraphId} {label : String} {set : CorefSetId}
    {concept : ConceptId} (framed : model.Framed emitted ledger copy [graph] scope)
    (denotes : copy.Denotes scope label concept) (kept : copy.SetsKept grown)
    (represents : grown.Represents (.set set) concept) :
    model.Framed emitted ledger grown [graph]
      (scope.map (LabelTable.retarget label (.set set))) := by
  obtain ⟨known, here, around, split, inner, -⟩ := framed
  refine ⟨fun id word member stands plain => ?_,
    here.map (LabelTable.retarget label (.set set)),
    around.map (LabelTable.retarget label (.set set)), ?_, ?_, trivial⟩
  · obtain ⟨other, names, target, found, former⟩ := known id word member stands plain
    refine ⟨other, names, ?_⟩
    by_cases same : label = word
    · subst same
      obtain ⟨also, first, denoted⟩ := denotes
      rw [found] at first
      cases first
      have equal : other = concept := by
        cases target with
        | concept single => exact former.symm.trans denoted
        | set several => exact former.2.symm.trans denoted.2
      subst equal
      exact ⟨.set set, by rw [LabelTable.seek_retarget, if_pos rfl, found]; rfl, represents⟩
    · refine Denotes.mono ⟨target, ?_, former⟩ kept
      rw [LabelTable.seek_retarget, if_neg same, found]
  · rw [split, List.map_append, List.map_cons]
    rfl
  · intro member
    obtain ⟨entry, among, changed⟩ := List.mem_map.mp member
    unfold LabelTable.retarget at changed
    split at changed
    · cases changed
    · exact inner (changed ▸ among)

/-! ## Contexts -/

section Contexts

variable {writer : Writer} {table : LabelTable} {graph : GraphId}

/-- A graph is entered in which nothing has been written. -/
theorem Labels.push (labels : model.Labels graphs writer copy table)
    (untouched : ∀ concept ∈ writer.order, (model.concept concept).graph ≠ some graph) :
    model.Labels (graph :: graphs) { writer with labels := writer.labels.push } copy
      table.push where
  labelled :=
    { own := fun label here => labels.labelled.own label (by
        simpa [LabelTable.isBound, LabelTable.push, ScopeEntry.binds] using here)
      named := labels.labelled.named
      shared := labels.labelled.shared }
  bound label here := labels.bound label (by
    simpa [LabelTable.isBound, LabelTable.push, ScopeEntry.binds] using here)
  framed := by
    refine ⟨fun concept label member stands _ => ?_, [], table.scope, rfl, List.not_mem_nil,
      labels.framed⟩
    exact absurd stands (untouched concept (List.mem_map_of_mem member))

/-- A graph is left. -/
theorem Labels.pop (labels : model.Labels (graph :: graphs) writer copy table)
    (setless : model.corefSets = #[]) :
    model.Labels graphs { writer with labels := writer.labels.pop } copy table.pop := by
  obtain ⟨-, here, around, split, inner, framed⟩ := labels.framed
  have scope : table.pop.scope = around := LabelTable.scope_pop split inner
  refine ⟨⟨fun label found => ?_, fun target label member => ?_, ?_⟩, fun label found => ?_, ?_⟩
  · refine labels.labelled.own label ?_
    unfold LabelTable.isBound at found ⊢
    rw [List.any_eq_true] at found ⊢
    obtain ⟨entry, member, binds⟩ := found
    exact ⟨entry, LabelTable.scope_pop_subset _ member, binds⟩
  · exact labels.labelled.named target label (LabelTable.mem_names_pop member)
  · intro concept label member set shares
    rw [sharedSet?_of_setless setless] at shares
    cases shares
  · refine labels.bound label ?_
    unfold LabelTable.isBound at found ⊢
    rw [scope] at found
    rw [split]
    simp [found]
  · rw [scope]
    exact framed

end Contexts

end Model

end ConceptualGraph
