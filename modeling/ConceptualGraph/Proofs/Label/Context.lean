/-
Module: ConceptualGraph.Proofs.Label.Context
Purpose: What a context leaves behind in a table of labels when it is closed: all labels
  denote what they denoted before, but a target that was bound inside has lost its name.
Main exports: LabelTable.Nested, LabelTable.Inside, LabelTable.lookups_after_context
-/
import ConceptualGraph.Proofs.Label.Names

namespace ConceptualGraph

namespace LabelTable

/-! ## Operations inside a context -/

/-- Whether operations close all contexts that they open and no others, once a number of
their contexts are open.  Nothing is forgotten as a whole in between. -/
def Nested : (depth : Nat) → List Operation → Prop
  | depth, [] => depth = 0
  | depth, .push :: others => Nested (depth + 1) others
  | 0, .pop :: _ => False
  | depth + 1, .pop :: others => Nested depth others
  | depth, .bind _ _ :: others => Nested depth others
  | depth, .freshLabel :: others => Nested depth others
  | _, .reset :: _ => False

/-- The labels that operations bind. -/
def labelsBound (operations : List Operation) : List String :=
  operations.filterMap fun
    | .bind label _ => some label
    | _ => none

/-- The targets to which operations bind labels. -/
def targetsBound (operations : List Operation) : List Target :=
  operations.filterMap fun
    | .bind _ target => some target
    | _ => none

theorem targetsBound_bind (label : String) (target : Target) (operations : List Operation) :
    targetsBound (.bind label target :: operations) = target :: targetsBound operations := rfl

/-- A table inside a context: what was bound before is still there, below the boundary of the
context.  The targets bound since have lost the names they had outside; the others have kept
them. -/
structure Inside (outer : LabelTable) (depth : Nat) (targets : List Target)
    (table : LabelTable) : Prop where
  reachable : table.Reachable
  scope : ∃ bound, table.scope = bound ++ .boundary :: outer.scope ∧
    bound.count .boundary = depth ∧ ∀ target ∈ bound.filterMap ScopeEntry.target?, target ∈ targets
  kept : ∀ target, target ∉ targets → table.name? target = outer.name? target
  renamed : ∀ target ∈ targets, ∀ label, table.name? target = some label →
    outer.isBound label = false

variable {outer table : LabelTable} {depth : Nat} {targets : List Target}

theorem isBound_of_mem {label : String} {target : Target}
    (member : .binding label target ∈ table.scope) : table.isBound label = true :=
  isBound_iff.mpr (List.mem_filterMap.mpr ⟨_, member, rfl⟩)

/-- Where a label is not bound, binding it anew changes no entry. -/
theorem map_retarget_of_unbound {label : String} (unbound : outer.isBound label = false)
    (target : Target) : outer.scope.map (retarget label target) = outer.scope := by
  rw [List.map_congr_left (g := id) fun entry member => ?_, List.map_id]
  have apart : entry.binds label = false := by
    have others := unbound
    rw [isBound, List.any_eq_false] at others
    simpa using others entry member
  simp [retarget, apart]

namespace Inside

/-- A context that has just been opened has nothing in it. -/
theorem start (reachable : outer.Reachable) : Inside outer 0 [] outer.push where
  reachable := reachable.push
  scope := ⟨[], rfl, rfl, by simp⟩
  kept _ _ := rfl
  renamed _ member := by cases member

/-- Inside a context one more may be opened. -/
theorem push (inside : Inside outer depth targets table) :
    Inside outer (depth + 1) targets table.push where
  reachable := inside.reachable.push
  scope := by
    obtain ⟨bound, same, count, among⟩ := inside.scope
    refine ⟨.boundary :: bound, by simp [LabelTable.push, same], by simp [count], ?_⟩
    simpa [ScopeEntry.target?] using among
  kept := inside.kept
  renamed := inside.renamed

/-- A label that is minted is bound to nothing yet. -/
theorem freshLabel (inside : Inside outer depth targets table) :
    Inside outer depth targets table.freshLabel.2 where
  reachable := inside.reachable.freshLabel
  scope := inside.scope
  kept := inside.kept
  renamed := inside.renamed

/-- A label that was not bound outside is bound, be it for the first time or again. -/
theorem bind (inside : Inside outer depth targets table) {label : String}
    (unbound : outer.isBound label = false) (target : Target) :
    Inside outer depth (target :: targets) (table.bind label target) where
  reachable := inside.reachable.bind label target
  scope := by
    obtain ⟨bound, same, count, among⟩ := inside.scope
    -- A binding that is found is one of this context, because the label is not bound outside.
    cases denotes : table.target? label with
    | none =>
        refine ⟨.binding label target :: bound, by simp [LabelTable.bind, denotes, same],
          by simpa using count, ?_⟩
        rw [List.filterMap_cons_some (rfl : ScopeEntry.target? (.binding label target) = _)]
        exact List.forall_mem_cons.mpr ⟨List.mem_cons_self, fun other member =>
          List.mem_cons_of_mem _ (among other member)⟩
    | some former =>
        refine ⟨bound.map (retarget label target), ?_, ?_, ?_⟩
        · simp only [LabelTable.bind, denotes, same, List.map_append, List.map_cons,
            map_retarget_of_unbound unbound target]
          rfl
        · rw [count_boundary, List.map_map,
            show ScopeEntry.label? ∘ retarget label target = ScopeEntry.label? from
              funext (label?_retarget label target), ← count_boundary, count]
        · intro other member
          obtain ⟨entry, changed, points⟩ := List.mem_filterMap.mp member
          obtain ⟨former, there, rfl⟩ := List.mem_map.mp changed
          unfold retarget at points
          split at points
          · obtain rfl := Option.some.inj points
            exact List.mem_cons_self
          · exact List.mem_cons_of_mem _ (among other (List.mem_filterMap.mpr ⟨_, there, points⟩))
  kept other outside := by
    obtain ⟨bound, same, -, among⟩ := inside.scope
    obtain ⟨apart, outside⟩ := not_or.mp fun either => outside (List.mem_cons.mpr either)
    rw [name?_bind, if_neg apart, if_neg, inside.kept other outside]
    intro denotes
    have member := (target?_eq_some_iff inside.reachable.distinct).mp denotes
    rw [same, List.mem_append] at member
    rcases member with local_ | member
    · exact outside (among other (List.mem_filterMap.mpr ⟨_, local_, rfl⟩))
    · rw [isBound_of_mem ((List.mem_cons.mp member).resolve_left (by simp))] at unbound
      cases unbound
  renamed other member name called := by
    rw [name?_bind] at called
    split at called
    · obtain rfl := Option.some.inj called
      exact unbound
    split at called
    · cases called
    · next apart _ =>
      exact inside.renamed other ((List.mem_cons.mp member).resolve_left apart) name called

/-- A context that was opened inside is closed. -/
theorem pop (inside : Inside outer (depth + 1) targets table) :
    Inside outer depth targets table.pop := by
  obtain ⟨bound, same, count, among⟩ := inside.scope
  obtain ⟨front, back, split, inner⟩ := List.eq_append_cons_of_mem
    (List.count_pos_iff.mp (by omega : 0 < bound.count .boundary))
  subst split
  rw [List.append_assoc, List.cons_append] at same
  have names (target : Target) : table.pop.name? target =
      if target ∈ front.filterMap ScopeEntry.target? then none else table.name? target := by
    show (unwind table.scope table.names).2.lookup target = _
    rw [same, lookup_unwind inner]
    rfl
  have here : ∀ target ∈ front.filterMap ScopeEntry.target?, target ∈ targets :=
    fun target member =>
    among target (by rw [List.filterMap_append]; exact List.mem_append_left _ member)
  refine ⟨inside.reachable.pop, ⟨back, ?_, ?_, fun target member => ?_⟩, fun target outside => ?_,
    fun target member label name => ?_⟩
  · rw [pop_scope, same, unwind_append inner]
  · rw [List.count_append, List.count_eq_zero_of_not_mem inner, List.count_cons_self] at count
    omega
  · exact among target (by simpa [ScopeEntry.target?] using .inr (List.mem_filterMap.mp member))
  · rw [names, if_neg fun member => outside (here target member), inside.kept target outside]
  · rw [names] at name
    split at name
    · cases name
    · exact inside.renamed target member label name

/-- Operations that close what they open lead from inside a context to inside it. -/
theorem run {operations : List Operation} (inside : Inside outer depth targets table)
    (nested : Nested depth operations)
    (unbound : ∀ label ∈ labelsBound operations, outer.isBound label = false) :
    Inside outer 0 ((targetsBound operations).reverse ++ targets)
      (LabelTable.run operations table) := by
  induction operations generalizing depth targets table with
  | nil =>
      obtain rfl : depth = 0 := nested
      exact inside
  | cons operation operations ih =>
      cases operation with
      | push => exact ih inside.push nested unbound
      | pop =>
          cases depth with
          | zero => exact nested.elim
          | succ depth => exact ih inside.pop nested unbound
      | bind label target =>
          have rest := ih (inside.bind (unbound label List.mem_cons_self) target)
            (by cases depth <;> exact nested)
            fun other member => unbound other (List.mem_cons_of_mem _ member)
          rw [targetsBound_bind, List.reverse_cons, List.append_assoc]
          exact rest
      | freshLabel => exact ih inside.freshLabel (by cases depth <;> exact nested) unbound
      | reset => cases depth <;> exact nested.elim

end Inside

/-! ## After a context -/

/-- A context in which only labels are bound that were not bound before it leaves what every
label denotes.  It leaves the names of targets too, except of those that were bound inside:
they have none afterwards, even if they had one before. -/
theorem lookups_after_context {operations : List Operation} (reachable : table.Reachable)
    (nested : Nested 0 operations)
    (unbound : ∀ label ∈ labelsBound operations, table.isBound label = false) :
    (∀ label, (run operations table.push).pop.concept? label = table.concept? label ∧
      (run operations table.push).pop.set? label = table.set? label) ∧
    ∀ target, (run operations table.push).pop.name? target =
      if target ∈ targetsBound operations then none else table.name? target := by
  have inside := (Inside.start reachable).run nested unbound
  obtain ⟨bound, same, count, among⟩ := inside.scope
  have inner := List.count_eq_zero.mp count
  have scope : (run operations table.push).pop.scope = table.scope := by
    rw [pop_scope, same, unwind_append inner]
  refine ⟨fun label => ?_, fun target => ?_⟩
  · simp only [concept?, set?, target?, scope, and_self]
  have name : (run operations table.push).pop.name? target =
      if target ∈ bound.filterMap ScopeEntry.target? then none
      else (run operations table.push).name? target := by
    show (unwind (run operations table.push).scope _).2.lookup target = _
    rw [same, lookup_unwind inner]
    rfl
  rw [name]
  by_cases here : target ∈ targetsBound operations
  · rw [if_pos here]
    split
    · rfl
    · next absent =>
      -- A name that is left is a label bound inside, so what it denotes is bound inside.
      rw [Option.eq_none_iff_forall_ne_some]
      intro label called
      have member := inside.reachable.named target label called
      rw [same, List.mem_append] at member
      rcases member with member | member
      · exact absent (List.mem_filterMap.mpr ⟨_, member, rfl⟩)
      · have outside := inside.renamed target (by simpa using here) label called
        rw [isBound_of_mem ((List.mem_cons.mp member).resolve_left (by simp))] at outside
        cases outside
  · rw [if_neg here, if_neg fun member => here (by simpa using among target member),
      inside.kept target (by simpa using here)]

/-- A concept with a label outside is bound to another label inside, next to a set. -/
theorem lookups_after_context_twice_bound :
    let table : LabelTable := run [.bind "a" (.concept ⟨0⟩), .bind "b" (.concept ⟨1⟩)] {}
    let operations : List Operation :=
      [.push, .bind "c" (.set ⟨0⟩), .pop, .bind "c" (.concept ⟨0⟩)]
    table.Reachable ∧ Nested 0 operations ∧
      (∀ label ∈ labelsBound operations, table.isBound label = false) ∧
      (run operations table.push).pop.concept? "a" = some ⟨0⟩ ∧
      (run operations table.push).pop.name? (.concept ⟨0⟩) = none ∧
      (run operations table.push).pop.name? (.concept ⟨1⟩) = some "b" := by
  intro table operations
  have reachable : table.Reachable := Reachable.empty.run _
  have nested : Nested 0 operations := rfl
  have unbound : ∀ label ∈ labelsBound operations, table.isBound label = false := by decide
  obtain ⟨labels, names⟩ := lookups_after_context reachable nested unbound
  exact ⟨reachable, nested, unbound, (labels "a").1.trans (by decide),
    (names (.concept ⟨0⟩)).trans (by decide), (names (.concept ⟨1⟩)).trans (by decide)⟩

/-- The name that a concept has outside is lost with the context in which another label was
bound to it, although the label itself is not. -/
theorem name_lost_after_context :
    let table : LabelTable := run [.bind "a" (.concept ⟨0⟩)] {}
    let after := (run [.bind "b" (.concept ⟨0⟩)] table.push).pop
    table.name? (.concept ⟨0⟩) = some "a" ∧ after.name? (.concept ⟨0⟩) = none ∧
      after.concept? "a" = some ⟨0⟩ := by decide

end LabelTable

end ConceptualGraph
