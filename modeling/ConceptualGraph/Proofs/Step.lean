/-
Module: ConceptualGraph.Proofs.Step
Purpose: What a step of reading or writing comes to, stated on its state before and
  after, with one rule for every way in which steps are put together.
Main exports: Ensures, Achieves, Ends, Outcome, Maintains, Ensures.bind, Achieves.bind, Ends.bind,
  Outcome.bind, Maintains.bind
-/
import ConceptualGraph.Reading.Basic
import ConceptualGraph.Writing.Basic
import Mathlib.Tactic.Common

namespace ConceptualGraph

universe u

variable {ε σ α β : Type u} {step : EStateM ε σ α} {next : α → EStateM ε σ β} {state : σ}

/-- A step, if it succeeds, leads to a result and a state with a property. -/
def Ensures (step : EStateM ε σ α) (state : σ) (post : α → σ → Prop) : Prop :=
  match step state with
  | .ok value later => post value later
  | .error _ _ => True

/-- A step succeeds, with a result and a state that have a property. -/
def Achieves (step : EStateM ε σ α) (state : σ) (post : α → σ → Prop) : Prop :=
  match step state with
  | .ok value later => post value later
  | .error _ _ => False

/-- A step leads to a result and a state with a property, or else fails in one of certain ways. -/
def Ends (faults : ε → Prop) (step : EStateM ε σ α) (state : σ) (post : α → σ → Prop) : Prop :=
  match step state with
  | .ok value later => post value later
  | .error error _ => faults error

/-- A step succeeds, with a property of the result and the state, exactly if it is
possible. -/
structure Outcome (possible : Prop) (step : EStateM ε σ α) (state : σ) (post : α → σ → Prop) :
    Prop where
  achieves : possible → Achieves step state post
  fails : ¬possible → Ensures step state fun _ _ => False

/-! ## One step after another -/

theorem bind_of_ok {value : α} {later : σ} (ran : step state = .ok value later) :
    (step >>= next) state = next value later := by
  simp only [Bind.bind, EStateM.bind, ran]

theorem bind_of_error {error : ε} {later : σ} (failed : step state = .error error later) :
    (step >>= next) state = .error error later := by
  simp only [Bind.bind, EStateM.bind, failed]

/-- Where two steps succeed, the first one does. -/
theorem exists_of_bind_ok {value : β} {later : σ} (ran : (step >>= next) state = .ok value later) :
    ∃ (middle : α) (between : σ), step state = .ok middle between ∧
      next middle between = .ok value later := by
  cases began : step state with
  | ok middle between => exact ⟨middle, between, rfl, (bind_of_ok began).symm.trans ran⟩
  | error error between =>
      rw [bind_of_error began] at ran
      cases ran

/-! ## Success or not -/

namespace Ensures

variable {post : α → σ → Prop}

theorem of_ok {value : α} {later : σ} (holds : Ensures step state post)
    (ran : step state = .ok value later) : post value later := by
  simpa [Ensures, ran] using holds

/-- What holds of every success is ensured. -/
theorem intro (holds : ∀ value later, step state = .ok value later → post value later) :
    Ensures step state post := by
  unfold Ensures
  cases ran : step state with
  | ok value later => exact holds value later ran
  | error error later => trivial

theorem mono {weaker : α → σ → Prop} (holds : Ensures step state post)
    (weaken : ∀ value later, post value later → weaker value later) :
    Ensures step state weaker :=
  intro fun value later ran => weaken value later (holds.of_ok ran)

/-- Two properties that a step ensures hold together. -/
theorem and {other : α → σ → Prop} (holds : Ensures step state post)
    (also : Ensures step state other) :
    Ensures step state fun value later => post value later ∧ other value later :=
  intro fun _ _ ran => ⟨holds.of_ok ran, also.of_ok ran⟩

theorem trivial (step : EStateM ε σ α) (state : σ) : Ensures step state fun _ _ => True :=
  intro fun _ _ _ => True.intro

/-- Two steps in a row ensure what the second does wherever the first has come to. -/
theorem bind {final : β → σ → Prop} (first : Ensures step state post)
    (others : ∀ value later, post value later → Ensures (next value) later final) :
    Ensures (step >>= next) state final := by
  unfold Ensures
  simp only [Bind.bind, EStateM.bind]
  cases ran : step state with
  | ok value later => exact others value later (first.of_ok ran)
  | error error later => exact True.intro

end Ensures

namespace Achieves

variable {post : α → σ → Prop}

theorem of_ok {value : α} {later : σ} (ran : step state = .ok value later)
    (holds : post value later) : Achieves step state post := by
  simpa [Achieves, ran] using holds

/-- What is achieved is a success with the postcondition. -/
theorem exists_ok (holds : Achieves step state post) :
    ∃ value later, step state = .ok value later ∧ post value later := by
  unfold Achieves at holds
  cases ran : step state with
  | ok value later => exact ⟨value, later, rfl, by simpa [ran] using holds⟩
  | error error later => simp [ran] at holds

/-- What is achieved is ensured. -/
theorem ensures (holds : Achieves step state post) : Ensures step state post := by
  obtain ⟨value, later, ran, property⟩ := holds.exists_ok
  exact .intro fun _ _ also => by
    cases ran.symm.trans also
    exact property

theorem mono {weaker : α → σ → Prop} (holds : Achieves step state post)
    (weaken : ∀ value later, post value later → weaker value later) :
    Achieves step state weaker := by
  obtain ⟨value, later, ran, property⟩ := holds.exists_ok
  exact of_ok ran (weaken value later property)

/-- What a step ensures it achieves when it succeeds. -/
theorem and {other : α → σ → Prop} (holds : Achieves step state post)
    (also : Ensures step state other) :
    Achieves step state fun value later => post value later ∧ other value later := by
  obtain ⟨value, later, ran, property⟩ := holds.exists_ok
  exact of_ok ran ⟨property, also.of_ok ran⟩

/-- Two steps in a row achieve what the second does wherever the first has come to. -/
theorem bind {final : β → σ → Prop} (first : Achieves step state post)
    (others : ∀ value later, post value later → Achieves (next value) later final) :
    Achieves (step >>= next) state final := by
  obtain ⟨value, later, ran, property⟩ := first.exists_ok
  obtain ⟨result, last, ended, holds⟩ := (others value later property).exists_ok
  have both : (step >>= next) state = .ok result last := by
    simp only [Bind.bind, EStateM.bind, ran, ended]
  exact of_ok both holds

end Achieves

theorem ends_iff_achieves {post : α → σ → Prop} :
    Ends (fun _ => False) step state post ↔ Achieves step state post := Iff.rfl

theorem ends_iff_ensures {post : α → σ → Prop} :
    Ends (fun _ => True) step state post ↔ Ensures step state post := Iff.rfl

namespace Ends

variable {faults : ε → Prop} {post : α → σ → Prop}

theorem of_ok {value : α} {later : σ} (ends : Ends faults step state post)
    (ran : step state = .ok value later) : post value later := by
  simpa [Ends, ran] using ends

theorem of_error {error : ε} {later : σ} (ends : Ends faults step state post)
    (failed : step state = .error error later) : faults error := by
  simpa [Ends, failed] using ends

theorem mono {weaker : α → σ → Prop} (ends : Ends faults step state post)
    (weaken : ∀ value later, post value later → weaker value later) :
    Ends faults step state weaker := by
  unfold Ends
  cases ran : step state with
  | ok value later => exact weaken value later (ends.of_ok ran)
  | error error later => exact ends.of_error ran

/-- Steps that end one after the other end as one step. -/
theorem bind {final : β → σ → Prop} (first : Ends faults step state post)
    (others : ∀ value later, post value later → Ends faults (next value) later final) :
    Ends faults (step >>= next) state final := by
  cases ran : step state with
  | ok value later =>
      unfold Ends
      rw [bind_of_ok ran]
      exact others value later (first.of_ok ran)
  | error error later =>
      unfold Ends
      rw [bind_of_error ran]
      exact first.of_error ran

end Ends

/-- A step that succeeds does not fail. -/
theorem Achieves.ends {post : α → σ → Prop} (achieves : Achieves step state post)
    (faults : ε → Prop) : Ends faults step state post := by
  obtain ⟨value, later, ran, property⟩ := achieves.exists_ok
  simpa only [Ends, ran] using property

/-! ## The steps of which others are made -/

section Rules

variable {post : α → σ → Prop} {final : β → σ → Prop}

@[simp] theorem ensures_pure (value : α) :
    Ensures (pure value : EStateM ε σ α) state post ↔ post value state := Iff.rfl

@[simp] theorem achieves_pure (value : α) :
    Achieves (pure value : EStateM ε σ α) state post ↔ post value state := Iff.rfl

@[simp] theorem ends_pure {faults : ε → Prop} (value : α) :
    Ends faults (pure value : EStateM ε σ α) state post ↔ post value state := Iff.rfl

@[simp] theorem ensures_bind :
    Ensures (step >>= next) state final ↔
      Ensures step state fun value later => Ensures (next value) later final := by
  unfold Ensures
  simp only [Bind.bind, EStateM.bind]
  cases step state <;> rfl

@[simp] theorem achieves_bind :
    Achieves (step >>= next) state final ↔
      Achieves step state fun value later => Achieves (next value) later final := by
  unfold Achieves
  simp only [Bind.bind, EStateM.bind]
  cases step state <;> rfl

/-- Steps in a row end well if the second does wherever the first ends. -/
@[simp] theorem ends_bind {faults : ε → Prop} :
    Ends faults (step >>= next) state final ↔
      Ends faults step state fun value later => Ends faults (next value) later final := by
  unfold Ends
  simp only [Bind.bind, EStateM.bind]
  cases step state <;> rfl

@[simp] theorem ensures_map {change : α → β} :
    Ensures (change <$> step) state final ↔
      Ensures step state fun value later => final (change value) later := by
  unfold Ensures
  simp only [Functor.map, EStateM.map]
  cases step state <;> rfl

@[simp] theorem achieves_map {change : α → β} :
    Achieves (change <$> step) state final ↔
      Achieves step state fun value later => final (change value) later := by
  unfold Achieves
  simp only [Functor.map, EStateM.map]
  cases step state <;> rfl

@[simp] theorem ensures_throw (error : ε) :
    Ensures (throw error : EStateM ε σ α) state post ↔ True := Iff.rfl

@[simp] theorem achieves_throw (error : ε) :
    Achieves (throw error : EStateM ε σ α) state post ↔ False := Iff.rfl

@[simp] theorem ends_throw {faults : ε → Prop} (error : ε) :
    Ends faults (throw error : EStateM ε σ α) state post ↔ faults error := Iff.rfl

@[simp] theorem ensures_get {post : σ → σ → Prop} :
    Ensures (get : EStateM ε σ σ) state post ↔ post state state := Iff.rfl

@[simp] theorem achieves_get {post : σ → σ → Prop} :
    Achieves (get : EStateM ε σ σ) state post ↔ post state state := Iff.rfl

@[simp] theorem ends_get {faults : ε → Prop} {post : σ → σ → Prop} :
    Ends faults (get : EStateM ε σ σ) state post ↔ post state state := Iff.rfl

@[simp] theorem ensures_set {later : σ} {post : PUnit → σ → Prop} :
    Ensures (set later : EStateM ε σ PUnit) state post ↔ post .unit later := Iff.rfl

@[simp] theorem achieves_set {later : σ} {post : PUnit → σ → Prop} :
    Achieves (set later : EStateM ε σ PUnit) state post ↔ post .unit later := Iff.rfl

@[simp] theorem ensures_modify {change : σ → σ} {post : PUnit → σ → Prop} :
    Ensures (modify change : EStateM ε σ PUnit) state post ↔ post .unit (change state) :=
  Iff.rfl

@[simp] theorem achieves_modify {change : σ → σ} {post : PUnit → σ → Prop} :
    Achieves (modify change : EStateM ε σ PUnit) state post ↔ post .unit (change state) :=
  Iff.rfl

@[simp] theorem ends_modify {faults : ε → Prop} {change : σ → σ} {post : PUnit → σ → Prop} :
    Ends faults (modify change : EStateM ε σ PUnit) state post ↔ post .unit (change state) :=
  Iff.rfl

theorem ensures_ite {condition : Prop} [Decidable condition] {other : EStateM ε σ α} :
    Ensures (if condition then step else other) state post ↔
      (condition → Ensures step state post) ∧ (¬condition → Ensures other state post) := by
  split <;> simp_all

theorem achieves_ite {condition : Prop} [Decidable condition] {other : EStateM ε σ α} :
    Achieves (if condition then step else other) state post ↔
      (condition → Achieves step state post) ∧ (¬condition → Achieves other state post) := by
  split <;> simp_all

/-- A choice ends well if both of its branches do. -/
theorem ends_ite {faults : ε → Prop} {condition : Prop} [Decidable condition]
    {other : EStateM ε σ α} :
    Ends faults (if condition then step else other) state post ↔
      (condition → Ends faults step state post) ∧ (¬condition → Ends faults other state post) := by
  split <;> simp_all

end Rules

/-! ## Steps that succeed on a condition -/

namespace Outcome

variable {possible earlier : Prop} {post : α → σ → Prop} {final : β → σ → Prop}

theorem of_achieves (holds : possible) (achieves : Achieves step state post) :
    Outcome possible step state post :=
  ⟨fun _ => achieves, fun not => absurd holds not⟩

theorem mono {weaker : α → σ → Prop} (outcome : Outcome possible step state post)
    (weaken : ∀ value later, possible → post value later → weaker value later) :
    Outcome possible step state weaker :=
  ⟨fun holds => (outcome.achieves holds).mono fun value later => weaken value later holds,
    outcome.fails⟩

/-- What comes first has to be possible too. -/
theorem bind (first : Outcome earlier step state post) (needs : possible → earlier)
    (others : ∀ value later, earlier → post value later →
      Outcome possible (next value) later final) :
    Outcome possible (step >>= next) state final where
  achieves holds := (first.achieves (needs holds)).bind fun value later property =>
    (others value later (needs holds) property).achieves holds
  fails not := by
    by_cases before : earlier
    · obtain ⟨value, later, ran, property⟩ := (first.achieves before).exists_ok
      have ended := (others value later before property).fails not
      simpa only [Ensures, Bind.bind, EStateM.bind, ran] using ended
    · exact (first.fails before).bind fun _ _ => False.elim

/-- A step that always succeeds comes first. -/
theorem after (first : Achieves step state post)
    (others : ∀ value later, post value later → Outcome possible (next value) later final) :
    Outcome possible (step >>= next) state final :=
  (of_achieves trivial first).bind (fun _ => trivial) fun value later _ => others value later

/-- A step that always succeeds comes last. -/
theorem before (first : Outcome possible step state post)
    (others : ∀ value later, possible → post value later → Achieves (next value) later final) :
    Outcome possible (step >>= next) state final :=
  first.bind id fun value later holds property =>
    of_achieves holds (others value later holds property)

end Outcome

/-- What follows a step whose result and state are known. -/
theorem outcome_bind_of_ok {possible : Prop} {value : α} {later : σ} {final : β → σ → Prop}
    (ran : step state = .ok value later) :
    Outcome possible (step >>= next) state final ↔ Outcome possible (next value) later final := by
  have same : (step >>= next) state = next value later := by
    simp only [Bind.bind, EStateM.bind, ran]
  constructor
  · rintro ⟨achieves, fails⟩
    exact ⟨by simpa only [Achieves, same] using achieves, by simpa only [Ensures, same] using fails⟩
  · rintro ⟨achieves, fails⟩
    exact ⟨by simpa only [Achieves, same] using achieves, by simpa only [Ensures, same] using fails⟩

/-! ## Steps that keep an invariant -/

/-- A step keeps an invariant of its state whenever it succeeds, and gives results of a certain
kind. -/
def Maintains (invariant : σ → Prop) (step : EStateM ε σ α) (post : α → Prop) : Prop :=
  ∀ state, invariant state → Ensures step state fun value later => invariant later ∧ post value

namespace Maintains

variable {invariant : σ → Prop} {post : α → Prop} {final : β → Prop}

theorem pure {value : α} (holds : post value) :
    Maintains invariant (Pure.pure value : EStateM ε σ α) post :=
  fun _ kept => ⟨kept, holds⟩

theorem throw {error : ε} : Maintains invariant (MonadExcept.throw error : EStateM ε σ α) post :=
  fun _ _ => trivial

theorem mono {weaker : α → Prop} (maintains : Maintains invariant step post)
    (weaken : ∀ value, post value → weaker value) : Maintains invariant step weaker :=
  fun state kept => (maintains state kept).mono fun value _ facts =>
    ⟨facts.1, weaken value facts.2⟩

theorem bind (first : Maintains invariant step post)
    (others : ∀ value, post value → Maintains invariant (next value) final) :
    Maintains invariant (step >>= next) final :=
  fun state kept => (first state kept).bind fun value later facts =>
    others value facts.2 later facts.1

theorem get {next : σ → EStateM ε σ β}
    (others : ∀ state : σ, Maintains invariant (next state) final) :
    Maintains invariant (MonadState.get >>= next) final :=
  fun state kept => others state state kept

theorem ite {condition : Prop} [Decidable condition] {other : EStateM ε σ α}
    (first : Maintains invariant step post) (second : Maintains invariant other post) :
    Maintains invariant (if condition then step else other) post := by
  split
  · exact first
  · exact second

end Maintains

/-- The results of several steps are all of one kind. -/
theorem Write.maintains_concat {α β : Type} {invariant : Writer → Prop} {step : α → Write (List β)}
    {arguments : List α} {kind : β → Prop} (each : ∀ argument ∈ arguments,
      Maintains invariant (step argument) fun values => ∀ value ∈ values, kind value) :
    Maintains invariant (Write.concat step arguments) fun values => ∀ value ∈ values,
      kind value := by
  induction arguments with
  | nil => exact .pure (by simp)
  | cons argument others ih =>
      refine (each argument (List.mem_cons_self ..)).bind fun first kinds => ?_
      refine (ih fun other member => each other (List.mem_cons_of_mem _ member)).bind
        fun rest more => ?_
      exact .pure fun value member => (List.mem_append.mp member).elim (kinds value) (more value)

end ConceptualGraph
