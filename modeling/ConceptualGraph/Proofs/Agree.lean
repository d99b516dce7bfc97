/-
Module: ConceptualGraph.Proofs.Agree
Purpose: Two steps that are taken side by side: either both succeed, with results and states that
  are related, or both fail.
Main exports: Agree, Agree.bind, Agree.mapM
-/
import ConceptualGraph.Proofs.Step

namespace ConceptualGraph

universe u

variable {ε σ α β α' β' : Type u} {step : EStateM ε σ α} {step' : EStateM ε σ α'}
  {next : α → EStateM ε σ β} {next' : α' → EStateM ε σ β'} {state state' : σ}

/-- Two steps, each from its own state, both fail, or both succeed with results and states that are
related. -/
def Agree (step : EStateM ε σ α) (step' : EStateM ε σ α') (state state' : σ)
    (post : α → σ → α' → σ → Prop) : Prop :=
  match step state, step' state' with
  | .ok value later, .ok value' later' => post value later value' later'
  | .error _ _, .error _ _ => True
  | _, _ => False

namespace Agree

variable {post : α → σ → α' → σ → Prop} {final : β → σ → β' → σ → Prop}

theorem of_ok {value : α} {later : σ} {value' : α'} {later' : σ}
    (ran : step state = .ok value later) (ran' : step' state' = .ok value' later')
    (related : post value later value' later') : Agree step step' state state' post := by
  simpa [Agree, ran, ran'] using related

theorem of_error {error error' : ε} {later later' : σ} (ran : step state = .error error later)
    (ran' : step' state' = .error error' later') : Agree step step' state state' post := by
  simp [Agree, ran, ran']

/-- Where the one step succeeds, the other one does. -/
theorem exists_ok (agree : Agree step step' state state' post) {value : α} {later : σ}
    (ran : step state = .ok value later) :
    ∃ value' later', step' state' = .ok value' later' ∧ post value later value' later' := by
  unfold Agree at agree
  rw [ran] at agree
  cases ran' : step' state' with
  | ok value' later' => exact ⟨value', later', rfl, by simpa [ran'] using agree⟩
  | error error' later' => simp [ran'] at agree

/-- Where the one step fails, the other one does. -/
theorem exists_error (agree : Agree step step' state state' post) {error : ε} {later : σ}
    (ran : step state = .error error later) :
    ∃ error' later', step' state' = .error error' later' := by
  unfold Agree at agree
  rw [ran] at agree
  cases ran' : step' state' with
  | ok value' later' => simp [ran'] at agree
  | error error' later' => exact ⟨error', later', rfl⟩

/-- Steps that agree agree in less. -/
theorem mono {weaker : α → σ → α' → σ → Prop} (agree : Agree step step' state state' post)
    (weaken : ∀ value later value' later', post value later value' later' →
      weaker value later value' later') : Agree step step' state state' weaker := by
  cases ran : step state with
  | ok value later =>
      obtain ⟨value', later', ran', related⟩ := agree.exists_ok ran
      exact of_ok ran ran' (weaken value later value' later' related)
  | error error later =>
      obtain ⟨error', later', ran'⟩ := agree.exists_error ran
      exact of_error ran ran'

/-- What the first step ensures holds where the two succeed. -/
theorem and {other : α → σ → Prop} (agree : Agree step step' state state' post)
    (ensures : Ensures step state other) :
    Agree step step' state state' fun value later value' later' =>
      post value later value' later' ∧ other value later := by
  cases ran : step state with
  | ok value later =>
      obtain ⟨value', later', ran', related⟩ := agree.exists_ok ran
      exact of_ok ran ran' ⟨related, ensures.of_ok ran⟩
  | error error later =>
      obtain ⟨error', later', ran'⟩ := agree.exists_error ran
      exact of_error ran ran'

/-- What the other step ensures holds where the two succeed. -/
theorem and' {other : α' → σ → Prop} (agree : Agree step step' state state' post)
    (ensures : Ensures step' state' other) :
    Agree step step' state state' fun value later value' later' =>
      post value later value' later' ∧ other value' later' := by
  cases ran : step state with
  | ok value later =>
      obtain ⟨value', later', ran', related⟩ := agree.exists_ok ran
      exact of_ok ran ran' ⟨related, ensures.of_ok ran'⟩
  | error error later =>
      obtain ⟨error', later', ran'⟩ := agree.exists_error ran
      exact of_error ran ran'

/-- Steps that agree one after the other agree as one step. -/
theorem bind (first : Agree step step' state state' post)
    (others : ∀ value later value' later', post value later value' later' →
      Agree (next value) (next' value') later later' final) :
    Agree (step >>= next) (step' >>= next') state state' final := by
  cases ran : step state with
  | ok value later =>
      obtain ⟨value', later', ran', related⟩ := first.exists_ok ran
      unfold Agree
      rw [bind_of_ok ran, bind_of_ok ran']
      exact others value later value' later' related
  | error error later =>
      obtain ⟨error', later', ran'⟩ := first.exists_error ran
      exact of_error (bind_of_error ran) (bind_of_error ran')

theorem pure {value : α} {value' : α'} (related : post value state value' state') :
    Agree (pure value : EStateM ε σ α) (Pure.pure value' : EStateM ε σ α') state state' post :=
  related

/-- A choice agrees if both of its sides do. -/
theorem ite {condition : Prop} [Decidable condition] {other : EStateM ε σ α}
    {other' : EStateM ε σ α'} (yes : condition → Agree step step' state state' post)
    (no : ¬condition → Agree other other' state state' post) :
    Agree (if condition then step else other) (if condition then step' else other') state state'
      post := by
  split
  · exact yes ‹_›
  · exact no ‹_›

/-- Two steps run like two that agree. -/
theorem congr {other : EStateM ε σ α} {other' : EStateM ε σ α'} {later later' : σ}
    (same : step state = other later) (same' : step' state' = other' later')
    (agree : Agree other other' later later' post) :
    Agree step step' state state' post := by
  unfold Agree
  rw [same, same']
  exact agree

/-- A step that succeeds comes first on the one side. -/
theorem skip {γ : Type u} {first : EStateM ε σ γ} {next : γ → EStateM ε σ α} {value : γ}
    {later : σ} (ran : first state = .ok value later)
    (agree : Agree (next value) step' later state' post) :
    Agree (first >>= next) step' state state' post := by
  unfold Agree
  rw [bind_of_ok ran]
  exact agree

/-- A step that succeeds comes first on the other side. -/
theorem skip' {γ : Type u} {first : EStateM ε σ γ} {next : γ → EStateM ε σ α'} {value : γ}
    {later : σ} (ran : first state' = .ok value later)
    (agree : Agree step (next value) state later post) :
    Agree step (first >>= next) state state' post := by
  unfold Agree
  rw [bind_of_ok ran]
  exact agree

/-- The elements of two lists are gone through side by side. -/
theorem mapM {elements : List α} {elements' : List α'} {each : α → EStateM ε σ β}
    {each' : α' → EStateM ε σ β} {related : α → α' → Prop} {states : σ → σ → Prop}
    (pairs : List.Forall₂ related elements elements')
    (agree : ∀ element element' state state', related element element' → states state state' →
      Agree (each element) (each' element') state state' fun value later value' later' =>
        value = value' ∧ states later later')
    (start : states state state') :
    Agree (elements.mapM each) (elements'.mapM each') state state'
      fun values later values' later' => values = values' ∧ states later later' := by
  induction pairs generalizing state state' with
  | nil =>
      rw [List.mapM_nil, List.mapM_nil]
      exact pure ⟨rfl, start⟩
  | cons pair _ ih =>
      rw [List.mapM_cons, List.mapM_cons]
      refine (agree _ _ _ _ pair start).bind fun value later value' later' facts => ?_
      obtain ⟨rfl, between⟩ := facts
      refine (ih between).bind fun values last values' last' facts => ?_
      obtain ⟨rfl, done⟩ := facts
      exact pure ⟨rfl, done⟩

end Agree

end ConceptualGraph
