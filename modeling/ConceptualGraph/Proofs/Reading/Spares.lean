/-
Module: ConceptualGraph.Proofs.Reading.Spares
Purpose: The steps that leave the model alone, whether they succeed or fail: they look ahead,
  go past tokens or bind labels.
Main exports: Read.Spares, Read.Passes.spares, Read.Spares.ensures
-/
import ConceptualGraph.Proofs.Reading.Scope

namespace ConceptualGraph.Read

variable {α β : Type} {step : Read α} {next : α → Read β} {reader : Reader}

/-- A step leaves the model alone and only goes past tokens. -/
def Spares (step : Read α) : Prop :=
  ∀ reader, (final step reader).model = reader.model ∧ (final step reader).rest <:+ reader.rest

/-! ## Rules -/

theorem final_of_ok {value : α} {later : Reader} (ran : step reader = .ok value later) :
    final step reader = later := by
  unfold final
  rw [ran]

theorem final_of_error {error : Error} {later : Reader} (ran : step reader = .error error later) :
    final step reader = later := by
  unfold final
  rw [ran]

theorem final_bind_of_ok {value : α} {later : Reader} (ran : step reader = .ok value later) :
    final (step >>= next) reader = final (next value) later := by
  simp only [final, Bind.bind, EStateM.bind, ran]

theorem final_bind_of_error {error : Error} {later : Reader}
    (ran : step reader = .error error later) : final (step >>= next) reader = later := by
  simp only [final, Bind.bind, EStateM.bind, ran]

/-- A step that passes leaves the model alone. -/
theorem Passes.spares (passes : Passes step) : Spares step := by
  intro reader
  obtain ⟨rest, further, same⟩ := passes.final_eq reader
  rw [same]
  exact ⟨rfl, further⟩

namespace Spares

theorem ensures (spares : Spares step) (reader : Reader) :
    Ensures step reader fun _ later => later.model = reader.model ∧ later.rest <:+ reader.rest :=
  .intro fun _ _ ran => final_of_ok ran ▸ spares reader

/-- A step that changes nothing but the labels. -/
theorem of_eq (same : ∀ reader, (final step reader).model = reader.model ∧
    (final step reader).rest = reader.rest) : Spares step :=
  fun reader => ⟨(same reader).1, (same reader).2 ▸ List.suffix_rfl⟩

theorem fail (fault : ParseFault) : Spares (fail fault : Read α) := of_eq fun _ => ⟨rfl, rfl⟩

theorem get : Spares (get : Read Reader) := Passes.get.spares

theorem located (places : Nat) : Spares (located places) := (Passes.located places).spares

theorem ahead (places : Nat) : Spares (ahead places) := (Passes.ahead places).spares

theorem peek : Spares peek := Passes.peek.spares

theorem model : Spares model := Passes.model.spares

theorem labels : Spares labels := Passes.labels.spares

theorem advance : Spares advance := Passes.advance.spares

theorem bindLabel (label : String) (target : Target) : Spares (bindLabel label target) :=
  of_eq fun _ => ⟨rfl, rfl⟩

theorem eat (token : Token) : Spares (eat token) := (Passes.eat token).spares

theorem expect (token : Token) (what : Expected) : Spares (expect token what) :=
  (Passes.expect token what).spares

end Spares

end ConceptualGraph.Read
