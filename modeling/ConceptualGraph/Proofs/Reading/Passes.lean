/-
Module: ConceptualGraph.Proofs.Reading.Passes
Purpose: The productions that look ahead and go past tokens, and change nothing else.
Main exports: Read.Looks, Read.Looks.bind, Read.Passes, Read.Passes.bind, Read.passes_textEnd
-/
import ConceptualGraph.Proofs.Reading.Steps
import ConceptualGraph.Reading.Nesting

namespace ConceptualGraph

/-- The state of reading with tokens from further on. -/
def Reader.withRest (reader : Reader) (rest : List Located) : Reader := { reader with rest }

namespace Read

variable {α β : Type} {step other : Read α} {next : α → Read β}

/-! ## Steps that only look -/

/-- A step changes nothing, and what it fails with has nothing to do with coreference. -/
def Looks (step : Read α) : Prop :=
  ∀ reader, match step reader with
    | .ok _ later => later = reader
    | .error error later => later = reader ∧
        ∃ fault found, error = .parse ⟨fault, found⟩ ∧ fault.kind ≠ .coreference

namespace Looks

variable {reader later : Reader}

theorem of_ok (looks : Looks step) {value : α} (ran : step reader = .ok value later) :
    later = reader := by
  simpa [ran] using looks reader

theorem of_error (looks : Looks step) {error : Error} (ran : step reader = .error error later) :
    later = reader ∧ ∃ fault found, error = .parse ⟨fault, found⟩ ∧ fault.kind ≠ .coreference := by
  simpa [ran] using looks reader

/-- What only looks twice only looks. -/
theorem bind (first : Looks step) (others : ∀ value, Looks (next value)) :
    Looks (step >>= next) := by
  intro reader
  cases ran : step reader with
  | error error later =>
      rw [bind_of_error ran]
      exact first.of_error ran
  | ok value later =>
      obtain rfl := first.of_ok ran
      rw [bind_of_ok ran]
      exact others value later

theorem pure (value : α) : Looks (pure value : Read α) := fun _ => rfl

theorem failAt (found : Located) {fault : ParseFault} (otherwise : fault.kind ≠ .coreference) :
    Looks (failAt found fault : Read α) :=
  fun _ => ⟨rfl, fault, found, rfl, otherwise⟩

theorem fail {fault : ParseFault} (otherwise : fault.kind ≠ .coreference) :
    Looks (fail fault : Read α) :=
  fun _ => ⟨rfl, fault, _, rfl, otherwise⟩

theorem ite {condition : Prop} [Decidable condition] (yes : Looks step) (no : Looks other) :
    Looks (if condition then step else other) := by
  split
  · exact yes
  · exact no

theorem get : Looks (get : Read Reader) := fun _ => rfl

theorem located (places : Nat) : Looks (located places) := fun _ => rfl

theorem ahead (places : Nat) : Looks (ahead places) := fun _ => rfl

theorem peek : Looks peek := fun _ => rfl

theorem model : Looks model := fun _ => rfl

theorem labels : Looks labels := fun _ => rfl

theorem mapM {step : α → Read β} (arguments : List α) (each : ∀ argument, Looks (step argument)) :
    Looks (arguments.mapM step) := by
  induction arguments with
  | nil =>
      rw [List.mapM_nil]
      exact .pure _
  | cons argument arguments ih =>
      rw [List.mapM_cons]
      exact (each argument).bind fun _ => ih.bind fun _ => .pure _

end Looks

theorem looks_definingConcept? (label : String) : Looks (definingConcept? label) := by
  refine Looks.labels.bind fun labels => ?_
  split
  · exact .pure _
  · exact Looks.model.bind fun _ => .pure _
  · exact .pure _

theorem looks_representative? (label : String) (defining : ConceptId) (graph : GraphId) :
    Looks (representative? label defining graph) := by
  refine Looks.model.bind fun model => .ite (.pure _) (Looks.labels.bind fun labels => ?_)
  split
  · exact .pure _
  · exact .pure _

/-- Linking a parameter only looks. -/
theorem looks_linkParameter (body : Option GraphId) (parameter : Declared) :
    Looks (linkParameter body parameter) := by
  unfold linkParameter
  split
  · exact .pure _
  · refine Looks.bind ?_ fun _ => .pure _
    refine (looks_definingConcept? _).bind fun concept => ?_
    split
    · exact .failAt _ nofun
    · exact Looks.model.bind fun _ => .ite (.failAt _ nofun) (.ite (.failAt _ nofun) (.pure _))

theorem looks_lambdaAhead (places : Nat) : Looks (lambdaAhead places) :=
  (Looks.ahead _).bind fun _ => (Looks.ahead _).bind fun _ => .pure _

theorem looks_relationTypeAhead (places : Nat) : Looks (relationTypeAhead places) := by
  refine (Looks.ahead _).bind fun token => ?_
  split
  · exact .pure _
  · exact looks_lambdaAhead _

theorem looks_checkValence (found : Located) (type : RelationType) (count : Nat) :
    Looks (checkValence found type count) := by
  refine Looks.model.bind fun model => ?_
  dsimp only
  split
  · exact .ite (.failAt _ nofun) (.pure _)
  · exact .pure _

theorem looks_refuseNumberedArc : Looks refuseNumberedArc :=
  (Looks.ahead _).bind fun _ => (Looks.ahead _).bind fun _ => (Looks.ahead _).bind fun _ =>
    .ite (.fail nofun) (.pure _)

theorem looks_arrowAhead : Looks arrowAhead := Looks.peek.bind fun _ => .pure _

theorem looks_relationNodeAhead : Looks relationNodeAhead :=
  Looks.peek.bind fun _ => (looks_relationTypeAhead _).bind fun _ => .pure _

/-! ## Steps that go past tokens -/

/-- A step changes nothing but the tokens that are left, and what it fails with has nothing to
do with coreference. -/
def Passes (step : Read α) : Prop :=
  ∀ reader, match step reader with
    | .ok _ later => ∃ rest, rest <:+ reader.rest ∧ later = reader.withRest rest
    | .error error later => (∃ rest, rest <:+ reader.rest ∧ later = reader.withRest rest) ∧
        ∃ fault found, error = .parse ⟨fault, found⟩ ∧ fault.kind ≠ .coreference

/-- What changes nothing leaves all tokens. -/
theorem Looks.passes (looks : Looks step) : Passes step := by
  intro reader
  cases ran : step reader with
  | ok value later => exact ⟨reader.rest, List.suffix_rfl, looks.of_ok ran⟩
  | error error later =>
      obtain ⟨same, cause⟩ := looks.of_error ran
      exact ⟨⟨reader.rest, List.suffix_rfl, same⟩, cause⟩

namespace Passes

theorem of_ok (passes : Passes step) {reader later : Reader} {value : α}
    (ran : step reader = .ok value later) :
    ∃ rest, rest <:+ reader.rest ∧ later = reader.withRest rest := by
  simpa [ran] using passes reader

theorem of_error (passes : Passes step) {reader later : Reader} {error : Error}
    (ran : step reader = .error error later) :
    (∃ rest, rest <:+ reader.rest ∧ later = reader.withRest rest) ∧
      ∃ fault found, error = .parse ⟨fault, found⟩ ∧ fault.kind ≠ .coreference := by
  simpa [ran] using passes reader

/-- What passes twice passes. -/
theorem bind (first : Passes step) (others : ∀ value, Passes (next value)) :
    Passes (step >>= next) := by
  intro reader
  cases ran : step reader with
  | error error later =>
      rw [bind_of_error ran]
      exact first.of_error ran
  | ok value later =>
      obtain ⟨rest, further, rfl⟩ := first.of_ok ran
      rw [bind_of_ok ran]
      cases went : next value (reader.withRest rest) with
      | ok result last =>
          obtain ⟨left, beyond, rfl⟩ := (others value).of_ok went
          exact ⟨left, beyond.trans further, rfl⟩
      | error error last =>
          obtain ⟨⟨left, beyond, rfl⟩, cause⟩ := (others value).of_error went
          exact ⟨⟨left, beyond.trans further, rfl⟩, cause⟩

theorem pure (value : α) : Passes (pure value : Read α) := (Looks.pure value).passes

theorem fail {fault : ParseFault} (otherwise : fault.kind ≠ .coreference) :
    Passes (fail fault : Read α) :=
  (Looks.fail otherwise).passes

theorem ite {condition : Prop} [Decidable condition] (yes : Passes step) (no : Passes other) :
    Passes (if condition then step else other) := by
  split
  · exact yes
  · exact no

theorem get : Passes (get : Read Reader) := Looks.get.passes

theorem located (places : Nat) : Passes (located places) := (Looks.located places).passes

theorem ahead (places : Nat) : Passes (ahead places) := (Looks.ahead places).passes

theorem peek : Passes peek := Looks.peek.passes

theorem model : Passes model := Looks.model.passes

theorem labels : Passes labels := Looks.labels.passes

theorem advance : Passes advance := fun reader => ⟨_, List.tail_suffix reader.rest, rfl⟩

theorem eat (token : Token) : Passes (eat token) :=
  peek.bind fun _ => ite (advance.bind fun _ => .pure _) (.pure _)

theorem expect (token : Token) (what : Expected) : Passes (expect token what) :=
  (eat token).bind fun _ => ite (.pure _) (.fail nofun)

theorem mapM {step : α → Read β} (arguments : List α) (each : ∀ argument, Passes (step argument)) :
    Passes (arguments.mapM step) := by
  induction arguments with
  | nil =>
      rw [List.mapM_nil]
      exact .pure _
  | cons argument arguments ih =>
      rw [List.mapM_cons]
      exact (each argument).bind fun _ => ih.bind fun _ => .pure _

end Passes

/-! ## Productions -/

variable {setting : Setting}

theorem passes_definingConcept? (label : String) : Passes (definingConcept? label) :=
  (looks_definingConcept? label).passes

theorem passes_representative? (label : String) (defining : ConceptId) (graph : GraphId) :
    Passes (representative? label defining graph) :=
  (looks_representative? label defining graph).passes

theorem passes_linkParameter (body : Option GraphId) (parameter : Declared) :
    Passes (linkParameter body parameter) :=
  (looks_linkParameter body parameter).passes

theorem passes_lambdaAhead (places : Nat) : Passes (lambdaAhead places) :=
  (looks_lambdaAhead places).passes

theorem passes_relationTypeAhead (places : Nat) : Passes (relationTypeAhead places) :=
  (looks_relationTypeAhead places).passes

theorem passes_quantifier : Passes quantifier := by
  refine (Passes.eat _).bind fun _ => .ite (Passes.peek.bind fun token => ?_) (.pure _)
  split
  · exact Passes.advance.bind fun _ => .pure _
  · exact Passes.advance.bind fun _ => .pure _
  · exact .fail nofun

theorem passes_encodedLiteral : Passes encodedLiteral := by
  refine Passes.peek.bind fun token => ?_
  split
  · refine Passes.advance.bind fun _ => Passes.peek.bind fun token => ?_
    split
    · exact Passes.advance.bind fun _ => .pure _
    · exact .fail nofun
  · exact .fail nofun

theorem passes_nodeComment (node : NodeKind) : Passes (nodeComment node) := by
  refine Passes.peek.bind fun token => ?_
  split
  · exact .ite (Passes.advance.bind fun _ => .pure _) (.pure _)
  · exact .pure _

theorem passes_checkValence (found : Located) (type : RelationType) (count : Nat) :
    Passes (checkValence found type count) :=
  (looks_checkValence found type count).passes

theorem passes_refuseNumberedArc : Passes refuseNumberedArc := looks_refuseNumberedArc.passes

theorem passes_arrowAhead : Passes arrowAhead := looks_arrowAhead.passes

theorem passes_relationNodeAhead : Passes relationNodeAhead := looks_relationNodeAhead.passes

theorem passes_statementEnd : Passes statementEnd := by
  refine Passes.peek.bind fun token => ?_
  split
  · exact .advance
  · exact .advance
  · exact .pure _
  · exact .pure _
  · exact .fail nofun

theorem passes_textEnd : Passes (textEnd setting) := by
  have ended : Passes (do
      if (← peek) ≠ .endOfInput then fail .unexpected) :=
    Passes.peek.bind fun _ => .ite (.fail nofun) (.pure _)
  refine .ite (Passes.peek.bind fun token => ?_) ended
  split
  · exact Passes.advance.bind fun _ => ended
  · exact Passes.advance.bind fun _ => ended
  · exact ended

end Read

end ConceptualGraph
