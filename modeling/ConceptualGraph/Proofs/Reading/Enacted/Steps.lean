/-
Module: ConceptualGraph.Proofs.Reading.Enacted.Steps
Purpose: Steps of reading that are made of acts, with one rule for every way in which steps are
  put together.
Main exports: Read.Enacted, Read.Enacted.bind, Read.Enacted.look, Read.Enacted.past,
  Read.Enacted.expect
-/
import ConceptualGraph.Proofs.Reading.Acts

section

open Relation (ReflTransGen)

namespace ConceptualGraph

/-- A token that lies ahead is the first that is left, unless the input has ended. -/
theorem Reader.rest_eq_cons {reader : Reader} {token : Token}
    (seen : (reader.ahead 0).token = token) (going : token ≠ .endOfInput) :
    reader.rest = reader.ahead 0 :: reader.rest.tail := by
  cases starts : reader.rest with
  | nil =>
      rw [Reader.token_ahead, Reader.tokens, starts] at seen
      exact absurd seen.symm going
  | cons found rest => simp [Reader.ahead, starts]

namespace Read

variable {α β : Type} {step other : Read α} {next : α → Read β} {reader : Reader}

/-! ## Steps that are made of acts -/

variable {awaiting before : Awaiting} {after : α → Awaiting} {end_ : β → Awaiting}
  {post : α → Reader → Prop} {last : β → Reader → Prop}

/-- A step comes to acts.  Which concepts await their referents is known where it succeeds. -/
def Enacted (before : Awaiting) (step : Read α) (reader : Reader) (after : α → Awaiting)
    (post : α → Reader → Prop) : Prop :=
  match step reader with
  | .ok value later => Moment.Leads ⟨reader, before⟩ ⟨later, after value⟩ ∧ post value later
  | .error _ later => ∃ left, Moment.Leads ⟨reader, before⟩ ⟨later, left⟩

namespace Enacted

theorem of_ok (enacted : Enacted before step reader after post) {value : α} {later : Reader}
    (ran : step reader = .ok value later) :
    Moment.Leads ⟨reader, before⟩ ⟨later, after value⟩ ∧ post value later := by
  simpa [Enacted, ran] using enacted

theorem of_error (enacted : Enacted before step reader after post) {error : Error} {later : Reader}
    (ran : step reader = .error error later) :
    ∃ left, Moment.Leads ⟨reader, before⟩ ⟨later, left⟩ := by
  simpa [Enacted, ran] using enacted

theorem mono {weaker : α → Reader → Prop} (enacted : Enacted before step reader after post)
    (weaken : ∀ value later, post value later → weaker value later) :
    Enacted before step reader after weaker := by
  unfold Enacted
  cases ran : step reader with
  | ok value later =>
      have ⟨path, holds⟩ := enacted.of_ok ran
      exact ⟨path, weaken value later holds⟩
  | error error later => exact enacted.of_error ran

theorem trivial (enacted : Enacted before step reader after post) :
    Enacted before step reader after fun _ _ => True :=
  enacted.mono fun _ _ _ => True.intro

/-- One step after another.  Concepts that are there remain so. -/
theorem bind (first : Enacted before step reader after post)
    (others : ∀ value later, reader.model.concepts.size ≤ later.model.concepts.size →
      post value later → Enacted (after value) (next value) later end_ last) :
    Enacted before (step >>= next) reader end_ last := by
  unfold Enacted
  cases ran : step reader with
  | error error later =>
      rw [bind_of_error ran]
      exact first.of_error ran
  | ok value later =>
      rw [bind_of_ok ran]
      have ⟨path, holds⟩ := first.of_ok ran
      have goesOn := others value later path.size_le holds
      cases went : next value later with
      | ok result final =>
          have ⟨further, holds⟩ := goesOn.of_ok went
          exact ⟨path.trans further, holds⟩
      | error error final =>
          have ⟨left, further⟩ := goesOn.of_error went
          exact ⟨left, path.trans further⟩

/-- A step goes on as another one from a moment to which acts lead. -/
theorem along (middle : Moment) (same : step reader = other middle.reader)
    (path : Moment.Leads ⟨reader, before⟩ middle)
    (enacted : Enacted middle.awaiting other middle.reader after post) :
    Enacted before step reader after post := by
  unfold Enacted
  rw [same]
  cases ran : other middle.reader with
  | ok value later =>
      have ⟨further, holds⟩ := enacted.of_ok ran
      exact ⟨path.trans further, holds⟩
  | error error later =>
      have ⟨left, further⟩ := enacted.of_error ran
      exact ⟨left, path.trans further⟩

theorem pure {value : α} (holds : post value reader) :
    Enacted awaiting (pure value) reader (fun _ => awaiting) post :=
  ⟨.refl, holds⟩

theorem throw {error : Error} : Enacted before (throw error : Read α) reader after post :=
  ⟨before, .refl⟩

theorem failAt {found : Located} {fault : ParseFault} :
    Enacted before (failAt found fault) reader after post :=
  ⟨before, .refl⟩

theorem fail {fault : ParseFault} : Enacted before (fail fault) reader after post :=
  ⟨before, .refl⟩

theorem ite {condition : Prop} [Decidable condition]
    (yes : condition → Enacted before step reader after post)
    (no : ¬condition → Enacted before other reader after post) :
    Enacted before (if condition then step else other) reader after post := by
  split
  · exact yes ‹_›
  · exact no ‹_›

/-- A step that looks at the state comes first. -/
theorem see {value : α} (same : step reader = .ok value reader)
    (enacted : Enacted before (next value) reader end_ last) :
    Enacted before (step >>= next) reader end_ last :=
  along ⟨reader, before⟩ (bind_of_ok same) .refl enacted

/-- A step that only looks comes first. -/
theorem look (looks : Looks step)
    (others : ∀ value, Enacted before (next value) reader end_ last) :
    Enacted before (step >>= next) reader end_ last := by
  cases ran : step reader with
  | ok value later =>
      obtain rfl := looks.of_ok ran
      exact see ran (others value)
  | error error later =>
      obtain ⟨rfl, -⟩ := looks.of_error ran
      unfold Enacted
      rw [bind_of_error ran]
      exact ⟨before, .refl⟩

/-- A token that is no marker is gone past. -/
theorem past {token : Token} (seen : (reader.ahead 0).token = token)
    (plain : ∀ digits, token ≠ .marker digits) :
    Moment.Leads ⟨reader, before⟩ ⟨reader.next, before⟩ := by
  by_cases going : token = .endOfInput
  · cases starts : reader.rest with
    | nil =>
        have same : reader.next = reader := by
          cases reader
          simp_all [Reader.next]
        rw [same]
    | cons found rest =>
        have next : reader.rest = found :: reader.rest.tail := by rw [starts, List.tail_cons]
        have here : (reader.ahead 0).token = found.token := by simp [Reader.ahead, starts]
        refine .single (.past next fun digits => ?_)
        rw [← here, seen]
        exact plain digits
  · refine .single (.past (Reader.rest_eq_cons seen going) fun digits => ?_)
    rw [seen]
    exact plain digits

theorem advance {next : Unit → Read β} {token : Token} (seen : (reader.ahead 0).token = token)
    (plain : ∀ digits, token ≠ .marker digits)
    (enacted : Enacted before (next ()) reader.next end_ last) :
    Enacted before (Read.advance >>= next) reader end_ last :=
  along ⟨reader.next, before⟩ (bind_of_ok rfl) (past seen plain) enacted

/-- The next token is gone past if it is the given one, which is no marker. -/
theorem eat {next : Bool → Read β} {token : Token} (plain : ∀ digits, token ≠ .marker digits)
    (others : ∀ found later, later.model = reader.model → later.labels = reader.labels →
      Enacted before (next found) later end_ last) :
    Enacted before (Read.eat token >>= next) reader end_ last := by
  by_cases seen : (reader.ahead 0).token = token
  · have ate : Read.eat token reader = .ok true reader.next := by
      simp only [Read.eat, bind_of_ok (rfl : peek reader = .ok (reader.ahead 0).token reader), seen]
      rfl
    exact along ⟨reader.next, before⟩ (bind_of_ok ate) (past seen plain)
      (others true reader.next rfl rfl)
  · have left : Read.eat token reader = .ok false reader := by
      simp only [Read.eat, bind_of_ok (rfl : peek reader = .ok (reader.ahead 0).token reader), seen]
      rfl
    exact see left (others false reader rfl rfl)

theorem expect {next : Unit → Read β} {token : Token} {what : Expected}
    (plain : ∀ digits, token ≠ .marker digits)
    (others : ∀ later, later.model = reader.model → later.labels = reader.labels →
      Enacted before (next ()) later end_ last) :
    Enacted before (Read.expect token what >>= next) reader end_ last := by
  have expected : Enacted before (Read.expect token what) reader (fun _ => before)
      fun _ later => later.model = reader.model ∧ later.labels = reader.labels :=
    eat plain fun _ _ model labels => .ite (fun _ => pure ⟨model, labels⟩) fun _ => fail
  exact expected.bind fun _ later _ same => others later same.1 same.2

theorem edit {change : Model → Model} (quiet : reader.model.Quiet (change reader.model)) :
    Enacted awaiting (edit change) reader (fun _ => awaiting) fun _ later =>
      later = reader.withModel (change reader.model) :=
  ⟨.single (.edit quiet), rfl⟩

theorem make {change : Model → α × Model} (quiet : reader.model.Quiet (change reader.model).2) :
    Enacted awaiting (make change) reader (fun _ => awaiting) fun value later =>
      value = (change reader.model).1 ∧ later = reader.withModel (change reader.model).2 :=
  ⟨.single (.edit quiet), rfl, rfl⟩

/-- Data that a concept carries are changed. -/
theorem annotate {concept : ConceptId} {change : Concept → Concept}
    (corefSets : ∀ data, (change data).corefSets = data.corefSets)
    (marker : ∀ data, (change data).marker? = data.marker?)
    (graph : ∀ data, (change data).graph = data.graph) :
    Enacted awaiting (Read.edit (·.modifyConcept concept change)) reader (fun _ => awaiting)
      fun _ later => later = reader.withModel (reader.model.modifyConcept concept change) :=
  edit (.modifyConcept corefSets marker graph)

/-- A concept that has just been made is awaited. -/
theorem conceive (type : Option ConceptType) :
    Enacted awaiting (Read.make (·.newConcept type)) reader
      (fun concept => (concept, none) :: awaiting) fun concept later =>
        concept.index + 1 = later.model.concepts.size ∧
          ¬ (later.model.concept concept).IsSettled :=
  ⟨.single (.conceive type), by simp, Model.adrift_newConcept type⟩

/-- A concept may be left without a referent. -/
theorem leave {concept : ConceptId} (enacted : Enacted awaiting step reader after post) :
    Enacted ((concept, none) :: awaiting) step reader after post :=
  along ⟨reader, awaiting⟩ rfl (.single .leave) enacted

/-- What is enacted in a context of its own is enacted outside of it. -/
theorem inContext (enacted : Enacted awaiting step (reader.withLabels reader.labels.push)
      (fun _ => awaiting) fun _ _ => True) :
    Enacted awaiting (inContext step) reader (fun _ => awaiting) fun _ _ => True := by
  unfold Enacted
  cases ran : step (reader.withLabels reader.labels.push) with
  | ok value later =>
      rw [inContext_of_ok ran]
      exact ⟨(ReflTransGen.single .push).trans ((enacted.of_ok ran).1.tail .pop), True.intro⟩
  | error error later =>
      rw [inContext_of_error ran]
      have ⟨left, path⟩ := enacted.of_error ran
      exact ⟨left, (ReflTransGen.single .push).trans (path.tail .pop)⟩

/-- What is enacted inside a bracket is enacted with the bracket. -/
theorem descend {setting : Setting} {room : Option Inside} {next : Inside → Read β}
    (others : ∀ inside, room = some inside → Enacted before (next inside) reader end_ last) :
    Enacted before (descend setting room >>= next) reader end_ last := by
  cases room with
  | none => exact ⟨before, .refl⟩
  | some inside => exact others inside rfl

end Enacted

end Read

end ConceptualGraph

end
