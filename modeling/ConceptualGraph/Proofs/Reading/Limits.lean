/-
Module: ConceptualGraph.Proofs.Reading.Limits
Purpose: Two readings of the same tokens that differ in the room they have for brackets, compared
  step by step: what the one goes past says whether there is room for it in the other.
Main exports: Read.Still, Read.Flat, Read.Limits, Read.Limits.bind, Read.Limits.flatly,
  Read.Limits.descend
-/
import ConceptualGraph.Proofs.Reading.Steps
import ConceptualGraph.Proofs.Token.Nesting

namespace ConceptualGraph

/-- A setting with another limit to the brackets that may be open at once. -/
def Setting.within (setting : Setting) (depth : Nat) : Setting :=
  { setting with options := { setting.options with maxDepth := depth } }

namespace Read

open Token (Brackets isFlat)

variable {α β : Type} {step other : Read α} {next next' : α → Read β} {reader : Reader}

/-! ## Steps that need no room -/

/-- A step goes past no token. -/
def Still (step : Read α) : Prop :=
  ∀ reader, Ensures step reader fun _ later => later.tokens = reader.tokens

namespace Still

theorem bind (first : Still step) (others : ∀ value, Still (next value)) : Still (step >>= next) :=
  fun reader => (first reader).bind fun value later same =>
    (others value later).mono fun _ _ also => also.trans same

theorem pure (value : α) : Still (pure value) := fun _ => rfl

theorem failAt (found : Located) (fault : ParseFault) : Still (failAt found fault : Read α) :=
  fun _ => trivial

theorem fail (fault : ParseFault) : Still (fail fault : Read α) := fun _ => trivial

theorem ite {condition : Prop} [Decidable condition] (yes : Still step) (no : Still other) :
    Still (if condition then step else other) := by
  split
  · exact yes
  · exact no

theorem located (places : Nat) : Still (located places) := fun _ => rfl
theorem peek : Still peek := fun _ => rfl
theorem edit (change : Model → Model) : Still (edit change) := fun _ => rfl
theorem make (change : Model → α × Model) : Still (make change) := fun _ => rfl

theorem bindLabel (label : String) (target : Target) : Still (bindLabel label target) :=
  fun _ => rfl

end Still

/-- A step goes past no bracket, nor past a word that stands before parameters. -/
def Flat (step : Read α) (reader : Reader) : Prop :=
  Ensures step reader fun _ later =>
    ∃ tokens, reader.tokens = tokens ++ later.tokens ∧ ∀ token ∈ tokens, isFlat token = true

namespace Flat

theorem of_still (still : Still step) : Flat step reader :=
  (still reader).mono fun _ _ same => ⟨[], same.symm, nofun⟩

/-- Flat steps in a row are flat. -/
theorem bind (first : Flat step reader)
    (others : ∀ value later, step reader = .ok value later → Flat (next value) later) :
    Flat (step >>= next) reader := by
  refine .intro fun value last ran => ?_
  obtain ⟨middle, later, began, went⟩ := exists_of_bind_ok ran
  obtain ⟨front, split, flat⟩ := first.of_ok began
  obtain ⟨back, split', flat'⟩ := (others middle later began).of_ok went
  refine ⟨front ++ back, by rw [split, split', List.append_assoc], fun token member => ?_⟩
  exact (List.mem_append.mp member).elim (flat token) (flat' token)

theorem pure (value : α) : Flat (pure value) reader := of_still (.pure value)

/-- A step that looks at the state comes first. -/
theorem see {value : α} (same : step reader = .ok value reader) (flat : Flat (next value) reader) :
    Flat (step >>= next) reader := by
  unfold Flat Ensures
  rw [bind_of_ok same]
  exact flat

theorem advance (flat : isFlat (reader.ahead 0).token = true) : Flat advance reader := by
  refine ensures_advance.mpr ?_
  cases starts : reader.tokens with
  | nil => exact ⟨[], by simp [starts], nofun⟩
  | cons token others =>
      rw [Reader.token_ahead_zero starts] at flat
      exact ⟨[token], by simp [starts], by simpa using flat⟩

theorem ite {condition : Prop} [Decidable condition] (yes : condition → Flat step reader)
    (no : ¬condition → Flat other reader) : Flat (if condition then step else other) reader := by
  split
  · exact yes ‹_›
  · exact no ‹_›

theorem eat {token : Token} (flat : isFlat token = true) : Flat (eat token) reader :=
  ensures_eat.mpr ⟨fun found => advance (found ▸ flat), fun _ => ⟨[], rfl, nofun⟩⟩

theorem expect {token : Token} {what : Expected} (flat : isFlat token = true) :
    Flat (expect token what) reader :=
  ensures_expect.mpr fun found => advance (found ▸ flat)

end Flat

/-! ## Steps with less room -/

/-- A kind of stretch of tokens that may begin with any brackets that match. -/
class Absorbs (shape : Nat → List Token → Prop) : Prop where
  absorb {levels more : Nat} {front back : List Token} :
    Brackets levels front → shape more back → shape (max levels more) (front ++ back)

/-- A stretch of tokens that ends with the bracket that closes it. -/
def Closing (closer : Punct) (levels : Nat) (tokens : List Token) : Prop :=
  ∃ inner, Brackets levels inner ∧ tokens = inner ++ [.punct closer]

instance : Absorbs Brackets := ⟨.append⟩

instance (closer : Punct) : Absorbs (Closing closer) where
  absorb := by
    rintro levels more front _ first ⟨inner, second, rfl⟩
    exact ⟨front ++ inner, .append first second, (List.append_assoc _ _ _).symm⟩

/-- Where a step succeeds, it goes past a stretch of tokens of some shape; and a step with less room
does the same if there is room for the levels of the stretch, and else fails for this reason. -/
def Limits (fault : ParseFault) (room : Nat) (shape : Nat → List Token → Prop)
    (full few : Read α) (reader : Reader) : Prop :=
  ∀ value later, full reader = .ok value later →
    ∃ levels tokens, reader.tokens = tokens ++ later.tokens ∧ shape levels tokens ∧
      (levels ≤ room → few reader = .ok value later) ∧
      (room < levels → ∃ found last, few reader = .error (.parse ⟨fault, found⟩) last)

namespace Limits

variable {fault : ParseFault} {room : Nat} {shape inner : Nat → List Token → Prop}
  {full few : Read α}

theorem mono (limits : Limits fault room inner full few reader)
    (weaken : ∀ levels tokens, inner levels tokens → shape levels tokens) :
    Limits fault room shape full few reader := fun value later ran =>
  have ⟨levels, tokens, split, holds, both⟩ := limits value later ran
  ⟨levels, tokens, split, weaken levels tokens holds, both⟩

/-- A step that never succeeds. -/
theorem of_fails (fails : Ensures full reader fun _ _ => False) :
    Limits fault room shape full few reader :=
  fun _ _ ran => (fails.of_ok ran).elim

/-- Two limited steps in a row are one, given that the shape of what is left allows it. -/
theorem bind [Absorbs shape] (first : Limits fault room Brackets full few reader)
    (others : ∀ value later, full reader = .ok value later →
      Limits fault room shape (next value) (next' value) later) :
    Limits fault room shape (full >>= next) (few >>= next') reader := by
  intro value later ran
  obtain ⟨middle, between, began, went⟩ := exists_of_bind_ok ran
  obtain ⟨levels, front, split, matched, same, stops⟩ := first middle between began
  obtain ⟨more, back, split', holds, same', stops'⟩ := others middle between began value later went
  refine ⟨max levels more, front ++ back, by rw [split, split', List.append_assoc],
    Absorbs.absorb matched holds, fun enough => ?_, fun short => ?_⟩
  · rw [bind_of_ok (same (by omega))]
    exact same' (by omega)
  by_cases enough : levels ≤ room
  · rw [bind_of_ok (same enough)]
    exact stops' (by omega)
  · obtain ⟨found, last, failed⟩ := stops (by omega)
    exact ⟨found, last, bind_of_error failed⟩

/-- The same step comes first in both readings, and goes past tokens that are flat. -/
theorem flatly {step : Read α} (flat : Flat step reader)
    (others : ∀ value later front, step reader = .ok value later →
      (∀ token ∈ front, isFlat token = true) →
      Limits fault room (fun levels tokens => shape levels (front ++ tokens))
        (next value) (next' value) later) :
    Limits fault room shape (step >>= next) (step >>= next') reader := by
  intro value later ran
  obtain ⟨middle, between, began, went⟩ := exists_of_bind_ok ran
  obtain ⟨front, split, flats⟩ := flat.of_ok began
  obtain ⟨levels, back, split', holds, both⟩ :=
    others middle between front began flats value later went
  refine ⟨levels, front ++ back, by rw [split, split', List.append_assoc], holds, ?_⟩
  rw [bind_of_ok began]
  exact both

/-- Flat tokens may come before any stretch that absorbs brackets. -/
theorem past [Absorbs shape] {step : Read α} (flat : Flat step reader)
    (others : ∀ value later, step reader = .ok value later →
      Limits fault room shape (next value) (next' value) later) :
    Limits fault room shape (step >>= next) (step >>= next') reader :=
  flatly flat fun value later _ ran flats => (others value later ran).mono
    fun levels _ holds => Nat.zero_max levels ▸ Absorbs.absorb (.of_flat flats) holds

/-- The same step comes first in both readings, and only looks at the state. -/
theorem see {step : Read α} {value : α} (same : step reader = .ok value reader)
    (limits : Limits fault room shape (next value) (next' value) reader) :
    Limits fault room shape (step >>= next) (step >>= next') reader := by
  intro result later ran
  rw [bind_of_ok same] at ran ⊢
  exact limits result later ran

/-- The same step comes last in both readings, and goes past no token. -/
theorem before {next : α → Read β} (limits : Limits fault room shape full few reader)
    (others : ∀ value, Still (next value)) :
    Limits fault room shape (full >>= next) (few >>= next) reader := by
  intro value later ran
  obtain ⟨middle, between, began, went⟩ := exists_of_bind_ok ran
  obtain ⟨levels, tokens, split, holds, same, stops⟩ := limits middle between began
  refine ⟨levels, tokens, by rw [split, (others middle between).of_ok went], holds,
    fun enough => (bind_of_ok (same enough)).trans went, fun short => ?_⟩
  obtain ⟨found, last, failed⟩ := stops short
  exact ⟨found, last, bind_of_error failed⟩

/-- A step that is the same in both readings. -/
theorem same {step : Read α} (flat : Flat step reader) :
    Limits fault room Brackets step step reader := by
  intro value later ran
  obtain ⟨tokens, split, flats⟩ := flat.of_ok ran
  exact ⟨0, tokens, split, .of_flat flats, fun _ => ran,
    fun short => absurd short (Nat.not_lt_zero _)⟩

theorem pure (value : α) : Limits fault room Brackets (pure value) (Pure.pure value) reader :=
  same (.pure value)

/-- A choice that does not depend on the limit is made alike. -/
theorem ite {condition : Prop} [Decidable condition] {full' few' : Read α}
    (yes : condition → Limits fault room shape full few reader)
    (no : ¬condition → Limits fault room shape full' few' reader) :
    Limits fault room shape (if condition then full else full') (if condition then few else few')
      reader := by
  split
  · exact yes ‹_›
  · exact no ‹_›

/-- A token that has to follow is gone past. -/
theorem expect {token : Token} {what : Expected} {next next' : Unit → Read β}
    (going : token ≠ .endOfInput)
    (limits : Limits fault room (fun levels tokens => shape levels (token :: tokens))
      (next ()) (next' ()) reader.next) :
    Limits fault room shape (expect token what >>= next) (Read.expect token what >>= next')
      reader := by
  intro value later ran
  obtain ⟨⟨⟩, between, began, went⟩ := exists_of_bind_ok ran
  obtain ⟨found, rfl⟩ : (reader.ahead 0).token = token ∧ between = reader.next :=
    (ensures_expect.mpr fun found => ⟨found, rfl⟩ : Ensures (Read.expect token what) reader
      fun _ later => (reader.ahead 0).token = token ∧ later = reader.next).of_ok began
  obtain ⟨levels, tokens, split, holds, both⟩ := limits value later went
  refine ⟨levels, token :: tokens, ?_, holds, ?_⟩
  · rw [List.cons_append, ← split]
    exact Reader.tokens_eq_cons found going
  · rw [bind_of_ok began]
    exact both

/-- A step that is the same in both readings and goes past no token. -/
theorem still {step : Read α} (still : Still step) :
    Limits fault room (fun levels tokens => levels = 0 ∧ tokens = []) step step reader :=
  fun _ _ ran => ⟨0, [], ((still reader).of_ok ran).symm, ⟨rfl, rfl⟩, fun _ => ran,
    fun short => absurd short (Nat.not_lt_zero _)⟩

/-- The bracket that closes a stretch of tokens has to follow. -/
theorem close {closer : Punct} {what : Expected} {next : Unit → Read β}
    (ends : Still (next ())) :
    Limits fault room (Closing closer) (Read.expect (.punct closer) what >>= next)
      (Read.expect (.punct closer) what >>= next) reader :=
  expect (by simp) <| (still ends).mono fun _ _ ⟨none_, empty⟩ =>
    ⟨[], none_ ▸ .nil, by rw [empty]; rfl⟩

/-- A context is opened and closed alike under both limits. -/
theorem inContext (limits : Limits fault room shape full few
    (reader.withLabels reader.labels.push)) :
    Limits fault room shape (inContext full) (Read.inContext few) reader := by
  intro value later ran
  cases inside : full { reader with labels := reader.labels.push } with
  | error error last =>
      simp only [Read.inContext, inside] at ran
      cases ran
  | ok result last =>
      obtain ⟨levels, tokens, split, holds, same, stops⟩ := limits result last inside
      simp only [Read.inContext, inside] at ran
      cases ran
      refine ⟨levels, tokens, split, holds, fun enough => ?_, fun short => ?_⟩
      · have went := same enough
        unfold Reader.withLabels at went
        simp only [Read.inContext, went]
      · obtain ⟨found, stuck, failed⟩ := stops short
        unfold Reader.withLabels at failed
        exact ⟨found, { stuck with labels := stuck.labels.pop }, by
          simp only [Read.inContext, failed]⟩

end Limits

/-! ## Brackets -/

/-- What can be read inside a bracket, in a reading with less room. -/
structure InsideLimits (fault : ParseFault) (room : Nat) (full few : Inside) : Prop where
  concept : ∀ graph reader,
    Limits fault room Brackets (full.concept graph) (few.concept graph) reader
  lambda : ∀ reader, Limits fault room Brackets full.lambda few.lambda reader
  items : ∀ graph reader, Limits fault room Brackets (full.items graph) (few.items graph) reader

/-- What can be read in a bracket, in a reading that has room for a number of brackets. -/
def RoomLimits (fault : ParseFault) (room : Nat) (full few : Option Inside) : Prop :=
  ∀ inside, full = some inside → ∃ smaller, InsideLimits fault (room - 1) inside smaller ∧
    few = if room = 0 then none else some smaller

namespace Limits

variable {depth room : Nat} {setting : Setting} {roomy tight : Option Inside}

/-- A bracket is entered, with its token still ahead.  What the reading with less room does inside
matters only where it has room at all. -/
theorem descend {next next' : Inside → Read β}
    (rooms : RoomLimits (.nestingTooDeep depth) room roomy tight)
    (others : ∀ inside smaller, InsideLimits (.nestingTooDeep depth) (room - 1) inside smaller →
      Limits (.nestingTooDeep depth) (room - 1) (fun levels => Brackets (levels + 1))
        (next inside) (next' smaller) reader) :
    Limits (.nestingTooDeep depth) room Brackets (Read.descend setting roomy >>= next)
      (Read.descend (setting.within depth) tight >>= next') reader := by
  intro value later ran
  cases roomy with
  | none => cases ran
  | some inside =>
      obtain ⟨smaller, insides, same⟩ := rooms inside rfl
      obtain ⟨levels, tokens, split, matched, same', stops⟩ :=
        others inside smaller insides value later ran
      refine ⟨levels + 1, tokens, split, matched, fun enough => ?_, fun short => ?_⟩
      · rw [same, if_neg (by omega)]
        exact same' (by omega)
      by_cases full : room = 0
      · rw [same, if_pos full]
        exact ⟨_, _, rfl⟩
      · rw [same, if_neg full]
        exact stops (by omega)

/-- The token of a bracket that has been entered is gone past. -/
theorem opened {fault : ParseFault} {opener closer : Punct} {next next' : Unit → Read β}
    (starts : (reader.ahead 0).token = .punct opener) (pair : opener.closer? = some closer)
    (limits : Limits fault room (Closing closer) (next ()) (next' ()) reader.next) :
    Limits fault room (fun levels => Brackets (levels + 1)) (advance >>= next)
      (advance >>= next') reader := by
  intro value later ran
  obtain ⟨levels, tokens, split, ⟨inner, matched, rfl⟩, both⟩ := limits value later ran
  refine ⟨levels, .punct opener :: (inner ++ [.punct closer]), ?_, .enclose pair matched, both⟩
  rw [List.cons_append, ← split]
  exact Reader.tokens_eq_cons starts (by simp)

end Limits

end Read

end ConceptualGraph
