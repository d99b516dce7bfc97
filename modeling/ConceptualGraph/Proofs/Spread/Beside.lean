/-
Module: ConceptualGraph.Proofs.Spread.Beside
Purpose: Two readings of the same tokens in front of different ones, side by side.  They do the same
  as long as they are inside a bracket that the tokens close.
Main exports: Token.Closes, Reader.Alike, Beside, Beside.next, Beside.blind, Read.Stays
-/
import ConceptualGraph.Proofs.Agree
import ConceptualGraph.Proofs.Copy.Tracks
import ConceptualGraph.Proofs.Reading.Blind
import ConceptualGraph.Proofs.Reading.Declines
import ConceptualGraph.Proofs.Token.Nesting

namespace ConceptualGraph

/-! ## Tokens that close brackets -/

namespace Token

/-- How many brackets are left open by a token, with one more than a number open before it. -/
def levelsAfter (levels : Nat) : Token → Nat
  | .punct .leftBracket | .punct .leftParen | .punct .leftAngle => levels + 2
  | .punct .rightBracket | .punct .rightParen | .punct .rightAngle => levels
  | _ => levels + 1

/-- A token that is no bracket leaves the level as it is. -/
theorem levelsAfter_of_isFlat {token : Token} (flat : token.isFlat = true) (levels : Nat) :
    token.levelsAfter levels = levels + 1 := by
  cases token with
  | punct mark => cases mark <;> first | rfl | cases flat
  | _ => rfl

/-- Whether tokens close a number of open brackets, the outermost one with their last token. -/
def Closes : List Token → (levels : Nat) → Prop
  | [], levels => levels = 0
  | _ :: _, 0 => False
  | token :: others, levels + 1 => Closes others (token.levelsAfter levels)

instance decidableCloses : ∀ tokens levels, Decidable (Closes tokens levels)
  | [], levels => inferInstanceAs (Decidable (levels = 0))
  | _ :: _, 0 => inferInstanceAs (Decidable False)
  | token :: others, levels + 1 => decidableCloses others (token.levelsAfter levels)

/-- More brackets around a token stay around what follows. -/
theorem levelsAfter_add (levels more : Nat) (token : Token) :
    token.levelsAfter (levels + more) = token.levelsAfter levels + more := by
  unfold levelsAfter
  split <;> omega

/-- Brackets are closed by some tokens, and then those around them by others. -/
theorem Closes.append {tokens others : List Token} {levels more : Nat}
    (closes : Closes tokens levels) (outer : Closes others (more + 1)) :
    Closes (tokens ++ others) (levels + (more + 1)) := by
  induction tokens generalizing levels with
  | nil =>
      obtain rfl : levels = 0 := closes
      rwa [Nat.zero_add]
  | cons token tokens ih =>
      cases levels with
      | zero => exact closes.elim
      | succ levels =>
          have inner : Closes (tokens ++ others) (token.levelsAfter levels + (more + 1)) :=
            ih closes
          rw [← levelsAfter_add] at inner
          rw [Nat.succ_add]
          exact inner

/-- Without an open bracket there are no tokens. -/
theorem Closes.eq_nil {tokens : List Token} (closes : Closes tokens 0) : tokens = [] := by
  cases tokens with
  | nil => rfl
  | cons => exact closes.elim

/-- With an open bracket there is a token. -/
theorem Closes.exists_cons {tokens : List Token} {levels : Nat}
    (closes : Closes tokens (levels + 1)) : ∃ first others, tokens = first :: others := by
  cases tokens with
  | nil => cases closes
  | cons first others => exact ⟨first, others, rfl⟩

end Token

/-! ## States that differ in the tokens -/

/-- Two states of reading differ only in the tokens that are left, as they do where one of them has
gone past tokens to the other. -/
abbrev Reader.Alike (reader other : Reader) : Prop := reader.Past other

namespace Reader.Alike

variable {reader other : Reader}

/-- Readers that are alike differ in their tokens only. -/
theorem eq_withTokens (alike : reader.Alike other) :
    other = reader.withTokens other.rest other.stop := by
  obtain ⟨rest, stop, model, labels, markers, depth⟩ := other
  obtain ⟨rfl, rfl, rfl, rfl⟩ := alike
  rfl

/-- Two states stay alike as long as only tokens are gone past. -/
theorem past {later later' : Reader} (alike : reader.Alike other) (past : reader.Past later)
    (past' : other.Past later') : later.Alike later' where
  model := past'.model.trans (alike.model.trans past.model.symm)
  labels := past'.labels.trans (alike.labels.trans past.labels.symm)
  markers := past'.markers.trans (alike.markers.trans past.markers.symm)
  depth := past'.depth.trans (alike.depth.trans past.depth.symm)

theorem withLabels (alike : reader.Alike other) (labels : LabelTable) :
    (reader.withLabels labels).Alike (other.withLabels labels) :=
  ⟨alike.model, rfl, alike.markers, alike.depth⟩

end Reader.Alike

/-- The places of all tokens are those of one token. -/
def Relocation.to (found : Located) : Relocation where
  span _ := found.span
  lex := id

/-- A token that is moved to its counterpart is that one. -/
theorem Located.moved_to {found found' : Located} (same : found'.token = found.token) :
    found.moved (.to found') = found' := by
  obtain ⟨token, span⟩ := found'
  obtain rfl : token = found.token := same
  rfl

namespace Read

variable {α β : Type} {step step' : Read α} {reader other : Reader} {after after' : List Token}
  {levels most : Nat}

/-- A step that looks at no token does the same in another text. -/
theorem Blind.agree {shift : Relocation} (blind : Blind shift step step')
    (alike : reader.Alike other) :
    Agree step step' reader other fun value later value' later' => value = value' ∧
      later.Alike later' ∧ later.tokens = reader.tokens ∧ later'.tokens = other.tokens := by
  rw [alike.eq_withTokens]
  cases ran : step reader with
  | error error later => exact .of_error ran ((blind.of_error ran).2 _ _)
  | ok value later =>
      obtain ⟨⟨rest, -⟩, same⟩ := blind.of_ok ran
      refine .of_ok ran (same _ _) ⟨rfl, ⟨rfl, rfl, rfl, rfl⟩, ?_, rfl⟩
      rw [Reader.tokens, rest, Reader.tokens]

/-- Two states of reading that are alike, with the same tokens in front of others.  These close a
number of brackets, and there are not more of them than another number. -/
structure Beside (after after' : List Token) (levels most : Nat) (reader other : Reader) :
    Prop where
  alike : reader.Alike other
  front : ∃ front, front.length ≤ most ∧ Token.Closes front levels ∧
    reader.tokens = front ++ after ∧ other.tokens = front ++ after'

/-- Two steps come to the same result, and leave the states beside each other. -/
def Stays (after after' : List Token) (levels : Nat) (most : α → Nat) (value : α) (later : Reader)
    (value' : α) (later' : Reader) : Prop :=
  value = value' ∧ Beside after after' levels (most value) later later'

end Read

/-- One step after another, where the first two come to the same result. -/
theorem Agree.stay {α β : Type} {step step' : Read α} {next next' : α → Read β}
    {reader other : Reader} {after after' : List Token} {levels : Nat} {most : α → Nat}
    {post : β → Reader → β → Reader → Prop}
    (first : Agree step step' reader other (Read.Stays after after' levels most))
    (others : ∀ value later later', Read.Beside after after' levels (most value) later later' →
      Agree (next value) (next' value) later later' post) :
    Agree (step >>= next) (step' >>= next') reader other post := by
  refine first.bind fun value later value' later' facts => ?_
  obtain ⟨rfl, beside⟩ := facts
  exact others value later later' beside

/-- Fewer tokens than a number are left if fewer than a smaller one are. -/
theorem Agree.less {α : Type} {step step' : Read α} {reader other : Reader}
    {after after' : List Token} {levels least most : Nat}
    (agree : Agree step step' reader other (Read.Stays after after' levels fun _ => least))
    (le : least ≤ most) :
    Agree step step' reader other (Read.Stays after after' levels fun _ => most) := by
  refine agree.mono fun value later value' later' facts => ?_
  obtain ⟨same, alike, front, few, others⟩ := facts
  exact ⟨same, alike, front, Nat.le_trans few le, others⟩

namespace Read

variable {α β : Type} {step step' : Read α} {reader other : Reader} {after after' : List Token}
  {levels most : Nat}

namespace Beside

theorem mono {more : Nat} (beside : Beside after after' levels most reader other)
    (le : most ≤ more) : Beside after after' levels more reader other := by
  obtain ⟨alike, front, few, closes, tokens, tokens'⟩ := beside
  exact ⟨alike, front, Nat.le_trans few le, closes, tokens, tokens'⟩

/-- Past the last bracket come the tokens that differ. -/
theorem done (beside : Beside after after' 0 most reader other) :
    reader.tokens = after ∧ other.tokens = after' := by
  obtain ⟨-, front, -, closes, tokens, tokens'⟩ := beside
  obtain rfl := closes.eq_nil
  exact ⟨tokens, tokens'⟩

/-- There are as many tokens as there are at most, and no more than are left. -/
theorem exact (beside : Beside after after' levels most reader other) :
    ∃ least, least ≤ most ∧ least ≤ reader.rest.length ∧ least ≤ other.rest.length ∧
      Beside after after' levels least reader other := by
  obtain ⟨alike, front, few, closes, tokens, tokens'⟩ := beside
  refine ⟨front.length, few, ?_, ?_, alike, front, Nat.le_refl _, closes, tokens, tokens'⟩
  · rw [Reader.length_rest, tokens, List.length_append]
    exact Nat.le_add_right _ _
  · rw [Reader.length_rest, tokens', List.length_append]
    exact Nat.le_add_right _ _

section Open

variable (beside : Beside after after' (levels + 1) most reader other)

include beside

/-- A bracket that is open still has to be closed. -/
theorem exists_cons : ∃ token front, front.length + 1 ≤ most ∧
    Token.Closes front (token.levelsAfter levels) ∧ reader.tokens = token :: (front ++ after) ∧
      other.tokens = token :: (front ++ after') := by
  obtain ⟨-, front, few, closes, tokens, tokens'⟩ := beside
  cases front with
  | nil => cases closes
  | cons token front => exact ⟨token, front, few, closes, tokens, tokens'⟩

theorem pos : 0 < most := by
  obtain ⟨_, _, few, -⟩ := beside.exists_cons
  exact Nat.lt_of_lt_of_le (Nat.succ_pos _) few

/-- The next token is the same. -/
theorem same : (other.ahead 0).token = (reader.ahead 0).token := by
  obtain ⟨token, front, -, -, tokens, tokens'⟩ := beside.exists_cons
  rw [Reader.token_ahead_zero tokens, Reader.token_ahead_zero tokens']

/-- Past the next token, the states are beside each other again. -/
theorem next {token : Token} (here : (reader.ahead 0).token = token) :
    Beside after after' (token.levelsAfter levels) (most - 1) reader.next other.next := by
  obtain ⟨first, front, few, closes, tokens, tokens'⟩ := beside.exists_cons
  obtain rfl : first = token := (Reader.token_ahead_zero tokens).symm.trans here
  exact ⟨beside.alike.past (.next reader) (.next other), front, Nat.le_sub_of_add_le few, closes,
    Reader.tail_tokens tokens, Reader.tail_tokens tokens'⟩

/-- Past a token, without a count of the tokens that are left. -/
theorem past {token : Token} (here : (reader.ahead 0).token = token) :
    Beside after after' (token.levelsAfter levels) most reader.next other.next :=
  (beside.next here).mono (Nat.sub_le _ _)

/-- The second token is the same, if the first one does not close the last bracket. -/
theorem second {token : Token} (here : (reader.ahead 0).token = token)
    (more : token.levelsAfter levels ≠ 0) :
    (other.ahead 1).token = (reader.ahead 1).token := by
  obtain ⟨left, open_⟩ := Nat.exists_eq_succ_of_ne_zero more
  have further := beside.next here
  rw [open_] at further
  rw [Reader.token_ahead_succ, Reader.token_ahead_succ, further.same]

end Open

/-- A step that looks at no token. -/
theorem blind (shift : Relocation) (beside : Beside after after' levels most reader other)
    (blind : Blind shift step step') :
    Agree step step' reader other (Stays after after' levels fun _ => most) := by
  refine (blind.agree beside.alike).mono fun value later value' later' facts => ?_
  obtain ⟨same, alike, tokens, tokens'⟩ := facts
  obtain ⟨-, front, few, closes, read, read'⟩ := beside
  exact ⟨same, alike, front, few, closes, tokens.trans read, tokens'.trans read'⟩

/-- A step that looks at no token but for the place of an error. -/
theorem blindAt {at_ : Located → Read α} {found found' : Located}
    (beside : Beside after after' levels most reader other) (same : found'.token = found.token)
    (blindly : ∀ shift found, Blind shift (at_ found) (at_ (found.moved shift))) :
    Agree (at_ found) (at_ found') reader other (Stays after after' levels fun _ => most) := by
  have goes := beside.blind _ (blindly (.to found') found)
  rwa [Located.moved_to same] at goes

end Beside

/-! ## Steps side by side -/

/-- Two productions that find nothing. -/
theorem agree_of_declines {nothing : α} {post : α → Reader → α → Reader → Prop}
    (declines : Declines step nothing reader) (declines' : Declines step' nothing other)
    (related : post nothing reader nothing other) : Agree step step' reader other post :=
  .of_ok declines.ran declines'.ran related

section Rules

variable {post : β → Reader → β → Reader → Prop}

theorem agree_located {places : Nat} {next next' : Located → Read β} :
    Agree (located places >>= next) (located places >>= next') reader other post ↔
      Agree (next (reader.ahead places)) (next' (other.ahead places)) reader other post := Iff.rfl

theorem agree_ahead {places : Nat} {next next' : Token → Read β} :
    Agree (ahead places >>= next) (ahead places >>= next') reader other post ↔
      Agree (next (reader.ahead places).token) (next' (other.ahead places).token) reader other
        post := Iff.rfl

theorem agree_peek {next next' : Token → Read β} :
    Agree (peek >>= next) (peek >>= next') reader other post ↔
      Agree (next (reader.ahead 0).token) (next' (other.ahead 0).token) reader other post :=
  Iff.rfl

theorem agree_advance {next next' : Unit → Read β} :
    Agree (advance >>= next) (advance >>= next') reader other post ↔
      Agree (next ()) (next' ()) reader.next other.next post := Iff.rfl

theorem agree_get {next next' : Reader → Read β} :
    Agree (get >>= next) (get >>= next') reader other post ↔
      Agree (next reader) (next' other) reader other post := Iff.rfl

theorem agree_fail {fault fault' : ParseFault} {post : α → Reader → α → Reader → Prop} :
    Agree (fail fault : Read α) (fail fault') reader other post := True.intro

theorem agree_failAt {found found' : Located} {fault fault' : ParseFault}
    {post : α → Reader → α → Reader → Prop} :
    Agree (failAt found fault : Read α) (failAt found' fault') reader other post := True.intro

theorem agree_descend {setting : Setting} {room : Option Inside} {next next' : Inside → Read β}
    (others : ∀ inside, room = some inside → Agree (next inside) (next' inside) reader other post) :
    Agree (descend setting room >>= next) (descend setting room >>= next') reader other post := by
  cases room with
  | none => exact True.intro
  | some inside => exact others inside rfl

end Rules

section Steps

variable (beside : Beside after after' (levels + 1) most reader other)

include beside

/-- The same token is eaten, or none. -/
theorem agree_eat (token : Token) :
    Agree (eat token) (eat token) reader other fun ate later ate' later' => ate = ate' ∧
      (ate = true → Beside after after' (token.levelsAfter levels) (most - 1) later later') ∧
      (ate = false → Beside after after' (levels + 1) most later later') := by
  unfold eat
  rw [agree_peek, beside.same]
  exact .ite (fun here => ⟨rfl, fun _ => beside.next here, by simp⟩)
    fun _ => ⟨rfl, by simp, fun _ => beside⟩

/-- A token that is no bracket is eaten or not. -/
theorem agree_eat_less {token : Token} (flat : token.levelsAfter levels = levels + 1) :
    Agree (eat token) (eat token) reader other
      (Stays after after' (levels + 1) fun ate => if ate then most - 1 else most) := by
  refine (agree_eat beside token).mono fun ate later ate' later' facts => ?_
  obtain ⟨same, eaten, left⟩ := facts
  cases ate with
  | true => exact ⟨same, flat ▸ eaten rfl⟩
  | false => exact ⟨same, left rfl⟩

theorem agree_eat_flat {token : Token} (flat : token.levelsAfter levels = levels + 1) :
    Agree (eat token) (eat token) reader other
      (Stays after after' (levels + 1) fun _ => most) := by
  refine (agree_eat_less beside flat).mono fun ate _ _ _ facts => ⟨facts.1, facts.2.mono ?_⟩
  cases ate <;> simp

/-- A token that has to follow. -/
theorem agree_expect (token : Token) (what : Expected) :
    Agree (expect token what) (expect token what) reader other
      (Stays after after' (token.levelsAfter levels) fun _ => most) := by
  refine (agree_eat beside token).bind fun ate later ate' later' facts => ?_
  obtain ⟨rfl, eaten, -⟩ := facts
  cases ate with
  | true => exact ⟨rfl, (eaten rfl).mono (Nat.sub_le _ _)⟩
  | false => exact agree_fail

end Steps

/-- Two steps in contexts of their own. -/
theorem Beside.inContext {more : Nat} {value : α → Nat}
    (beside : Beside after after' levels most reader other)
    (agree : ∀ {reader other}, Beside after after' levels most reader other →
      Agree step step' reader other (Stays after after' more value)) :
    Agree (inContext step) (Read.inContext step') reader other (Stays after after' more value) := by
  have pushed : Beside after after' levels most (reader.withLabels reader.labels.push)
      (other.withLabels other.labels.push) := by
    refine ⟨?_, beside.front⟩
    rw [beside.alike.labels]
    exact beside.alike.withLabels _
  cases ran : step (reader.withLabels reader.labels.push) with
  | error error later =>
      obtain ⟨error', later', ran'⟩ := (agree pushed).exists_error ran
      exact .of_error (inContext_of_error ran) (inContext_of_error ran')
  | ok value later =>
      obtain ⟨value', later', ran', same, alike, front⟩ := (agree pushed).exists_ok ran
      refine .of_ok (inContext_of_ok ran) (inContext_of_ok ran') ⟨same, ?_, front⟩
      rw [alike.labels]
      exact alike.withLabels _

end Read

end ConceptualGraph
