/-
Module: ConceptualGraph.Proofs.Spread.Tails
Purpose: What follows a concept in a chain is read in the same way in front of different tokens.
Main exports: Read.Before, Read.arm, Read.chainTail_succ, Read.fan_succ, TailText.agrees
-/
import ConceptualGraph.Proofs.Reversal.Chain
import ConceptualGraph.Proofs.Spread.Statements
import ConceptualGraph.Proofs.Spread.Syntax

namespace ConceptualGraph

namespace Read

variable {reader other : Reader} {rest rest' : List Token}

/-! ## Tokens side by side -/

/-- Two states of reading that are alike, each in front of its own tokens. -/
abbrev Before (rest rest' : List Token) : Reader → Reader → Prop :=
  Beside rest rest' 0 0

/-- Two steps come to the same result, and each to its own tokens. -/
abbrev Reaches {α : Type} (rest rest' : List Token) : α → Reader → α → Reader → Prop :=
  Stays rest rest' 0 fun _ => 0

theorem Beside.of_tokens (alike : reader.Alike other) (tokens : reader.tokens = rest)
    (tokens' : other.tokens = rest') : Before rest rest' reader other :=
  ⟨alike, [], Nat.le_refl 0, rfl, tokens, tokens'⟩

/-- Where no bracket is open, nothing is left in front of the tokens. -/
theorem Beside.close {most : Nat} (beside : Beside rest rest' 0 most reader other) :
    Before rest rest' reader other :=
  .of_tokens beside.alike beside.done.1 beside.done.2

/-- After the same number of tokens both readers are beside each other again. -/
theorem Beside.onward {token token' : Token}
    (before : Before (token :: rest) (token' :: rest') reader other) :
    Before rest rest' reader.next other.next :=
  .of_tokens (before.alike.past (.next reader) (.next other)) (Reader.tail_tokens before.done.1)
    (Reader.tail_tokens before.done.2)

/-- A token is gone past on the other side only. -/
theorem Beside.passed {token : Token} (before : Before rest (token :: rest') reader other) :
    Before rest rest' reader other.next :=
  .of_tokens (before.alike.trans (.next other)) before.done.1 (Reader.tail_tokens before.done.2)

/-- An opening bracket is gone past. -/
theorem Beside.opened {token : Token} {inner : List Token}
    (before : Before (token :: (inner ++ rest)) (token :: (inner ++ rest')) reader other)
    (closes : Token.Closes inner 1) : Beside rest rest' 1 inner.length reader.next other.next :=
  ⟨before.onward.alike, inner, Nat.le_refl _, closes, before.onward.done⟩

variable {setting : Setting} {room : Option Inside} {graph : GraphId} {head : ConceptId}

/-! ## Nodes -/

/-- Tokens that begin a type do so before any rest. -/
theorem beginsType_of_tokens {inner : List Token} (typed : Token.beginsType inner = true)
    (starts : reader.tokens = inner ++ rest) :
    beginsType (reader.ahead 0).token (reader.ahead 1).token = true := by
  unfold Token.beginsType at typed
  split at typed
  · rw [Reader.token_ahead_zero starts]
    rfl
  · rw [Reader.token_ahead_zero starts, Reader.token_ahead_succ,
      Reader.token_ahead_zero (Reader.tail_tokens starts)]
    rfl
  · cases typed

/-- A relation of a chain is seen. -/
theorem relationNodeAhead_of_text {relation : RelationText}
    (starts : reader.tokens = relation.tokens ++ rest) :
    relationNodeAhead reader = .ok true reader := by
  have typed := beginsType_of_tokens relation.typed (Reader.tail_tokens starts)
  rw [relationNodeAhead_eq, Reader.token_ahead_zero starts, Reader.token_ahead_succ 0,
    Reader.token_ahead_succ 1, typed]
  rfl

section Nodes

variable (agrees : ∀ after after', RoomAgrees after after' room)

include agrees

/-- A relation of a chain is read alike before either rest. -/
theorem agree_relationText (relation : RelationText)
    (before : Before (relation.tokens ++ rest) (relation.tokens ++ rest') reader other) :
    Agree (relationNode setting room) (relationNode setting room) reader other
      fun node later node' later' => node.Same node' ∧ Before rest rest' later later' := by
  unfold relationNode
  refine .skip (relationNodeAhead_of_text before.done.1)
    (.skip' (relationNodeAhead_of_text before.done.2) ?_)
  rw [if_pos rfl, agree_located, agree_advance]
  have same : (other.ahead 0).token = (reader.ahead 0).token :=
    (Reader.token_ahead_zero before.done.2).trans (Reader.token_ahead_zero before.done.1).symm
  exact (agree_relationNodeRest (agrees _ _) same (before.opened relation.closes)).mono
    fun _ _ _ _ facts => ⟨facts.1, facts.2.close⟩

/-- What a link leads to is read alike before either rest. -/
theorem agree_targetText (text : TargetText)
    (before : Before (text.tokens ++ rest) (text.tokens ++ rest') reader other) :
    Agree (target setting room graph) (target setting room graph) reader other
      (Reaches rest rest') := by
  obtain ⟨tokens, tokens'⟩ := before.done
  unfold target arc
  cases text with
  | label name =>
      have here : (reader.ahead 0).token = .boundLabel name := Reader.token_ahead_zero tokens
      have there : (other.ahead 0).token = .boundLabel name := Reader.token_ahead_zero tokens'
      rw [bind_assoc, agree_peek, here, there]
      simp only [bind_assoc]
      rw [agree_located, agree_advance]
      exact (before.onward.blindAt (there.trans here.symm) fun _ found =>
        blind_resolve found name _).stay fun _ _ _ before => ⟨rfl, before⟩
  | concept inner closes =>
      have here : (reader.ahead 0).token = .punct .leftBracket := Reader.token_ahead_zero tokens
      have there : (other.ahead 0).token = .punct .leftBracket := Reader.token_ahead_zero tokens'
      have second : (other.ahead 1).token = (reader.ahead 1).token := by
        obtain ⟨first, others, rfl⟩ := closes.exists_cons
        rw [Reader.token_ahead_succ, Reader.token_ahead_succ,
          Reader.token_ahead_zero (Reader.tail_tokens tokens),
          Reader.token_ahead_zero (Reader.tail_tokens tokens')]
      rw [bind_assoc, agree_peek, here, there]
      refine (agree_bracket (agrees _ _) (some graph) here there second
        (before.opened closes)).bind fun found _ found' _ facts => ?_
      obtain ⟨rfl, read, -⟩ := facts
      cases found with
      | some concept => exact ⟨rfl, (read rfl).close⟩
      | none => exact agree_fail

end Nodes

/-! ## Arms -/

variable (setting room graph) in
/-- A relation after a concept, with what follows it.  An arrow that comes after it has to fit. -/
def arm (steps : Nat) (head : ConceptId) (fits : Direction → Bool) : Read Unit := do
  let node ← relationNode setting room
  refuseNumberedArc
  match ← arrowAhead with
  | none => connect graph node [head]
  | some arrow =>
      let found ← located 0
      advance
      if fits arrow then
        let next ← target setting room graph
        connect graph node (arrow.order head next)
        chainTail setting room graph steps next
      else failAt found .opposedArrows

/-- A chain goes on with an arrow or a fan, or it ends. -/
theorem chainTail_succ (steps : Nat) (head : ConceptId) :
    chainTail setting room graph (steps + 1) head = (do
      refuseNumberedArc
      match ← arrowAhead with
      | some into =>
          advance
          arm setting room graph steps head (decide <| into = ·)
      | none => if ← eat (.punct .hyphen) then fan setting room graph steps head true) := by
  unfold chainTail arm
  refine bind_congr fun _ => bind_congr fun ahead => ?_
  cases ahead with
  | none => rfl
  | some into =>
      refine bind_congr fun _ => bind_congr fun node => bind_congr fun _ => bind_congr fun out => ?_
      cases out with
      | none => rfl
      | some out =>
          refine bind_congr fun found => bind_congr fun _ => ?_
          by_cases same : into = out
          · subst same
            rw [if_neg (not_not.mpr rfl), if_pos (decide_eq_true rfl)]
          · rw [if_pos same, if_neg (by simpa using same)]
            rfl

/-- A fan goes on branch by branch, and a comma may close it. -/
theorem fan_succ (steps : Nat) (head : ConceptId) (first : Bool) :
    fan setting room graph (steps + 1) head first = (do
      refuseNumberedArc
      if ← relationNodeAhead then
        arm setting room graph steps head fun _ => true
        fan setting room graph steps head false
      else if first then fail (.expected .branch)
      else
        let _ ← eat (.punct .comma)) := by
  rw [fan]
  refine bind_congr fun _ => bind_congr fun ahead => ?_
  cases ahead with
  | false => rfl
  | true =>
      rw [if_pos rfl, if_pos rfl]
      simp only [arm, bind_assoc, if_true]
      refine bind_congr fun node => bind_congr fun _ => bind_congr fun out => ?_
      cases out with
      | none => rfl
      | some out =>
          simp only [bind_assoc]
          rfl

/-- Before the end of a chain there is neither an arrow nor one with a number. -/
theorem declines_of_ends {inFan : Bool} (ends : EndsChain inFan rest)
    (starts : reader.tokens = rest) :
    Declines refuseNumberedArc () reader ∧ Declines arrowAhead none reader := by
  obtain ⟨mark, others, rfl, hyphen, left, right⟩ := ends.exists_mark
  exact ⟨refuseNumberedArc_of_mark starts hyphen left, arrowAhead_of_mark starts right left⟩

/-- An arrow is seen, and is known to have no number by the token after it. -/
theorem arrow_of_tokens {arrow : Direction} {second : Token} {others : List Token}
    (starts : reader.tokens = .punct arrow.mark :: second :: others)
    (plain : ∀ number, second ≠ .int number) :
    refuseNumberedArc reader = .ok () reader ∧ arrowAhead reader = .ok (some arrow) reader := by
  refine ⟨(refuseNumberedArc_arrow starts plain).ran, ?_⟩
  unfold arrowAhead
  rw [bind_of_ok (rfl : peek reader = .ok _ reader), Reader.token_ahead_zero starts,
    Direction.ofToken?_mark]
  rfl

/-- At the end of a chain nothing is read. -/
theorem chainTail_stops {inFan : Bool} (ends : EndsChain inFan rest)
    (starts : reader.tokens = rest) (steps : Nat) :
    chainTail setting room graph (steps + 1) head reader = .ok () reader := by
  obtain ⟨refuses, ahead⟩ := declines_of_ends ends starts
  obtain ⟨mark, others, rfl, hyphen, left, right⟩ := ends.exists_mark
  rw [chainTail_succ, bind_of_ok refuses.ran, bind_of_ok ahead.ran]
  dsimp only
  have apart : (reader.ahead 0).token ≠ .punct .hyphen := by
    rw [Reader.token_ahead_zero starts]
    simpa using hyphen
  have missing : Declines (eat (.punct .hyphen)) false reader :=
    achieves_eat.mpr ⟨fun found => absurd found apart, fun _ => ⟨rfl, rfl⟩⟩
  rw [bind_of_ok missing.ran]
  rfl

end Read

/-! ## Texts -/

section Texts

open Read

variable (setting : Setting) (room : Option Inside) (graph : GraphId)

/-- What follows a concept is read in the same way in front of different ends. -/
def TailText.Agrees (text : TailText) : Prop :=
  ∀ {steps more head rest rest' reader other}, EndsChain true rest → EndsChain true rest' →
    text.tokens.length < steps → text.tokens.length < more →
    Before (text.tokens ++ rest) (text.tokens ++ rest') reader other →
      Agree (chainTail setting room graph steps head) (chainTail setting room graph more head)
        reader other (Reaches rest rest')

/-- A branch is read in the same way in front of different ends, if its arrow fits on both sides or
on neither. -/
def BranchText.Agrees (text : BranchText) : Prop :=
  ∀ {steps more head fits fits' rest rest' reader other}, fits text.arrow = fits' text.arrow →
    EndsChain true rest → EndsChain true rest' →
    text.tokens.length ≤ steps → text.tokens.length ≤ more →
    Before (text.tokens ++ rest) (text.tokens ++ rest') reader other →
      Agree (arm setting room graph steps head fits) (arm setting room graph more head fits')
        reader other (Reaches rest rest')

/-- Branches are read in the same way in front of different ends, up to the comma that follows
them. -/
def FanText.Agrees (text : FanText) : Prop :=
  ∀ {steps more head first rest rest' reader other}, EndsChain true rest → EndsChain true rest' →
    text.tokens.length < steps → text.tokens.length < more →
    Before (text.tokens ++ .punct .comma :: rest) (text.tokens ++ .punct .comma :: rest')
      reader other →
      Agree (fan setting room graph steps head first) (fan setting room graph more head first)
        reader other (Reaches rest rest')

variable {setting room graph} {rest : List Token}

theorem BranchText.exists_paren (text : BranchText) :
    ∃ others, text.tokens = .punct .leftParen :: others := by
  cases text <;> exact ⟨_, rfl⟩

/-- A fan begins with its parenthesis. -/
theorem FanText.exists_paren (text : FanText) :
    ∃ others, text.tokens = .punct .leftParen :: others := by
  cases text with
  | last branch => exact branch.exists_paren
  | more branch others =>
      obtain ⟨after, opens⟩ := branch.exists_paren
      rw [FanText.tokens, opens]
      exact ⟨_, rfl⟩

theorem BranchText.length_pos (text : BranchText) : 0 < text.tokens.length := by
  obtain ⟨others, opens⟩ := text.exists_paren
  rw [opens]
  exact Nat.succ_pos _

/-- Where a fan goes on, the branch before ends. -/
theorem FanText.endsChain (text : FanText) (rest : List Token) :
    EndsChain true (text.tokens ++ rest) := by
  obtain ⟨others, opens⟩ := text.exists_paren
  rw [opens]
  exact .branch _

/-- Nothing follows on either side. -/
theorem TailText.agrees_stop : TailText.Agrees setting room graph .stop := by
  intro steps more head rest rest' reader other ends ends' enough enough' before
  obtain ⟨steps, rfl⟩ := Nat.exists_eq_add_one.mpr (Nat.zero_lt_of_lt enough)
  obtain ⟨more, rfl⟩ := Nat.exists_eq_add_one.mpr (Nat.zero_lt_of_lt enough')
  exact .of_ok (chainTail_stops ends before.done.1 steps) (chainTail_stops ends' before.done.2 more)
    ⟨rfl, before⟩

/-- Where an arrow follows a concept, so does what it points to. -/
theorem chainTail_of_arrow {reader : Reader} {arrow : Direction} {branch : BranchText}
    {steps : Nat} {head : ConceptId}
    (starts : reader.tokens = (TailText.arm arrow branch).tokens ++ rest) :
    chainTail setting room graph (steps + 1) head reader =
      arm setting room graph steps head (decide <| arrow = ·) reader.next := by
  obtain ⟨others, opens⟩ := branch.exists_paren
  have tokens : reader.tokens = .punct arrow.mark :: .punct .leftParen :: (others ++ rest) := by
    rw [starts, TailText.tokens, opens]
    rfl
  obtain ⟨refuses, ahead⟩ := arrow_of_tokens tokens (by simp)
  rw [chainTail_succ, bind_of_ok refuses, bind_of_ok ahead]
  rfl

/-- An arm agrees with its spread form if its branch does. -/
theorem TailText.agrees_arm {arrow : Direction} {branch : BranchText}
    (agrees : branch.Agrees setting room graph) :
    (TailText.arm arrow branch).Agrees setting room graph := by
  intro steps more head rest rest' reader other ends ends' enough enough' before
  obtain ⟨steps, rfl⟩ := Nat.exists_eq_add_one.mpr (Nat.zero_lt_of_lt enough)
  obtain ⟨more, rfl⟩ := Nat.exists_eq_add_one.mpr (Nat.zero_lt_of_lt enough')
  rw [TailText.tokens, List.length_cons] at enough enough'
  refine .congr (chainTail_of_arrow before.done.1) (chainTail_of_arrow before.done.2) ?_
  exact agrees rfl ends ends' (by omega) (by omega) before.onward

/-- A fan goes on with a branch. -/
theorem fan_of_branch {reader : Reader} {branch : BranchText} {steps : Nat} {head : ConceptId}
    {first : Bool} (starts : reader.tokens = branch.tokens ++ rest) :
    fan setting room graph (steps + 1) head first reader = (do
      arm setting room graph steps head fun _ => true
      fan setting room graph steps head false : Read Unit) reader := by
  obtain ⟨relation, others, opens⟩ : ∃ relation others, branch.tokens =
      RelationText.tokens relation ++ others := by
    cases branch with
    | single relation => exact ⟨relation, [], (List.append_nil _).symm⟩
    | link relation arrow target tail => exact ⟨relation, _, rfl⟩
  rw [opens, List.append_assoc] at starts
  have plain : refuseNumberedArc reader = .ok () reader :=
    (refuseNumberedArc_of_mark starts (by decide) (by decide)).ran
  rw [fan_succ, bind_of_ok plain, bind_of_ok (relationNodeAhead_of_text starts)]
  rfl

/-- A fan whose last branch agrees agrees. -/
theorem FanText.agrees_last {branch : BranchText} (agrees : branch.Agrees setting room graph) :
    (FanText.last branch).Agrees setting room graph := by
  intro steps more head first rest rest' reader other ends ends' enough enough' before
  have positive := branch.length_pos
  simp only [FanText.tokens] at enough enough' before
  obtain ⟨steps, rfl⟩ := Nat.exists_eq_add_one.mpr (Nat.zero_lt_of_lt enough)
  obtain ⟨more, rfl⟩ := Nat.exists_eq_add_one.mpr (Nat.zero_lt_of_lt enough')
  refine .congr (fan_of_branch before.done.1) (fan_of_branch before.done.2) ?_
  have alike : Agree (arm setting room graph steps head fun _ => true)
      (arm setting room graph more head fun _ => true) reader other
      (Reaches (.punct .comma :: rest) (.punct .comma :: rest')) :=
    agrees rfl (.fan _) (.fan _) (by omega) (by omega) before
  refine alike.stay fun _ reader other before => ?_
  obtain ⟨steps, rfl⟩ := Nat.exists_eq_add_one.mpr (show 0 < steps by omega)
  obtain ⟨more, rfl⟩ := Nat.exists_eq_add_one.mpr (show 0 < more by omega)
  obtain ⟨_, later, ran, tokens, past⟩ := (fan_closes before.done.1 ends).exists_ok
  obtain ⟨_, later', ran', tokens', past'⟩ := (fan_closes before.done.2 ends').exists_ok
  exact .of_ok ran ran' ⟨rfl, .of_tokens (before.alike.past past past') tokens tokens'⟩

/-- A fan agrees branch by branch. -/
theorem FanText.agrees_more {branch : BranchText} {others : FanText}
    (agrees : branch.Agrees setting room graph) (all : others.Agrees setting room graph) :
    (FanText.more branch others).Agrees setting room graph := by
  intro steps more head first rest rest' reader other ends ends' enough enough' before
  have positive := branch.length_pos
  simp only [FanText.tokens, List.append_assoc, List.length_append] at enough enough' before
  obtain ⟨steps, rfl⟩ := Nat.exists_eq_add_one.mpr (Nat.zero_lt_of_lt enough)
  obtain ⟨more, rfl⟩ := Nat.exists_eq_add_one.mpr (Nat.zero_lt_of_lt enough')
  refine .congr (fan_of_branch before.done.1) (fan_of_branch before.done.2) ?_
  have alike : Agree (arm setting room graph steps head fun _ => true)
      (arm setting room graph more head fun _ => true) reader other
      (Reaches (others.tokens ++ .punct .comma :: rest)
        (others.tokens ++ .punct .comma :: rest')) :=
    agrees rfl (others.endsChain _) (others.endsChain _) (by omega) (by omega) before
  refine alike.stay fun _ reader other before => ?_
  exact all ends ends' (by omega) (by omega) before

/-- Where a hyphen follows a concept, so do branches. -/
theorem chainTail_of_hyphen {reader : Reader} {branches : FanText} {steps : Nat}
    {head : ConceptId} (starts : reader.tokens = .punct .hyphen :: (branches.tokens ++ rest)) :
    chainTail setting room graph (steps + 1) head reader =
      fan setting room graph steps head true reader.next := by
  obtain ⟨others, opens⟩ := branches.exists_paren
  have here := Reader.token_ahead_zero starts
  have unnumbered : isNumberedArc (reader.ahead 0).token (reader.ahead 1).token
      (reader.ahead 2).token = false := by
    rw [here, Reader.token_ahead_succ, Reader.token_ahead, Reader.tail_tokens starts, opens]
    rfl
  have ahead : arrowAhead reader = .ok none reader := by
    unfold arrowAhead
    rw [bind_of_ok (rfl : peek reader = .ok _ reader), here]
    rfl
  have ate : eat (.punct .hyphen) reader = .ok true reader.next := by
    unfold eat
    rw [bind_of_ok (rfl : peek reader = .ok _ reader), if_pos here]
    rfl
  rw [chainTail_succ, bind_of_ok (refuseNumberedArc_declines unnumbered).ran, bind_of_ok ahead]
  dsimp only
  rw [bind_of_ok ate, if_pos rfl]

/-- A fan agrees with its spread form if its branches do. -/
theorem TailText.agrees_fan {branches : FanText} (agrees : branches.Agrees setting room graph) :
    (TailText.fan branches).Agrees setting room graph := by
  intro steps more head rest rest' reader other ends ends' enough enough' before
  obtain ⟨steps, rfl⟩ := Nat.exists_eq_add_one.mpr (Nat.zero_lt_of_lt enough)
  obtain ⟨more, rfl⟩ := Nat.exists_eq_add_one.mpr (Nat.zero_lt_of_lt enough')
  simp only [TailText.tokens, List.length_cons, List.length_append, List.cons_append,
    List.append_assoc] at enough enough' before
  refine .congr (chainTail_of_hyphen before.done.1) (chainTail_of_hyphen before.done.2) ?_
  exact agrees ends ends' (by omega) (by omega) before.onward

section Room

variable (everywhere : ∀ after after', RoomAgrees after after' room)

include everywhere

/-- A branch of one relation alone agrees. -/
theorem BranchText.agrees_single (relation : RelationText) :
    (BranchText.single relation).Agrees setting room graph := by
  intro steps more head fits fits' rest rest' reader other same ends ends' enough enough' before
  unfold arm
  refine (agree_relationText everywhere relation before).bind
    fun node reader node' other facts => ?_
  obtain ⟨same, before⟩ := facts
  obtain ⟨refuses, ahead⟩ := declines_of_ends ends before.done.1
  obtain ⟨refuses', ahead'⟩ := declines_of_ends ends' before.done.2
  refine .skip refuses.ran (.skip' refuses'.ran (.skip ahead.ran (.skip' ahead'.ran ?_)))
  exact agree_connect same _ before

/-- A branch agrees if the tail behind its first link does. -/
theorem BranchText.agrees_link (relation : RelationText) (arrow : Direction)
    (target : TargetText) {tail : TailText} (agrees : tail.Agrees setting room graph) :
    (BranchText.link relation arrow target tail).Agrees setting room graph := by
  intro steps more head fits fits' rest rest' reader other same ends ends' enough enough' before
  simp only [BranchText.tokens, RelationText.tokens, List.length_append, List.length_cons]
    at enough enough'
  simp only [BranchText.tokens, List.append_assoc, List.cons_append] at before
  unfold arm
  refine (agree_relationText everywhere relation before).bind
    fun node reader node' other facts => ?_
  obtain ⟨alike, before⟩ := facts
  -- The token after the arrow is no number, as it begins the target.
  obtain ⟨first, others, opens, plain⟩ : ∃ first others, target.tokens = first :: others ∧
      ∀ number, first ≠ .int number := by
    cases target <;> exact ⟨_, _, rfl, by simp⟩
  have starts {last : List Token} : target.tokens ++ last = first :: (others ++ last) := by
    rw [opens, List.cons_append]
  obtain ⟨refuses, ahead⟩ := arrow_of_tokens (before.done.1.trans (by rw [starts])) plain
  obtain ⟨refuses', ahead'⟩ := arrow_of_tokens (before.done.2.trans (by rw [starts])) plain
  refine .skip refuses (.skip' refuses' (.skip ahead (.skip' ahead' ?_)))
  dsimp only
  rw [agree_located, agree_advance, show fits arrow = fits' arrow from same]
  refine .ite (fun _ => ?_) fun _ => agree_failAt
  refine (agree_targetText everywhere target before.onward).stay fun next _ _ before => ?_
  refine (agree_connect alike _ before).stay fun _ _ _ before => ?_
  exact agrees ends ends' (by omega) (by omega) before

end Room

end Texts

variable {setting : Setting} {room : Option Inside} {graph : GraphId}

mutual

/-- What follows a concept is read in the same way in front of different ends. -/
theorem TailText.agrees (everywhere : ∀ after after', Read.RoomAgrees after after' room) :
    ∀ text : TailText, text.Agrees setting room graph
  | .stop => TailText.agrees_stop
  | .arm _ branch => TailText.agrees_arm (BranchText.agrees everywhere branch)
  | .fan branches => TailText.agrees_fan (FanText.agrees everywhere branches)

/-- Branches agree, by what they consist of. -/
theorem BranchText.agrees (everywhere : ∀ after after', Read.RoomAgrees after after' room) :
    ∀ text : BranchText, text.Agrees setting room graph
  | .single relation => BranchText.agrees_single everywhere relation
  | .link relation arrow target tail =>
      BranchText.agrees_link everywhere relation arrow target (TailText.agrees everywhere tail)

/-- Fans agree, branch by branch. -/
theorem FanText.agrees (everywhere : ∀ after after', Read.RoomAgrees after after' room) :
    ∀ text : FanText, text.Agrees setting room graph
  | .last branch => FanText.agrees_last (BranchText.agrees everywhere branch)
  | .more branch others =>
      FanText.agrees_more (BranchText.agrees everywhere branch) (FanText.agrees everywhere others)

end

end ConceptualGraph
