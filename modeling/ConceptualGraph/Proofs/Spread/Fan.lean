/-
Module: ConceptualGraph.Proofs.Spread.Fan
Purpose: A fan is read like the chains into which it is spread out: either both texts are refused,
  or both are read as the same graph into the same model.
Main exports: Read.agree_branches, Read.agree_graphInto, Session.parseGraph_spread
-/
import ConceptualGraph.Proofs.Reading.Whole
import ConceptualGraph.Proofs.Spread.Head

namespace ConceptualGraph

namespace Read

variable {reader other : Reader} {setting : Setting} {brackets : Nat} {graph : GraphId}
  {head : ConceptId} {label : String}

/-! ## Branches -/

variable {steps count : Nat} {first : Bool} {rest rest' : List Token}

section

variable (form : setting.form = .linear) (heads : other.Heads label graph head)

include form heads

/-- A branch is read like the chain that begins with the label of its concept. -/
theorem agree_branch (branch : BranchText) (ends : EndsChain true rest)
    (enough : branch.tokens.length ≤ steps)
    (before : Before (branch.tokens ++ rest) (branch.statement label ++ rest') reader other) :
    Agree (arm setting (roomFor setting brackets) graph steps head fun _ => true)
      (chain setting (roomFor setting brackets) graph) reader other
      (Reaches rest (.punct .dot :: rest')) := by
  have named : Before (branch.tokens ++ rest) (.boundLabel label :: .punct branch.arrow.mark ::
      (branch.tokens ++ .punct .dot :: rest')) reader other := by
    simpa [BranchText.statement, TailText.tokens] using before
  have armed : other.next.tokens =
      (TailText.arm branch.arrow branch).tokens ++ .punct .dot :: rest' := named.passed.done.2
  have left : branch.tokens.length ≤ other.next.rest.length := by
    rw [Reader.length_rest, armed, TailText.tokens, List.length_append, List.length_cons]
    omega
  unfold chain tail
  refine .skip' (target_of_heads heads named.done.2) (.skip' rfl ?_)
  refine .congr rfl (chainTail_of_arrow armed) ?_
  exact branch.agrees (fun _ _ => roomAgrees form brackets) (decide_eq_true rfl).symm ends
    (.statement true _) enough left named.passed.passed

/-- Where a branch and its chain have been read, what follows them is read in the same way. -/
theorem agree_fan {post : Unit → Reader → Unit → Reader → Prop} (branch : BranchText)
    (ends : EndsChain true rest) (enough : branch.tokens.length ≤ steps)
    (before : Before (branch.tokens ++ rest) (branch.statement label ++ rest') reader other)
    (others : ∀ reader other, other.Heads label graph head → Before rest rest' reader other →
      Agree (fan setting (roomFor setting brackets) graph steps head false)
        (statements setting (roomFor setting brackets) graph count) reader other post) :
    Agree (fan setting (roomFor setting brackets) graph (steps + 1) head first)
      (statements setting (roomFor setting brackets) graph (count + 1)) reader other post := by
  have here : (other.ahead 0).token = .boundLabel label := Reader.token_ahead_zero before.done.2
  refine .congr (fan_of_branch before.done.1) (statements_eq_chain count (.inr ⟨label, here⟩)) ?_
  refine ((agree_branch form heads branch ends enough before).and' (heads_chain heads)).bind
    fun _ reader _ other facts => ?_
  obtain ⟨⟨-, before⟩, heads⟩ := facts
  -- Only the statement has a full stop of its own.
  obtain ⟨_, _, ran, rfl⟩ := (statementEnd_achieves before.done.2).exists_ok
  exact .skip' ran (others _ _ (heads.alike (.next other)) before.passed)

end

/-- Where no tokens are left, there are no statements. -/
theorem statements_stop {room : Option Inside} (starts : reader.tokens = []) :
    statements setting room graph count reader = .ok () reader := by
  have ends : EndsItems (reader.ahead 0).token := by
    rw [Reader.token_ahead, starts]
    exact ⟨rfl, by simp⟩
  exact (statements_declines ends count).ran

/-- A text without any tokens left is at its end. -/
theorem textEnd_stops (starts : reader.tokens = []) :
    textEnd setting reader = .ok () reader := by
  have ends : Declines (textEnd setting) () reader :=
    (textEnd_achieves starts).mono fun _ _ same => ⟨rfl, same⟩
  exact ends.ran

/-- The branches of a fan are read like the statements into which they are spread out. -/
theorem agree_branches (form : setting.form = .linear) : ∀ (branches : FanText) {steps count first}
    {reader other : Reader}, other.Heads label graph head → branches.tokens.length < steps →
    (branches.statements label).length ≤ count →
    Before (branches.tokens ++ [.punct .dot]) (branches.statements label) reader other →
      Agree (fan setting (roomFor setting brackets) graph steps head first)
        (statements setting (roomFor setting brackets) graph count) reader other
        (Reaches [.punct .dot] [])
  | .last branch, steps, count, first, reader, other, heads, enough, many, before => by
      obtain ⟨steps, rfl⟩ := Nat.exists_eq_add_one.mpr (Nat.zero_lt_of_lt enough)
      obtain ⟨count, rfl⟩ := Nat.exists_eq_add_one.mpr (Nat.lt_of_lt_of_le (Nat.succ_pos _) many)
      have positive := branch.length_pos
      rw [FanText.tokens] at enough before
      rw [FanText.statements, ← List.append_nil (branch.statement label)] at before
      refine agree_fan form heads branch (.statement true []) (by omega) before
        fun reader other _ before => ?_
      obtain ⟨steps, rfl⟩ := Nat.exists_eq_add_one.mpr (show 0 < steps by omega)
      have starts : reader.tokens = closingTokens false ++ [.punct .dot] := before.done.1
      obtain ⟨_, later, ran, tokens, past⟩ := (fan_closes starts (.statement false [])).exists_ok
      exact .of_ok ran (statements_stop before.done.2)
        ⟨rfl, .of_tokens (before.alike.past past (.refl other)) tokens before.done.2⟩
  | .more branch others, steps, count, first, reader, other, heads, enough, many, before => by
      obtain ⟨steps, rfl⟩ := Nat.exists_eq_add_one.mpr (Nat.zero_lt_of_lt enough)
      obtain ⟨count, rfl⟩ := Nat.exists_eq_add_one.mpr (Nat.lt_of_lt_of_le (Nat.succ_pos _) many)
      have positive := branch.length_pos
      simp only [FanText.tokens, FanText.statements, List.append_assoc, List.length_append,
        BranchText.statement, List.length_cons] at enough many before
      refine agree_fan form heads branch (others.endsChain _) (by omega) before
        fun reader other heads before => ?_
      exact agree_branches form others heads (by omega) (by omega) before

/-! ## Fans -/

/-- So is what follows the first concept of a fan. -/
theorem agree_fanTail (form : setting.form = .linear) (branches : FanText)
    (heads : other.Heads label graph head) (many : (branches.statements label).length ≤ count)
    (before : Before (.punct .hyphen :: (branches.tokens ++ [.punct .dot]))
      (branches.statements label) reader other) :
    Agree (tail setting (roomFor setting brackets) graph head)
      (statements setting (roomFor setting brackets) graph count) reader other
      (Reaches [.punct .dot] []) := by
  obtain ⟨tokens, tokens'⟩ := before.done
  have hyphen : tail setting (roomFor setting brackets) graph head reader =
      fan setting (roomFor setting brackets) graph reader.rest.length head true reader.next :=
    chainTail_of_hyphen tokens
  have enough : branches.tokens.length < reader.rest.length := by
    rw [Reader.length_rest, tokens, List.length_cons, List.length_append]
    omega
  refine .congr hyphen rfl (agree_branches form branches heads enough many ?_)
  exact .of_tokens (before.alike.past (.next reader) (.refl other)) (Reader.tail_tokens tokens)
    tokens'

/-- A fan is read like the statements into which it is spread out. -/
theorem agree_graphInto (form : setting.form = .linear) (fan : Fan)
    (distinct : reader.labels.Distinct) (before : Before fan.tokens fan.spread reader other) :
    Agree (graphInto setting graph) (graphInto setting graph) reader other
      fun _ later _ later' => later.Alike later' := by
  obtain ⟨tokens, tokens'⟩ := before.done
  have opens : (reader.ahead 0).token = .punct .leftBracket := Reader.token_ahead_zero tokens
  have opens' : (other.ahead 0).token = .punct .leftBracket := Reader.token_ahead_zero tokens'
  have many : (fan.branches.statements fan.label).length ≤ other.rest.length - 1 := by
    rw [Reader.length_rest, tokens', Fan.spread, List.length_cons, List.length_append,
      List.length_cons]
    omega
  have everywhere (after after' : List Token) : RoomAgrees after after' (room setting) :=
    roomAgrees form setting.options.maxDepth
  refine .congr (graphInto_eq_chain form opens) (graphInto_eq_chain form opens') ?_
  unfold chain
  simp only [bind_assoc]
  refine ((agree_targetText everywhere (.concept fan.head fan.closes_head) before).and
    (heads_target form fan distinct tokens)).bind fun head reader _ other facts => ?_
  obtain ⟨⟨rfl, before⟩, heads⟩ := facts
  -- Past the concept the texts part: the one goes on with a hyphen, the other one with a full stop.
  have stops : tail setting (room setting) graph head other = .ok () other :=
    chainTail_stops (.statement true _) before.done.2 _
  obtain ⟨_, _, ended, rfl⟩ := (statementEnd_achieves before.done.2).exists_ok
  refine .skip' stops (.skip' ended ?_)
  have heads' := heads.alike (before.alike.trans (.next other))
  refine (agree_fanTail form fan.branches heads' many before.passed).stay
    fun _ reader other before => ?_
  have empty := Reader.tail_tokens before.done.1
  obtain ⟨_, _, ended, rfl⟩ := (statementEnd_achieves before.done.1).exists_ok
  refine .skip ended (.skip (statements_stop empty) ?_)
  exact .of_ok (textEnd_stops empty) (textEnd_stops before.done.2)
    (before.alike.past (.next _) (.refl _))

end Read

/-! ## Whole texts -/

namespace Session

variable {session : Session} {model : Model} {text chains : String}

/-- A fan is accepted exactly if the statements into which it is spread out are, and then it is read
as the same graph, into the same model and the same session. -/
theorem parseGraph_spread (distinct : session.labels.Distinct) (fan : Fan)
    (spells : Notation.linear.Spells text fan.tokens)
    (spells' : Notation.linear.Spells chains fan.spread) :
    ((∃ graph, (session.parseGraph model .linear text).result = .ok graph) ↔
        ∃ graph, (session.parseGraph model .linear chains).result = .ok graph) ∧
      ∀ graph, (session.parseGraph model .linear text).result = .ok graph →
        session.parseGraph model .linear chains = session.parseGraph model .linear text := by
  obtain ⟨stop, scanned, tokens⟩ := spells
  obtain ⟨stop', scanned', tokens'⟩ := spells'
  have before : Read.Before fan.tokens fan.spread (session.reader model .linear text stop)
      (session.reader model .linear chains stop') :=
    .of_tokens ⟨rfl, rfl, rfl, rfl⟩ tokens tokens'
  have agree : Agree (Read.graphInto ⟨.linear, session.options⟩ (model.newGraph none).1)
      (Read.graphInto ⟨.linear, session.options⟩ (model.newGraph none).1) _ _
      fun _ later _ later' => later.Alike later' :=
    Read.agree_graphInto rfl fan distinct before
  -- Both readings come to an end together, in equal states or in failures.
  cases ran : Read.graphInto ⟨.linear, session.options⟩ (model.newGraph none).1
      (session.reader model .linear text stop) with
  | ok _ later =>
      obtain ⟨_, later', ran', alike⟩ := agree.exists_ok ran
      have same : session.parseGraph model .linear chains =
          session.parseGraph model .linear text := by
        rw [parseGraph_of_ok scanned ran, parseGraph_of_ok scanned' ran', alike.model, keeping,
          alike.labels, alike.markers, keeping]
      exact ⟨by rw [same], fun _ _ => same⟩
  | error error later =>
      obtain ⟨error', later', ran'⟩ := agree.exists_error ran
      rw [parseGraph_of_error scanned ran, parseGraph_of_error scanned' ran']
      simp

theorem parseGraph_spread_nested :
    let relation (type : String) : RelationText := ⟨[.ident type, .punct .rightParen], rfl, rfl⟩
    let concept (type : String) : TargetText := .concept [.ident type, .punct .rightBracket] rfl
    let inner : FanText := .more (.link (relation "S") .right (concept "C") .stop)
      (.last (.link (relation "U") .left (concept "E") .stop))
    let fan : Fan :=
      { type := .label "A"
        label := "x"
        branches := .more (.link (relation "R") .right (concept "B") (.fan inner))
          (.more (.single (relation "V")) (.last (.link (relation "T") .left (.label "x")
            (.arm .right (.single (relation "W")))))) }
    let text := "[A: *x]- (R) -> [B]- (S) -> [C] (U) <- [E], (V) (T) <- ?x -> (W)."
    let chains := "[A: *x]. ?x -> (R) -> [B]- (S) -> [C] (U) <- [E],. ?x -> (V). " ++
      "?x <- (T) <- ?x -> (W)."
    ({} : Session).labels.Distinct ∧ Notation.linear.Spells text fan.tokens ∧
      Notation.linear.Spells chains fan.spread ∧
      (({} : Session).parseGraph {} .linear text).result = .ok ⟨0⟩ ∧
      ({} : Session).parseGraph {} .linear chains = ({} : Session).parseGraph {} .linear text := by
  intro relation concept inner fan text chains
  have distinct : ({} : Session).labels.Distinct := List.nodup_nil
  have spells : Notation.linear.Spells text fan.tokens := by decide +kernel
  have spells' : Notation.linear.Spells chains fan.spread := by decide +kernel
  have read : (({} : Session).parseGraph {} .linear text).result = .ok ⟨0⟩ := by decide +kernel
  exact ⟨distinct, spells, spells', read, (parseGraph_spread distinct fan spells spells').2 _ read⟩

end Session

end ConceptualGraph
