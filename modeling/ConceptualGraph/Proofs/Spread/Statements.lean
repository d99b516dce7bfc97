/-
Module: ConceptualGraph.Proofs.Spread.Statements
Purpose: Chains, fans and the statements of nested graphs are read in the same way in front of
  different tokens.
Main exports: Read.RelationNode.Same, Read.agree_chains, Read.agree_statements, Read.roomAgrees
-/
import ConceptualGraph.Proofs.Spread.Nodes

namespace ConceptualGraph.Read

variable {after after' : List Token} {levels most : Nat} {setting : Setting} {reader other : Reader}
  {room : Option Inside} {graph : GraphId}

/-! ## Arrows -/

/-- An arrow with a number is seen in tokens that are no brackets. -/
theorem isNumberedArc_congr {first second third second' third' : Token}
    (next : first.isFlat = true → second' = second)
    (last : first.isFlat = true → second.isFlat = true → third' = third) :
    isNumberedArc first second' third' = isNumberedArc first second third := by
  by_cases flat : first.isFlat = true
  · rw [next flat]
    by_cases flat' : second.isFlat = true
    · rw [last flat flat']
    · have plain (third : Token) : isNumberedArc first second third = false := by
        unfold isNumberedArc
        split <;> simp_all [Token.isFlat]
      rw [plain, plain]
  · have plain (second third : Token) : isNumberedArc first second third = false := by
      unfold isNumberedArc
      split <;> simp_all [Token.isFlat]
    rw [plain, plain]

theorem isFlat_of_arrow {token : Token} {direction : Direction}
    (arrow : Direction.ofToken? token = some direction) : token.isFlat = true := by
  unfold Direction.ofToken? at arrow
  split at arrow
  · rfl
  · rfl
  · cases arrow

section Arrows

variable (beside : Beside after after' (levels + 1) most reader other)

include beside

theorem agree_refuseNumberedArc :
    Agree refuseNumberedArc refuseNumberedArc reader other
      (Stays after after' (levels + 1) fun _ => most) := by
  unfold refuseNumberedArc
  have second (flat : (reader.ahead 0).token.isFlat = true) :
      (other.ahead 1).token = (reader.ahead 1).token :=
    beside.second rfl (by simp [Token.levelsAfter_of_isFlat flat])
  have third (flat : (reader.ahead 0).token.isFlat = true)
      (flat' : (reader.ahead 1).token.isFlat = true) :
      (other.ahead 2).token = (reader.ahead 2).token := by
    have further := Token.levelsAfter_of_isFlat flat levels ▸ beside.past rfl
    rw [Reader.token_ahead_succ] at flat'
    rw [Reader.token_ahead_succ, Reader.token_ahead_succ 1]
    exact further.second rfl (by simp [Token.levelsAfter_of_isFlat flat'])
  rw [agree_ahead, agree_ahead, agree_ahead, beside.same, isNumberedArc_congr second third]
  exact .ite (fun _ => agree_fail) fun _ => ⟨rfl, beside⟩

/-- An arrow is gone past. -/
theorem Beside.pastArrow {direction : Direction}
    (arrow : Direction.ofToken? (reader.ahead 0).token = some direction) :
    Beside after after' (levels + 1) (most - 1) reader.next other.next :=
  Token.levelsAfter_of_isFlat (isFlat_of_arrow arrow) levels ▸ beside.next rfl

end Arrows

/-! ## Nodes of a chain -/

/-- Two relations of a chain differ only in where they begin. -/
structure RelationNode.Same (node node' : RelationNode) : Prop where
  found : node'.found.token = node.found.token
  type : node'.type = node.type
  comment : node'.comment = node.comment

/-- A relation of a chain after its parenthesis. -/
theorem agree_relationNodeRest (agrees : RoomAgrees after after' room) {found found' : Located}
    (same : found'.token = found.token)
    (beside : Beside after after' (levels + 1) most reader other) :
    Agree (do
      let type ← relationType setting (lambda setting room)
      let comment ← nodeComment .relation
      expect (.punct .rightParen) .relationClosing
      return ({ found, type, comment } : RelationNode)) (do
      let type ← relationType setting (lambda setting room)
      let comment ← nodeComment .relation
      expect (.punct .rightParen) .relationClosing
      return ({ found := found', type, comment } : RelationNode)) reader other
        fun node later node' later' => node.Same node' ∧
          Beside after after' levels most later later' := by
  refine (agree_relationType beside (agree_lambda agrees)).stay fun type _ _ beside => ?_
  refine (agree_nodeComment beside _).stay fun comment _ _ beside => ?_
  exact (agree_expect beside _ _).stay fun _ _ _ beside => ⟨⟨same, rfl, rfl⟩, beside⟩

theorem agree_relationNode (agrees : RoomAgrees after after' room)
    (beside : Beside after after' (levels + 1) most reader other) :
    Agree (relationNode setting room) (relationNode setting room) reader other
      fun node later node' later' => node.Same node' ∧
        Beside after after' (levels + 1) (most - 1) later later' := by
  unfold relationNode
  refine agree_relationNodeAhead beside (fun opens => ?_) agree_fail
  rw [if_pos rfl, agree_located, agree_advance]
  exact agree_relationNodeRest agrees beside.same (beside.next opens)

theorem agree_connect {node node' : RelationNode} (same : node.Same node') (args : List ConceptId)
    (beside : Beside after after' levels most reader other) :
    Agree (connect graph node args) (connect graph node' args) reader other
      (Stays after after' levels fun _ => most) := by
  obtain ⟨found', type', comment'⟩ := node'
  obtain ⟨token, rfl, rfl⟩ := same
  exact (beside.blindAt token fun _ found => blind_makeRelation found _ _ _ _).stay
    fun _ _ _ beside => Beside.blind (.below 0) beside (.edit _)

theorem agree_target (agrees : RoomAgrees after after' room)
    (beside : Beside after after' (levels + 1) most reader other) :
    Agree (target setting room graph) (target setting room graph) reader other
      (Stays after after' (levels + 1) fun _ => most - 1) := by
  refine (agree_arc beside (fun home => agree_concept beside agrees home) _).stay
    fun found _ _ beside => ?_
  cases found with
  | some concept => exact ⟨rfl, beside⟩
  | none => exact agree_fail

/-! ## Chains and fans -/

/-- The rest of a chain, and the branches of a fan, with enough steps for the tokens. -/
theorem agree_chains (agrees : RoomAgrees after after' room) (steps : Nat) :
    (∀ {more most reader other} head, most ≤ steps → most ≤ more →
      Beside after after' (levels + 1) most reader other →
        Agree (chainTail setting room graph steps head) (chainTail setting room graph more head)
          reader other (Stays after after' (levels + 1) fun _ => most)) ∧
    ∀ {more most reader other} head first, most ≤ steps → most ≤ more →
      Beside after after' (levels + 1) most reader other →
        Agree (fan setting room graph steps head first) (fan setting room graph more head first)
          reader other (Stays after after' (levels + 1) fun _ => most) := by
  -- The fuel may differ on both sides, as long as each has enough for the tokens that are left.
  induction steps with
  | zero =>
      exact ⟨fun _ enough _ beside => absurd enough (Nat.not_le_of_gt beside.pos),
        fun _ _ enough _ beside => absurd enough (Nat.not_le_of_gt beside.pos)⟩
  | succ steps ih =>
      obtain ⟨tails, fans⟩ := ih
      constructor
      · intro more most reader other head enough enough' beside
        obtain ⟨more, rfl⟩ : ∃ count, more = count + 1 :=
          Nat.exists_eq_succ_of_ne_zero (Nat.ne_of_gt (Nat.lt_of_lt_of_le beside.pos enough'))
        unfold chainTail
        refine (agree_refuseNumberedArc beside).stay fun _ reader other beside => ?_
        refine .skip rfl (.skip' rfl ?_)
        rw [beside.same]
        cases arrow : Direction.ofToken? (reader.ahead 0).token with
        | none =>
            refine (agree_eat_less beside rfl).stay fun ate _ _ beside => ?_
            cases ate with
            | false => exact ⟨rfl, beside⟩
            | true => exact (fans head true (Nat.sub_le_of_le_add enough)
                (Nat.sub_le_of_le_add enough') beside).less (Nat.sub_le _ _)
        | some into =>
            dsimp only
            rw [agree_advance]
            refine (agree_relationNode agrees (beside.pastArrow arrow)).bind
              fun node _ node' _ facts => ?_
            obtain ⟨same, beside⟩ := facts
            refine (agree_refuseNumberedArc beside).stay fun _ reader other beside => ?_
            refine .skip rfl (.skip' rfl ?_)
            rw [beside.same]
            cases arrow : Direction.ofToken? (reader.ahead 0).token with
            | none => exact (agree_connect same _ beside).less (by omega)
            | some out =>
                dsimp only
                rw [agree_located, agree_advance]
                refine .ite (fun _ => agree_failAt) fun _ => ?_
                refine (agree_target agrees (beside.pastArrow arrow)).stay
                  fun next _ _ beside => ?_
                refine (agree_connect same _ beside).stay fun _ _ _ beside => ?_
                exact (tails next (by omega) (by omega) beside).less (by omega)
      · intro more most reader other head first enough enough' beside
        obtain ⟨more, rfl⟩ : ∃ count, more = count + 1 :=
          Nat.exists_eq_succ_of_ne_zero (Nat.ne_of_gt (Nat.lt_of_lt_of_le beside.pos enough'))
        unfold fan
        refine (agree_refuseNumberedArc beside).stay fun _ reader other beside => ?_
        refine agree_relationNodeAhead beside (fun opens => ?_) ?_
        · rw [if_pos rfl]
          refine (agree_relationNode agrees beside).bind fun node _ node' _ facts => ?_
          obtain ⟨same, beside⟩ := facts
          refine (agree_refuseNumberedArc beside).stay fun _ reader other beside => ?_
          have goesOn {most : Nat} {reader other : Reader} (few : most ≤ steps)
              (few' : most ≤ more) (beside : Beside after after' (levels + 1) most reader other) :
              Agree (fan setting room graph steps head false)
                (fan setting room graph more head false) reader other
                (Stays after after' (levels + 1) fun _ => most) := fans head false few few' beside
          refine .skip rfl (.skip' rfl ?_)
          rw [beside.same]
          cases arrow : Direction.ofToken? (reader.ahead 0).token with
          | none =>
              refine (agree_connect same _ beside).stay fun _ _ _ beside => ?_
              exact (goesOn (by omega) (by omega) beside).less (by omega)
          | some direction =>
              dsimp only
              rw [agree_advance]
              refine (agree_target agrees (beside.pastArrow arrow)).stay fun next _ _ beside => ?_
              refine (agree_connect same _ beside).stay fun _ _ _ beside => ?_
              refine (tails next (by omega) (by omega) beside).stay fun _ _ _ beside => ?_
              exact (goesOn (by omega) (by omega) beside).less (by omega)
        · refine .ite (fun no => absurd no (by decide)) fun _ => .ite (fun _ => agree_fail)
            fun _ => ?_
          exact (agree_eat_flat beside rfl).stay fun _ _ _ beside => ⟨rfl, beside⟩

theorem agree_tail (agrees : RoomAgrees after after' room) (head : ConceptId)
    (beside : Beside after after' (levels + 1) most reader other) :
    Agree (tail setting room graph head) (tail setting room graph head) reader other
      (Stays after after' (levels + 1) fun _ => most) := by
  unfold tail
  rw [agree_get]
  obtain ⟨least, le, enough, enough', beside⟩ := beside.exact
  exact ((agree_chains agrees _).1 head (Nat.le_succ_of_le enough) (Nat.le_succ_of_le enough')
    beside).less le

/-! ## Statements -/

section Statements

variable (agrees : RoomAgrees after after' room)

include agrees

theorem agree_chain (beside : Beside after after' (levels + 1) most reader other) :
    Agree (chain setting room graph) (chain setting room graph) reader other
      (Stays after after' (levels + 1) fun _ => most - 1) :=
  (agree_target agrees beside).stay fun head _ _ beside => agree_tail agrees head beside

/-- A chain that begins with a relation is read alike beside other items. -/
theorem agree_relationChain (beside : Beside after after' (levels + 1) most reader other) :
    Agree (relationChain setting room graph) (relationChain setting room graph) reader other
      (Stays after after' (levels + 1) fun _ => most - 1) := by
  unfold relationChain
  refine (agree_relationNode agrees beside).bind fun node _ node' _ facts => ?_
  obtain ⟨same, beside⟩ := facts
  refine (agree_refuseNumberedArc beside).stay fun _ reader other beside => ?_
  refine .skip rfl (.skip' rfl ?_)
  rw [beside.same]
  cases arrow : Direction.ofToken? (reader.ahead 0).token with
  | none => exact agree_connect same _ beside
  | some direction =>
      dsimp only
      rw [agree_advance]
      refine (agree_target agrees (beside.pastArrow arrow)).stay fun head _ _ beside => ?_
      refine (agree_connect same _ beside).stay fun _ _ _ beside => ?_
      exact (agree_tail agrees head beside).less (by omega)

omit agrees in
/-- A statement ends on both sides, where its end is written or where the graph ends. -/
theorem agree_statementEnd (beside : Beside after after' (levels + 1) most reader other) :
    Agree statementEnd statementEnd reader other
      (Stays after after' (levels + 1) fun _ => most) := by
  unfold statementEnd
  rw [agree_peek, beside.same]
  split
  · next here => exact ⟨rfl, beside.past here⟩
  · next here => exact ⟨rfl, beside.past here⟩
  · exact ⟨rfl, beside⟩
  · exact ⟨rfl, beside⟩
  · exact agree_fail

theorem agree_statement (beside : Beside after after' (levels + 1) most reader other) :
    Agree (statement setting room graph) (statement setting room graph) reader other
      (Stays after after' (levels + 1) fun found => if found then most - 1 else most) := by
  unfold statement
  rw [agree_peek, beside.same]
  split
  · exact (agree_chain agrees beside).stay fun _ _ _ beside => ⟨rfl, beside⟩
  · exact (agree_chain agrees beside).stay fun _ _ _ beside => ⟨rfl, beside⟩
  · exact agree_relationInto (agree_negation beside agrees graph) graph
  · refine agree_relationNodeAhead beside (fun _ => ?_) ⟨rfl, beside⟩
    exact (agree_relationChain agrees beside).stay fun _ _ _ beside => ⟨rfl, beside⟩
  · exact agree_relationInto (agree_actor beside agrees (some graph)) graph
  · exact ⟨rfl, beside⟩

/-- Statements are read alike as long as either side has tokens enough. -/
theorem agree_statements {tokens more : Nat} (enough : most ≤ tokens) (enough' : most ≤ more)
    (beside : Beside after after' (levels + 1) most reader other) :
    Agree (statements setting room graph tokens) (statements setting room graph more) reader other
      (Stays after after' (levels + 1) fun _ => most) := by
  induction tokens generalizing more most reader other with
  | zero => exact absurd enough (Nat.not_le_of_gt beside.pos)
  | succ tokens ih =>
      obtain ⟨more, rfl⟩ : ∃ count, more = count + 1 :=
        Nat.exists_eq_succ_of_ne_zero (Nat.ne_of_gt (Nat.lt_of_lt_of_le beside.pos enough'))
      have others {reader other : Reader}
          (beside : Beside after after' (levels + 1) (most - 1) reader other) :
          Agree (statements setting room graph tokens) (statements setting room graph more) reader
            other (Stays after after' (levels + 1) fun _ => most) :=
        (ih (Nat.sub_le_of_le_add enough) (Nat.sub_le_of_le_add enough') beside).less
          (Nat.sub_le _ _)
      unfold statements
      refine (agree_graphComment beside graph).stay fun found _ _ beside => ?_
      cases found with
      | true => exact others beside
      | false =>
          refine (agree_statement agrees beside).stay fun found _ _ beside => ?_
          cases found with
          | false => exact ⟨rfl, beside⟩
          | true => exact (agree_statementEnd beside).stay fun _ _ _ beside => others beside

end Statements

/-! ## Any room -/

/-- In linear form a graph is read statement by statement, as long as tokens are left. -/
theorem items_linear (form : setting.form = .linear) : items setting room graph =
    (do statements setting room graph (← get).rest.length) := by
  unfold items
  rw [form]

theorem agree_items (form : setting.form = .linear) (agrees : RoomAgrees after after' room)
    (beside : Beside after after' (levels + 1) most reader other) :
    Agree (items setting room graph) (items setting room graph) reader other
      (Stays after after' (levels + 1) fun _ => most) := by
  rw [items_linear form, agree_get]
  obtain ⟨least, le, enough, enough', beside⟩ := beside.exact
  exact (agree_statements agrees enough enough' beside).less le

/-- Whatever room there is for brackets, what is inside of one is read in the same way in front of
different tokens. -/
theorem roomAgrees (form : setting.form = .linear) (brackets : Nat) :
    RoomAgrees after after' (roomFor setting brackets) := by
  induction brackets with
  | zero => exact fun _ entered => by cases entered
  | succ brackets ih =>
      rintro inside ⟨⟩
      exact ⟨fun home beside => agree_concept beside ih home, agree_lambda ih,
        fun _ => agree_items form ih⟩

end ConceptualGraph.Read
