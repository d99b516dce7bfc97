/-
Module: ConceptualGraph.Proofs.Reversal.Chain
Purpose: A chain of concepts in place is read from its beginning to its end.
Main exports: Read.chainTail_draws, Read.chain_draws, Read.graphInto_draws
-/
import ConceptualGraph.Proofs.Copy.RoundTrip
import ConceptualGraph.Proofs.Reversal.Concept

namespace ConceptualGraph

namespace Read

variable {setting : Setting} {reader : Reader} {rest : List Token} {inside : Inside}
  {arc : ChainArc} {drawn : List (InlineConcept × MarkerId)} {arcs : List ChainArc}

/-! ## Links -/

/-- An arrow between a concept and a relation has no number. -/
theorem refuseNumberedArc_arrow {direction : Direction} {second : Token} {others : List Token}
    (starts : reader.tokens = .punct direction.mark :: second :: others)
    (plain : ∀ number, second ≠ .int number) : Declines refuseNumberedArc () reader := by
  refine refuseNumberedArc_declines ?_
  rw [Reader.token_ahead_succ, Reader.token_ahead_zero starts,
    Reader.token_ahead_zero (Reader.tail_tokens starts)]
  cases direction <;> cases second <;> first | rfl | exact absurd rfl (plain _)

/-- A link has at least one token. -/
theorem length_linkTokens (links : List (ChainArc × InlineConcept)) :
    links.length ≤ (Chain.linkTokens links).length := by
  induction links with
  | nil => exact Nat.le_refl 0
  | cons link links ih =>
      simp only [Chain.linkTokens, List.flatMap_cons, List.length_append, List.length_cons,
        ChainArc.tokens] at ih ⊢
      omega

/-- The links of a chain add their relations and concepts to the model, one after another. -/
theorem chainTail_draws (onDemand : setting.options.createTypesOnDemand = true)
    {links : List (ChainArc × InlineConcept)} {steps : Nat}
    (draws : reader.model.Draws reader.markers drawn arcs) (ends : drawn.length = arcs.length + 1)
    (starts : reader.tokens = Chain.linkTokens links ++ .punct .dot :: rest)
    (enough : links.length < steps) :
    Achieves (chainTail setting (some inside) ⟨0⟩ steps ⟨arcs.length⟩) reader fun _ later =>
      later.tokens = .punct .dot :: rest ∧ ∃ more, more.map Prod.fst = links.map Prod.snd ∧
        later.model.Draws later.markers (drawn ++ more) (arcs ++ links.map Prod.fst) := by
  -- The induction is on the links that are left; the head is always the concept drawn last.
  induction links generalizing reader drawn arcs steps with
  | nil =>
      obtain ⟨steps, rfl⟩ := Nat.exists_eq_succ_of_ne_zero (Nat.ne_of_gt enough)
      have tokens : reader.tokens = .punct .dot :: rest := starts
      unfold chainTail
      refine (refuseNumberedArc_of_mark tokens (by decide) (by decide)).bind fun _ _ facts => ?_
      obtain ⟨-, rfl⟩ := facts
      refine (arrowAhead_of_mark tokens (by decide) (by decide)).bind fun _ _ facts => ?_
      obtain ⟨rfl, rfl⟩ := facts
      rw [achieves_bind, achieves_eat, Reader.token_ahead_zero tokens]
      refine ⟨fun same => absurd same (by decide), fun _ => ?_⟩
      exact ⟨tokens, [], rfl, by simpa using draws⟩
  | cons link links ih =>
      obtain ⟨arc, written⟩ := link
      obtain ⟨steps, rfl⟩ := Nat.exists_eq_succ_of_ne_zero (Nat.ne_of_gt (Nat.zero_lt_of_lt enough))
      have tokens : reader.tokens = .punct arc.direction.mark :: .punct .leftParen ::
          .ident arc.type :: (commentTokens .relation arc.comment ++ .punct .rightParen ::
            .punct arc.direction.mark :: (written.tokens ++
              (Chain.linkTokens links ++ .punct .dot :: rest))) := by
        rw [starts]
        simp [Chain.linkTokens, ChainArc.tokens]
      unfold chainTail
      refine (refuseNumberedArc_arrow tokens (by simp)).bind fun _ faced facts => ?_
      obtain ⟨-, rfl⟩ := facts
      rw [achieves_bind, achieves_arrowAhead, Reader.token_ahead_zero tokens,
        Direction.ofToken?_mark]
      dsimp only
      rw [achieves_bind, achieves_advance, achieves_bind]
      have begun : faced.next.model.Draws faced.next.markers drawn arcs := draws
      refine (relationNode_draws begun onDemand
        (Reader.tail_tokens tokens)).mono fun node noded facts => ?_
      obtain ⟨tokens, draws, named, comment⟩ := facts
      refine (refuseNumberedArc_arrow tokens (by simp)).bind fun _ noded facts => ?_
      obtain ⟨-, rfl⟩ := facts
      rw [achieves_bind, achieves_arrowAhead, Reader.token_ahead_zero tokens,
        Direction.ofToken?_mark]
      dsimp only
      rw [achieves_bind, achieves_located, achieves_bind, achieves_advance, if_neg (by simp),
        achieves_bind]
      have further : noded.next.model.Draws noded.next.markers drawn arcs := draws
      refine (target_draws further onDemand (Reader.tail_tokens tokens)).mono
        fun id found facts => ?_
      obtain ⟨rfl, tokens, types, marker, draws⟩ := facts
      rw [achieves_bind, ends]
      refine (connect_draws draws ?_ comment).mono fun _ made facts => ?_
      · rw [types.relations.label _ (Lattice.label?_of_lt named)]
        exact named
      · obtain ⟨same, draws⟩ := facts
        have longer : (drawn ++ [(written, marker)]).length = (arcs ++ [arc]).length + 1 := by
          simp [ends]
        have rest_ := ih draws longer (same.trans tokens) (Nat.lt_of_succ_lt_succ enough)
        rw [List.length_append, List.length_singleton] at rest_
        refine rest_.mono fun _ later facts => ?_
        obtain ⟨tokens, more, same, draws⟩ := facts
        refine ⟨tokens, (written, marker) :: more, by simp [same], ?_⟩
        simpa using draws

/-! ## Statements -/

/-- A statement ends with its full stop. -/
theorem statementEnd_achieves (starts : reader.tokens = .punct .dot :: rest) :
    Achieves statementEnd reader fun _ later => later = reader.next := by
  simp only [statementEnd, achieves_bind, achieves_peek, Reader.token_ahead_zero starts,
    achieves_advance]

/-- A chain adds its concepts and relations to the model. -/
theorem chain_draws {chain : Chain} (onDemand : setting.options.createTypesOnDemand = true)
    (draws : reader.model.Draws reader.markers [] [])
    (starts : reader.tokens = chain.tokens) :
    Achieves (Read.chain setting (some inside) ⟨0⟩) reader fun _ later =>
      later.tokens = [.punct .dot] ∧ ∃ drawn, drawn.map Prod.fst = chain.concepts ∧
        later.model.Draws later.markers drawn chain.arcs := by
  unfold Read.chain tail
  rw [achieves_bind]
  refine (target_draws draws onDemand starts).mono fun id found facts => ?_
  obtain ⟨rfl, tokens, types, marker, draws⟩ := facts
  rw [achieves_bind, achieves_get]
  refine (chainTail_draws onDemand draws rfl tokens ?_).mono fun _ later facts => ?_
  · have few := length_linkTokens chain.links
    rw [Reader.length_rest, tokens, List.length_append]
    omega
  · obtain ⟨tokens, more, same, draws⟩ := facts
    exact ⟨tokens, (chain.head, marker) :: more, by simp [Chain.concepts, same], draws⟩

/-- Where a bracket or a bound label is next, a chain is the next statement. -/
theorem statements_eq_chain {room : Option Inside} {graph : GraphId} (tokens : Nat)
    (opens : (reader.ahead 0).token = .punct .leftBracket ∨
      ∃ label, (reader.ahead 0).token = .boundLabel label) :
    statements setting room graph (tokens + 1) reader = (do
      Read.chain setting room graph
      statementEnd
      statements setting room graph tokens : Read Unit) reader := by
  have plain : graphComment graph reader = .ok false reader :=
    (graphComment_declines (by rcases opens with same | ⟨label, same⟩ <;> simp [same])).ran
  have chained : statement setting room graph reader = (do
      Read.chain setting room graph
      return true : Read Bool) reader := by
    unfold statement
    rw [bind_of_ok (rfl : peek reader = .ok (reader.ahead 0).token reader)]
    rcases opens with same | ⟨label, same⟩ <;> rw [same]
  rw [statements, bind_of_ok plain, if_neg Bool.false_ne_true]
  simp only [Bind.bind, EStateM.bind] at chained ⊢
  rw [chained]
  cases Read.chain setting room graph reader <;> rfl

/-- A text that begins with a bracket begins with a chain. -/
theorem graphInto_eq_chain {graph : GraphId} (form : setting.form = .linear)
    (opens : (reader.ahead 0).token = .punct .leftBracket) :
    graphInto setting graph reader = (do
      Read.chain setting (room setting) graph
      statementEnd
      statements setting (room setting) graph (reader.rest.length - 1)
      textEnd setting : Read Unit) reader := by
  have many : reader.rest.length = reader.rest.length - 1 + 1 := by
    have some_ : reader.rest ≠ [] := fun empty => by simp [Reader.ahead, empty] at opens
    have := List.length_pos_of_ne_nil some_
    omega
  have read : items setting (room setting) graph reader = (do
      Read.chain setting (room setting) graph
      statementEnd
      statements setting (room setting) graph (reader.rest.length - 1) : Read Unit) reader := by
    unfold items
    rw [bind_of_ok (rfl : (get : Read Reader) reader = .ok reader reader), form]
    dsimp only
    rw [many]
    exact statements_eq_chain _ (.inl opens)
  unfold graphInto graphText
  simp only [Bind.bind, EStateM.bind] at read ⊢
  rw [read]
  cases Read.chain setting (room setting) graph reader with
  | error => rfl
  | ok _ later =>
      dsimp only
      cases statementEnd later <;> rfl

/-- A text that is a chain adds its concepts and relations to the model, as long as a bracket may be
opened. -/
theorem graphInto_draws {chain : Chain} (form : setting.form = .linear)
    (onDemand : setting.options.createTypesOnDemand = true)
    (roomy : 0 < setting.options.maxDepth) (draws : reader.model.Draws reader.markers [] [])
    (starts : reader.tokens = chain.tokens) :
    Achieves (graphInto setting ⟨0⟩) reader fun _ later =>
      ∃ drawn, drawn.map Prod.fst = chain.concepts ∧
        later.model.Draws later.markers drawn chain.arcs := by
  obtain ⟨depth, deep⟩ := Nat.exists_eq_succ_of_ne_zero (Nat.ne_of_gt roomy)
  unfold Achieves
  rw [graphInto_eq_chain form (Reader.token_ahead_zero starts)]
  rw [room, deep]
  refine (chain_draws onDemand draws starts).bind fun _ read facts => ?_
  obtain ⟨tokens, drawn⟩ := facts
  rw [achieves_bind]
  refine (statementEnd_achieves tokens).mono fun _ _ same => ?_
  subst same
  have ended : read.next.tokens = [] := Reader.tail_tokens tokens
  have last : EndsItems (read.next.ahead 0).token := by
    rw [Reader.token_ahead, ended]
    exact ⟨rfl, by simp⟩
  rw [achieves_bind]
  refine (statements_declines last _).mono fun _ _ facts => ?_
  obtain ⟨-, rfl⟩ := facts
  refine (textEnd_achieves ended).mono fun _ _ same => ?_
  subst same
  exact drawn

/-- Where no bracket may be opened, no chain is read. -/
theorem graphInto_refuses {chain : Chain} (form : setting.form = .linear)
    (tight : setting.options.maxDepth = 0) (starts : reader.tokens = chain.tokens) :
    Ensures (graphInto setting ⟨0⟩) reader fun _ _ => False := by
  have tokens : reader.tokens = .punct .leftBracket :: .ident chain.head.type :: _ := starts
  have opens : (reader.ahead 0).token = .punct .leftBracket := Reader.token_ahead_zero starts
  have second : (reader.ahead 1).token = .ident chain.head.type := by
    rw [Reader.token_ahead_succ, Reader.token_ahead_zero (Reader.tail_tokens tokens)]
  have refuses : Ensures (target setting (none : Option Inside) ⟨0⟩) reader fun _ _ => False := by
    simp only [target, arc, concept, ensures_bind, ensures_peek, ensures_ahead, opens, second,
      ensures_descend]
    intro _ missing
    cases missing
  unfold Ensures
  rw [graphInto_eq_chain form opens, room, tight, roomFor_zero]
  have chained : Ensures (Read.chain setting (none : Option Inside) ⟨0⟩) reader fun _ _ => False :=
    refuses.bind fun _ _ => False.elim
  exact chained.bind fun _ _ => False.elim

end Read

end ConceptualGraph
