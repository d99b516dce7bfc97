/-
Module: ConceptualGraph.Proofs.Reading.Echoed
Purpose: Every production of the interchange form reads at a site what it reads by itself.
Main exports: Read.echoes_concept, Read.echoes_bracketItems, Read.roomEchoes
-/
import ConceptualGraph.Proofs.Reading.Amid

namespace ConceptualGraph.Read

variable {site : Site} {setting : Setting} {reader : Reader} {room : Option Inside}
  {graph : GraphId}

/-! ## Types -/

/-- What can be read inside a bracket is read at a site, too. -/
structure InsideEchoes (site : Site) (inside : Inside) : Prop where
  concept : ∀ home reader, Echoes site (fun found => found.isSome = true) id
    (inside.concept home) (inside.concept home) reader
  lambda : ∀ reader, Echoes site (fun _ => True) id inside.lambda inside.lambda reader
  items : ∀ graph reader, Echoes site (fun _ => False) id (inside.items graph)
    (inside.items graph) reader

/-- What can be read where there is room is read at a site, too. -/
def RoomEchoes (site : Site) (room : Option Inside) : Prop :=
  ∀ inside, room = some inside → InsideEchoes site inside

theorem echoes_parameter :
    Echoes site (fun _ => False) (Declared.moved (.below site.above)) (parameter setting)
      (parameter setting) reader := by
  refine .peek ?_
  split
  · refine .located nofun (Echoes.advance.bind fun _ _ =>
      .blindly (blind_conceptTypeNamed _ _) fun _ _ => .peek ?_)
    split
    · exact .located nofun (Echoes.advance.bind fun _ _ => .pureMove id)
    · exact .fail
  · exact .fail

/-- As many parameters are read as there are, however many tokens are left. -/
theorem echoes_parameters {tokens more : Nat} (enough : reader.rest.length ≤ tokens)
    (le : tokens ≤ more) (same : site.below = none → tokens = more) :
    Echoes site (fun _ => False) (List.map (Declared.moved (.below site.above)))
      (parameters setting tokens) (parameters setting more) reader := by
  induction tokens generalizing more reader with
  | zero =>
      have one : Echoes site (fun _ => False) (List.map (Declared.moved (.below site.above)))
          (parameters setting 0) (parameters setting 0) reader :=
        echoes_parameter.bindRan fun _ _ _ => .pureMove id
      refine one.exhausted (List.length_eq_zero_iff.mp (Nat.le_zero.mp enough)) fun ends => ?_
      rw [same ends]
  | succ tokens ih =>
      obtain ⟨more, rfl⟩ : ∃ count, more = count + 1 :=
        Nat.exists_eq_succ_of_ne_zero (by omega)
      have one : Echoes site (fun _ => False) (Declared.moved (.below site.above))
          (parameter setting) (parameter setting) reader := echoes_parameter
      refine one.bindRan fun first later ran => ?_
      have suffix := (one.of_ok ran).1.length_le
      refine (Echoes.eat _).bindRan fun comma last ate => ?_
      cases comma with
      | false => exact .pureMove id
      | true =>
          have shorter := eat_shorter (by decide) ate
          exact (ih (by omega) (Nat.le_of_succ_le_succ le)
            fun ends => Nat.succ.inj (same ends)).bindRan fun _ _ _ => .pureMove id

/-- As many tokens as are left bound the number of repetitions, at a site too. -/
theorem echoes_left {α β : Type} {fenced : α → Prop} {closes : β → Prop} {move : α → α}
    {move' : β → β} {repeated : Nat → Read α} {next next' : α → Read β}
    (repeats : ∀ more, reader.rest.length ≤ more →
      (site.below = none → reader.rest.length = more) →
      Echoes site fenced move (repeated reader.rest.length) (repeated more) reader)
    (others : ∀ value later, Echoes site closes move' (next value) (next' (move value)) later) :
    Echoes site closes move' (do let value ← repeated (← get).rest.length; next value)
      (do let value ← repeated (← get).rest.length; next' value) reader := by
  refine .get (Echoes.bindRan (repeats _ ?_ ?_) fun value later _ => others value later)
  · exact Reader.length_amid_le
  · exact Reader.length_amid

theorem echoes_definitionBody {inside : Inside} (echoes : InsideEchoes site inside)
    (declared : List Declared) :
    Echoes site (fun _ => False) id (definitionBody inside declared)
      (definitionBody inside (declared.map (Declared.moved (.below site.above)))) reader := by
  refine .peek (.ite (fun _ => ?_) fun _ => ?_)
  · exact .blindly (.make _) fun graph _ => (echoes.items graph _).bind fun _ _ =>
      .blindly (blind_linkParameters _ _) fun _ _ => .pure id
  · exact .blindly (blind_linkParameters _ _) fun _ _ => .pure id

theorem echoes_lambda (echoes : RoomEchoes site room) :
    Echoes site (fun _ => True) id (lambda setting room) (lambda setting room) reader := by
  refine .descend fun inside entered => (Echoes.expect _ _).bind fun _ _ =>
    (Echoes.expect _ _).bind fun _ _ => (Echoes.expect _ _).bind fun _ later => ?_
  refine echoes_left (fun more le same => echoes_parameters (Nat.le_refl _) le same)
    fun declared _ => (Echoes.expect _ _).bind fun _ _ => ?_
  exact (Echoes.inContext (echoes_definitionBody (echoes inside entered) declared)).bind
    fun definition _ => (Echoes.expectFence rfl _).before fun _ => .pure _

section Ahead

variable {β : Type} {closes : β → Prop} {move : β → β} {next next' : Bool → Read β} {places : Nat}
  {begins : Bool}

/-- The tokens ahead are the same at a site as far as there are no fences before them. -/
theorem token_amid (known : site.below = none ∨ Fenced reader.rest)
    (clear : ∀ place < places, (reader.ahead place).token.fences = false) :
    ((reader.amid site).ahead places).token = (reader.ahead places).token := by
  rw [Reader.ahead_amid (known.imp_right fun fence => fence.lt clear)]
  rfl

/-- The next token is the same at a site. -/
theorem next_token_amid (known : site.below = none ∨ Fenced reader.rest) :
    ((reader.amid site).ahead 0).token = (reader.ahead 0).token := token_amid known nofun

/-- A token that is no fence has another one after it. -/
theorem clear_of_opens {token : Token} (opens : (reader.ahead 0).token = token)
    (plain : token.fences = false) :
    ∀ place < 1, (reader.ahead place).token.fences = false := by
  intro place before
  obtain rfl := Nat.lt_one_iff.mp before
  rw [opens, plain]

/-- Whether a definition begins is seen from tokens up to the next fence. -/
theorem lambdaAhead_amid (known : site.below = none ∨ Fenced reader.rest)
    (clear : ∀ place < places, (reader.ahead place).token.fences = false)
    (seen : lambdaAhead places reader = .ok begins reader) :
    lambdaAhead places (reader.amid site) = .ok begins (reader.amid site) := by
  cases seen
  refine congrArg (EStateM.Result.ok · _) ?_
  rw [token_amid known clear]
  by_cases opens : (reader.ahead places).token = .punct .leftParen
  · have further : ∀ place < places + 1, (reader.ahead place).token.fences = false := by
      intro place before
      rcases Nat.lt_succ_iff_lt_or_eq.mp before with before | rfl
      · exact clear place before
      · rw [opens]
        rfl
    rw [token_amid known further]
  · simp [opens]

/-- Whether a type of relations lies ahead is answered from the tokens before the next fence. -/
theorem relationTypeAhead_amid (known : site.below = none ∨ Fenced reader.rest)
    (clear : ∀ place < places, (reader.ahead place).token.fences = false)
    (seen : relationTypeAhead places reader = .ok begins reader) :
    relationTypeAhead places (reader.amid site) = .ok begins (reader.amid site) := by
  unfold relationTypeAhead at seen ⊢
  have ahead (reader : Reader) :
      ahead places reader = .ok (reader.ahead places).token reader := rfl
  rw [bind_of_ok (ahead reader)] at seen
  rw [bind_of_ok (ahead (reader.amid site)), token_amid known clear]
  generalize (reader.ahead places).token = token at seen ⊢
  cases token with
  | ident word =>
      cases seen
      rfl
  | _ => exact lambdaAhead_amid known clear seen

theorem echoes_lambdaAhead
    (others : ∀ begins, Echoes site closes move (next begins) (next' begins) reader) :
    Echoes site closes move (lambdaAhead 0 >>= next) (lambdaAhead 0 >>= next') reader :=
  .look rfl (fun known => lambdaAhead_amid known nofun rfl) (others _)

theorem echoes_relationTypeAhead
    (clear : ∀ place < places, (reader.ahead place).token.fences = false)
    (others : ∀ begins, Echoes site closes move (next begins) (next' begins) reader) :
    Echoes site closes move (relationTypeAhead places >>= next)
      (relationTypeAhead places >>= next') reader := by
  obtain ⟨answer, declines⟩ : ∃ answer, Declines (relationTypeAhead places) answer reader :=
    relationTypeAhead_declines places
  obtain ⟨begins, later, seen, -, rfl⟩ := Achieves.exists_ok declines
  exact .look seen (fun known => relationTypeAhead_amid known clear seen) (others _)

end Ahead

/-- A concept type is read at a site as it is without, whether it is named or defined. -/
theorem echoes_conceptType {lambda : Read Definition}
    (echoes : ∀ reader, Echoes site (fun _ => True) id lambda lambda reader) :
    Echoes site (fun _ => False) id (conceptType setting lambda) (conceptType setting lambda)
      reader := by
  refine .peek ?_
  split
  · exact .located nofun (Echoes.advance.bind fun _ _ =>
      .blindly (blind_conceptTypeNamed _ _) fun _ _ => .pure id)
  · refine echoes_lambdaAhead fun begins => .ite (fun _ => ?_) fun _ => .pure id
    refine .located nofun ((echoes _).bind fun definition _ => .ite (fun _ => .failAt) fun _ => ?_)
    exact .blindly (.make _) fun _ _ => .pure id

theorem echoes_relationType {lambda : Read Definition}
    (echoes : ∀ reader, Echoes site (fun _ => True) id lambda lambda reader) :
    Echoes site (fun _ => False) id (relationType setting lambda) (relationType setting lambda)
      reader := by
  refine .peek ?_
  split
  · exact .located nofun (Echoes.advance.bind fun _ _ =>
      .of_blind (blind_relationTypeNamed _ _) fun _ => id)
  · exact (echoes _).bind fun definition _ => .of_blind (.make _) fun _ => id

/-! ## Concepts -/

theorem echoes_quantifier : Echoes site (fun _ => False) id quantifier quantifier reader := by
  refine (Echoes.eat _).bind fun _ _ => .ite (fun _ => .peek ?_) fun _ => .pure id
  split
  · exact Echoes.advance.bind fun _ _ => .pure id
  · exact Echoes.advance.bind fun _ _ => .pure id
  · exact .fail

theorem echoes_encodedLiteral :
    Echoes site (fun _ => False) id encodedLiteral encodedLiteral reader := by
  refine .peek ?_
  split
  · refine Echoes.advance.bind fun _ _ => .peek ?_
    split
    · exact Echoes.advance.bind fun _ _ => .pure id
    · exact .fail
  · exact .fail

theorem echoes_designator : Echoes site (fun _ => False) id designator designator reader :=
  (Echoes.eat _).bind fun _ _ => .ite
    (fun _ => echoes_encodedLiteral.bind fun _ _ => .pure id)
    fun _ => .located nofun (.blindly (blind_designatorOf _) fun _ _ =>
      .ite (fun _ => Echoes.advance.bind fun _ _ => .pure id) fun _ => .pure id)

theorem echoes_descriptor {inside : Inside} (echoes : InsideEchoes site inside)
    (concept : ConceptId) :
    Echoes site (fun _ => False) id (descriptor inside concept) (descriptor inside concept)
      reader :=
  .peek <| .ite (fun _ => .blindly (.make _) fun graph _ =>
    (Echoes.inContext (echoes.items graph _)).bind fun _ _ => .pure id) fun _ => .pure id

theorem echoes_referent {inside : Inside} (echoes : InsideEchoes site inside)
    (concept : ConceptId) :
    Echoes site (fun _ => False) id (referent inside concept) (referent inside concept) reader :=
  echoes_quantifier.bind fun _ _ => echoes_designator.bind fun _ _ =>
    (echoes_descriptor echoes concept).bind fun _ _ =>
      .ite (fun _ => .pure id) fun _ => .of_blind (.edit _) fun _ => id

/-- As many bound labels are read as there are, however many tokens are left. -/
theorem echoes_boundLabels (concept : ConceptId) {tokens more : Nat}
    (enough : reader.rest.length ≤ tokens) (le : tokens ≤ more)
    (same : site.below = none → tokens = more) :
    Echoes site (fun _ => False) id (boundLabels concept tokens) (boundLabels concept more)
      reader := by
  induction tokens generalizing more reader with
  | zero =>
      have none_ : Echoes site (fun _ => False) id (boundLabels concept 0) (boundLabels concept 0)
          reader := .pure id
      refine none_.exhausted (List.length_eq_zero_iff.mp (Nat.le_zero.mp enough)) fun ends => ?_
      rw [same ends]
  | succ tokens ih =>
      obtain ⟨more, rfl⟩ : ∃ count, more = count + 1 :=
        Nat.exists_eq_succ_of_ne_zero (by omega)
      refine .peek ?_
      split
      · next label _ =>
        refine .located nofun (Echoes.advance.bindRan fun _ later gone => ?_)
        have joins : Blind (.below site.above) _ _ := blind_join (reader.ahead 0) label concept
        refine Echoes.bindRan (.of_blind joins fun _ => id) fun _ last joined => ?_
        have left : last.rest.length ≤ tokens := by
          rw [(joins.of_ok joined).1.1]
          cases gone
          simp only [List.length_tail]
          omega
        exact ih left (Nat.le_of_succ_le_succ le) fun ends => Nat.succ.inj (same ends)
      · exact .pure id

theorem echoes_conceptLabels (concept : ConceptId) :
    Echoes site (fun _ => False) id (conceptLabels concept) (conceptLabels concept) reader := by
  refine .peek ?_
  split
  · refine .blindly .labels fun _ _ => .ite (fun _ => .fail) fun _ => ?_
    exact Echoes.advance.bind fun _ _ => .of_blind (.bindLabel _ _) fun _ => id
  · exact .get (echoes_boundLabels concept (Nat.le_refl _) Reader.length_amid_le
      Reader.length_amid)

theorem echoes_nodeComment (node : NodeKind) :
    Echoes site (fun _ => False) id (nodeComment node) (nodeComment node) reader := by
  refine .peek ?_
  split
  · exact .ite (fun _ => Echoes.advance.bind fun _ _ => .pure id) fun _ => .pure id
  · exact .pure id

/-- A concept after its type, to the bracket that closes it. -/
theorem echoes_closes {inside : Inside} (echoes : InsideEchoes site inside)
    (concept : ConceptId) :
    Echoes site (fun _ => True) id (do
      let _ ← eat (.punct .colon)
      conceptLabels concept
      referent inside concept
      if let some comment ← nodeComment .concept then
        edit (·.modifyConcept concept fun data => { data with comment := some comment })
      expect (.punct .rightBracket) .conceptClosing
      return concept) (do
      let _ ← eat (.punct .colon)
      conceptLabels concept
      referent inside concept
      if let some comment ← nodeComment .concept then
        edit (·.modifyConcept concept fun data => { data with comment := some comment })
      expect (.punct .rightBracket) .conceptClosing
      return concept) reader := by
  refine (Echoes.eat _).bind fun _ _ => (echoes_conceptLabels concept).bind fun _ _ =>
    (echoes_referent echoes concept).bind fun _ _ => (echoes_nodeComment _).bind fun _ _ => ?_
  split
  · exact .blindly (.edit _) fun _ _ => (Echoes.expectFence rfl _).before fun _ => .pure _
  · exact (Echoes.expectFence rfl _).before fun _ => .pure _

theorem echoes_conceptBody {inside : Inside} (echoes : InsideEchoes site inside)
    (home : Option GraphId) :
    Echoes site (fun _ => True) id (conceptBody setting inside home)
      (conceptBody setting inside home) reader := by
  refine (echoes_conceptType echoes.lambda).bind fun type _ =>
    .blindly (.make _) fun concept _ => ?_
  cases home with
  | none => exact echoes_closes echoes concept
  | some graph => exact .blindly (.edit _) fun _ _ => echoes_closes echoes concept

/-- A production that finds nothing finds nothing at a site. -/
theorem echoes_declines {α : Type} {fenced : α → Prop} {production : Read α} {nothing : α}
    (declines : Declines production nothing reader)
    (same : site.below = none ∨ Fenced reader.rest →
      Declines production nothing (reader.amid site)) (open_ : ¬fenced nothing) :
    Echoes site fenced id production production reader := by
  obtain ⟨value, later, ran, rfl, rfl⟩ := Achieves.exists_ok declines
  unfold Echoes
  rw [ran]
  refine ⟨List.suffix_rfl, fun fence => absurd fence open_, fun known => ?_⟩
  have known : site.below = none ∨ Fenced later.rest :=
    known.imp_right fun either => either.resolve_left open_
  obtain ⟨_, _, went, rfl, rfl⟩ := Achieves.exists_ok (same known)
  exact went

theorem echoes_concept (echoes : RoomEchoes site room) (home : Option GraphId) :
    Echoes site (fun found => found.isSome = true) id (concept setting room home)
      (concept setting room home) reader := by
  by_cases opens : (reader.ahead 0).token = .punct .leftBracket
  · have clear := clear_of_opens opens rfl
    refine .peek (.ahead clear ?_)
    rw [opens]
    split
    · exact .pure nofun
    · exact .located clear .failAt
    · exact .located clear .failAt
    · exact .descend fun inside entered => Echoes.advance.bind fun _ _ =>
        (echoes_conceptBody (echoes inside entered) home).before fun _ => .pure _
    · exact .pure nofun
  · exact echoes_declines (concept_declines opens home) (fun known =>
      concept_declines (by rwa [next_token_amid known]) home) Bool.false_ne_true

/-! ## Relations and actors -/

section Arguments

variable {concept : Option GraphId → Read (Option ConceptId)}
  (echoes : ∀ home reader, Echoes site (fun found => found.isSome = true) id (concept home)
    (concept home) reader)

include echoes

theorem echoes_arc (home : Option GraphId) :
    Echoes site (fun _ => False) id (arc concept home) (arc concept home) reader := by
  refine .peek ?_
  split
  · exact .located nofun (Echoes.advance.bind fun _ _ =>
      .blindly (blind_resolve _ _ _) fun _ _ => .pure id)
  · exact (echoes home reader).mono fun _ => False.elim
  · exact .pure id

/-- An argument that is read is no longer ahead. -/
theorem arc_shorter {home : Option GraphId} {argument : ConceptId} {later : Reader}
    (ran : arc concept home reader = .ok (some argument) later) :
    later.rest.length < reader.rest.length := by
  have consumed : Ensures (arc concept home) reader fun found later =>
      found.isSome = true → later.rest.length < reader.rest.length := by
    unfold arc
    simp only [ensures_bind, ensures_peek]
    split
    · next label found =>
      simp only [ensures_bind, ensures_located, ensures_advance, ensures_pure]
      refine .intro fun argument later ran _ => ?_
      have resolves : Blind (.below site.above) _ _ := blind_resolve (reader.ahead 0) label home
      have cons := congrArg List.length (Reader.tokens_eq_cons found (by simp))
      rw [(resolves.of_ok ran).1.1]
      simp only [Reader.tokens, List.length_map, List.length_cons] at cons
      omega
    · exact .intro fun found later ran some_ => (((echoes home reader).of_ok ran).2.1 some_).2
    · simp only [ensures_pure, Option.isSome_none, Bool.false_eq_true, false_implies]
  exact consumed.of_ok ran rfl

/-- As many arguments are read as there are, however many tokens are left. -/
theorem echoes_arcs (home : Option GraphId) {tokens more : Nat}
    (enough : reader.rest.length ≤ tokens) (le : tokens ≤ more)
    (same : site.below = none → tokens = more) :
    Echoes site (fun _ => False) id (arcs concept home tokens) (arcs concept home more)
      reader := by
  induction tokens generalizing more reader with
  | zero =>
      have none_ : Echoes site (fun _ => False) id (arcs concept home 0) (arcs concept home 0)
          reader := .pure id
      refine none_.exhausted (List.length_eq_zero_iff.mp (Nat.le_zero.mp enough)) fun ends => ?_
      rw [same ends]
  | succ tokens ih =>
      obtain ⟨more, rfl⟩ : ∃ count, more = count + 1 :=
        Nat.exists_eq_succ_of_ne_zero (by omega)
      refine (echoes_arc echoes home).bindRan fun found later ran => ?_
      cases found with
      | none => exact .pure id
      | some argument =>
          have shorter := arc_shorter echoes ran
          exact (ih (by omega) (Nat.le_of_succ_le_succ le)
            fun ends => Nat.succ.inj (same ends)).bind fun _ _ => .pure id

end Arguments

theorem echoes_relation (echoes : RoomEchoes site room) (home : Option GraphId) :
    Echoes site (fun found => found.isSome = true) id (relation setting room home)
      (relation setting room home) reader := by
  by_cases opens : (reader.ahead 0).token = .punct .leftParen
  · refine .peek (echoes_relationTypeAhead (clear_of_opens opens rfl) fun begins =>
      .ite (fun _ => ?_) fun _ => .pure nofun)
    refine .descend fun inside entered => .located nofun (Echoes.advance.bind fun _ _ =>
      (echoes_relationType (echoes inside entered).lambda).bind fun type _ => ?_)
    refine echoes_left (fun more le same =>
      echoes_arcs (echoes inside entered).concept home (Nat.le_refl _) le same) fun args _ =>
        (echoes_nodeComment _).bind fun comment _ => ?_
    exact (Echoes.expectFence rfl _).before fun _ => (blind_makeRelation _ _ _ _ _).bind fun _ =>
      .pure _
  · exact echoes_declines (relation_declines opens home) (fun known =>
      relation_declines (by rwa [next_token_amid known]) home) Bool.false_ne_true

/-- The inside of an actor is read at a site as it is without. -/
theorem echoes_actorBody {inside : Inside} (echoes : InsideEchoes site inside) (found : Located)
    (home : Option GraphId) :
    Echoes site (fun _ => True) id (actorBody setting inside found home)
      (actorBody setting inside (found.below site.above) home) reader := by
  have body (reader : Reader) : Echoes site (fun _ => True) id (do
      let type ← relationType setting inside.lambda
      let inputs ← arcs inside.concept home (← get).rest.length
      expect (.punct .bar) .actorBar
      let outputs ← arcs inside.concept home (← get).rest.length
      let comment ← nodeComment .actor
      expect (.punct .rightAngle) .actorClosing
      makeRelation found type (inputs ++ outputs) (.actor inputs.length) comment) (do
      let type ← relationType setting inside.lambda
      let inputs ← arcs inside.concept home (← get).rest.length
      expect (.punct .bar) .actorBar
      let outputs ← arcs inside.concept home (← get).rest.length
      let comment ← nodeComment .actor
      expect (.punct .rightAngle) .actorClosing
      makeRelation (found.below site.above) type (inputs ++ outputs) (.actor inputs.length)
        comment) reader := by
    refine (echoes_relationType echoes.lambda).bind fun type _ => ?_
    refine echoes_left (fun more le same =>
      echoes_arcs echoes.concept home (Nat.le_refl _) le same) fun inputs _ =>
        (Echoes.expect _ _).bind fun _ _ => ?_
    refine echoes_left (fun more le same =>
      echoes_arcs echoes.concept home (Nat.le_refl _) le same) fun outputs _ =>
        (echoes_nodeComment _).bind fun comment _ => ?_
    exact (Echoes.expectFence rfl _).before fun _ => blind_makeRelation _ _ _ _ _
  refine echoes_relationTypeAhead nofun fun begins => .ite (fun _ => body _) fun _ => ?_
  have fails : Echoes site (fun _ => False) id (fail (.expected .actorType) : Read PUnit)
      (fail (.expected .actorType)) reader := .fail
  exact fails.bind fun _ _ => body _

theorem echoes_actor (echoes : RoomEchoes site room) (home : Option GraphId) :
    Echoes site (fun found => found.isSome = true) id (actor setting room home)
      (actor setting room home) reader :=
  .peek <| .ite (fun _ => .descend fun inside entered => .located nofun
    (Echoes.advance.bind fun _ _ =>
      (echoes_actorBody (echoes inside entered) _ home).before fun _ => .pure _))
    fun _ => .pure nofun

/-! ## Items -/

theorem echoes_contextBody {inside : Inside} (echoes : InsideEchoes site inside)
    (label : ContextLabel) :
    Echoes site (fun _ => True) id (contextBody inside graph label)
      (contextBody inside graph label) reader := by
  refine (Echoes.eat _).bind fun _ _ => .blindly (.make _) fun concept _ =>
    .blindly (.edit _) fun _ _ => .blindly (.edit _) fun _ _ =>
      (echoes_descriptor echoes concept).bind fun body _ => ?_
  split
  · exact .blindly (.edit _) fun _ _ => (Echoes.expectFence rfl _).before fun _ => .pure _
  · exact (Echoes.expectFence rfl _).before fun _ => .pure _

theorem echoes_specialContext (echoes : RoomEchoes site room) :
    Echoes site (fun found => found.isSome = true) id (specialContext setting room graph)
      (specialContext setting room graph) reader := by
  by_cases opens : (reader.ahead 0).token = .punct .leftBracket
  · have clear := clear_of_opens opens rfl
    refine .peek (.ahead clear ?_)
    rw [opens]
    split
    · exact .located clear .failAt
    · exact .descend fun inside entered => Echoes.advance.bind fun _ _ =>
        Echoes.advance.bind fun _ _ =>
          (echoes_contextBody (echoes inside entered) _).before fun _ => .pure _
    · exact .pure nofun
  · exact echoes_declines (specialContext_declines opens) (fun known =>
      specialContext_declines (by rwa [next_token_amid known])) Bool.false_ne_true

/-- The end of a negation, from the time on when its graph is known. -/
theorem echoes_negating (concept : ConceptId) (body : GraphId) :
    Echoes site (fun _ => True) id (do
      edit (·.setReferent concept { descriptor := some body })
      expect (.punct .rightBracket) .negationClosing
      let type ← negationType
      make (·.newRelation (some type) [concept] .relation)) (do
      edit (·.setReferent concept { descriptor := some body })
      expect (.punct .rightBracket) .negationClosing
      let type ← negationType
      make (·.newRelation (some type) [concept] .relation)) reader :=
  .blindly (.edit _) fun _ _ => (Echoes.expectFence rfl _).before fun _ =>
    blind_negationType.bind fun _ => .make _

theorem echoes_negationBody {inside : Inside} (echoes : InsideEchoes site inside) :
    Echoes site (fun _ => True) id (negationBody inside graph) (negationBody inside graph)
      reader := by
  refine .blindly (.make _) fun concept _ => .blindly (.edit _) fun _ _ =>
    .blindly (.edit _) fun _ _ => (echoes_descriptor echoes concept).bind fun body _ => ?_
  split
  · exact echoes_negating _ _
  · exact .blindly (.make _) fun body _ => echoes_negating _ body

theorem echoes_negation (echoes : RoomEchoes site room) :
    Echoes site (fun found => found.isSome = true) id (negation setting room graph)
      (negation setting room graph) reader := by
  by_cases opens : (reader.ahead 0).token = .punct .tilde
  · have clear := clear_of_opens opens rfl
    refine .peek (.ahead clear ?_)
    rw [opens]
    split
    · exact .descend fun inside entered => Echoes.advance.bind fun _ _ =>
        Echoes.advance.bind fun _ _ =>
          (echoes_negationBody (echoes inside entered)).before fun _ => .pure _
    · exact .located clear .failAt
    · exact .pure nofun
  · exact echoes_declines (negation_declines opens) (fun known =>
      negation_declines (by rwa [next_token_amid known])) Bool.false_ne_true

/-- What is read for an item is put into the graph once it has been gone past. -/
theorem echoes_found {α : Type} {production : Read (Option α)} {next next' : Option α → Read Bool}
    (echoes : Echoes site (fun found => found.isSome = true) id production production reader)
    (some_ : ∀ node, Blind (.below site.above) (next (some node)) (next' (some node)))
    (none_ : ∀ reader, Echoes site (· = true) id (next none) (next' none) reader) :
    Echoes site (· = true) id (production >>= next) (production >>= next') reader := by
  refine echoes.bindMove fun found later _ => ?_
  cases found with
  | none => exact .inl (none_ later)
  | some node => exact .inr ⟨rfl, some_ node, rfl⟩

theorem echoes_relationInto {production : Read (Option RelationId)}
    (echoes : Echoes site (fun found => found.isSome = true) id production production reader) :
    Echoes site (· = true) id (relationInto graph production) (relationInto graph production)
      reader :=
  echoes_found echoes (fun _ => (Blind.edit _).bind fun _ => .pure _)
    fun _ => .pure Bool.false_ne_true

theorem echoes_graphComment :
    Echoes site (· = true) id (graphComment graph) (graphComment graph) reader := by
  refine .peek ?_
  split
  · next text found =>
    have fences : (reader.ahead 0).token.fences = true := by rw [found]; rfl
    exact (Echoes.advanceFence fences).before fun _ => (Blind.edit _).bind fun _ => .pure _
  · exact .pure Bool.false_ne_true

/-- The first alternative that is taken at a site is the one that is taken without. -/
theorem echoes_firstOf {productions : List (Read Bool)}
    (echoes : ∀ production ∈ productions, ∀ reader,
      Echoes site (· = true) id production production reader) :
    Echoes site (· = true) id (firstOf productions) (firstOf productions) reader := by
  induction productions generalizing reader with
  | nil => exact .pure Bool.false_ne_true
  | cons production others ih =>
      refine (echoes production List.mem_cons_self reader).bindMove fun found later _ => ?_
      cases found with
      | true => exact .inr ⟨rfl, .pure _, rfl⟩
      | false => exact .inl (ih fun other member => echoes other (List.mem_cons_of_mem _ member))

theorem echoes_item (echoes : RoomEchoes site room) :
    Echoes site (· = true) id (firstOf (bracketProductions setting room graph))
      (firstOf (bracketProductions setting room graph)) reader := by
  refine echoes_firstOf ?_
  simp only [bracketProductions, List.forall_mem_cons, List.not_mem_nil, false_implies,
    implies_true, and_true]
  have pure_ {α : Type} (node : Option α) (reader : Reader) (missing : node = none) :
      Echoes site (· = true) id (pure node.isSome) (pure node.isSome) reader :=
    .pure (by simp [missing])
  exact ⟨fun _ => echoes_found (echoes_concept echoes _) (fun _ => .pure _)
      fun _ => pure_ _ _ rfl,
    fun _ => echoes_found (echoes_specialContext echoes) (fun _ => .pure _)
      fun _ => pure_ _ _ rfl,
    fun _ => echoes_relationInto (echoes_negation echoes),
    fun _ => echoes_relationInto (echoes_relation echoes _),
    fun _ => echoes_relationInto (echoes_actor echoes _), fun _ => echoes_graphComment⟩

/-- As many items are read as there are, however many tokens are left. -/
theorem echoes_bracketItems (echoes : RoomEchoes site room) {tokens more : Nat}
    (enough : reader.rest.length ≤ tokens) (le : tokens ≤ more)
    (same : site.below = none → tokens = more) :
    Echoes site (fun _ => False) id (bracketItems setting room graph tokens)
      (bracketItems setting room graph more) reader := by
  induction tokens generalizing more reader with
  | zero =>
      have none_ : Echoes site (fun _ => False) id (bracketItems setting room graph 0)
          (bracketItems setting room graph 0) reader := .pure id
      refine none_.exhausted (List.length_eq_zero_iff.mp (Nat.le_zero.mp enough)) fun ends => ?_
      rw [same ends]
  | succ tokens ih =>
      obtain ⟨more, rfl⟩ : ∃ count, more = count + 1 :=
        Nat.exists_eq_succ_of_ne_zero (by omega)
      have item : Echoes site (· = true) id (firstOf (bracketProductions setting room graph))
          (firstOf (bracketProductions setting room graph)) reader := echoes_item echoes
      refine item.bindRan fun found later ran => ?_
      cases found with
      | false => exact .pure id
      | true =>
          have shorter := ((item.of_ok ran).2.1 rfl).2
          exact ih (by omega) (Nat.le_of_succ_le_succ le) fun ends => Nat.succ.inj (same ends)

theorem echoes_items (form : setting.form = .cgif) (echoes : RoomEchoes site room) :
    Echoes site (fun _ => False) id (items setting room graph) (items setting room graph)
      reader := by
  unfold items
  rw [form]
  exact .get (echoes_bracketItems echoes (Nat.le_refl _) Reader.length_amid_le
    Reader.length_amid)

/-- At every level of brackets what is inside is read at a site as it is without. -/
theorem roomEchoes (form : setting.form = .cgif) (brackets : Nat) :
    RoomEchoes site (roomFor setting brackets) := by
  induction brackets with
  | zero => exact nofun
  | succ brackets ih =>
      rintro inside ⟨⟩
      exact ⟨fun _ _ => echoes_concept ih _, fun _ => echoes_lambda ih,
        fun _ _ => echoes_items form ih⟩

end ConceptualGraph.Read
