/-
Module: ConceptualGraph.Proofs.Reading.Amid
Purpose: Two readings of the same tokens, by themselves and in the middle of a longer text, compared
  step by step.  What stands after the tokens makes no difference as long as a token lies ahead past
  which no production looks.
Main exports: Site, Reader.amid, Fenced, Read.Echoes, Read.Echoes.bind
-/
import ConceptualGraph.Proofs.Reading.Blind
import ConceptualGraph.Proofs.Reading.Declines

namespace ConceptualGraph

/-! ## Sites -/

/-- Where a text stands in a longer one: how many lines are above it, and which tokens are below
it, with the place where these end, if it is not the last part. -/
structure Site where
  above : UInt32
  below : Option (List Located × Position)

namespace Site

variable (site : Site)

/-- The tokens of the text, and then those below it. -/
def rest (tokens : List Located) : List Located :=
  tokens.map (Located.below site.above) ++ site.below.elim [] Prod.fst

/-- Where the longer text ends. -/
def stop (position : Position) : Position :=
  site.below.elim (position.below site.above) Prod.snd

end Site

/-- The state of reading where the tokens stand at a site. -/
def Reader.amid (reader : Reader) (site : Site) : Reader :=
  reader.withTokens (site.rest reader.rest) (site.stop reader.stop)

/-! ## Fences -/

/-- Whether no production looks past a token before it has gone past it. -/
def Token.fences : Token → Bool
  | .punct .rightBracket | .punct .rightParen | .punct .rightAngle => true
  | .formalComment _ => true
  | _ => false

/-- Whether a token lies ahead past which no production looks before it has gone past it. -/
def Fenced (rest : List Located) : Prop :=
  ∃ located ∈ rest, located.token.fences = true

/-- What is fenced stays so as tokens are read. -/
theorem Fenced.of_suffix {rest others : List Located} (fenced : Fenced rest)
    (suffix : rest <:+ others) : Fenced others :=
  have ⟨located, member, fences⟩ := fenced
  ⟨located, suffix.subset member, fences⟩

/-- What is looked at lies among the tokens if all before it are no fences. -/
theorem Fenced.lt {reader : Reader} (fenced : Fenced reader.rest) {places : Nat}
    (clear : ∀ place < places, (reader.ahead place).token.fences = false) :
    places < reader.rest.length := by
  by_contra beyond
  obtain ⟨located, member, fences⟩ := fenced
  obtain ⟨place, inside, rfl⟩ := List.mem_iff_getElem.mp member
  have plain := clear place (by omega)
  simp [Reader.ahead, inside, fences] at plain

namespace Reader

variable {reader : Reader} {site : Site} {places : Nat}

/-- What is ahead in a text is ahead at its site too, but past its end only if nothing follows. -/
theorem ahead_amid (within : site.below = none ∨ places < reader.rest.length) :
    (reader.amid site).ahead places = (reader.ahead places).below site.above := by
  obtain ⟨above, below⟩ := site
  simp only [amid, withTokens, ahead, Site.rest, Site.stop]
  by_cases inside : places < reader.rest.length
  · rw [List.getElem?_append_left (by simpa using inside)]
    simp [inside]
  · obtain rfl : below = none := within.resolve_right inside
    simp [Nat.le_of_not_lt inside, Located.below, Span.below]

theorem length_amid_le : reader.rest.length ≤ (reader.amid site).rest.length := by
  simp [amid, withTokens, Site.rest]

theorem length_amid (ends : site.below = none) :
    reader.rest.length = (reader.amid site).rest.length := by
  simp [amid, withTokens, Site.rest, ends]

/-- Going past a token leads to the same state at a site. -/
theorem next_amid (within : site.below = none ∨ reader.rest ≠ []) :
    (reader.amid site).next = reader.next.amid site := by
  obtain ⟨rest, stop, model, labels, markers⟩ := reader
  cases rest with
  | nil =>
      have none_ := within.resolve_right fun some => some rfl
      simp [next, amid, withTokens, Site.rest, none_]
  | cons located rest => rfl

end Reader

namespace Read

/-! ## Steps at a site -/

variable {α β : Type} {step step' other other' : Read α} {next next' : α → Read β}
  {site : Site} {fenced : α → Prop} {closes : β → Prop} {move : α → α} {move' : β → β}
  {reader : Reader}

/-- A step does the same at a site, where the tokens below the text make no difference, if it leaves
a fence ahead; or it has gone past the fence itself, which its result tells. -/
def Echoes (site : Site) (fenced : α → Prop) (move : α → α) (step step' : Read α)
    (reader : Reader) : Prop :=
  match step reader with
  | .ok value later => later.rest <:+ reader.rest ∧
      (fenced value → Fenced reader.rest ∧ later.rest.length < reader.rest.length) ∧
      (site.below = none ∨ fenced value ∨ Fenced later.rest →
        step' (reader.amid site) = .ok (move value) (later.amid site))
  | .error error later => site.below = none →
      step' (reader.amid site) = .error (error.below site.above) (later.amid site)

namespace Echoes

theorem of_ok (echoes : Echoes site fenced move step step' reader) {value : α} {later : Reader}
    (ran : step reader = .ok value later) :
    later.rest <:+ reader.rest ∧
      (fenced value → Fenced reader.rest ∧ later.rest.length < reader.rest.length) ∧
      (site.below = none ∨ fenced value ∨ Fenced later.rest →
        step' (reader.amid site) = .ok (move value) (later.amid site)) := by
  simpa [Echoes, ran] using echoes

theorem of_error (echoes : Echoes site fenced move step step' reader) {error : Error}
    {later : Reader} (ran : step reader = .error error later) (last : site.below = none) :
    step' (reader.amid site) = .error (error.below site.above) (later.amid site) := by
  unfold Echoes at echoes
  rw [ran] at echoes
  exact echoes last

/-- What fences less does the same at a site. -/
theorem mono {weaker : α → Prop} (echoes : Echoes site fenced move step step' reader)
    (weaken : ∀ value, weaker value → fenced value) :
    Echoes site weaker move step step' reader := by
  unfold Echoes
  cases ran : step reader with
  | error error later => exact echoes.of_error ran
  | ok value later =>
      obtain ⟨suffix, fence, same⟩ := echoes.of_ok ran
      exact ⟨suffix, fun holds => fence (weaken value holds), fun known =>
        same (known.imp_right (Or.imp_left (weaken value)))⟩

/-- A step that looks at nothing and leaves no fence behind. -/
theorem of_blind (blind : Blind (.below site.above) step step') (open_ : ∀ value, ¬fenced value) :
    Echoes site fenced id step step' reader := by
  unfold Echoes
  cases ran : step reader with
  | error error later =>
      obtain ⟨⟨rest, stop⟩, same⟩ := blind.of_error ran
      intro _
      rw [Reader.amid, same, Error.moved_below, Reader.amid, rest, stop]
  | ok value later =>
      obtain ⟨⟨rest, stop⟩, same⟩ := blind.of_ok ran
      refine ⟨rest ▸ List.suffix_rfl, fun fence => absurd fence (open_ value), fun _ => ?_⟩
      rw [Reader.amid, same, Reader.amid, rest, stop, id]

/-- One step after another: what follows either leaves a fence ahead, or it comes after a fence and
looks at nothing. -/
theorem bindMove (first : Echoes site fenced move step step' reader)
    (others : ∀ value later, step reader = .ok value later →
      Echoes site closes move' (next value) (next' (move value)) later ∨
        (fenced value ∧ Blind (.below site.above) (next value) (next' (move value)) ∧ move' = id)) :
    Echoes site closes move' (step >>= next) (step' >>= next') reader := by
  unfold Echoes
  cases ran : step reader with
  | error error later =>
      rw [bind_of_error ran]
      exact fun last => bind_of_error (first.of_error ran last)
  | ok value later =>
      obtain ⟨suffix, fence, same⟩ := first.of_ok ran
      rw [bind_of_ok ran]
      rcases others value later ran with echoes | ⟨passed, blind, rfl⟩
      · cases went : next value later with
        | error error last =>
            exact fun ends => (bind_of_ok (same (.inl ends))).trans (echoes.of_error went ends)
        | ok result last =>
            obtain ⟨suffix', fence', same'⟩ := echoes.of_ok went
            refine ⟨suffix'.trans suffix, fun closed => ?_, fun known => ?_⟩
            · obtain ⟨ahead, shorter⟩ := fence' closed
              exact ⟨ahead.of_suffix suffix, Nat.lt_of_lt_of_le shorter suffix.length_le⟩
            · have between : site.below = none ∨ fenced value ∨ Fenced later.rest := by
                rcases known with ends | closed | ahead
                · exact .inl ends
                · exact .inr (.inr (fence' closed).1)
                · exact .inr (.inr (ahead.of_suffix suffix'))
              exact (bind_of_ok (same between)).trans (same' known)
      · have began : (step' >>= next') (reader.amid site) = next' (move value) (later.amid site) :=
          bind_of_ok (same (.inr (.inl passed)))
        cases went : next value later with
        | error error last =>
            obtain ⟨⟨rest, stop⟩, same'⟩ := blind.of_error went
            intro _
            rw [began, Reader.amid, same', Error.moved_below, Reader.amid, rest, stop]
        | ok result last =>
            obtain ⟨⟨rest, stop⟩, same'⟩ := blind.of_ok went
            refine ⟨rest ▸ suffix, fun _ => rest ▸ fence passed, fun _ => ?_⟩
            rw [began, Reader.amid, same', Reader.amid, rest, stop, id]

/-- One step after another. -/
theorem bind (first : Echoes site fenced id step step' reader)
    (others : ∀ value later, Echoes site closes move' (next value) (next' value) later) :
    Echoes site closes move' (step >>= next) (step' >>= next') reader :=
  bindMove first fun value later _ => .inl (others value later)

/-- After a fence come steps that look at nothing. -/
theorem before (first : Echoes site (fun _ => True) id step step' reader)
    (others : ∀ value, Blind (.below site.above) (next value) (next' value)) :
    Echoes site closes id (step >>= next) (step' >>= next') reader :=
  bindMove first fun value _ _ => .inr ⟨True.intro, others value, rfl⟩

/-- A step that looks at nothing comes first. -/
theorem blindly (first : Blind (.below site.above) step step')
    (others : ∀ value later, Echoes site closes move' (next value) (next' value) later) :
    Echoes site closes move' (step >>= next) (step' >>= next') reader :=
  bind (of_blind first fun _ => id : Echoes site (fun _ => False) id step step' reader) others

/-- A step whose successful runs are known comes first. -/
theorem bindRan (first : Echoes site fenced move step step' reader)
    (others : ∀ value later, step reader = .ok value later →
      Echoes site closes move' (next value) (next' (move value)) later) :
    Echoes site closes move' (step >>= next) (step' >>= next') reader :=
  bindMove first fun value later ran => .inl (others value later ran)

theorem pureMove {value : α} (open_ : ¬fenced value) :
    Echoes site fenced move (pure value) (Pure.pure (move value)) reader :=
  ⟨List.suffix_rfl, fun fence => absurd fence open_, fun _ => rfl⟩

theorem pure {value : α} (open_ : ¬fenced value) :
    Echoes site fenced id (pure value) (Pure.pure value) reader := pureMove open_

/-- Where no token is left, nothing follows that could make a difference. -/
theorem exhausted {same : Read α} (echoes : Echoes site (fun _ => False) move step same reader)
    (empty : reader.rest = []) (equal : site.below = none → same = step') :
    Echoes site (fun _ => False) move step step' reader := by
  unfold Echoes
  cases ran : step reader with
  | error error later => exact fun ends => equal ends ▸ echoes.of_error ran ends
  | ok value later =>
      obtain ⟨suffix, -, goes⟩ := echoes.of_ok ran
      refine ⟨suffix, False.elim, fun known => ?_⟩
      rcases known with ends | closed | ahead
      · exact equal ends ▸ goes (.inl ends)
      · exact closed.elim
      · obtain ⟨located, member, _⟩ := ahead.of_suffix suffix
        simp [empty] at member

theorem failAt {found : Located} {fault : ParseFault} :
    Echoes site fenced move (failAt found fault) (Read.failAt (found.below site.above) fault)
      reader :=
  fun _ => rfl

/-- An error is the same further down. -/
theorem fail {fault : ParseFault} :
    Echoes site fenced move (fail fault) (Read.fail fault) reader := by
  intro ends
  have here : (reader.amid site).ahead 0 = (reader.ahead 0).below site.above :=
    Reader.ahead_amid (.inl ends)
  change EStateM.Result.error (Error.parse ⟨fault, (reader.amid site).ahead 0⟩) _ = _
  rw [here]
  rfl

/-- A choice that does not depend on the tokens is made alike. -/
theorem ite {condition : Prop} [Decidable condition]
    (yes : condition → Echoes site fenced move step step' reader)
    (no : ¬condition → Echoes site fenced move other other' reader) :
    Echoes site fenced move (if condition then step else other)
      (if condition then step' else other') reader := by
  split
  · exact yes ‹_›
  · exact no ‹_›

/-- A step that only looks at the state, and sees the same at a site as long as a fence lies
ahead. -/
theorem look {value : α} {found : α} (seen : step reader = .ok value reader)
    (same : site.below = none ∨ Fenced reader.rest →
      step' (reader.amid site) = .ok found (reader.amid site))
    (others : Echoes site closes move' (next value) (next' found) reader) :
    Echoes site closes move' (step >>= next) (step' >>= next') reader := by
  unfold Echoes
  rw [bind_of_ok seen]
  cases ran : next value reader with
  | error error later =>
      exact fun ends => (bind_of_ok (same (.inl ends))).trans (others.of_error ran ends)
  | ok result later =>
      obtain ⟨suffix, fence, same'⟩ := others.of_ok ran
      refine ⟨suffix, fence, fun known => (bind_of_ok (same ?_)).trans (same' known)⟩
      rcases known with ends | closed | ahead
      · exact .inl ends
      · exact .inr (fence closed).1
      · exact .inr (ahead.of_suffix suffix)

/-- A token ahead is looked at, before which there are no fences. -/
theorem located {places : Nat} {next next' : Located → Read β}
    (clear : ∀ place < places, (reader.ahead place).token.fences = false)
    (others : Echoes site closes move' (next (reader.ahead places))
      (next' ((reader.ahead places).below site.above)) reader) :
    Echoes site closes move' (located places >>= next) (Read.located places >>= next') reader := by
  refine look (rfl : Read.located places reader = .ok (reader.ahead places) reader)
    (fun known => ?_) others
  rw [← Reader.ahead_amid (known.imp_right fun fence => fence.lt clear)]
  rfl

/-- Looking ahead sees the same token, as long as no fence is passed on the way. -/
theorem ahead {places : Nat} {next next' : Token → Read β}
    (clear : ∀ place < places, (reader.ahead place).token.fences = false)
    (others : Echoes site closes move' (next (reader.ahead places).token)
      (next' (reader.ahead places).token) reader) :
    Echoes site closes move' (ahead places >>= next) (Read.ahead places >>= next') reader := by
  refine look (rfl : Read.ahead places reader = .ok (reader.ahead places).token reader)
    (fun known => ?_) others
  have here : (reader.amid site).ahead places = (reader.ahead places).below site.above :=
    Reader.ahead_amid (known.imp_right fun fence => fence.lt clear)
  change EStateM.Result.ok ((reader.amid site).ahead places).token _ = _
  rw [here]
  rfl

/-- The next token is looked at. -/
theorem peek {next next' : Token → Read β}
    (others : Echoes site closes move' (next (reader.ahead 0).token)
      (next' (reader.ahead 0).token) reader) :
    Echoes site closes move' (peek >>= next) (Read.peek >>= next') reader :=
  ahead nofun others

theorem advance : Echoes site (fun _ => False) id advance Read.advance reader := by
  refine ⟨List.tail_suffix _, False.elim, fun known => ?_⟩
  have within : site.below = none ∨ reader.rest ≠ [] := by
    refine known.imp_right fun ahead empty => ?_
    obtain ⟨located, member, _⟩ := ahead.resolve_left id
    simp [empty] at member
  exact congrArg (EStateM.Result.ok ()) (Reader.next_amid within)

/-- A fence is gone past. -/
theorem advanceFence (fences : (reader.ahead 0).token.fences = true) :
    Echoes site (fun _ => True) id Read.advance Read.advance reader := by
  obtain ⟨located, rest, starts⟩ : ∃ located rest, reader.rest = located :: rest := by
    cases starts : reader.rest with
    | nil => simp [Reader.ahead, starts, Token.fences] at fences
    | cons located rest => exact ⟨located, rest, rfl⟩
  have fences : located.token.fences = true := by simpa [Reader.ahead, starts] using fences
  refine ⟨List.tail_suffix _, fun _ => ⟨⟨located, by simp [starts], fences⟩, by simp [starts]⟩,
    fun _ => ?_⟩
  exact congrArg (EStateM.Result.ok ()) (Reader.next_amid (.inr (by simp [starts])))

theorem eat (token : Token) :
    Echoes site (fun _ => False) id (eat token) (Read.eat token) reader :=
  peek <| ite (fun _ => advance.bind fun _ _ => pure id) fun _ => pure id

theorem expect (token : Token) (what : Expected) :
    Echoes site (fun _ => False) id (expect token what) (Read.expect token what) reader :=
  (eat token).bind fun _ _ => ite (fun _ => pure id) fun _ => fail

/-- A fence that has to follow is gone past. -/
theorem expectFence {token : Token} (fences : token.fences = true) (what : Expected) :
    Echoes site (fun _ => True) id (Read.expect token what) (Read.expect token what) reader := by
  unfold Echoes
  cases ran : Read.expect token what reader with
  | error error later => exact (expect token what).of_error ran
  | ok value later =>
      obtain ⟨found, rfl⟩ : (reader.ahead 0).token = token ∧ later = reader.next :=
        (ensures_expect.mpr fun found => ⟨found, rfl⟩ : Ensures (Read.expect token what) reader
          fun _ later => (reader.ahead 0).token = token ∧ later = reader.next).of_ok ran
      have advances : Echoes site (fun _ => True) id Read.advance Read.advance reader :=
        advanceFence (found ▸ fences)
      obtain ⟨suffix, fence, same⟩ :=
        advances.of_ok (rfl : Read.advance reader = .ok () reader.next)
      refine ⟨suffix, fence, fun _ => ?_⟩
      have here : ((reader.amid site).ahead 0).token = token := by
        rw [Reader.ahead_amid (.inr (Nat.zero_lt_of_lt (fence True.intro).2)), ← found]
        rfl
      obtain ⟨⟨⟩, last, went, rfl⟩ := Achieves.exists_ok (achieves_expect.mpr ⟨here, rfl⟩ :
        Achieves (Read.expect token what) (reader.amid site) fun _ later =>
          later = (reader.amid site).next)
      rw [went]
      exact same (.inr (.inl True.intro))

/-- Entering a bracket is the same at a site, given that what is read inside is. -/
theorem descend {setting : Setting} {room : Option Inside} {next next' : Inside → Read β}
    (others : ∀ inside, room = some inside →
      Echoes site closes move' (next inside) (next' inside) reader) :
    Echoes site closes move' (descend setting room >>= next) (Read.descend setting room >>= next')
      reader := by
  cases room with
  | none =>
      have fails : Echoes site (fun _ => False) id
          (Read.fail (.nestingTooDeep setting.options.maxDepth) : Read Inside)
          (Read.fail (.nestingTooDeep setting.options.maxDepth)) reader := .fail
      exact bindMove fails fun _ _ ran => by cases ran
  | some inside => exact others inside rfl

/-- How many tokens are left is seen, too. -/
theorem get {next next' : Reader → Read β}
    (others : Echoes site closes move' (next reader) (next' (reader.amid site)) reader) :
    Echoes site closes move' (get >>= next) (MonadState.get >>= next') reader :=
  others

/-- A context is opened and closed at a site as it is without. -/
theorem inContext (echoes : Echoes site fenced id step step'
      (reader.withLabels reader.labels.push)) :
    Echoes site fenced id (inContext step) (Read.inContext step') reader := by
  unfold Echoes
  cases ran : step (reader.withLabels reader.labels.push) with
  | error error later =>
      rw [inContext_of_error ran]
      intro ends
      have went : step' ((reader.amid site).withLabels (reader.amid site).labels.push) =
          .error (error.below site.above) (later.amid site) := echoes.of_error ran ends
      exact inContext_of_error went
  | ok value later =>
      obtain ⟨suffix, fence, same⟩ := echoes.of_ok ran
      rw [inContext_of_ok ran]
      refine ⟨suffix, fence, fun known => ?_⟩
      have went : step' ((reader.amid site).withLabels (reader.amid site).labels.push) =
          .ok value (later.amid site) := same known
      exact inContext_of_ok went

end Echoes

/-- A token that is eaten is no longer ahead. -/
theorem eat_shorter {token : Token} {later : Reader} (going : token ≠ .endOfInput)
    (ate : eat token reader = .ok true later) : later.rest.length < reader.rest.length := by
  have eaten : Ensures (eat token) reader fun found later =>
      found = true → later.rest.length < reader.rest.length := by
    refine ensures_eat.mpr ⟨fun found _ => ?_, fun _ => nofun⟩
    have cons := congrArg List.length (Reader.tokens_eq_cons found going)
    simp only [Reader.tokens, List.length_map, List.length_cons] at cons
    omega
  exact eaten.of_ok ate rfl

end Read

end ConceptualGraph
