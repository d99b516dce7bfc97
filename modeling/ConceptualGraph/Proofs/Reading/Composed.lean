/-
Module: ConceptualGraph.Proofs.Reading.Composed
Purpose: Two texts of the interchange form, one below the other, are read as one after the other.
Main exports: Read.graphInto_amid, Session.parseInto, Session.parseInto_append
-/
import ConceptualGraph.Proofs.Reading.Depth
import ConceptualGraph.Proofs.Reading.Echoed
import ConceptualGraph.Proofs.Token.Scanned

namespace ConceptualGraph

namespace Read

variable {site : Site} {setting : Setting} {reader : Reader} {room : Option Inside}
  {graph : GraphId}

/-! ## Productions that find nothing -/

/-- Where no concept is found, nothing has been read. -/
theorem absent_concept (home : Option GraphId) :
    Ensures (concept setting room home) reader fun found later =>
      found = none → later = reader := by
  unfold concept
  simp only [ensures_bind, ensures_peek, ensures_ahead]
  split
  · exact fun _ => rfl
  · simp only [ensures_bind, ensures_located, ensures_failAt]
  · simp only [ensures_bind, ensures_located, ensures_failAt]
  · simp only [ensures_bind, ensures_descend, ensures_advance, ensures_pure, reduceCtorEq,
      false_implies]
    exact fun inside _ => .trivial _ _
  · exact fun _ => rfl

/-- Where no context is found, nothing has been read. -/
theorem absent_specialContext :
    Ensures (specialContext setting room graph) reader fun found later =>
      found = none → later = reader := by
  unfold specialContext
  simp only [ensures_bind, ensures_peek, ensures_ahead]
  split
  · simp only [ensures_bind, ensures_located, ensures_failAt]
  · simp only [ensures_bind, ensures_descend, ensures_advance, ensures_pure, reduceCtorEq,
      false_implies]
    exact fun inside _ => .trivial _ _
  · exact fun _ => rfl

/-- Where no negation is found, nothing has been read. -/
theorem absent_negation :
    Ensures (negation setting room graph) reader fun found later =>
      found = none → later = reader := by
  unfold negation
  simp only [ensures_bind, ensures_peek, ensures_ahead]
  split
  · simp only [ensures_bind, ensures_descend, ensures_advance, ensures_pure, reduceCtorEq,
      false_implies]
    exact fun inside _ => .trivial _ _
  · simp only [ensures_bind, ensures_located, ensures_failAt]
  · exact fun _ => rfl

/-- Where no relation is found, nothing has been read. -/
theorem absent_relation (home : Option GraphId) :
    Ensures (relation setting room home) reader fun found later =>
      found = none → later = reader := by
  obtain ⟨answer, known⟩ : ∃ answer, Declines (relationTypeAhead 1) answer reader :=
    relationTypeAhead_declines 1
  unfold relation
  simp only [ensures_bind, ensures_peek]
  refine known.ensures.mono fun begins later declined => ?_
  obtain ⟨-, rfl⟩ := declined
  refine ensures_ite.mpr ⟨fun _ => ?_, fun _ _ => rfl⟩
  simp only [ensures_bind, ensures_descend, ensures_located, ensures_advance, ensures_get,
    ensures_expect, ensures_pure, reduceCtorEq, false_implies]
  exact fun inside _ => .intro fun _ _ _ => .intro fun _ _ _ => .intro fun _ _ _ _ =>
    .trivial _ _

/-- Where no actor is found, nothing has been read. -/
theorem absent_actor (home : Option GraphId) :
    Ensures (actor setting room home) reader fun found later =>
      found = none → later = reader := by
  unfold actor
  simp only [ensures_bind, ensures_peek]
  refine ensures_ite.mpr ⟨fun _ => ?_, fun _ _ => rfl⟩
  simp only [ensures_bind, ensures_descend, ensures_located, ensures_advance, ensures_pure,
    reduceCtorEq, false_implies]
  exact fun inside _ => .trivial _ _

/-- Where no relation is found, nothing has been put into the graph. -/
theorem absent_relationInto {production : Read (Option RelationId)}
    (absent : Ensures production reader fun found later => found = none → later = reader) :
    Ensures (relationInto graph production) reader fun found later =>
      found = false → later = reader := by
  refine absent.bind fun found later same => ?_
  cases found with
  | none => exact fun _ => same rfl
  | some relation => exact nofun

/-- Where no comment is found, nothing has been read. -/
theorem absent_graphComment :
    Ensures (graphComment graph) reader fun found later => found = false → later = reader := by
  unfold graphComment
  simp only [ensures_bind, ensures_peek]
  split
  · simp only [ensures_bind, ensures_advance, ensures_edit, ensures_pure, Bool.true_eq_false,
      false_implies]
  · exact fun _ => rfl

/-- Where every alternative that declines reads nothing, so does the first of them that is taken. -/
theorem absent_firstOf {productions : List (Read Bool)}
    (absent : ∀ production ∈ productions, Ensures production reader fun found later =>
      found = false → later = reader) :
    Ensures (firstOf productions) reader fun found later => found = false → later = reader := by
  induction productions with
  | nil => exact fun _ => rfl
  | cons production others ih =>
      refine (absent production List.mem_cons_self).bind fun found later same => ?_
      cases found with
      | true => exact nofun
      | false =>
          obtain rfl := same rfl
          exact ih fun other member => absent other (List.mem_cons_of_mem _ member)

/-- Where there is no item, nothing has changed. -/
theorem absent_item :
    Ensures (firstOf (bracketProductions setting room graph)) reader fun found later =>
      found = false → later = reader := by
  refine absent_firstOf ?_
  simp only [bracketProductions, List.forall_mem_cons, List.not_mem_nil, false_implies,
    implies_true, and_true]
  have isSome {α : Type} {production : Read (Option α)}
      (absent : Ensures production reader fun found later => found = none → later = reader) :
      Ensures (do return (← production).isSome) reader fun found later =>
        found = false → later = reader :=
    absent.bind fun found later same missing => same (by simpa using missing)
  exact ⟨isSome (absent_concept _), isSome absent_specialContext,
    absent_relationInto absent_negation, absent_relationInto (absent_relation _),
    absent_relationInto (absent_actor _), absent_graphComment⟩

/-! ## Items of two texts -/

section Items

variable (rooms : RoomEchoes site room)

include rooms

/-- An item that is read is no longer ahead. -/
theorem item_shorter {later : Reader}
    (ran : firstOf (bracketProductions setting room graph) reader = .ok true later) :
    later.rest.length < reader.rest.length :=
  (((echoes_item rooms).of_ok ran).2.1 rfl).2

/-- Items end before their bound does, which therefore makes no difference. -/
theorem bracketItems_of_le {tokens more : Nat} (enough : reader.rest.length ≤ tokens)
    (le : tokens ≤ more) : bracketItems setting room graph more reader =
      bracketItems setting room graph tokens reader := by
  induction tokens generalizing more reader with
  | zero =>
      have ended : EndsItems (reader.ahead 0).token := by
        have empty : reader.rest = [] := List.length_eq_zero_iff.mp (Nat.le_zero.mp enough)
        simp only [Reader.ahead, empty]
        exact ⟨rfl, by simp⟩
      have declines : Declines (bracketItems setting room graph more) () reader :=
        bracketItems_declines ended more
      obtain ⟨_, later, ran, -, rfl⟩ := Achieves.exists_ok declines
      exact ran
  | succ tokens ih =>
      obtain ⟨more, rfl⟩ : ∃ count, more = count + 1 := Nat.exists_eq_succ_of_ne_zero (by omega)
      unfold bracketItems
      cases ran : firstOf (bracketProductions setting room graph) reader with
      | error error later => rw [bind_of_error ran, bind_of_error ran]
      | ok found later =>
          rw [bind_of_ok ran, bind_of_ok ran]
          cases found with
          | false => rfl
          | true =>
              have shorter := item_shorter rooms ran
              exact ih (by omega) (Nat.le_of_succ_le_succ le)

/-- Where all tokens of a text are items, reading goes on below it as it goes on there from the
state in which it left off. -/
theorem bracketItems_amid {tokens : Nat} {last : Reader} (enough : reader.rest.length ≤ tokens)
    (ran : bracketItems setting room graph tokens reader = .ok () last) (empty : last.rest = [])
    {more : Nat} (le : (reader.amid site).rest.length ≤ more) :
    bracketItems setting room graph more (reader.amid site) =
      bracketItems setting room graph more (last.amid site) := by
  induction tokens generalizing more reader with
  | zero =>
      cases ran
      rfl
  | succ tokens ih =>
      unfold bracketItems at ran
      obtain ⟨found, later, item, others⟩ := exists_of_bind_ok ran
      cases found with
      | false =>
          -- Nothing was read, so that no token was left.
          obtain rfl : later = reader := absent_item.of_ok item rfl
          cases others
          rfl
      | true =>
          obtain ⟨-, fence, same⟩ := (echoes_item rooms).of_ok item
          have shorter := (fence rfl).2
          have there : firstOf (bracketProductions setting room graph) (reader.amid site) =
              .ok true (later.amid site) := same (.inr (.inl rfl))
          have further := item_shorter rooms there
          obtain ⟨more, rfl⟩ : ∃ count, more = count + 1 :=
            Nat.exists_eq_succ_of_ne_zero (by omega)
          have ends : (last.amid site).rest.length ≤ (later.amid site).rest.length := by
            simp [Reader.amid, Reader.withTokens, Site.rest, empty]
          calc bracketItems setting room graph (more + 1) (reader.amid site)
            _ = bracketItems setting room graph more (later.amid site) := bind_of_ok there
            _ = bracketItems setting room graph more (last.amid site) :=
                ih (by omega) others (by omega)
            _ = bracketItems setting room graph (more + 1) (last.amid site) :=
                (bracketItems_of_le rooms (by omega) (Nat.le_succ more)).symm

/-- Where all tokens of a text are items, those below it are read next. -/
theorem items_amid (form : setting.form = .cgif) {last : Reader}
    (ran : items setting room graph reader = .ok () last) (empty : last.rest = []) :
    items setting room graph (reader.amid site) = items setting room graph (last.amid site) := by
  rw [items_cgif form] at ran ⊢
  have fewer : (last.amid site).rest.length ≤ (reader.amid site).rest.length := by
    simp [Reader.amid, Reader.withTokens, Site.rest, empty]
  exact (bracketItems_amid rooms (Nat.le_refl _) ran empty (Nat.le_refl _)).trans
    (bracketItems_of_le rooms (Nat.le_refl _) fewer)

end Items

/-! ## Graphs of two texts -/

theorem echoes_textEnd (form : setting.form = .cgif) :
    Echoes site (fun _ => False) id (textEnd setting) (textEnd setting) reader := by
  rw [textEnd_cgif form]
  exact .peek (.ite (fun _ => .fail) fun _ => .pure id)

theorem echoes_graphInto (form : setting.form = .cgif) :
    Echoes site (fun _ => False) id (graphInto setting graph) (graphInto setting graph) reader :=
  (echoes_items form (roomEchoes form _)).bind fun _ _ => echoes_textEnd form

/-- Where a text is a graph, reading goes on below it as it goes on there from the state in which it
left off. -/
theorem graphInto_amid (form : setting.form = .cgif)
    (going : ∀ located ∈ reader.rest, located.token ≠ .endOfInput) {last : Reader}
    (ran : graphInto setting graph reader = .ok () last) :
    last.rest = [] ∧
      graphInto setting graph (reader.amid site) = graphInto setting graph (last.amid site) := by
  have rooms : RoomEchoes site (room setting) := roomEchoes form _
  have ended : (last.ahead 0).token = .endOfInput := (ensures_graphInto_ends form).of_ok ran
  unfold graphInto graphText at ran ⊢
  rw [textEnd_cgif form] at ran
  obtain ⟨⟨⟩, later, read, stopped⟩ := exists_of_bind_ok ran
  obtain rfl : last = later := by
    have kept : Ensures (do if (← peek) ≠ .endOfInput then fail .unexpected) later
        fun _ last => last = later := by
      simp [ensures_bind, ensures_ite]
    exact kept.of_ok stopped
  have suffix : last.rest <:+ reader.rest := ((echoes_items form rooms).of_ok read).1
  have empty : last.rest = [] := by
    cases rest : last.rest with
    | nil => rfl
    | cons located others =>
        refine absurd ?_ (going located (suffix.subset (rest ▸ List.mem_cons_self)))
        simpa [Reader.ahead, rest] using ended
  refine ⟨empty, ?_⟩
  have same := items_amid rooms form read empty
  cases went : items setting (room setting) graph (last.amid site) with
  | ok value later => rw [bind_of_ok (same.trans went), bind_of_ok went]
  | error error later => rw [bind_of_error (same.trans went), bind_of_error went]

end Read

/-! ## Texts -/

theorem Error.kindName_below (lines : UInt32) (error : Error) :
    (error.below lines).kindName = error.kindName := by
  cases error <;> rfl

/-- The wording of an error, without its place. -/
def Error.wording : Error → String
  | .lex error => error.fault.message
  | .parse error => error.wording
  | other => other.message

theorem Error.wording_below (lines : UInt32) (error : Error) :
    (error.below lines).wording = error.wording := by
  cases error <;> rfl

namespace Session

variable {session : Session} {model : Model} {first second : String} {stop : Position}
  {graph : GraphId}

/-- Where a text stands below another one, its tokens follow those of the other one. -/
theorem opening_append {lower : Position} {upper tokens : List Located} :
    session.opening model (upper ++ tokens.map (Located.below stop.line)) (lower.below stop.line) =
      (session.opening model upper stop).amid
        ⟨0, some (tokens.map (Located.below stop.line), lower.below stop.line)⟩ := by
  have same : upper.map (Located.below 0) = upper := by
    have each (located : Located) : located.below 0 = located := by
      simp [Located.below, Span.below, Position.below]
    simpa using List.map_congr_left fun located (_ : located ∈ upper) => each located
  simp [opening, Reader.amid, Reader.withTokens, Site.rest, Site.stop, same]

/-- With nothing left of the text above, the tokens of the text below are read by themselves. -/
theorem amid_opening {lower : Position} {tokens : List Located} {last : Reader}
    (empty : last.rest = []) :
    (last.amid ⟨0, some (tokens.map (Located.below stop.line), lower.below stop.line)⟩).atDepth 0 =
      (opening { session with labels := last.labels, markers := last.markers } last.model tokens
        lower).amid ⟨stop.line, none⟩ := by
  simp [opening, Reader.amid, Reader.withTokens, Reader.atDepth, Site.rest, Site.stop, empty]

/-- A text further down is read with the same result, but for the place of an error. -/
theorem closing_amid {lines : UInt32} {reader : Reader} {setting : Setting}
    (form : setting.form = .cgif) :
    let here := session.closing (Read.graphInto setting graph reader)
    let there := session.closing (Read.graphInto setting graph (reader.amid ⟨lines, none⟩))
    there = { here with result := here.result.mapError (Error.below lines) } := by
  have echoes : Read.Echoes ⟨lines, none⟩ (fun _ => False) id (Read.graphInto setting graph)
      (Read.graphInto setting graph) reader := Read.echoes_graphInto form
  cases ran : Read.graphInto setting graph reader with
  | ok value later =>
      rw [(echoes.of_ok ran).2.2 (.inl rfl)]
      rfl
  | error error later =>
      rw [echoes.of_error ran rfl]
      rfl

/-- Where a text can be read, reading goes on below it with the model, the labels and the markers
that it leaves. -/
theorem parseInto_resumes {lower : Position} (scanned : (Scan.ofText .cgif first).stop = .ok stop)
    (scanned' : (Scan.ofText .cgif second).stop = .ok lower)
    (parsed : (session.parseInto model .cgif graph first).result = .ok ()) :
    let upper := session.parseInto model .cgif graph first
    let after := upper.session.parseInto upper.model .cgif graph second
    session.parseInto model .cgif graph (first ++ "\n" ++ second) =
      { after with result := after.result.mapError (Error.below stop.line) } := by
  intro upper after
  have began : upper = _ := parseInto_of_scanned scanned
  cases ran : Read.graphInto ⟨.cgif, session.options⟩ graph
      (session.opening model (Scan.ofText .cgif first).tokens stop) with
  | error error last =>
      rw [parseInto_of_scanned scanned, ran] at parsed
      cases parsed
  | ok value last =>
      rw [ran] at began
      obtain ⟨empty, goes⟩ := Read.graphInto_amid rfl
        (fun _ member => Scan.ne_endOfInput_of_mem member) ran
      have joined := Scan.ofText_append_of_ok scanned scanned'
      have ended : (Scan.ofText .cgif (first ++ "\n" ++ second)).stop =
          .ok (lower.below stop.line) := by rw [joined]
      have resumed : after = _ := parseInto_of_scanned scanned'
      rw [began] at resumed
      rw [resumed, parseInto_of_scanned ended, joined, opening_append, goes, closing_scoped,
        amid_opening empty]
      exact (closing_scoped ..).symm.trans (closing_amid rfl)

/-- Reading a text below another one comes to what reading it after the other one comes to, where
the other one is read: with the same result, but for the place of an error, the same model, and the
same labels and markers. -/
theorem parseInto_append {lower : Position} (scanned : (Scan.ofText .cgif first).stop = .ok stop)
    (scanned' : (Scan.ofText .cgif second).stop = .ok lower)
    (parsed : (session.parseInto model .cgif graph first).result = .ok ()) :
    let upper := session.parseInto model .cgif graph first
    let after := upper.session.parseInto upper.model .cgif graph second
    let whole := session.parseInto model .cgif graph (first ++ "\n" ++ second)
    Scan.ofText .cgif (first ++ "\n" ++ second) =
        { tokens := (Scan.ofText .cgif first).tokens ++
            (Scan.ofText .cgif second).tokens.map (Located.below stop.line)
          stop := .ok (lower.below stop.line) } ∧
      whole.result = after.result.mapError (Error.below stop.line) ∧
      whole.result.mapError Error.kindName = after.result.mapError Error.kindName ∧
      whole.result.mapError Error.wording = after.result.mapError Error.wording ∧
      whole.session = after.session ∧ whole.model = after.model := by
  intro upper after whole
  have same : whole = { after with result := after.result.mapError (Error.below stop.line) } :=
    parseInto_resumes scanned scanned' parsed
  rw [same]
  refine ⟨Scan.ofText_append_of_ok scanned scanned', rfl, ?_, ?_, rfl, rfl⟩
  · cases after.result <;> simp [Except.mapError, Error.kindName_below]
  · cases after.result <;> simp [Except.mapError, Error.wording_below]

/-- Below a concept stand a relation that refers to it, which is read, and one that refers to none,
which is refused on the second line. -/
theorem parseInto_append_lines :
    let model := (Model.newGraph {} none).2
    let upper := ({} : Session).parseInto model .cgif ⟨0⟩ "[Cat: *x]"
    let after := upper.session.parseInto upper.model .cgif ⟨0⟩ "(On ?x [Mat]) (On ?y [Mat])"
    let whole := ({} : Session).parseInto model .cgif ⟨0⟩
      ("[Cat: *x]" ++ "\n" ++ "(On ?x [Mat]) (On ?y [Mat])")
    upper.result = .ok () ∧ whole.model = after.model ∧ after.model.relations.size = 1 ∧
      after.result = .error (.parse ⟨.unboundLabel "y", .boundLabel "y", ⟨1, 19⟩, ⟨1, 21⟩⟩) ∧
      whole.result = .error (.parse ⟨.unboundLabel "y", .boundLabel "y", ⟨2, 19⟩, ⟨2, 21⟩⟩) := by
  intro model upper after whole
  have scanned : (Scan.ofText .cgif "[Cat: *x]").stop = .ok ⟨1, 10⟩ := by decide +kernel
  have scanned' : (Scan.ofText .cgif "(On ?x [Mat]) (On ?y [Mat])").stop = .ok ⟨1, 28⟩ := by
    decide +kernel
  have parsed : upper.result = .ok () := by decide +kernel
  have related : after.model.relations.size = 1 := by decide +kernel
  have refused : after.result =
      .error (.parse ⟨.unboundLabel "y", .boundLabel "y", ⟨1, 19⟩, ⟨1, 21⟩⟩) := by decide +kernel
  obtain ⟨-, moved, -, -, -, same⟩ := parseInto_append scanned scanned' parsed
  refine ⟨parsed, same, related, refused, moved.trans ?_⟩
  exact congrArg (Except.mapError (Error.below 1)) refused

end Session

end ConceptualGraph
