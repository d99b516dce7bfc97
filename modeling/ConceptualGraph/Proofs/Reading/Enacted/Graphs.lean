/-
Module: ConceptualGraph.Proofs.Reading.Enacted.Graphs
Purpose: Every production for a graph is made of acts, whether it succeeds or fails, and one that
  succeeds leaves no concept behind whose referent is still awaited.
Main exports: Read.enacted_items, Read.roomEnacted, Read.enacted_graphInto, Read.enacted_single,
  Session.exists_leads
-/
import ConceptualGraph.Proofs.Reading.Enacted.Nodes
import ConceptualGraph.Proofs.Reading.Whole

namespace ConceptualGraph

namespace Read

variable {α : Type} {reader : Reader} {awaiting : Awaiting} {setting : Setting}
  {room : Option Inside} {graph : GraphId} {home : Option GraphId} {concept : ConceptId}

/-! ## Items of the interchange form -/

theorem enacted_contextBody {inside : Inside} (enacted : InsideEnacted inside)
    (label : ContextLabel) :
    Enacted awaiting (contextBody inside graph label) reader (fun _ => awaiting)
      fun _ _ => True := by
  refine .eat nofun fun _ _ _ _ => (Enacted.conceive none).bind fun concept _ _ made =>
    (Enacted.edit (.addConcept made.2)).bind fun _ _ _ _ =>
      .bind (.annotate (fun _ => rfl) (fun _ => rfl) fun _ => rfl) fun _ _ _ _ =>
        (enacted_descriptor enacted concept).bind fun body later _ _ => ?_
  split
  · refine .along ⟨later.withModel (later.model.setReferent concept { descriptor := some _ }),
      awaiting⟩ (bind_of_ok rfl) (.single (.refer rfl)) ?_
    exact .expect nofun fun _ _ _ => .pure True.intro
  · exact .leave (.expect nofun fun _ _ _ => .pure True.intro)

theorem enacted_specialContext (enacted : RoomEnacted room) :
    Enacted awaiting (specialContext setting room graph) reader (fun _ => awaiting)
      fun _ _ => True := by
  refine .see (rfl : peek reader = .ok _ reader)
    (.see (rfl : ahead 1 reader = .ok _ reader) ?_)
  split
  · exact .see rfl .failAt
  · next first second =>
    rw [Reader.token_ahead_succ] at second
    exact .descend fun inside entered => .advance first nofun <| .advance second nofun <|
      (enacted_contextBody (enacted inside entered) _).bind fun _ _ _ _ => .pure True.intro
  · exact .pure True.intro

theorem enacted_negationType :
    Enacted awaiting negationType reader (fun _ => awaiting) fun _ _ => True := by
  refine .look .model fun model => ?_
  dsimp only
  split
  · exact .pure True.intro
  · split
    · exact (Enacted.edit (.of_eq rfl rfl rfl)).bind fun _ _ _ _ => .pure True.intro
    · exact .throw

/-- The end of a negation, from the time on when its graph is known. -/
theorem enacted_negating (body : GraphId) :
    Enacted ((concept, none) :: awaiting) (do
      edit (·.setReferent concept { descriptor := some body })
      expect (.punct .rightBracket) .negationClosing
      let type ← negationType
      make (·.newRelation (some type) [concept] .relation)) reader (fun _ => awaiting)
      fun _ _ => True := by
  refine .along ⟨reader.withModel (reader.model.setReferent concept { descriptor := some body }),
    awaiting⟩ (bind_of_ok rfl) (.single (.refer rfl)) ?_
  exact .expect nofun fun _ _ _ => enacted_negationType.bind fun _ _ _ _ =>
    (Enacted.make (.of_eq rfl rfl rfl)).trivial

theorem enacted_negationBody {inside : Inside} (enacted : InsideEnacted inside) :
    Enacted awaiting (negationBody inside graph) reader (fun _ => awaiting) fun _ _ => True := by
  refine (Enacted.conceive none).bind fun concept _ _ made =>
    .bind (.annotate (fun _ => rfl) (fun _ => rfl) fun _ => rfl) fun _ hidden _ same => ?_
  have adrift : ¬ (hidden.model.concept concept).IsSettled := by
    rw [same, Reader.withModel_model, Model.isSettled_modifyConcept]
    · exact made.2
    · exact fun _ => rfl
    · exact fun _ => rfl
  refine (Enacted.edit (.addConcept adrift)).bind fun _ _ _ _ =>
    (enacted_descriptor enacted concept).bind fun body later _ _ => ?_
  split
  · exact .see rfl (enacted_negating _)
  · exact (Enacted.make (.of_eq rfl rfl rfl)).bind fun body _ _ _ => enacted_negating body

theorem enacted_negation (enacted : RoomEnacted room) :
    Enacted awaiting (negation setting room graph) reader (fun _ => awaiting)
      fun _ _ => True := by
  refine .see (rfl : peek reader = .ok _ reader)
    (.see (rfl : ahead 1 reader = .ok _ reader) ?_)
  split
  · next first second =>
    rw [Reader.token_ahead_succ] at second
    exact .descend fun inside entered => .advance first nofun <| .advance second nofun <|
      (enacted_negationBody (enacted inside entered)).bind fun _ _ _ _ => .pure True.intro
  · exact .see rfl .failAt
  · exact .pure True.intro

theorem enacted_relationInto {production : Read (Option RelationId)}
    (enacted : Enacted awaiting production reader (fun _ => awaiting) fun _ _ => True) :
    Enacted awaiting (relationInto graph production) reader (fun _ => awaiting)
      fun _ _ => True := by
  refine enacted.bind fun found _ _ _ => ?_
  split
  · exact (Enacted.edit (.of_eq rfl rfl rfl)).bind fun _ _ _ _ => .pure True.intro
  · exact .pure True.intro

theorem enacted_graphComment :
    Enacted awaiting (graphComment graph) reader (fun _ => awaiting) fun _ _ => True := by
  refine .see (rfl : peek reader = .ok _ reader) ?_
  split
  · next seen =>
    exact .advance seen nofun <| (Enacted.edit (.of_eq rfl rfl rfl)).bind fun _ _ _ _ =>
      .pure True.intro
  · exact .pure True.intro

/-- The alternatives are acts of the one that is taken. -/
theorem enacted_firstOf {productions : List (Read Bool)}
    (enacted : ∀ production ∈ productions, ∀ reader,
      Enacted awaiting production reader (fun _ => awaiting) fun _ _ => True) :
    Enacted awaiting (firstOf productions) reader (fun _ => awaiting) fun _ _ => True := by
  induction productions generalizing reader with
  | nil => exact .pure True.intro
  | cons production others ih =>
      exact (enacted _ List.mem_cons_self reader).bind fun _ _ _ _ =>
        .ite (fun _ => .pure True.intro) fun _ =>
          ih fun other member => enacted other (List.mem_cons_of_mem _ member)

theorem enacted_bracketItems (enacted : RoomEnacted room) (tokens : Nat) :
    Enacted awaiting (bracketItems setting room graph tokens) reader (fun _ => awaiting)
      fun _ _ => True := by
  have productions : ∀ production ∈ bracketProductions setting room graph, ∀ reader,
      Enacted awaiting production reader (fun _ => awaiting) fun _ _ => True := by
    simp only [bracketProductions, List.forall_mem_cons, List.not_mem_nil, false_implies,
      implies_true, and_true]
    exact ⟨fun _ => (enacted_concept enacted).bind fun _ _ _ _ => .pure True.intro,
      fun _ => (enacted_specialContext enacted).bind fun _ _ _ _ => .pure True.intro,
      fun _ => enacted_relationInto (enacted_negation enacted),
      fun _ => enacted_relationInto (enacted_relation enacted),
      fun _ => enacted_relationInto (enacted_actor enacted), fun _ => enacted_graphComment⟩
  induction tokens generalizing reader with
  | zero => exact .pure True.intro
  | succ tokens ih =>
      exact (enacted_firstOf productions).bind fun _ _ _ _ =>
        .ite (fun _ => ih) fun _ => .pure True.intro

/-! ## Statements of the linear form -/

/-- An arrow is no marker. -/
theorem plain_of_ofToken? {token : Token} {direction : Direction}
    (points : Direction.ofToken? token = some direction) (digits : Option String) :
    token ≠ .marker digits := by
  rintro rfl
  cases points

section Statements

variable (enacted : RoomEnacted room)

include enacted

theorem enacted_target :
    Enacted awaiting (target setting room graph) reader (fun _ => awaiting) fun _ _ => True := by
  refine (enacted_arc fun _ => enacted_concept enacted).bind fun found _ _ _ => ?_
  split
  · exact .pure True.intro
  · exact .fail

theorem enacted_relationNode :
    Enacted awaiting (relationNode setting room) reader (fun _ => awaiting)
      fun _ _ => True := by
  have begins : Enacted awaiting relationNodeAhead reader (fun _ => awaiting) fun begins later =>
      begins = true → (later.ahead 0).token = .punct .leftParen :=
    .see (rfl : peek reader = .ok _ reader) <| .look (looks_relationTypeAhead 1) fun _ =>
      .pure fun both => by
        simp only [Bool.and_eq_true, decide_eq_true_eq] at both
        exact both.1
  refine begins.bind fun _ later _ opens => .ite (fun here => ?_) fun _ => .fail
  exact .see (rfl : located 0 later = .ok _ later) <| .advance (opens here) nofun <|
    (enacted_relationType fun _ => enacted_lambda enacted).bind fun _ _ _ _ =>
      (enacted_nodeComment _).bind fun _ _ _ _ => .expect nofun fun _ _ _ => .pure True.intro

omit enacted in
theorem enacted_connect (node : RelationNode) (args : List ConceptId) :
    Enacted awaiting (connect graph node args) reader (fun _ => awaiting) fun _ _ => True :=
  (enacted_makeRelation _ _ _ _ _).bind fun _ _ _ _ =>
    (Enacted.edit (.of_eq rfl rfl rfl)).trivial

/-- Chains and fans, by the number of steps that are left. -/
theorem enacted_chains (steps : Nat) :
    (∀ reader head, Enacted awaiting (chainTail setting room graph steps head) reader
      (fun _ => awaiting) fun _ _ => True) ∧
    ∀ reader head first, Enacted awaiting (fan setting room graph steps head first) reader
      (fun _ => awaiting) fun _ _ => True := by
  induction steps with
  | zero => exact ⟨fun _ _ => .pure True.intro, fun _ _ _ => .pure True.intro⟩
  | succ steps ih =>
      obtain ⟨tails, fans⟩ := ih
      constructor
      · intro reader head
        refine .look looks_refuseNumberedArc fun _ =>
          .see (rfl : arrowAhead reader = .ok _ reader) ?_
        split
        · next into points =>
          refine .advance rfl (plain_of_ofToken? points) ?_
          refine (enacted_relationNode enacted).bind fun node later _ _ =>
            .look looks_refuseNumberedArc fun _ => .see (rfl : arrowAhead later = .ok _ later) ?_
          split
          · exact enacted_connect _ _
          · next out points =>
            refine .see (rfl : located 0 later = .ok _ later) <|
              .advance rfl (plain_of_ofToken? points) <| .ite (fun _ => .failAt) fun _ => ?_
            exact (enacted_target enacted).bind fun next _ _ _ =>
              (enacted_connect _ _).bind fun _ _ _ _ => tails _ next
        · exact .eat nofun fun _ _ _ _ => .ite (fun _ => fans _ _ _) fun _ => .pure True.intro
      · intro reader head begins
        refine .look looks_refuseNumberedArc fun _ => .look looks_relationNodeAhead fun _ =>
          .ite (fun _ => ?_) fun _ => .ite (fun _ => .fail) fun _ =>
            .eat nofun fun _ _ _ _ => .pure True.intro
        refine (enacted_relationNode enacted).bind fun node later _ _ =>
          .look looks_refuseNumberedArc fun _ => .see (rfl : arrowAhead later = .ok _ later) ?_
        split
        · next direction points =>
          exact .advance rfl (plain_of_ofToken? points) <| (enacted_target enacted).bind
            fun next _ _ _ => (enacted_connect _ _).bind fun _ _ _ _ =>
              (tails _ next).bind fun _ _ _ _ => fans _ _ _
        · exact (enacted_connect _ _).bind fun _ _ _ _ => fans _ _ _

theorem enacted_tail (head : ConceptId) :
    Enacted awaiting (tail setting room graph head) reader (fun _ => awaiting) fun _ _ => True :=
  .look .get fun _ => (enacted_chains enacted _).1 _ head

theorem enacted_chain :
    Enacted awaiting (chain setting room graph) reader (fun _ => awaiting) fun _ _ => True :=
  (enacted_target enacted).bind fun _ _ _ _ => enacted_tail enacted _

theorem enacted_relationChain :
    Enacted awaiting (relationChain setting room graph) reader (fun _ => awaiting)
      fun _ _ => True := by
  refine (enacted_relationNode enacted).bind fun node later _ _ =>
    .look looks_refuseNumberedArc fun _ => .see (rfl : arrowAhead later = .ok _ later) ?_
  split
  · exact enacted_connect _ _
  · next direction points =>
    exact .advance rfl (plain_of_ofToken? points) <| (enacted_target enacted).bind
      fun head _ _ _ => (enacted_connect _ _).bind fun _ _ _ _ => enacted_tail enacted _

omit enacted in
theorem enacted_statementEnd :
    Enacted awaiting statementEnd reader (fun _ => awaiting) fun _ _ => True := by
  refine .see (rfl : peek reader = .ok _ reader) ?_
  split
  · next seen => exact ⟨Enacted.past seen nofun, True.intro⟩
  · next seen => exact ⟨Enacted.past seen nofun, True.intro⟩
  · exact .pure True.intro
  · exact .pure True.intro
  · exact .fail

theorem enacted_statement :
    Enacted awaiting (statement setting room graph) reader (fun _ => awaiting)
      fun _ _ => True := by
  refine .look (.ahead 0) fun token => ?_
  split
  · exact (enacted_chain enacted).bind fun _ _ _ _ => .pure True.intro
  · exact (enacted_chain enacted).bind fun _ _ _ _ => .pure True.intro
  · exact enacted_relationInto (enacted_negation enacted)
  · exact .look looks_relationNodeAhead fun _ =>
      .ite (fun _ => (enacted_relationChain enacted).bind fun _ _ _ _ => .pure True.intro)
        fun _ => .pure True.intro
  · exact enacted_relationInto (enacted_actor enacted)
  · exact .pure True.intro

theorem enacted_statements (tokens : Nat) :
    Enacted awaiting (statements setting room graph tokens) reader (fun _ => awaiting)
      fun _ _ => True := by
  induction tokens generalizing reader with
  | zero => exact .pure True.intro
  | succ tokens ih =>
      exact enacted_graphComment.bind fun _ _ _ _ => .ite (fun _ => ih) fun _ =>
        (enacted_statement enacted).bind fun _ _ _ _ => .ite
          (fun _ => enacted_statementEnd.bind fun _ _ _ _ => ih) fun _ => .pure True.intro

end Statements

/-! ## Nesting -/

theorem enacted_items (enacted : RoomEnacted room) :
    Enacted awaiting (items setting room graph) reader (fun _ => awaiting) fun _ _ => True := by
  refine .look .get fun _ => ?_
  dsimp only
  split
  · exact enacted_bracketItems enacted _
  · exact enacted_statements enacted _

theorem roomEnacted (brackets : Nat) : RoomEnacted (roomFor setting brackets) := by
  induction brackets with
  | zero => exact nofun
  | succ brackets ih =>
      rintro inside ⟨⟩
      exact ⟨fun _ _ _ => enacted_concept ih, fun _ _ => enacted_lambda ih,
        fun _ _ _ => enacted_items ih⟩

/-- Where a text ends, none of its tokens are left. -/
theorem enacted_textEnd :
    Enacted awaiting (textEnd setting) reader (fun _ => awaiting) fun _ later =>
      (later.ahead 0).token = .endOfInput := by
  have ended : ∀ reader, Enacted awaiting (do
      if (← peek) ≠ .endOfInput then fail .unexpected) reader (fun _ => awaiting)
      fun _ later => (later.ahead 0).token = .endOfInput := fun reader =>
    .see (rfl : peek reader = .ok _ reader) <| .ite (fun _ => .fail) fun same =>
      .pure (not_not.mp same)
  refine .ite (fun _ => .see (rfl : peek reader = .ok _ reader) ?_) fun _ => ended _
  split
  · next seen => exact .advance seen nofun (ended _)
  · next seen => exact .advance seen nofun (ended _)
  · exact ended _

theorem enacted_graphInto (graph : GraphId) :
    Enacted awaiting (graphInto setting graph) reader (fun _ => awaiting) fun _ later =>
      (later.ahead 0).token = .endOfInput :=
  (enacted_items (roomEnacted _)).bind fun _ _ _ _ => enacted_textEnd

theorem enacted_single {what : Expected} {production : Read (Option α)}
    (enacted : Enacted awaiting production reader (fun _ => awaiting) fun _ _ => True) :
    Enacted awaiting (single setting what production) reader (fun _ => awaiting)
      fun _ later => (later.ahead 0).token = .endOfInput := by
  refine enacted.bind fun found _ _ _ => ?_
  split
  · exact enacted_textEnd.bind fun _ _ _ ended => .pure ended
  · exact .fail

end Read

/-! ## Texts -/

namespace Session

variable {α : Type} {production : Setting → Read α} {post : Reader → Prop}

/-- The reading of a text comes to acts if its production does.  Where it succeeds, no concept
awaits its referent in the end. -/
theorem exists_leads (session : Session) (model : Model) (form : Notation) (source : String)
    (enacted : ∀ setting reader, Read.Enacted [] (production setting) reader (fun _ => [])
      fun _ later => post later) :
    let reading := session.read model form source production
    ∃ (stop : Position) (moment : Moment),
      Moment.Leads ⟨session.opening model (Scan.ofText form source).tokens stop, []⟩ moment ∧
        moment.reader.model = reading.model ∧
        moment.reader.labels = reading.session.labels ∧
        moment.reader.markers = reading.session.markers ∧
        (reading.result.isOk = true → moment.awaiting = [] ∧ post moment.reader) := by
  intro reading
  unfold reading Session.read
  dsimp only
  split
  · exact ⟨{}, _, .refl, rfl, rfl, rfl, nofun⟩
  · next stop scanned =>
    have acts := enacted { form, options := session.options }
      (session.opening model (Scan.ofText form source).tokens stop)
    unfold opening at acts
    split
    · next value later ran =>
      obtain ⟨path, ended⟩ := acts.of_ok ran
      exact ⟨stop, _, path, rfl, rfl, rfl, fun _ => ⟨rfl, ended⟩⟩
    · next error later ran =>
      obtain ⟨left, path⟩ := acts.of_error ran
      exact ⟨stop, _, path, rfl, rfl, rfl, nofun⟩

end Session

end ConceptualGraph
