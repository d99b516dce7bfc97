/-
Module: ConceptualGraph.Proofs.Reading.Counted
Purpose: What is read while the open brackets are counted is what is read with the room that is
  left: every production that completes has taken off the count what it put on it.
Main exports: Read.admits_level, Read.admits_of_le, Read.simulates_items, Read.Balances,
  Read.balances_counted, Session.parseOutermostGraph_scoped
-/
import ConceptualGraph.Proofs.Reading.Simulated
import ConceptualGraph.Session

namespace ConceptualGraph

namespace Read

variable {α β : Type} {step step' : Read α} {setting : Setting} {depth : Nat}
  {room level : Option Inside} {inside inside' : Inside} {graph : GraphId}
  {home : Option GraphId}

/-! ## Productions -/

section Productions

variable (same : Matches depth inside inside')

theorem simulates_conceptType {lambda lambda' : Read Definition}
    (same : Simulates depth depth lambda lambda') :
    Simulates depth depth (conceptType setting lambda) (conceptType setting lambda') := by
  refine Simulates.peek.bind fun token => ?_
  split
  · exact (Simulates.located 0).bind fun _ => Simulates.advance.bind fun _ =>
      (simulates_conceptTypeNamed _ _).bind fun _ => .pure _
  · exact (simulates_lambdaAhead 0).bind fun _ => .ite ((Simulates.located 0).bind fun _ =>
      same.bind fun _ => .ite (.failAt _ _) ((Simulates.make _).bind fun _ => .pure _)) (.pure _)

theorem simulates_relationType {lambda lambda' : Read Definition}
    (same : Simulates depth depth lambda lambda') :
    Simulates depth depth (relationType setting lambda) (relationType setting lambda') := by
  refine Simulates.peek.bind fun token => ?_
  split
  · exact (Simulates.located 0).bind fun _ => Simulates.advance.bind fun _ =>
      simulates_relationTypeNamed _ _
  · exact same.bind fun _ => .make _

include same in
theorem simulates_definitionBody (declared : List Declared) :
    Simulates depth depth (definitionBody inside declared) (definitionBody inside' declared) :=
  Simulates.peek.bind fun _ => .ite
    ((Simulates.make _).bind fun _ => (same.items _).bind fun _ =>
      (simulates_linkParameters _ _).bind fun _ => .pure _)
    ((simulates_linkParameters _ _).bind fun _ => .pure _)

include same in
theorem simulates_descriptor (owner : ConceptId) :
    Simulates depth depth (descriptor inside owner) (descriptor inside' owner) :=
  Simulates.peek.bind fun _ => .ite
    ((Simulates.make _).bind fun _ => (Simulates.inContext (same.items _)).bind fun _ => .pure _)
    (.pure _)

include same in
/-- What follows the type of a concept is read alike. -/
theorem simulates_conceptRest (concept : ConceptId) :
    Simulates depth depth
      (do
        let _ ← eat (.punct .colon)
        conceptLabels concept
        referent inside concept
        if let some comment ← nodeComment .concept then
          edit (·.modifyConcept concept fun data => { data with comment := some comment })
        expect (.punct .rightBracket) .conceptClosing
        return concept)
      (do
        let _ ← eat (.punct .colon)
        conceptLabels concept
        referent inside' concept
        if let some comment ← nodeComment .concept then
          edit (·.modifyConcept concept fun data => { data with comment := some comment })
        expect (.punct .rightBracket) .conceptClosing
        return concept) := by
  have referent : Simulates depth depth (referent inside concept) (referent inside' concept) :=
    simulates_quantifier.bind fun _ => simulates_designator.bind fun _ =>
      (simulates_descriptor same concept).bind fun _ => .ite (.pure _) (.edit _)
  refine (Simulates.eat _).bind fun _ => (simulates_conceptLabels _).bind fun _ =>
    referent.bind fun _ => (simulates_nodeComment _).bind fun comment => ?_
  split
  · exact (Simulates.edit _).bind fun _ => (Simulates.expect _ _).bind fun _ => .pure _
  · exact (Simulates.expect _ _).bind fun _ => .pure _

include same in
/-- In the body of a concept the counted reading does what the scoped one does, and the count is as
it was. -/
theorem simulates_conceptBody :
    Simulates depth depth (conceptBody setting inside home) (conceptBody setting inside' home) := by
  refine (simulates_conceptType same.lambda).bind fun type => (Simulates.make _).bind
    fun concept => ?_
  split
  · exact (Simulates.edit _).bind fun _ => simulates_conceptRest same concept
  · exact simulates_conceptRest same concept

include same in
theorem simulates_contextBody (label : ContextLabel) :
    Simulates depth depth (contextBody inside graph label) (contextBody inside' graph label) := by
  refine (Simulates.eat _).bind fun _ => (Simulates.make _).bind fun concept =>
    (Simulates.edit _).bind fun _ => (Simulates.edit _).bind fun _ =>
      (simulates_descriptor same concept).bind fun body => ?_
  split
  · exact (Simulates.edit _).bind fun _ => (Simulates.expect _ _).bind fun _ => .pure _
  · exact (Simulates.expect _ _).bind fun _ => .pure _

include same in
theorem simulates_negationBody :
    Simulates depth depth (negationBody inside graph) (negationBody inside' graph) := by
  refine (Simulates.make _).bind fun concept => (Simulates.edit _).bind fun _ =>
    (Simulates.edit _).bind fun _ => (simulates_descriptor same concept).bind fun body => ?_
  have rest (body : GraphId) : Simulates depth depth
      (do
        edit (·.setReferent concept { descriptor := some body })
        expect (.punct .rightBracket) .negationClosing
        let type ← negationType
        make (·.newRelation (some type) [concept] .relation))
      (do
        edit (·.setReferent concept { descriptor := some body })
        expect (.punct .rightBracket) .negationClosing
        let type ← negationType
        make (·.newRelation (some type) [concept] .relation)) :=
    (Simulates.edit _).bind fun _ => (Simulates.expect _ _).bind fun _ =>
      simulates_negationType.bind fun _ => .make _
  split
  · exact rest _
  · exact (Simulates.make _).bind rest

theorem simulates_arc {concept concept' : Option GraphId → Read (Option ConceptId)}
    (same : ∀ graph, Simulates depth depth (concept graph) (concept' graph)) :
    Simulates depth depth (arc concept home) (arc concept' home) := by
  refine Simulates.peek.bind fun token => ?_
  split
  · exact (Simulates.located 0).bind fun _ => Simulates.advance.bind fun _ =>
      (simulates_resolve _ _ _).bind fun _ => .pure _
  · exact same _
  · exact .pure _

/-- Arguments are read alike one after the other, and the count is as it was after each. -/
theorem simulates_arcs {concept concept' : Option GraphId → Read (Option ConceptId)}
    (same : ∀ graph, Simulates depth depth (concept graph) (concept' graph)) (tokens : Nat) :
    Simulates depth depth (arcs concept home tokens) (arcs concept' home tokens) := by
  induction tokens with
  | zero => exact .pure _
  | succ tokens ih =>
      refine (simulates_arc same).bind fun argument => ?_
      split
      · exact ih.bind fun _ => .pure _
      · exact .pure _

include same in
theorem simulates_actorBody (found : Located) :
    Simulates depth depth (actorBody setting inside found home)
      (actorBody setting inside' found home) := by
  have rest : Simulates depth depth
      (do
        let type ← relationType setting inside.lambda
        let inputs ← arcs inside.concept home (← get).rest.length
        expect (.punct .bar) .actorBar
        let outputs ← arcs inside.concept home (← get).rest.length
        let comment ← nodeComment .actor
        expect (.punct .rightAngle) .actorClosing
        makeRelation found type (inputs ++ outputs) (.actor inputs.length) comment)
      (do
        let type ← relationType setting inside'.lambda
        let inputs ← arcs inside'.concept home (← get).rest.length
        expect (.punct .bar) .actorBar
        let outputs ← arcs inside'.concept home (← get).rest.length
        let comment ← nodeComment .actor
        expect (.punct .rightAngle) .actorClosing
        makeRelation found type (inputs ++ outputs) (.actor inputs.length) comment) :=
    (simulates_relationType same.lambda).bind fun _ => .get fun _ =>
      (simulates_arcs same.concept _).bind fun _ => (Simulates.expect _ _).bind fun _ =>
        .get fun _ => (simulates_arcs same.concept _).bind fun _ =>
          (simulates_nodeComment _).bind fun _ => (Simulates.expect _ _).bind fun _ =>
            simulates_makeRelation _ _ _ _ _
  refine (simulates_relationTypeAhead 0).bind fun begins => ?_
  exact .ite (rest) ((Simulates.fail _).bind fun _ => rest)

end Productions

/-! ## Productions that open a bracket -/

section Brackets

variable (admits : Admits setting depth room level)
include admits

theorem simulates_lambda :
    Simulates depth depth (lambda setting room) (lambda setting (.counted level)) :=
  .descend admits fun _ _ same => (Simulates.expect _ _).bind fun _ =>
    (Simulates.expect _ _).bind fun _ => (Simulates.expect _ _).bind fun _ => .get fun _ =>
      (simulates_parameters _).bind fun _ => (Simulates.expect _ _).bind fun _ =>
        (Simulates.inContext (simulates_definitionBody same _)).bind fun _ =>
          .closing (.expect _ _)

/-- The bracket of a concept is counted on the one side and scoped on the other. -/
theorem simulates_concept (home : Option GraphId) :
    Simulates depth depth (concept setting room home) (concept setting (.counted level) home) := by
  refine Simulates.peek.bind fun token => (Simulates.ahead 1).bind fun second => ?_
  split
  · exact .pure _
  · exact (Simulates.located 1).bind fun _ => .failAt _ _
  · exact (Simulates.located 1).bind fun _ => .failAt _ _
  · exact .descend admits fun _ _ same => Simulates.advance.bind fun _ =>
      .closing (simulates_conceptBody same)
  · exact .pure _

theorem simulates_specialContext (graph : GraphId) :
    Simulates depth depth (specialContext setting room graph)
      (specialContext setting (.counted level) graph) := by
  refine Simulates.peek.bind fun token => (Simulates.ahead 1).bind fun second => ?_
  split
  · exact (Simulates.located 1).bind fun _ => .failAt _ _
  · exact .descend admits fun _ _ same => Simulates.advance.bind fun _ =>
      Simulates.advance.bind fun _ => .closing (simulates_contextBody same _)
  · exact .pure _

theorem simulates_negation (graph : GraphId) :
    Simulates depth depth (negation setting room graph)
      (negation setting (.counted level) graph) := by
  refine Simulates.peek.bind fun token => (Simulates.ahead 1).bind fun second => ?_
  split
  · exact .descend admits fun _ _ same => Simulates.advance.bind fun _ =>
      Simulates.advance.bind fun _ => .closing (simulates_negationBody same)
  · exact (Simulates.located 1).bind fun _ => .failAt _ _
  · exact .pure _

/-- The bracket of a relation is counted on the one side and scoped on the other. -/
theorem simulates_relation (home : Option GraphId) :
    Simulates depth depth (relation setting room home)
      (relation setting (.counted level) home) :=
  Simulates.peek.bind fun _ => (simulates_relationTypeAhead 1).bind fun _ => .ite
    (.descend admits fun _ _ same => (Simulates.located 0).bind fun _ =>
      Simulates.advance.bind fun _ => (simulates_relationType same.lambda).bind fun _ =>
        .get fun _ => (simulates_arcs same.concept _).bind fun _ =>
          (simulates_nodeComment _).bind fun _ => (Simulates.expect _ _).bind fun _ =>
            .closing (simulates_makeRelation _ _ _ _ _))
    (.pure _)

theorem simulates_actor (home : Option GraphId) :
    Simulates depth depth (actor setting room home) (actor setting (.counted level) home) :=
  Simulates.peek.bind fun _ => .ite
    (.descend admits fun _ _ same => (Simulates.located 0).bind fun _ =>
      Simulates.advance.bind fun _ => .closing (simulates_actorBody same _))
    (.pure _)

end Brackets

/-! ## Chains -/

section Chains

variable (admits : Admits setting depth room level)
include admits

theorem simulates_target :
    Simulates depth depth (target setting room graph) (target setting (.counted level) graph) := by
  refine (simulates_arc (simulates_concept admits)).bind fun found => ?_
  split
  · exact .pure _
  · exact .fail _

theorem simulates_relationNode :
    Simulates depth depth (relationNode setting room) (relationNode setting (.counted level)) :=
  simulates_relationNodeAhead.bind fun _ => .ite
    ((Simulates.located 0).bind fun _ => Simulates.advance.bind fun _ =>
      (simulates_relationType (simulates_lambda admits)).bind fun _ =>
        (simulates_nodeComment _).bind fun _ => (Simulates.expect _ _).bind fun _ => .pure _)
    (.fail _)

omit admits in
theorem simulates_connect (graph : GraphId) (node : RelationNode) (args : List ConceptId) :
    Simulates depth depth (connect graph node args) (connect graph node args) :=
  (simulates_makeRelation _ _ _ _ _).bind fun _ => .edit _

omit admits in
theorem simulates_arrowAhead : Simulates depth depth arrowAhead arrowAhead :=
  Simulates.peek.bind fun _ => .pure _

/-- Chains and the fans in them are simulated together, since each goes on with the other. -/
theorem simulates_chains (graph : GraphId) (steps : Nat) :
    (∀ head, Simulates depth depth (chainTail setting room graph steps head)
      (chainTail setting (.counted level) graph steps head)) ∧
    ∀ head first, Simulates depth depth (fan setting room graph steps head first)
      (fan setting (.counted level) graph steps head first) := by
  -- The fuel is that of chains and fans together, since either may go on with the other.
  induction steps with
  | zero =>
      constructor
      · intro head
        unfold chainTail
        exact .pure _
      · intro head first
        unfold fan
        exact .pure _
  | succ steps ih =>
      obtain ⟨tails, fans⟩ := ih
      constructor
      · intro head
        unfold chainTail
        refine simulates_refuseNumberedArc.bind fun _ => simulates_arrowAhead.bind fun into => ?_
        split
        · refine Simulates.advance.bind fun _ => (simulates_relationNode admits).bind fun node =>
            simulates_refuseNumberedArc.bind fun _ => simulates_arrowAhead.bind fun out => ?_
          split
          · exact simulates_connect _ _ _
          · have goesOn (into : Direction) : Simulates depth depth
                (do
                  let next ← target setting room graph
                  connect graph node (into.order head next)
                  chainTail setting room graph steps next)
                (do
                  let next ← target setting (.counted level) graph
                  connect graph node (into.order head next)
                  chainTail setting (.counted level) graph steps next) :=
              (simulates_target admits).bind fun next =>
                (simulates_connect _ _ _).bind fun _ => tails next
            exact (Simulates.located 0).bind fun _ => Simulates.advance.bind fun _ =>
              .ite ((Simulates.failAt _ _).bind fun _ => goesOn _) (goesOn _)
        · exact (Simulates.eat _).bind fun _ => .ite (fans _ _) (.pure _)
      · intro head first
        unfold fan
        refine simulates_refuseNumberedArc.bind fun _ => simulates_relationNodeAhead.bind fun _ =>
          .ite ((simulates_relationNode admits).bind fun node =>
            simulates_refuseNumberedArc.bind fun _ => simulates_arrowAhead.bind fun arrow => ?_)
          (.ite (.fail _) ((Simulates.eat _).bind fun _ => .pure _))
        split
        · exact Simulates.advance.bind fun _ => (simulates_target admits).bind fun next =>
            (simulates_connect _ _ _).bind fun _ => (tails next).bind fun _ => fans _ _
        · exact (simulates_connect _ _ _).bind fun _ => fans _ _

theorem simulates_tail (graph : GraphId) (head : ConceptId) :
    Simulates depth depth (tail setting room graph head)
      (tail setting (.counted level) graph head) :=
  .get fun _ => (simulates_chains admits graph _).1 head

theorem simulates_chain (graph : GraphId) :
    Simulates depth depth (chain setting room graph) (chain setting (.counted level) graph) :=
  (simulates_target admits).bind fun _ => simulates_tail admits _ _

/-- A chain that begins with a relation is read alike, and the count is as it was. -/
theorem simulates_relationChain (graph : GraphId) :
    Simulates depth depth (relationChain setting room graph)
      (relationChain setting (.counted level) graph) := by
  refine (simulates_relationNode admits).bind fun node => simulates_refuseNumberedArc.bind
    fun _ => simulates_arrowAhead.bind fun arrow => ?_
  split
  · exact simulates_connect _ _ _
  · exact Simulates.advance.bind fun _ => (simulates_target admits).bind fun _ =>
      (simulates_connect _ _ _).bind fun _ => simulates_tail admits _ _

end Chains

/-! ## Items -/

theorem simulates_relationInto {production production' : Read (Option RelationId)}
    (same : Simulates depth depth production production') :
    Simulates depth depth (relationInto graph production) (relationInto graph production') := by
  refine same.bind fun found => ?_
  split
  · exact (Simulates.edit _).bind fun _ => .pure _
  · exact .pure _

theorem simulates_firstOf {productions productions' : List (Read Bool)}
    (same : List.Forall₂ (Simulates depth depth) productions productions') :
    Simulates depth depth (firstOf productions) (firstOf productions') := by
  induction same with
  | nil => exact .pure _
  | cons first _ ih => exact first.bind fun _ => .ite (.pure _) ih

section Items

variable (admits : Admits setting depth room level)
include admits

/-- Statement by statement the count is as it was. -/
theorem simulates_statements (graph : GraphId) (tokens : Nat) :
    Simulates depth depth (statements setting room graph tokens)
      (statements setting (.counted level) graph tokens) := by
  have statement : Simulates depth depth (statement setting room graph)
      (statement setting (.counted level) graph) := by
    refine Simulates.peek.bind fun token => ?_
    split
    · exact (simulates_chain admits _).bind fun _ => .pure _
    · exact (simulates_chain admits _).bind fun _ => .pure _
    · exact simulates_relationInto (simulates_negation admits _)
    · exact simulates_relationNodeAhead.bind fun _ =>
        .ite ((simulates_relationChain admits _).bind fun _ => .pure _) (.pure _)
    · exact simulates_relationInto (simulates_actor admits _)
    · exact .pure _
  induction tokens with
  | zero => exact .pure _
  | succ tokens ih =>
      exact (simulates_graphComment _).bind fun _ => .ite ih (statement.bind fun _ =>
        .ite (simulates_statementEnd.bind fun _ => ih) (.pure _))

theorem simulates_bracketItems (graph : GraphId) (tokens : Nat) :
    Simulates depth depth (bracketItems setting room graph tokens)
      (bracketItems setting (.counted level) graph tokens) := by
  have productions : List.Forall₂ (Simulates depth depth) (bracketProductions setting room graph)
      (bracketProductions setting (.counted level) graph) :=
    .cons ((simulates_concept admits _).bind fun _ => .pure _) <|
    .cons ((simulates_specialContext admits _).bind fun _ => .pure _) <|
    .cons (simulates_relationInto (simulates_negation admits _)) <|
    .cons (simulates_relationInto (simulates_relation admits _)) <|
    .cons (simulates_relationInto (simulates_actor admits _)) <|
    .cons (simulates_graphComment _) .nil
  induction tokens with
  | zero => exact .pure _
  | succ tokens ih => exact (simulates_firstOf productions).bind fun _ => .ite ih (.pure _)

theorem simulates_items (graph : GraphId) :
    Simulates depth depth (items setting room graph) (items setting (.counted level) graph) := by
  refine .get fun reader => ?_
  dsimp only
  split
  · exact simulates_bracketItems admits _ _
  · exact simulates_statements admits _ _

end Items

/-! ## Any number of levels -/

/-- What is read inside a bracket is the same if the next bracket may be opened in both readings or
in none. -/
theorem Admits.matches (admits : Admits setting depth room level) :
    Matches depth
      { concept := fun graph reader => concept setting room graph reader
        lambda := fun reader => lambda setting room reader
        items := fun graph reader => items setting room graph reader }
      { concept := fun graph reader => concept setting (.counted level) graph reader
        lambda := fun reader => lambda setting (.counted level) reader
        items := fun graph reader => items setting (.counted level) graph reader } :=
  ⟨simulates_concept admits, simulates_lambda admits, simulates_items admits⟩

/-- With `depth` brackets open, as many more are read as the limit and the levels allow. -/
theorem admits_level (setting : Setting) (levels depth : Nat) :
    Admits setting depth (roomFor setting (min levels (setting.options.maxDepth - depth)))
      (Read.level setting .counted levels) := by
  induction levels generalizing depth with
  | zero =>
      rw [Nat.zero_min]
      exact .inr rfl
  | succ levels ih =>
      rcases Nat.lt_or_ge depth setting.options.maxDepth with allowed | full
      · have inner : min (levels + 1) (setting.options.maxDepth - depth) =
            min levels (setting.options.maxDepth - (depth + 1)) + 1 := by omega
        rw [inner, roomFor_succ]
        exact ⟨allowed, _, rfl, (ih (depth + 1)).matches⟩
      · rw [Nat.sub_eq_zero_of_le full, Nat.min_zero]
        exact .inl full

/-- The levels never decide: as long as they are not fewer than the brackets that may still be
opened, there is room for just those. -/
theorem admits_of_le {levels : Nat} (setting : Setting) (depth : Nat)
    (enough : setting.options.maxDepth ≤ levels + depth) :
    Admits setting depth (roomFor setting (setting.options.maxDepth - depth))
      (Read.level setting .counted levels) := by
  have admits := admits_level setting levels depth
  rwa [Nat.min_eq_right (by omega)] at admits

/-- The brackets of a text are counted up to the limit. -/
theorem admits_counted (setting : Setting) : Admits setting 0 (Read.room setting)
    (Read.level setting .counted setting.options.maxDepth) :=
  admits_of_le setting 0 (Nat.le_refl _)

/-! ## Whole texts -/

theorem simulates_graphInto (graph : GraphId) :
    Simulates 0 0 (graphInto setting graph) (graphText setting (counted setting) graph) :=
  (simulates_items (admits_counted setting) graph).bind fun _ => simulates_textEnd

theorem simulates_single {what : Expected} {production production' : Read (Option α)}
    (same : Simulates 0 0 production production') :
    Simulates 0 0 (single setting what production) (single setting what production') := by
  refine same.bind fun found => ?_
  split
  · exact simulates_textEnd.bind fun _ => .pure _
  · exact .fail _

/-! ## Brackets that are closed -/

/-- A step that succeeds leaves as many brackets open as it has found. -/
def Balanced (step : Read α) : Prop :=
  ∀ reader, Ensures step reader fun _ later => later.depth = reader.depth

/-- What a production with room does, whatever the count, it does not do to the count. -/
theorem Simulates.balanced (same : ∀ depth, ∃ step, Simulates depth depth step step') :
    Balanced step' := by
  intro reader
  obtain ⟨step, simulates⟩ := same reader.depth
  refine .intro fun value later ran => ?_
  cases went : step reader with
  | ok value' later' =>
      cases ran.symm.trans (simulates.of_ok went)
      rfl
  | error error later' =>
      obtain ⟨last, failed⟩ := simulates.of_error went
      cases ran.symm.trans failed

/-- Every production that opens brackets takes them off the count again: one that declines has put
none on it, and one that completes has closed all that it has opened. -/
structure Balances (setting : Setting) (room : Room) : Prop where
  lambda : Balanced (lambda setting room)
  concept (home : Option GraphId) : Balanced (concept setting room home)
  context (graph : GraphId) : Balanced (specialContext setting room graph)
  negation (graph : GraphId) : Balanced (negation setting room graph)
  relation (home : Option GraphId) : Balanced (relation setting room home)
  actor (home : Option GraphId) : Balanced (actor setting room home)
  items (graph : GraphId) : Balanced (items setting room graph)

/-- Every production leaves the count as it found it, where it succeeds. -/
theorem balances_counted (setting : Setting) (levels : Nat) :
    Balances setting (.counted (Read.level setting .counted levels)) where
  lambda := Simulates.balanced fun _ => ⟨_, simulates_lambda (admits_level setting levels _)⟩
  concept home :=
    Simulates.balanced fun _ => ⟨_, simulates_concept (admits_level setting levels _) home⟩
  context graph :=
    Simulates.balanced fun _ => ⟨_, simulates_specialContext (admits_level setting levels _) graph⟩
  negation graph :=
    Simulates.balanced fun _ => ⟨_, simulates_negation (admits_level setting levels _) graph⟩
  relation home :=
    Simulates.balanced fun _ => ⟨_, simulates_relation (admits_level setting levels _) home⟩
  actor home :=
    Simulates.balanced fun _ => ⟨_, simulates_actor (admits_level setting levels _) home⟩
  items graph :=
    Simulates.balanced fun _ => ⟨_, simulates_items (admits_level setting levels _) graph⟩

end Read

/-! ## Sessions -/

namespace Session

variable (session : Session) (model : Model) (form : Notation) (source : String)

/-- What is read with a count is what is read with room. -/
theorem read_of_simulates {α : Type} {production production' : Setting → Read α}
    (same : ∀ setting, Read.Simulates 0 0 (production setting) (production' setting)) :
    session.read model form source production' = session.read model form source production := by
  unfold read
  dsimp only
  split
  · rfl
  · next stop _ =>
    let reader : Reader :=
      { rest := (Scan.ofText form source).tokens, stop, model, labels := session.labels,
        markers := session.markers }
    cases ran : production ⟨form, session.options⟩ reader with
    | ok value later =>
        have counts : production' ⟨form, session.options⟩ reader = .ok value (later.atDepth 0) :=
          (same _).of_ok ran
        rw [counts]
        rfl
    | error error later =>
        obtain ⟨last, failed⟩ := (same _).of_error ran
        have counts : production' ⟨form, session.options⟩ reader =
            .error error (later.atDepth last) := failed
        rw [counts]
        rfl

/-- The counted reading of a text of its own is the scoped one. -/
theorem parseOutermostGraph_scoped :
    session.parseOutermostGraph model form source =
      session.read (model.newGraph none).2 form source fun setting => do
        Read.graphInto setting (model.newGraph none).1
        return (model.newGraph none).1 := by
  unfold parseOutermostGraph
  exact session.read_of_simulates _ form source fun _ =>
    (Read.simulates_graphInto _).bind fun _ => .pure _

/-- A concept of its own is read with the room that is left. -/
theorem parseConcept_scoped (graph : Option GraphId) :
    session.parseConcept model form graph source =
      session.read model form source (Read.singleConcept · graph) :=
  session.read_of_simulates _ form source fun setting =>
    Read.simulates_single (Read.simulates_concept (Read.admits_counted setting) graph)

/-- A relation of its own is read with the room that is left. -/
theorem parseRelation_scoped (graph : Option GraphId) :
    session.parseRelation model form graph source =
      (session.read model form source (Read.singleRelation · graph)).into graph :=
  congrArg (Reading.into · graph) <| session.read_of_simulates _ form source fun setting =>
    Read.simulates_single (Read.simulates_relation (Read.admits_counted setting) graph)

/-- An actor of its own is read with the room that is left. -/
theorem parseActor_scoped (graph : Option GraphId) :
    session.parseActor model form graph source =
      (session.read model form source (Read.singleActor · graph)).into graph :=
  congrArg (Reading.into · graph) <| session.read_of_simulates _ form source fun setting =>
    Read.simulates_single (Read.simulates_actor (Read.admits_counted setting) graph)

end Session

end ConceptualGraph
