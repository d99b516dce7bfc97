/-
Module: ConceptualGraph.Proofs.Copy.Chain
Purpose: Chains and fans of the linear form are read back as they are written: a chain as long
  as links follow, and a fan as far as the comma or the full stop after its last branch.
Main exports: ReadsTail, ReadsFan, Read.fan_achieves, ReadsTail.link, ReadsTail.fan
-/
import ConceptualGraph.Proofs.Copy.Bracket
import ConceptualGraph.Writing.Chain

namespace ConceptualGraph

open Phrase (mark ofToken space)

/-! ## Stages of reading -/

/-- Whether a graph around which others are open is being read into a place, and there is room
for the brackets of all tokens that follow. -/
structure Stage (model : Model) (graph : GraphId) (outer : List GraphId) (unfinished : Unfinished)
    (writer : Writer) (reader : Reader) (place : GraphId) (brackets : Nat) : Prop where
  tracks : Tracks model unfinished writer reader
  within : unfinished.graphs = graph :: outer
  ready : unfinished.waiting = []
  there : (writer.ledger model).Graph graph place
  fits : reader.tokens.length ≤ brackets

namespace Stage

variable {model : Model} {graph place : GraphId} {outer : List GraphId} {unfinished : Unfinished}
  {writer after : Writer} {reader later : Reader} {brackets : Nat} {relation : RelationId}
  {rest : List Token}

/-- One token is passed over. -/
theorem next (stage : Stage model graph outer unfinished writer reader place brackets) :
    Stage model graph outer unfinished writer reader.next place brackets where
  tracks := stage.tracks.past (.next reader)
  within := stage.within
  ready := stage.ready
  there := stage.there
  fits := by
    have fits := stage.fits
    rw [Reader.next_tokens, List.length_tail]
    omega

/-- After one of the parts of a graph the next one is read from where the writer has come to. -/
theorem proceed (stage : Stage model graph outer unfinished writer reader place brackets)
    (proceeds : writer.Proceeds model after)
    (reads : Reads model unfinished after reader rest later)
    (shorter : rest.length ≤ reader.tokens.length) :
    Stage model graph outer unfinished after later place brackets where
  tracks := reads.tracks
  within := stage.within
  ready := stage.ready
  there := stage.there.mono ((proceeds stage.tracks.counted).1.continues model)
  fits := by
    rw [reads.tokens]
    exact Nat.le_trans shorter stage.fits

/-- A relation is begun. -/
theorem begin (stage : Stage model graph outer unfinished writer reader place brackets)
    (stands : (model.relation relation).graph = some graph) :
    Stage model graph outer { unfinished with pending := relation :: unfinished.pending }
      (writer.begin relation) reader place brackets where
  tracks := stage.tracks.begun stage.within stands
  within := stage.within
  ready := stage.ready
  there := stage.there.mono
    (((Writer.Proceeds.begin writer relation) stage.tracks.counted).1.continues model)
  fits := stage.fits

end Stage

/-! ## What chains are made of -/

/-- Whether a chain ends before tokens: with its statement, or inside a fan with its branch. -/
inductive EndsChain : (inFan : Bool) → List Token → Prop where
  | statement (inFan : Bool) (others : List Token) : EndsChain inFan (.punct .dot :: others)
  | branch (others : List Token) : EndsChain true (.punct .leftParen :: others)
  | fan (others : List Token) : EndsChain true (.punct .comma :: others)

/-- A chain ends before a mark that is neither an arrow nor a hyphen. -/
theorem EndsChain.exists_mark {inFan : Bool} {rest : List Token} (ends : EndsChain inFan rest) :
    ∃ mark others, rest = .punct mark :: others ∧ mark ≠ .hyphen ∧ mark ≠ .leftArrow ∧
      mark ≠ .rightArrow := by
  cases ends with
  | statement _ others => exact ⟨.dot, others, rfl, by decide, by decide, by decide⟩
  | branch others => exact ⟨.leftParen, others, rfl, by decide, by decide, by decide⟩
  | fan others => exact ⟨.comma, others, rfl, by decide, by decide, by decide⟩

/-- The token that closes a fan inside another one. -/
def closingTokens (inFan : Bool) : List Token := if inFan then [.punct .comma] else []

section Parts

variable (model : Model) (setting : Setting) (graph : GraphId) (outer : List GraphId)

/-- Whether tokens are those that follow a concept in a chain, and are read back as the relations
that are written when a state of writing is left for another one. -/
structure ReadsTail (inFan : Bool) (writer after : Writer) (head : ConceptId)
    (tokens : List Token) : Prop where
  proceeds : writer.Proceeds model after
  reads : ∀ {unfinished reader place brackets rest copy steps},
    Stage model graph outer unfinished writer reader place brackets → unfinished.Idle model graph →
    (writer.ledger model).Cites model head copy → reader.tokens = tokens ++ rest →
    EndsChain inFan rest → tokens.length < steps →
      Achieves (Read.chainTail setting (Read.roomFor setting brackets) place steps copy) reader
        fun _ later => Reads model unfinished after reader rest later

/-- Whether tokens are those of the target of a link: an argument, and what follows it. -/
inductive ReadsTarget (inFan : Bool) (writer after : Writer) (concept : ConceptId) :
    List Token → Prop where
  | intro {middle : Writer} {front back : List Token}
      (arg : ReadsArg model .linear setting graph outer writer middle concept front)
      (tail : ReadsTail model setting graph outer inFan middle after concept back) :
      ReadsTarget inFan writer after concept (front ++ back)

/-- Whether tokens are those that follow a relation in a chain, where the first of its arguments
stands before it. -/
inductive ReadsLater (inFan : Bool) : Writer → Writer → List ConceptId → List Token → Prop where
  | alone (writer : Writer) (head : ConceptId) : ReadsLater inFan writer writer [head] []
  | target {writer after : Writer} {head concept : ConceptId} {tokens : List Token}
      (target : ReadsTarget model setting graph outer inFan writer after concept tokens) :
      ReadsLater inFan writer after [head, concept] (.punct .rightArrow :: tokens)

/-- Whether tokens are those of a relation of a chain with what follows it. -/
inductive ReadsBranch (inFan : Bool) (writer after : Writer) (head : ConceptId) :
    List Token → Prop where
  | intro {relation : RelationId} {type : RelationType} {label : String} {back : List Token}
      (links : model.Links .linear graph relation type label)
      (passive : (model.relation relation).role = .relation)
      (begins : (model.relation relation).args.head? = some head)
      (later : ReadsLater model setting graph outer inFan (writer.begin relation) after
        (model.relation relation).args back) :
      ReadsBranch inFan writer after head (.punct .leftParen :: .ident label ::
        ((Write.comment .relation (model.relation relation).comment).reread .linear ++
          .punct .rightParen :: back))

/-- Whether tokens are those of the branches of a fan. -/
inductive ReadsFan : Writer → Writer → ConceptId → List Token → Prop where
  | nil (writer : Writer) (head : ConceptId) : ReadsFan writer writer head []
  | cons {writer middle after : Writer} {head : ConceptId} {front back : List Token}
      (first : ReadsBranch model setting graph outer true writer middle head front)
      (others : ReadsFan middle after head back) : ReadsFan writer after head (front ++ back)

end Parts

section Proceeding

variable {model : Model} {setting : Setting} {graph : GraphId} {outer : List GraphId}
  {inFan : Bool} {writer after : Writer} {head concept : ConceptId} {args : List ConceptId}
  {tokens : List Token}

theorem ReadsTarget.proceeds
    (reads : ReadsTarget model setting graph outer inFan writer after concept tokens) :
    writer.Proceeds model after := by
  obtain ⟨arg, tail⟩ := reads
  exact arg.proceeds.trans tail.proceeds

theorem ReadsLater.proceeds
    (reads : ReadsLater model setting graph outer inFan writer after args tokens) :
    writer.Proceeds model after := by
  cases reads with
  | alone => exact .refl writer
  | target reads => exact reads.proceeds

theorem ReadsBranch.proceeds
    (reads : ReadsBranch model setting graph outer inFan writer after head tokens) :
    writer.Proceeds model after := by
  obtain ⟨links, passive, begins, later⟩ := reads
  exact (Writer.Proceeds.begin _ _).trans later.proceeds

/-- A relation of a chain begins with a parenthesis and the label of its type. -/
theorem ReadsBranch.exists_label
    (reads : ReadsBranch model setting graph outer inFan writer after head tokens) :
    ∃ label others, tokens = .punct .leftParen :: .ident label :: others := by
  cases reads
  exact ⟨_, _, rfl⟩

theorem ReadsBranch.length_pos
    (reads : ReadsBranch model setting graph outer inFan writer after head tokens) :
    0 < tokens.length := by
  obtain ⟨label, others, rfl⟩ := reads.exists_label
  exact Nat.succ_pos _

theorem ReadsFan.proceeds (reads : ReadsFan model setting graph outer writer after head tokens) :
    writer.Proceeds model after := by
  induction reads with
  | nil writer => exact .refl writer
  | cons first others ih => exact first.proceeds.trans ih

/-- The branches of a fan begin with a parenthesis. -/
theorem ReadsFan.exists_paren
    (reads : ReadsFan model setting graph outer writer after head tokens) (some : tokens ≠ []) :
    ∃ others, tokens = .punct .leftParen :: others := by
  cases reads with
  | nil => exact absurd rfl some
  | cons first others =>
      obtain ⟨label, rest, rfl⟩ := first.exists_label
      exact ⟨_, rfl⟩

end Proceeding

namespace Read

variable {model : Model} {setting : Setting} {graph place : GraphId} {outer : List GraphId}
  {unfinished : Unfinished} {writer after : Writer} {reader : Reader} {brackets : Nat}
  {relation : RelationId} {type : RelationType} {label : String} {rest tokens : List Token}
  {inFan : Bool} {first : Token}

/-! ## Arrows and nodes -/

@[simp] theorem achieves_arrowAhead {post : Option Direction → Reader → Prop} :
    Achieves arrowAhead reader post ↔
      post (Direction.ofToken? (reader.ahead 0).token) reader := Iff.rfl

/-- A token with which no arrow begins that has a number. -/
theorem isNumberedArc_eq_false (hyphen : first ≠ .punct .hyphen)
    (arrow : first ≠ .punct .leftArrow) (second third : Token) :
    isNumberedArc first second third = false := by
  unfold isNumberedArc
  split <;> simp_all

/-- A numbered arc is refused only where one is ahead. -/
theorem refuseNumberedArc_declines (unnumbered : isNumberedArc (reader.ahead 0).token
    (reader.ahead 1).token (reader.ahead 2).token = false) :
    Declines refuseNumberedArc () reader := by
  simp only [Declines, refuseNumberedArc, achieves_bind, achieves_ahead, unnumbered,
    Bool.false_eq_true, if_false, achieves_pure, and_self]

/-- After a mark that begins no arc there is nothing to be refused. -/
theorem refuseNumberedArc_of_mark {mark : Punct} (starts : reader.tokens = .punct mark :: rest)
    (hyphen : mark ≠ .hyphen) (arrow : mark ≠ .leftArrow) :
    Declines refuseNumberedArc () reader := by
  refine refuseNumberedArc_declines (isNumberedArc_eq_false ?_ ?_ _ _) <;>
    rw [Reader.token_ahead_zero starts]
  · exact fun same => hyphen (Token.punct.inj same)
  · exact fun same => arrow (Token.punct.inj same)

/-- A relation of a chain lies ahead where its bracket and its label do. -/
theorem relationNodeAhead_achieves
    (starts : reader.tokens = .punct .leftParen :: .ident label :: rest) :
    Achieves relationNodeAhead reader fun answer later => answer = true ∧ later = reader := by
  have second : (reader.ahead 1).token = .ident label := by
    rw [Reader.token_ahead_succ, Reader.token_ahead_zero (Reader.tail_tokens starts)]
  simp only [relationNodeAhead, achieves_bind, achieves_peek, Reader.token_ahead_zero starts]
  refine (relationTypeAhead_achieves second).mono fun answer later facts => ?_
  obtain ⟨rfl, rfl⟩ := facts
  exact ⟨rfl, rfl⟩

/-- No relation lies ahead where no parenthesis does. -/
theorem relationNodeAhead_declines (apart : (reader.ahead 0).token ≠ .punct .leftParen) :
    Declines relationNodeAhead false reader := by
  obtain ⟨answer, known⟩ : ∃ answer, Declines (relationTypeAhead 1) answer reader :=
    relationTypeAhead_declines 1
  unfold Declines relationNodeAhead
  simp only [achieves_bind, achieves_peek, apart, decide_false, Bool.false_and]
  refine known.mono fun value later declined => ?_
  obtain ⟨-, rfl⟩ := declined
  exact ⟨rfl, rfl⟩

/-- A relation of a chain is read back without its arguments. -/
theorem relationNode_achieves {room : Option Inside}
    (links : model.Links .linear graph relation type label)
    (stage : Stage model graph outer unfinished writer reader place brackets)
    (onDemand : setting.options.createTypesOnDemand = true)
    (starts : reader.tokens = .punct .leftParen :: .ident label ::
      ((Write.comment .relation (model.relation relation).comment).reread .linear ++
        .punct .rightParen :: rest)) :
    Achieves (relationNode setting room) reader fun node later =>
      Reads model { unfinished with pending := relation :: unfinished.pending }
          (writer.begin relation) reader rest later ∧
        later.model.hierarchy.relations.label? node.type = some label ∧
        node.comment = (model.relation relation).comment := by
  have bracket : From 7 (.punct .rightParen :: rest) := ⟨_, _, rfl, Nat.le_refl 7⟩
  unfold relationNode
  refine (relationNodeAhead_achieves starts).bind fun answer later facts => ?_
  obtain ⟨rfl, rfl⟩ := facts
  simp only [if_true, achieves_bind, achieves_located, achieves_advance]
  refine (relationType_achieves (stage.begin links.stands).next.tracks onDemand
    (Reader.tail_tokens starts)).mono fun copy typed facts => ?_
  obtain ⟨parts, named⟩ := facts
  refine (nodeComment_achieves parts.tokens bracket).mono fun comment last facts => ?_
  obtain ⟨rfl, left, past⟩ := facts
  simp only [achieves_expect, Reader.token_ahead_zero left, achieves_pure, true_and]
  have types : later.model.hierarchy.Extends last.next.model.hierarchy := by
    rw [Reader.next_model, past.model]
    exact parts.types
  refine ⟨⟨Reader.tail_tokens left, (parts.tracks.past past).past (.next last), types⟩, ?_, trivial⟩
  rw [Reader.next_model, past.model]
  exact named

/-- A relation of a chain is put into its graph. -/
theorem connect_achieves {node : RelationNode} {copies : List ConceptId}
    (links : model.Links .linear graph relation type label)
    (passive : (model.relation relation).role = .relation)
    (stage : Stage model graph outer
      { unfinished with pending := relation :: unfinished.pending } writer reader place brackets)
    (idle : unfinished.Idle model graph)
    (named : reader.model.hierarchy.relations.label? node.type = some label)
    (comment : node.comment = (model.relation relation).comment)
    (cited : List.Forall₂ ((writer.ledger model).Cites model) (model.relation relation).args
      copies) :
    Achieves (connect place node copies) reader fun _ later =>
      Reads model unfinished writer reader reader.tokens later := by
  unfold connect
  rw [achieves_bind]
  refine (makeRelation_achieves stage.tracks links.free named).mono fun known made facts => ?_
  obtain ⟨rfl, rfl⟩ := facts
  have inside := stage.tracks.lt_graphs stage.ready stage.there
  simp only [achieves_edit, Reader.withModel_model,
    Model.addRelation_drafted stage.tracks.nodes.listed]
  exact ⟨rfl, stage.tracks.related rfl links.stands idle.pending inside (.of_related rfl
    ⟨type, links.typed, _, links.named, named⟩ cited comment passive.symm links.stands
      stage.there), .refl _⟩

/-! ## Chains and fans -/

/-- The target of a link is read back, as far as its own links. -/
theorem target_achieves {concept : ConceptId} (setless : model.corefSets = #[])
    (arg : ReadsArg model .linear setting graph outer writer after concept tokens)
    (stage : Stage model graph outer unfinished writer reader place brackets)
    (starts : reader.tokens = tokens ++ rest) :
    Achieves (target setting (roomFor setting brackets) place) reader fun copy later =>
      Reads model unfinished after reader rest later ∧
        (after.ledger model).Cites model concept copy := by
  unfold target
  rw [achieves_bind]
  refine ((arg.reads unfinished reader rest brackets place stage.tracks stage.within stage.ready
    stage.there starts stage.fits).achieves (Model.definedFirst_of_setless setless _)).mono
      fun copy later facts => ?_
  obtain ⟨id, rfl, reads, cites⟩ := facts
  exact ⟨reads, cites⟩

/-- Where no relation begins and no arrow, there is none. -/
theorem arrowAhead_of_mark {mark : Punct} (starts : reader.tokens = .punct mark :: rest)
    (right : mark ≠ .rightArrow) (left : mark ≠ .leftArrow) :
    Declines arrowAhead none reader := by
  unfold Declines
  rw [achieves_arrowAhead, Reader.token_ahead_zero starts]
  refine ⟨?_, rfl⟩
  unfold Direction.ofToken?
  split <;> simp_all

/-- A fan ends, or goes on with a branch. -/
theorem endsChain_fan {head : ConceptId}
    (fans : ReadsFan model setting graph outer writer after head tokens)
    (ends : EndsChain inFan rest) :
    EndsChain true (tokens ++ (closingTokens inFan ++ rest)) := by
  cases fans with
  | nil =>
      cases ends with
      | statement _ others =>
          cases inFan with
          | true => exact .fan _
          | false => exact .statement true _
      | branch others => exact .fan _
      | fan others => exact .fan _
  | cons first others =>
      obtain ⟨links, passive, begins, later⟩ := first
      exact .branch _

/-- A relation of a chain is put into its graph once its second argument has been read, and the
chain goes on from that. -/
theorem link_achieves {head concept copy : ConceptId} {node : RelationNode} {steps : Nat}
    (setless : model.corefSets = #[]) (links : model.Links .linear graph relation type label)
    (passive : (model.relation relation).role = .relation)
    (args : (model.relation relation).args = [head, concept])
    (reads : ReadsTarget model setting graph outer inFan writer after concept tokens)
    (stage : Stage model graph outer
      { unfinished with pending := relation :: unfinished.pending } writer reader place brackets)
    (idle : unfinished.Idle model graph)
    (named : reader.model.hierarchy.relations.label? node.type = some label)
    (comment : node.comment = (model.relation relation).comment)
    (cites : (writer.ledger model).Cites model head copy) (starts : reader.tokens = tokens ++ rest)
    (ends : EndsChain inFan rest) (enough : tokens.length < steps) :
    Achieves (do
      let next ← target setting (roomFor setting brackets) place
      connect place node [copy, next]
      chainTail setting (roomFor setting brackets) place steps next) reader fun _ later =>
        Reads model unfinished after reader rest later := by
  cases reads with | @intro middle front back arg tail => ?_
  rw [List.append_assoc] at starts
  refine (target_achieves setless arg stage starts).bind fun next found facts => ?_
  obtain ⟨parts, cited⟩ := facts
  have onward := (arg.proceeds stage.tracks.counted).1
  have reached := stage.proceed arg.proceeds parts (by rw [starts]; simp)
  have label := (parts.types.relations.label _ (Lattice.label?_of_lt named)).trans named
  refine (connect_achieves links passive reached idle label comment ?_ :
    Achieves (connect place node [copy, next]) found _).bind fun _ made facts => ?_
  · rw [args]
    exact .cons (cites.mono (onward.continues model)) (.cons cited .nil)
  · have standing : Stage model graph outer unfinished middle made place brackets :=
      ⟨facts.tracks, stage.within, stage.ready, reached.there, by
        rw [facts.tokens]
        exact reached.fits⟩
    refine (tail.reads standing idle cited (facts.tokens.trans parts.tokens) ends (by
      rw [List.length_append] at enough
      omega)).mono fun _ later ended => ?_
    exact ended.from_earlier (parts.types.trans facts.types)

/-- A relation of a chain is read back with what follows it, whichever way the reading goes on
that finds an arrow after it or none. -/
theorem branch_achieves {head copy : ConceptId} {steps : Nat}
    {next : RelationNode → Option Direction → Read Unit} {post : Unit → Reader → Prop}
    (setless : model.corefSets = #[]) (onDemand : setting.options.createTypesOnDemand = true)
    (reads : ReadsBranch model setting graph outer inFan writer after head tokens)
    (stage : Stage model graph outer unfinished writer reader place brackets)
    (idle : unfinished.Idle model graph)
    (cites : (writer.ledger model).Cites model head copy) (starts : reader.tokens = tokens ++ rest)
    (ends : EndsChain inFan rest) (enough : tokens.length ≤ steps)
    (alone : ∀ node later, Achieves (connect place node [copy]) later
      (fun _ last => Reads model unfinished after reader rest last) →
        Achieves (next node none) later post)
    (linked : ∀ node later, Achieves (do
      let other ← target setting (roomFor setting brackets) place
      connect place node [copy, other]
      chainTail setting (roomFor setting brackets) place steps other) later.next
      (fun _ last => Reads model unfinished after reader rest last) →
        Achieves (next node (some .right)) later post) :
    Achieves (do
      let node ← relationNode setting (roomFor setting brackets)
      refuseNumberedArc
      next node (← arrowAhead)) reader post := by
  cases reads with | @intro relation type label behind links passive first follows => ?_
  simp only [List.cons_append, List.append_assoc] at starts
  refine (relationNode_achieves links stage onDemand starts).bind fun node noded facts => ?_
  obtain ⟨parts, named, comment⟩ := facts
  have begun := (stage.begin links.stands).proceed (.refl _) parts (by
    rw [starts]
    simp
    omega)
  have cited := cites.mono
    (((Writer.Proceeds.begin writer relation) stage.tracks.counted).1.continues model)
  generalize same : (model.relation relation).args = args at follows first
  cases follows with
  | alone only =>
      obtain rfl : only = head := by simpa using first
      obtain ⟨mark, remaining, next, hyphen, left, right⟩ := ends.exists_mark
      have tokens := parts.tokens.trans next
      refine (refuseNumberedArc_of_mark tokens hyphen left).bind fun _ later facts => ?_
      obtain ⟨-, rfl⟩ := facts
      refine (arrowAhead_of_mark tokens right left).bind fun _ later facts => ?_
      obtain ⟨rfl, rfl⟩ := facts
      refine alone node later ((connect_achieves links passive begun idle named comment ?_ :
        Achieves (connect place node [copy]) later _).mono fun _ made facts => ?_)
      · rw [same]
        exact .cons cites .nil
      · exact ⟨facts.tokens.trans parts.tokens, facts.tracks, parts.types.trans facts.types⟩
  | @target _ start concept tokens reads =>
      obtain rfl : start = head := by simpa using first
      have arrow := parts.tokens
      rw [List.cons_append] at arrow
      refine (refuseNumberedArc_of_mark arrow (by decide) (by decide)).bind fun _ later facts => ?_
      obtain ⟨-, rfl⟩ := facts
      rw [achieves_bind, achieves_arrowAhead, Reader.token_ahead_zero arrow]
      have short : tokens.length < steps := by
        simp only [List.length_cons, List.length_append] at enough
        omega
      exact linked node later ((link_achieves setless links passive same reads begun.next idle named
        comment cited (Reader.tail_tokens arrow) ends short).mono fun _ last reads =>
          reads.from_earlier parts.types)

/-- Where no branch follows, a fan ends with its comma, if there is one. -/
theorem fan_closes {room : Option Inside} {copy : ConceptId} {steps : Nat}
    (starts : reader.tokens = closingTokens inFan ++ rest) (ends : EndsChain inFan rest) :
    Achieves (fan setting room place (steps + 1) copy false) reader fun _ later =>
      later.tokens = rest ∧ reader.Past later := by
  have ended : ∀ {mark others}, reader.tokens = .punct mark :: others → mark ≠ .hyphen →
      mark ≠ .leftArrow → mark ≠ .leftParen →
      Achieves (fan setting room place (steps + 1) copy false) reader fun _ later =>
        (mark = .comma → later = reader.next) ∧ (mark ≠ .comma → later = reader) := by
    intro mark others starts hyphen left apart
    have first := Reader.token_ahead_zero starts
    unfold fan
    refine (refuseNumberedArc_of_mark starts hyphen left).bind fun _ later facts => ?_
    obtain ⟨-, rfl⟩ := facts
    have other : (later.ahead 0).token ≠ .punct .leftParen := by
      rw [first]
      exact fun same => apart (Token.punct.inj same)
    refine Achieves.bind (relationNodeAhead_declines other) fun _ last facts => ?_
    obtain ⟨rfl, rfl⟩ := facts
    simp only [Bool.false_eq_true, if_false, achieves_bind, achieves_eat, achieves_pure, first,
      Token.punct.injEq]
    refine ⟨fun comma => ⟨fun _ => trivial, fun other => absurd comma other⟩, fun other =>
      ⟨fun comma => absurd (congrArg Token.punct comma) other, fun _ => trivial⟩⟩
  cases inFan with
  | true =>
      refine (ended starts (by decide) (by decide) (by decide)).mono fun _ later facts => ?_
      rw [facts.1 rfl]
      exact ⟨Reader.tail_tokens starts, .next reader⟩
  | false =>
      cases ends with
      | statement _ others =>
          refine (ended starts (by decide) (by decide) (by decide)).mono fun _ later facts => ?_
          rw [facts.2 (by decide)]
          exact ⟨starts, .refl reader⟩

/-- The branches of a fan are read back, to the end of the fan. -/
theorem fan_achieves {head copy : ConceptId} {steps : Nat} {begins : Bool}
    (setless : model.corefSets = #[]) (onDemand : setting.options.createTypesOnDemand = true)
    (fans : ReadsFan model setting graph outer writer after head tokens)
    (stage : Stage model graph outer unfinished writer reader place brackets)
    (idle : unfinished.Idle model graph)
    (cites : (writer.ledger model).Cites model head copy)
    (starts : reader.tokens = tokens ++ (closingTokens inFan ++ rest))
    (ends : EndsChain inFan rest) (enough : (tokens ++ closingTokens inFan).length < steps)
    (some : begins = true → tokens ≠ []) :
    Achieves (fan setting (roomFor setting brackets) place steps copy begins) reader
      fun _ later => Reads model unfinished after reader rest later := by
  induction fans generalizing reader steps begins with
  | nil writer head =>
      obtain ⟨steps, rfl⟩ := Nat.exists_eq_add_one.mpr (Nat.zero_lt_of_lt enough)
      obtain rfl : begins = false := by simpa using some
      refine (fan_closes starts ends).mono fun _ later facts => ?_
      exact .of_past stage.tracks facts.2 facts.1
  | @cons writer middle after head front back first others ih =>
      obtain ⟨steps, rfl⟩ := Nat.exists_eq_add_one.mpr (Nat.zero_lt_of_lt enough)
      have more := endsChain_fan others ends
      have proceeds := first.proceeds
      have onward := (proceeds stage.tracks.counted).1
      rw [List.append_assoc] at starts enough
      have going : ∀ {last : Reader}, Reads model unfinished middle reader
          (back ++ (closingTokens inFan ++ rest)) last →
          Achieves (fan setting (roomFor setting brackets) place steps copy false) last
            fun _ later => Reads model unfinished after reader rest later := by
        intro last reads
        have ahead := stage.proceed proceeds reads (by
          rw [starts]
          simp)
        refine (ih ahead (cites.mono (onward.continues model)) reads.tokens ?_ (by simp)).mono
          fun _ later ended => ended.from_earlier reads.types
        have nonempty := first.length_pos
        simp only [List.length_append] at enough ⊢
        omega
      obtain ⟨label, others, begins⟩ := first.exists_label
      have opening : reader.tokens = .punct .leftParen :: .ident label :: (others ++
          (back ++ (closingTokens inFan ++ rest))) := by
        rw [starts, begins]
        rfl
      unfold fan
      refine (refuseNumberedArc_of_mark opening (by decide) (by decide)).bind
        fun _ later facts => ?_
      obtain ⟨-, rfl⟩ := facts
      refine (relationNodeAhead_achieves opening).bind fun _ later facts => ?_
      obtain ⟨rfl, rfl⟩ := facts
      rw [if_pos rfl]
      have short : front.length ≤ steps := by
        rw [List.length_append] at enough
        omega
      refine branch_achieves setless onDemand first stage idle cites starts more short
        (fun node later achieves => achieves.bind fun _ last => going) fun node later achieves => ?_
      have both := achieves.bind fun _ last => going
      simp only [bind_assoc] at both
      exact both

end Read

/-! ## What follows a concept -/

namespace ReadsTail

variable {model : Model} {setting : Setting} {graph : GraphId} {outer : List GraphId}
  {inFan : Bool} {writer after : Writer} {head : ConceptId} {tokens : List Token}

/-- A chain that has no more links is read back as one that ends. -/
theorem nil (inFan : Bool) (writer : Writer) (head : ConceptId) :
    ReadsTail model setting graph outer inFan writer writer head [] where
  proceeds := .refl writer
  reads {unfinished reader place brackets rest copy steps} stage idle cites starts ends enough := by
    obtain ⟨steps, rfl⟩ := Nat.exists_eq_add_one.mpr enough
    obtain ⟨mark, others, same, hyphen, left, right⟩ := ends.exists_mark
    have tokens := starts.trans same
    unfold Read.chainTail
    refine (Read.refuseNumberedArc_of_mark tokens hyphen left).bind fun _ later facts => ?_
    obtain ⟨-, rfl⟩ := facts
    refine (Read.arrowAhead_of_mark tokens right left).bind fun _ later facts => ?_
    obtain ⟨rfl, rfl⟩ := facts
    have apart : (later.ahead 0).token ≠ .punct .hyphen := by
      rw [Reader.token_ahead_zero tokens]
      exact fun same => hyphen (Token.punct.inj same)
    simp only [achieves_bind, Read.achieves_eat]
    refine ⟨fun found => absurd found apart, fun _ => ?_⟩
    exact .of_past stage.tracks (.refl _) starts

/-- A chain goes on with a link. -/
theorem link (setless : model.corefSets = #[])
    (onDemand : setting.options.createTypesOnDemand = true)
    (reads : ReadsBranch model setting graph outer inFan writer after head tokens) :
    ReadsTail model setting graph outer inFan writer after head
      (.punct .rightArrow :: tokens) where
  proceeds := reads.proceeds
  reads {unfinished reader place brackets rest copy steps} stage idle cites starts ends enough := by
    obtain ⟨steps, rfl⟩ := Nat.exists_eq_add_one.mpr (Nat.zero_lt_of_lt enough)
    rw [List.cons_append] at starts
    unfold Read.chainTail
    refine (Read.refuseNumberedArc_of_mark starts (by decide) (by decide)).bind
      fun _ later facts => ?_
    obtain ⟨-, rfl⟩ := facts
    rw [achieves_bind, Read.achieves_arrowAhead, Reader.token_ahead_zero starts]
    exact Read.branch_achieves setless onDemand reads stage.next idle cites
      (Reader.tail_tokens starts)
      ends (Nat.le_of_lt_succ (Nat.lt_of_succ_lt enough))
      (fun node later achieves => achieves.mono fun _ last reads => reads.from_earlier (.refl _))
      fun node later achieves => achieves.mono fun _ last reads => reads.from_earlier (.refl _)

/-- A chain ends in a fan of branches. -/
theorem fan (setless : model.corefSets = #[])
    (onDemand : setting.options.createTypesOnDemand = true)
    (fans : ReadsFan model setting graph outer writer after head tokens) (some : tokens ≠ []) :
    ReadsTail model setting graph outer inFan writer after head
      (.punct .hyphen :: (tokens ++ closingTokens inFan)) where
  proceeds := fans.proceeds
  reads {unfinished reader place brackets rest copy steps} stage idle cites starts ends enough := by
    obtain ⟨steps, rfl⟩ := Nat.exists_eq_add_one.mpr (Nat.zero_lt_of_lt enough)
    simp only [List.cons_append, List.append_assoc] at starts
    have first := Reader.token_ahead_zero starts
    have unnumbered : Read.isNumberedArc (reader.ahead 0).token (reader.ahead 1).token
        (reader.ahead 2).token = false := by
      obtain ⟨others, begins⟩ := fans.exists_paren some
      have second : (reader.ahead 1).token = .punct .leftParen := by
        rw [Reader.token_ahead_succ, Reader.token_ahead, Reader.tail_tokens starts, begins]
        rfl
      rw [first, second]
      rfl
    unfold Read.chainTail
    refine (Read.refuseNumberedArc_declines unnumbered).bind fun _ later facts => ?_
    obtain ⟨-, rfl⟩ := facts
    rw [achieves_bind, Read.achieves_arrowAhead, first]
    dsimp only [Read.Direction.ofToken?]
    rw [achieves_bind, Read.achieves_eat]
    refine ⟨fun _ => ?_, fun other => absurd first other⟩
    rw [if_pos rfl]
    exact (Read.fan_achieves setless onDemand fans stage.next idle cites
      (Reader.tail_tokens starts) ends
      (Nat.lt_of_succ_lt_succ enough) fun _ => some).mono fun _ last reads =>
        reads.from_earlier (.refl _)

end ReadsTail

end ConceptualGraph
