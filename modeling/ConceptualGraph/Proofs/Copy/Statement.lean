/-
Module: ConceptualGraph.Proofs.Copy.Statement
Purpose: The statements of a graph in the linear form are read back as they are written.
Main exports: Write.chainLinks_ensures, Write.chainTarget_ensures, ReadsItems.statement,
  Write.linearGraph_ensures, Write.linearGraph_opens
-/
import ConceptualGraph.Proofs.Copy.Chain

namespace ConceptualGraph

open Phrase (mark ofToken space)

namespace Write

variable {model : Model} {source : Notation} {setting : Setting} {inner : Inner}
  {writer : Writer} {graph : GraphId} {outer : List GraphId} {head concept : ConceptId}
  {relation : RelationId} {place : Place}

/-! ## Chains -/

/-- Whether whatever is written for a concept of a graph as the target of a link is read back. -/
def ReadsTargets (model : Model) (setting : Setting) (graph : GraphId) (outer : List GraphId)
    (target : ToTarget) : Prop :=
  ∀ place concept writer, (model.concept concept).graph = some graph →
    (model.concept concept).IsPlain → Ensures (target place concept) writer fun phrase after =>
      ReadsTarget model setting graph outer place.inFan writer after concept
        (phrase.reread .linear)

variable {target : ToTarget}

/-- A relation of a chain is written as the label of its type and its comment. -/
theorem relationNode_achieves {type : RelationType} {label : String}
    (links : model.Links .linear graph relation type label) :
    Achieves (relationNode model inner relation) writer fun phrase after => after = writer ∧
      phrase.reread .linear = .punct .leftParen :: .ident label ::
        ((comment .relation (model.relation relation).comment).reread .linear ++
          [.punct .rightParen]) := by
  simp [relationNode, relationType_eq links, links.word.reread]

/-- What follows a relation of a chain is read back. -/
theorem laterArgs_ensures (targets : ReadsTargets model setting graph outer target)
    {args : List ConceptId} (few : args.length ≤ 2) (begins : args.head? = some head)
    (stand : ∀ concept ∈ args, (model.concept concept).graph = some graph ∧
      (model.concept concept).IsPlain) :
    Ensures (laterArgs target place args) writer fun phrase after =>
      ReadsLater model setting graph outer place.inFan writer after args
        (phrase.reread .linear) := by
  match args with
  | [] => cases begins
  | [_] => exact .alone writer _
  | [_, concept] =>
      obtain ⟨stands, plain⟩ := stand concept (by simp)
      unfold laterArgs
      refine (targets place concept writer stands plain).bind fun phrase after reads => ?_
      rw [ensures_pure]
      exact .target reads
  | _ :: _ :: _ :: _ => exact absurd few (by simp)

/-- A relation of a chain is read back with what follows it. -/
theorem relationWithArgs_ensures (copyable : model.Copyable source .linear)
    (targets : ReadsTargets model setting graph outer target)
    (primary : relation ∈ (Plan.ofGraph model graph).primary head) :
    Ensures (relationWithArgs model inner target place relation) writer fun phrase after =>
      ReadsBranch model setting graph outer place.inFan writer after head
        (phrase.reread .linear) := by
  obtain ⟨link, passive, begins⟩ := Plan.mem_primary.mp primary
  obtain ⟨stands, positive⟩ := (Plan.mem_links copyable.sound.listed).mp link
  obtain ⟨type, label, links⟩ := copyable.exists_links stands positive
  unfold relationWithArgs
  simp only [markWritten, ensures_bind, ensures_modify]
  refine (relationNode_achieves links : Achieves _ (writer.begin relation) _).ensures.mono
    fun node middle facts => ?_
  obtain ⟨rfl, tokens⟩ := facts
  refine (laterArgs_ensures targets ((copyable.binary rfl).length_le passive) begins
    links.args).mono fun phrase after later => ?_
  rw [ensures_pure, Phrase.reread_append, tokens]
  simpa using ReadsBranch.intro links passive begins later

/-- A relation that goes on from the concept before it is read back. -/
theorem link_ensures (copyable : model.Copyable source .linear)
    (onDemand : setting.options.createTypesOnDemand = true)
    (targets : ReadsTargets model setting graph outer target)
    (primary : relation ∈ (Plan.ofGraph model graph).primary head) :
    Ensures (link model inner target place relation) writer fun phrase after =>
      ReadsTail model setting graph outer place.inFan writer after head
        (phrase.reread .linear) := by
  unfold link
  refine (relationWithArgs_ensures copyable targets primary).bind fun phrase after reads => ?_
  exact .link (copyable.setless_of_linear rfl) onDemand reads

/-- The branches of a fan are read back. -/
theorem concat_branch (copyable : model.Copyable source .linear)
    (targets : ReadsTargets model setting graph outer target) (place : Place)
    {relations : List RelationId}
    (among : ∀ relation ∈ relations, relation ∈ (Plan.ofGraph model graph).primary head) :
    Ensures (concat (branch model inner target place.branch) relations) writer
      fun phrase after => ReadsFan model setting graph outer writer after head
          (Phrase.reread .linear phrase) ∧
        (relations ≠ [] → Phrase.reread .linear phrase ≠ []) := by
  induction relations generalizing writer with
  | nil => exact ⟨.nil writer head, fun some => absurd rfl some⟩
  | cons relation others ih =>
      unfold concat branch
      simp only [bind_assoc, pure_bind]
      refine (relationWithArgs_ensures copyable targets (among relation (List.mem_cons_self ..)) :
        Ensures (relationWithArgs model inner target place.branch relation) writer _).bind
          fun phrase middle first => ?_
      refine (ih fun other member => among other (List.mem_cons_of_mem _ member)).bind
        fun rest after facts => ?_
      rw [ensures_pure, Phrase.reread_append, Phrase.reread_append]
      refine ⟨.cons first facts.1, fun _ => ?_⟩
      exact List.append_ne_nil_of_left_ne_nil (List.length_pos_iff.mp first.length_pos) _

/-- The relations that begin with a concept are read back. -/
theorem chainLinks_ensures (copyable : model.Copyable source .linear)
    (onDemand : setting.options.createTypesOnDemand = true)
    (targets : ReadsTargets model setting graph outer target) (place : Place)
    (head : ConceptId) :
    Ensures (chainLinks model inner (Plan.ofGraph model graph) target place head) writer
      fun phrase after => ReadsTail model setting graph outer place.inFan writer after head
        (phrase.reread .linear) := by
  unfold chainLinks
  simp only [unwritten, ensures_bind, ensures_get, ensures_pure]
  have among : ∀ relation ∈ ((Plan.ofGraph model graph).primary head).filter
      fun relation => !writer.written.contains relation,
      relation ∈ (Plan.ofGraph model graph).primary head :=
    fun relation member => List.mem_of_mem_filter member
  generalize ((Plan.ofGraph model graph).primary head).filter
    (fun relation => !writer.written.contains relation) = relations at among ⊢
  rcases relations with _ | ⟨only, _ | ⟨second, others⟩⟩
  case nil => exact .nil _ writer head
  case cons.nil => exact link_ensures copyable onDemand targets (among only (by simp))
  case cons.cons =>
      rw [ensures_bind]
      refine (concat_branch copyable targets place among).mono fun branches after facts => ?_
      have closing : (place.closing).reread .linear = closingTokens place.inFan := by
        unfold Place.closing closingTokens
        split <;> rfl
      simp only [ensures_pure, Phrase.reread_append, Phrase.reread_mark, closing, List.cons_append]
      exact .fan (copyable.setless_of_linear rfl) onDemand facts.1 (facts.2 (List.cons_ne_nil _ _))

/-- A concept that has not been written is read back as the head of a chain. -/
theorem firstEmission_readsArg (copyable : model.Copyable source .linear)
    (mirrors : Mirrors model .linear setting inner (graph :: outer))
    (onDemand : setting.options.createTypesOnDemand = true) (fresh : concept ∉ writer.order)
    (stands : (model.concept concept).graph = some graph)
    (plain : (model.concept concept).IsPlain) (plan : Plan) :
    Ensures (firstEmission model inner plan concept) writer fun phrase after =>
      ReadsArg model .linear setting graph outer writer after concept (phrase.reread .linear) := by
  refine (firstEmission_ensures plan concept).mono fun phrase after facts => ?_
  obtain ⟨use, opened, opens, ran⟩ := facts
  exact .of_concept copyable mirrors onDemand fresh stands plain opens ran

/-- The target of a link is read back, with the chain that goes on from it. -/
theorem chainTarget_ensures (copyable : model.Copyable source .linear)
    (mirrors : Mirrors model .linear setting inner (graph :: outer))
    (onDemand : setting.options.createTypesOnDemand = true) (steps : Nat) :
    ReadsTargets model setting graph outer
      (chainTarget model inner (Plan.ofGraph model graph) steps) := by
  induction steps with
  | zero =>
      intro place concept writer stands plain
      refine (reference_readsArg setting outer copyable stands plain).mono
        fun phrase after reads => ?_
      simpa using ReadsTarget.intro reads (.nil place.inFan after concept)
  | succ steps ih =>
      intro place concept writer stands plain
      unfold chainTarget
      refine isEmitted_achieves.ensures.bind fun emitted later facts => ?_
      obtain ⟨rfl, known⟩ := facts
      refine ensures_ite.mpr ⟨fun _ => ?_, fun unknown => ?_⟩
      · refine (reference_readsArg setting outer copyable stands plain).mono
          fun phrase after reads => ?_
        simpa using ReadsTarget.intro reads (.nil place.inFan after concept)
      · have fresh : concept ∉ later.order := fun before => unknown (known.mpr before)
        refine (firstEmission_readsArg copyable mirrors onDemand fresh stands plain _).bind
          fun phrase middle arg => ?_
        refine (chainLinks_ensures copyable onDemand ih place concept).bind
          fun links after tail => ?_
        rw [ensures_pure, Phrase.reread_append]
        exact .intro arg tail

end Write

/-! ## Statements -/

section Statements

variable {model : Model} {setting : Setting} {graph : GraphId} {outer : List GraphId}
  {writer middle after : Writer} {phrase : Phrase} {mark : Punct} {head : ConceptId}
  {front back : List Token}

/-- A statement is read back as an item. -/
theorem ReadsItems.statement (setless : model.corefSets = #[])
    (proceeds : writer.Proceeds model after)
    (opens : OpensItem .linear (phrase.reread .linear))
    (apart : ∀ text others, phrase.reread .linear ≠ .formalComment text :: others)
    (reads : ∀ {unfinished reader rest place brackets},
      Stage model graph outer unfinished writer reader place brackets →
      unfinished.Idle model graph → reader.tokens = phrase.reread .linear ++ .punct .dot :: rest →
        Achieves (Read.statement setting (Read.roomFor setting brackets) place) reader
          fun found later => found = true ∧
            Reads model unfinished after reader (.punct .dot :: rest) later) :
    ReadsItems model .linear setting graph outer writer after [Write.statement phrase] where
  proceeds := proceeds
  opens item member := by
    rw [List.mem_singleton.mp member, Write.statement, Phrase.reread_append]
    rcases opens with opens | ⟨linear, label, others, same⟩
    · exact .inl (opens.append _)
    · exact .inr ⟨linear, label, others ++ [.punct .dot], by rw [same]; rfl⟩
  reads unfinished reader rest brackets place tracks within idle there starts fits := by
    rw [List.flatMap_singleton, Write.statement, Phrase.reread_append, List.append_assoc] at starts
    have uncommented : ∀ text, (reader.ahead 0).token ≠ .formalComment text := by
      intro text same
      obtain ⟨first, others, tokens⟩ := List.exists_cons_of_ne_nil opens.ne_nil
      rw [Reader.token_ahead, starts, tokens] at same
      have first_eq : first = .formalComment text := same
      exact apart text others (first_eq ▸ tokens)
    intro fuel further final needs others
    show Outcome further (Read.statements setting (Read.roomFor setting brackets) place (1 + fuel))
      reader final
    rw [Nat.add_comm, Read.statements]
    refine Outcome.after (Read.graphComment_declines uncommented) fun found later facts => ?_
    obtain ⟨rfl, rfl⟩ := facts
    refine Outcome.after (reads ⟨tracks, within, idle.waiting, there, fits⟩ idle starts)
      fun found last facts => ?_
    obtain ⟨rfl, parts⟩ := facts
    have ended : Achieves Read.statementEnd last fun _ past => past = last.next := by
      simp only [Read.statementEnd, achieves_bind, Read.achieves_peek,
        Reader.token_ahead_zero parts.tokens, Read.achieves_advance]
    refine Outcome.after ended fun _ past same => ?_
    subst same
    exact others last.next (Model.definedFirst_of_setless setless _)
      ⟨Reader.tail_tokens parts.tokens, parts.tracks.past (.next last), parts.types⟩

namespace Read

variable {unfinished : Unfinished} {reader : Reader} {place : GraphId} {brackets : Nat}
  {rest : List Token}

/-- A chain is read back from its first concept to its end. -/
theorem chain_achieves (setless : model.corefSets = #[])
    (arg : ReadsArg model .linear setting graph outer writer middle head front)
    (links : ReadsTail model setting graph outer false middle after head back)
    (stage : Stage model graph outer unfinished writer reader place brackets)
    (idle : unfinished.Idle model graph)
    (starts : reader.tokens = front ++ back ++ .punct .dot :: rest) :
    Achieves (chain setting (roomFor setting brackets) place) reader fun _ later =>
      Reads model unfinished after reader (.punct .dot :: rest) later := by
  rw [List.append_assoc] at starts
  unfold chain tail
  refine (target_achieves setless arg stage starts).bind fun copy found facts => ?_
  obtain ⟨parts, cites⟩ := facts
  rw [achieves_bind, achieves_get]
  refine (links.reads (stage.proceed arg.proceeds parts (by
    rw [starts]
    simp)) idle cites parts.tokens (.statement false rest) ?_).mono fun _ later ended =>
      ended.from_earlier parts.types
  rw [Reader.length_rest, parts.tokens, List.length_append]
  omega

end Read

/-- A chain is read back as a statement. -/
theorem ReadsItems.chain (setless : model.corefSets = #[])
    (arg : ReadsArg model .linear setting graph outer writer middle head front)
    (links : ReadsTail model setting graph outer false middle after head back)
    (tokens : phrase.reread .linear = front ++ back) :
    ReadsItems model .linear setting graph outer writer after [Write.statement phrase] := by
  have opens : OpensItem .linear (phrase.reread .linear) ∧
      ((∃ others, phrase.reread .linear = .punct .leftBracket :: others) ∨
        ∃ label others, phrase.reread .linear = .boundLabel label :: others) := by
    rw [tokens]
    rcases arg.begins with ⟨others, rfl⟩ | ⟨label, others, rfl⟩
    · exact ⟨.inl ⟨_, _, rfl, rfl, fun same => by cases same⟩, .inl ⟨_, rfl⟩⟩
    · exact ⟨.inr ⟨rfl, label, _, rfl⟩, .inr ⟨label, _, rfl⟩⟩
  refine .statement setless (arg.proceeds.trans links.proceeds) opens.1 (fun text others same => ?_)
    fun {unfinished reader rest place brackets} stage idle starts => ?_
  · rcases opens.2 with ⟨others, bracket⟩ | ⟨label, others, bound⟩
    · cases same.symm.trans bracket
    · cases same.symm.trans bound
  · have chained : Achieves (do
        Read.chain setting (Read.roomFor setting brackets) place
        return true) reader fun found later => found = true ∧
          Reads model unfinished after reader (.punct .dot :: rest) later := by
      rw [tokens] at starts
      exact (Read.chain_achieves setless arg links stage idle starts).bind fun _ later reads =>
        ⟨rfl, reads⟩
    unfold Read.statement
    rw [achieves_bind, Read.achieves_peek]
    rcases opens.2 with ⟨others, bracket⟩ | ⟨label, others, bound⟩
    · rw [bracket] at starts
      rw [Reader.token_ahead_zero starts]
      exact chained
    · rw [bound] at starts
      rw [Reader.token_ahead_zero starts]
      exact chained

namespace Read

variable {room : Option Inside} {reader : Reader} {place : GraphId} {possible : Prop}
  {post : Reader → Prop}

/-- A tilde begins a negation. -/
theorem statement_negation (starts : (reader.ahead 0).token = .punct .tilde)
    (outcome : Outcome possible (relationInto place (negation setting room place)) reader
      fun found later => found = true ∧ post later) :
    Outcome possible (statement setting room place) reader
      fun found later => found = true ∧ post later := by
  unfold statement
  rwa [outcome_peek, starts]

/-- An angle bracket begins an actor. -/
theorem statement_actor (starts : (reader.ahead 0).token = .punct .leftAngle)
    (outcome : Outcome possible (relationInto place (actor setting room (some place))) reader
      fun found later => found = true ∧ post later) :
    Outcome possible (statement setting room place) reader
      fun found later => found = true ∧ post later := by
  unfold statement
  rwa [outcome_peek, starts]

end Read

/-- A node by itself is read back as a statement. -/
theorem ReadsItems.node (setless : model.corefSets = #[])
    (item : ReadsItem model setting graph outer mark
      (fun room place => Read.statement setting room place) writer after (phrase.reread .linear))
    (starts : Read.startsItem (.punct mark) = true) (apart : mark ≠ .leftParen) :
    ReadsItems model .linear setting graph outer writer after [Write.statement phrase] := by
  refine .statement setless item.proceeds (.inl (item.opensGraph starts apart))
    (fun text others same => ?_) fun {unfinished reader rest place brackets} stage idle tokens => ?_
  · obtain ⟨more, begins⟩ := item.begins
    cases same.symm.trans begins
  · exact (item.reads unfinished reader _ brackets place stage.tracks stage.within idle
      stage.there tokens stage.fits).achieves (Model.definedFirst_of_setless setless _)

/-- A relation without arguments is read back as a statement. -/
theorem ReadsItems.relation {relation : RelationId} {type : RelationType} {label : String}
    (setless : model.corefSets = #[]) (onDemand : setting.options.createTypesOnDemand = true)
    (links : model.Links .linear graph relation type label)
    (passive : (model.relation relation).role = .relation)
    (none : (model.relation relation).args = [])
    (tokens : phrase.reread .linear = .punct .leftParen :: .ident label ::
      ((Write.comment .relation (model.relation relation).comment).reread .linear ++
        [.punct .rightParen])) :
    ReadsItems model .linear setting graph outer writer (writer.begin relation)
      [Write.statement phrase] := by
  refine .statement setless (.begin writer relation) (.inl ?_) (fun text others same => ?_)
    fun {unfinished reader rest place brackets} stage idle starts => ?_
  · exact ⟨_, _, tokens, rfl, fun _ => ⟨label, _, rfl⟩⟩
  · cases same.symm.trans tokens
  · rw [tokens] at starts
    simp only [List.cons_append, List.append_assoc, List.nil_append] at starts
    unfold Read.statement Read.relationChain
    rw [achieves_bind, Read.achieves_peek, Reader.token_ahead_zero starts]
    refine (Read.relationNodeAhead_achieves starts).bind fun answer later facts => ?_
    obtain ⟨rfl, rfl⟩ := facts
    rw [if_pos rfl, achieves_bind]
    refine (Read.relationNode_achieves links stage onDemand starts).bind fun node noded facts => ?_
    obtain ⟨parts, named, comment⟩ := facts
    have begun := (stage.begin links.stands).proceed (.refl _) parts (by
      rw [starts]
      simp
      omega)
    refine (Read.refuseNumberedArc_of_mark parts.tokens (by decide) (by decide)).bind
      fun _ last facts => ?_
    obtain ⟨-, rfl⟩ := facts
    refine (Read.arrowAhead_of_mark parts.tokens (by decide) (by decide)).bind
      fun _ last facts => ?_
    obtain ⟨rfl, rfl⟩ := facts
    refine (Read.connect_achieves links passive begun idle named comment (by
      rw [none]
      exact .nil)).mono fun _ made facts => ?_
    exact ⟨rfl, facts.tokens.trans parts.tokens, facts.tracks, parts.types.trans facts.types⟩

end Statements

namespace Write

variable {model : Model} {source : Notation} {setting : Setting} {inner : Inner}
  {writer : Writer} {graph : GraphId} {outer : List GraphId} {head concept : ConceptId}
  {relation : RelationId} {plan : Plan}

/-- The chain of a concept is read back. -/
theorem conceptStatement_ensures (copyable : model.Copyable source .linear)
    (mirrors : Mirrors model .linear setting inner (graph :: outer))
    (onDemand : setting.options.createTypesOnDemand = true)
    (stands : (model.concept concept).graph = some graph)
    (visible : (model.concept concept).hidden = false) :
    Ensures (conceptStatement model inner (Plan.ofGraph model graph) concept) writer
      fun items after => ReadsItems model .linear setting graph outer writer after items := by
  have plain : (model.concept concept).IsPlain := ⟨visible, copyable.special rfl concept⟩
  unfold conceptStatement
  refine isEmitted_achieves.ensures.bind fun emitted later facts => ?_
  obtain ⟨rfl, known⟩ := facts
  refine ensures_ite.mpr ⟨fun _ => .nil _, fun unknown => ?_⟩
  have fresh : concept ∉ later.order := fun before => unknown (known.mpr before)
  refine (firstEmission_readsArg copyable mirrors onDemand fresh stands plain _).bind
    fun phrase middle arg => ?_
  refine (chainLinks_ensures copyable onDemand (chainTarget_ensures copyable mirrors onDemand _) {}
    concept).bind fun links after tail => ?_
  exact .chain (copyable.setless_of_linear rfl) arg tail (Phrase.reread_append ..)

/-- A relation is read back with its first argument, if it has any. -/
theorem relationFrom_ensures (copyable : model.Copyable source .linear)
    (mirrors : Mirrors model .linear setting inner (graph :: outer))
    (onDemand : setting.options.createTypesOnDemand = true)
    (stands : (model.relation relation).graph = some graph)
    (positive : model.isNegation relation = false)
    (passive : (model.relation relation).role = .relation) :
    Ensures (relationFrom model inner (Plan.ofGraph model graph) relation) writer
      fun phrase after =>
        ReadsItems model .linear setting graph outer writer after [statement phrase] := by
  have setless := copyable.setless_of_linear rfl
  obtain ⟨type, label, links⟩ := copyable.exists_links stands positive
  unfold relationFrom
  split
  · next none =>
    simp only [markWritten, ensures_bind, ensures_modify]
    refine (relationNode_achieves links : Achieves _ (writer.begin relation) _).ensures.mono
      fun node after facts => ?_
    obtain ⟨rfl, tokens⟩ := facts
    exact .relation setless onDemand links passive none tokens
  · next head others args =>
    obtain ⟨standing, plain⟩ := links.args head (by simp [args])
    have primary : relation ∈ (Plan.ofGraph model graph).primary head := Plan.mem_primary.mpr
      ⟨(Plan.mem_links copyable.sound.listed).mpr ⟨stands, positive⟩, passive, by simp [args]⟩
    have linked : ∀ first middle, ReadsArg model .linear setting graph outer writer middle head
        (Phrase.reread .linear first) → Ensures (do
          return first ++ (← link model inner (anyTarget model inner (Plan.ofGraph model graph)) {}
            relation)) middle fun phrase after =>
              ReadsItems model .linear setting graph outer writer after [statement phrase] := by
      intro first middle arg
      refine (link_ensures copyable onDemand (chainTarget_ensures copyable mirrors onDemand _)
        primary).bind fun phrase after tail => ?_
      exact .chain setless arg tail (Phrase.reread_append ..)
    refine isEmitted_achieves.ensures.bind fun emitted later facts => ?_
    obtain ⟨rfl, known⟩ := facts
    refine ensures_ite.mpr ⟨fun _ => ?_, fun unknown => ?_⟩
    · exact (reference_readsArg setting outer copyable standing plain).bind linked
    · have fresh : head ∉ later.order := fun before => unknown (known.mpr before)
      exact (firstEmission_readsArg copyable mirrors onDemand fresh standing plain _).bind linked

/-- A relation or actor is read back. -/
theorem remainingStatement_ensures (copyable : model.Copyable source .linear)
    (mirrors : Mirrors model .linear setting inner (graph :: outer))
    (onDemand : setting.options.createTypesOnDemand = true)
    (stands : (model.relation relation).graph = some graph) :
    Ensures (remainingStatement model inner (Plan.ofGraph model graph) relation) writer
      fun items after => ReadsItems model .linear setting graph outer writer after items := by
  have setless := copyable.setless_of_linear rfl
  unfold remainingStatement
  rw [ensures_bind, ensures_get]
  refine ensures_ite.mpr ⟨fun _ => .nil writer, fun unknown => ?_⟩
  have unwritten : relation ∉ writer.written := by simpa using unknown
  refine ensures_ite.mpr ⟨fun negative => ?_, fun other => ensures_ite.mpr ⟨fun active => ?_,
    fun passive => ?_⟩⟩
  · exact (negation_readsItem copyable mirrors unwritten stands negative).bind
      fun phrase after item => .node setless (item.through Read.statement_negation) rfl (by decide)
  · obtain ⟨type, label, links⟩ := copyable.exists_links stands (Bool.eq_false_iff.mpr other)
    have acts : (model.relation relation).role ≠ .relation := fun role => by
      simp [Relation.isActor, role] at active
    exact (actor_readsItem copyable onDemand links acts).bind
      fun phrase after item => .node setless (item.through Read.statement_actor) rfl (by decide)
  · exact (relationFrom_ensures copyable mirrors onDemand stands (Bool.eq_false_iff.mpr other)
      (Plan.isActor_eq_false.mp (Bool.eq_false_iff.mpr passive))).bind
        fun phrase after reads => reads

/-- The statements of a graph after its comments are read back. -/
theorem linearGraph_ensures (copyable : model.Copyable source .linear)
    (mirrors : Mirrors model .linear setting inner (graph :: outer))
    (onDemand : setting.options.createTypesOnDemand = true) :
    Ensures (linearGraph model inner graph) writer fun phrases after => ∃ items,
      phrases = comments model graph ++ items ∧
        ReadsItems model .linear setting graph outer writer after items := by
  have listed := copyable.sound.listed
  unfold linearGraph
  refine (concat_readsItems fun concept member writer => ?_).bind fun concepts middle first =>
    (concat_readsItems fun relation member writer => ?_).bind fun relations after rest =>
      ⟨concepts ++ relations, List.append_assoc .., first.append rest⟩
  · obtain ⟨listing, visible⟩ := Plan.mem_order.mp member
    exact conceptStatement_ensures copyable mirrors onDemand
      ((listed.mem_concepts graph concept).mp listing) visible
  · exact remainingStatement_ensures copyable mirrors onDemand
      ((listed.mem_relations graph relation).mp member)

/-! ## The first statement -/

/-- The statement of a concept that has not been written begins with its bracket. -/
theorem conceptStatement_opens (copyable : model.Copyable source .linear)
    (fresh : concept ∉ writer.order) :
    Ensures (conceptStatement model inner plan concept) writer fun items _ =>
      OpensGraph (items.flatMap (Phrase.reread .linear)) := by
  unfold conceptStatement
  refine isEmitted_achieves.ensures.bind fun emitted later facts => ?_
  obtain ⟨rfl, known⟩ := facts
  refine ensures_ite.mpr ⟨fun emitted => absurd (known.mp emitted) fresh, fun _ => ?_⟩
  refine (firstEmission_ensures plan concept).bind fun phrase middle facts => ?_
  obtain ⟨use, opened, -, ran⟩ := facts
  obtain ⟨nested, -, rfl⟩ := (emitConcept_ensures copyable (copyable.special rfl concept)).of_ok ran
  obtain ⟨colon, -, tokens⟩ := reread_conceptPhrase copyable concept use
    (designated opened.markers (conceptDesignator (model.concept concept))).1 nested
  rw [ensures_bind]
  refine .intro fun links after _ => ?_
  simp only [ensures_pure, List.flatMap_singleton, statement, Phrase.reread_append, tokens,
    List.cons_append]
  exact ⟨_, _, rfl, rfl, fun same => by cases same⟩

/-- Where a graph has no visible concepts, no statement of a relation begins with a label. -/
theorem remainingStatement_opens (copyable : model.Copyable source .linear)
    (mirrors : Mirrors model .linear setting inner (graph :: outer))
    (onDemand : setting.options.createTypesOnDemand = true)
    (stands : (model.relation relation).graph = some graph)
    (none : ∀ concept, (model.concept concept).graph = some graph →
      (model.concept concept).hidden = true) :
    Ensures (remainingStatement model inner plan relation) writer fun items _ =>
      items = [] ∨ OpensGraph (items.flatMap (Phrase.reread .linear)) := by
  have opens : ∀ phrase : Phrase, OpensGraph (phrase.reread .linear) →
      [statement phrase] = [] ∨
        OpensGraph ([statement phrase].flatMap (Phrase.reread .linear)) := by
    intro phrase opens
    rw [List.flatMap_singleton, statement, Phrase.reread_append]
    exact .inr (opens.append _)
  unfold remainingStatement
  rw [ensures_bind, ensures_get]
  refine ensures_ite.mpr ⟨fun _ => .inl rfl, fun unknown => ?_⟩
  have unwritten : relation ∉ writer.written := by simpa using unknown
  refine ensures_ite.mpr ⟨fun negative => ?_, fun other => ?_⟩
  · exact (negation_readsItem copyable mirrors unwritten stands negative).bind
      fun phrase after item => opens phrase (item.opensGraph rfl (by decide))
  obtain ⟨type, label, links⟩ := copyable.exists_links stands (Bool.eq_false_iff.mpr other)
  refine ensures_ite.mpr ⟨fun active => ?_, fun _ => ?_⟩
  · have acts : (model.relation relation).role ≠ .relation := fun role => by
      simp [Relation.isActor, role] at active
    have acted : Ensures (actor model inner relation) writer fun phrase after =>
        ReadsItem model setting graph outer .leftAngle (fun room place =>
          Read.relationInto place (Read.actor setting room (some place))) writer after
            (phrase.reread .linear) := actor_readsItem copyable onDemand links acts
    exact acted.bind fun phrase after item => opens phrase (item.opensGraph rfl (by decide))
  · unfold relationFrom
    split
    · simp only [markWritten, ensures_bind, ensures_modify, ensures_pure]
      refine (relationNode_achieves links : Achieves _ (writer.begin relation) _).ensures.mono
        fun node after facts => ?_
      exact opens node ⟨_, _, facts.2, rfl, fun _ => ⟨label, _, rfl⟩⟩
    · next head others args =>
      obtain ⟨here, plain⟩ := links.args head (by simp [args])
      exact plain.not_hidden (none head here)

/-- A relation or actor that has not been written is a statement. -/
theorem remainingStatement_empty (relation : RelationId) (writer : Writer) :
    Ensures (remainingStatement model inner plan relation) writer fun items after =>
      items = [] → after = writer ∧ relation ∈ writer.written := by
  unfold remainingStatement
  rw [ensures_bind, ensures_get]
  refine ensures_ite.mpr ⟨fun known _ => ⟨rfl, by simpa using known⟩, fun unknown => ?_⟩
  refine ensures_ite.mpr ⟨fun _ => ?_, fun _ => ensures_ite.mpr ⟨fun _ => ?_, fun _ => ?_⟩⟩ <;>
    · rw [ensures_bind]
      exact .intro fun _ _ _ empty => absurd empty (List.cons_ne_nil _ _)

/-- Where all items of several arguments begin a graph, they do so together. -/
theorem concat_opens {α : Type} {step : α → Write (List Phrase)} {arguments : List α}
    (each : ∀ argument ∈ arguments, ∀ writer, Ensures (step argument) writer fun items _ =>
      items = [] ∨ OpensGraph (items.flatMap (Phrase.reread .linear))) :
    Ensures (concat step arguments) writer fun items _ =>
      items = [] ∨ OpensGraph (items.flatMap (Phrase.reread .linear)) := by
  induction arguments generalizing writer with
  | nil => exact .inl rfl
  | cons argument others ih =>
      unfold concat
      refine (each argument (List.mem_cons_self ..) writer).bind fun items middle first => ?_
      refine (ih fun other member => each other (List.mem_cons_of_mem _ member)).bind
        fun more after rest => ?_
      rcases first with rfl | opens
      · exact rest
      · rw [ensures_pure, List.flatMap_append]
        exact .inr (opens.append _)

/-- A graph in the linear form begins as an item, if anything is written for it. -/
theorem linearGraph_opens (copyable : model.Copyable source .linear)
    (mirrors : Mirrors model .linear setting inner (graph :: outer))
    (onDemand : setting.options.createTypesOnDemand = true)
    (untouched : model.Untouched writer graph) :
    Ensures (linearGraph model inner graph) writer fun phrases _ =>
      (phrases = [] → ¬model.IsInhabited graph) ∧ ∀ items, phrases = comments model graph ++ items →
        items ≠ [] → OpensGraph (items.flatMap (Phrase.reread .linear)) := by
  have listed := copyable.sound.listed
  have concepts : Ensures (concat (conceptStatement model inner (Plan.ofGraph model graph))
      (Plan.ofGraph model graph).order) writer fun items after =>
        OpensGraph (items.flatMap (Phrase.reread .linear)) ∨
          items = [] ∧ after = writer ∧ (Plan.ofGraph model graph).order = [] := by
    have stand : ∀ concept ∈ (Plan.ofGraph model graph).order,
        concept ∉ writer.order := fun concept member before => untouched.concepts concept before
      ((listed.mem_concepts graph concept).mp (Plan.mem_order.mp member).1)
    generalize (Plan.ofGraph model graph).order = order at stand ⊢
    cases order with
    | nil => exact .inr ⟨rfl, rfl, rfl⟩
    | cons concept others =>
        unfold concat
        refine (conceptStatement_opens copyable (stand concept (List.mem_cons_self ..))).bind
          fun items middle opens => ?_
        rw [ensures_bind]
        refine .intro fun more after _ => ?_
        rw [ensures_pure, List.flatMap_append]
        exact .inl (opens.append _)
  unfold linearGraph
  refine concepts.bind fun front middle opened => ?_
  -- A graph without a visible concept begins with what is left of its relations.
  rcases opened with opens | ⟨rfl, rfl, none⟩
  · rw [ensures_bind]
    refine .intro fun back after _ => ?_
    have some : front ≠ [] := fun empty => by
      obtain ⟨first, others, same, -⟩ := opens
      rw [empty] at same
      cases same
    refine ⟨fun empty => ?_, fun items same _ => ?_⟩
    · exact absurd (List.append_eq_nil_iff.mp (List.append_eq_nil_iff.mp empty).1).2 some
    · rw [List.append_assoc] at same
      rw [← List.append_cancel_left same, List.flatMap_append]
      exact opens.append _
  · have hidden : ∀ concept, (model.concept concept).graph = some graph →
        (model.concept concept).hidden = true := by
      intro concept stands
      by_contra visible
      have member := Plan.mem_order.mpr ⟨(listed.mem_concepts graph concept).mpr stands,
        Bool.eq_false_iff.mpr visible⟩
      rw [none] at member
      cases member
    refine ((concat_empty remainingStatement_empty _).and (concat_opens
      fun relation member writer => remainingStatement_opens copyable mirrors onDemand
        ((listed.mem_relations graph relation).mp member) hidden)).bind fun back after facts => ?_
    obtain ⟨empty, opens⟩ := facts
    rw [ensures_pure, List.append_nil]
    refine ⟨fun nothing => ?_, fun items same some => ?_⟩
    · obtain ⟨silent, last⟩ := List.append_eq_nil_iff.mp nothing
      exact not_isInhabited copyable (List.map_eq_nil_iff.mp silent) (by simp [none])
        fun relation member => untouched.relations relation ((empty last).2 relation member)
    · rw [← List.append_cancel_left same] at some ⊢
      exact opens.resolve_left some

end Write

end ConceptualGraph
