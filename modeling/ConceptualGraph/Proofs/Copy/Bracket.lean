/-
Module: ConceptualGraph.Proofs.Copy.Bracket
Purpose: The nodes of a graph in the interchange form are read back as they are written.
Main exports: Write.emitConcept_proceeds, Write.relationItems_ensures,
  Write.conceptItems_ensures, Write.bracketGraph_ensures
-/
import ConceptualGraph.Proofs.Copy.Items
import ConceptualGraph.Proofs.Writing.Plan
import ConceptualGraph.Writing.Bracket

namespace ConceptualGraph

open Phrase (mark ofToken space)

/-! ## Going on -/

namespace Write

variable {model : Model} {source form : Notation} {setting : Setting} {inner : Inner}
  {writer opened : Writer} {graph : GraphId} {outer : List GraphId} {concept : ConceptId}
  {use : Option LabelUse}

/-- The graph that a concept describes is written before the writer goes on. -/
theorem nestedGraphs_proceeds (mirrors : Mirrors model form setting inner outer)
    (described : Option GraphId) :
    Ensures (nestedGraphs inner described) writer fun _ after => writer.Proceeds model after := by
  cases described with
  | none => exact .refl writer
  | some id =>
      refine nestedGraphs_ensures.mono fun nested after facts => ?_
      obtain ⟨items, last, ran, rfl, rfl⟩ := facts
      intro counted
      obtain ⟨onward, still⟩ := (mirrors.proceeds id _).of_ok ran counted
      exact ⟨⟨onward.emitted, onward.markers, onward.written⟩, still⟩

/-- Writing a designator counts out at most one identifier. -/
theorem designated_proceeds (copyable : model.Copyable source form)
    (inside : concept.index < model.concepts.size) :
    writer.Proceeds model (writer.withMarkers
      (designated writer.markers (conceptDesignator (model.concept concept))).2) := by
  cases designates : conceptDesignator (model.concept concept) with
  | none => exact .refl writer
  | some value =>
      cases value with
      | literal value => exact .refl writer
      | name text => exact .refl writer
      | defined id => exact .refl writer
      | marker id =>
          rintro ⟨table, copies, paired⟩
          obtain ⟨referent, described, same⟩ := Option.bind_eq_some_iff.mp designates
          have known : id.index < model.markers :=
            ((copyable.conceptSound inside).referent referent described).designator _ same
          have made : ({ markers := copies } : Model).markers = copies := rfl
          obtain ⟨_, count, later, -, still, -, grown, -, -⟩ :=
            paired.step known copyable.markers made
          exact ⟨⟨List.suffix_rfl, grown, List.Subset.refl _⟩, later, count, still⟩

/-- A concept that is written moves the writer on by what the order of the graphs allows. -/
theorem emitConcept_proceeds (copyable : model.Copyable source form)
    (mirrors : Mirrors model form setting inner outer)
    (inside : concept.index < model.concepts.size) :
    Ensures (emitConcept model inner concept use) writer fun _ after =>
      writer.Proceeds model after := by
  have emitted : writer.Proceeds model (writer.emit concept (use.map LabelUse.label)) :=
    .of_onward (.emit ..) rfl
  cases context : (model.concept concept).special with
  | none =>
      refine (emitConcept_ensures copyable context).mono fun phrase after facts => ?_
      obtain ⟨nested, ran, -⟩ := facts
      exact emitted.trans ((designated_proceeds copyable inside).trans
        ((nestedGraphs_proceeds mirrors _).of_ok ran))
  | some special =>
      refine (emitContext_ensures form context).mono fun phrase after facts => ?_
      obtain ⟨nested, ran, -⟩ := facts
      exact emitted.trans ((nestedGraphs_proceeds mirrors _).of_ok ran)

/-- The label that opens a concept writes nothing yet. -/
theorem opens_proceeds (opens : model.Opens writer concept use opened) :
    writer.Proceeds model opened := by
  obtain ⟨labels, rfl⟩ := opens.exists_labels
  exact .of_onward (.withLabels ..) rfl

/-- A concept is written for the first time with the label that is found for it. -/
theorem firstEmission_ensures (plan : Plan) (concept : ConceptId) :
    Ensures (firstEmission model inner plan concept) writer fun phrase after =>
      ∃ use opened, model.Opens writer concept use opened ∧
        emitConcept model inner concept use opened = .ok phrase after := by
  unfold firstEmission
  refine (openLabel_achieves concept _).ensures.bind fun use opened opens => ?_
  exact .intro fun phrase after ran => ⟨use, opened, opens, ran⟩

end Write

/-! ## Arguments -/

section Arguments

variable {model : Model} {source form : Notation} {setting : Setting} {inner : Inner}
  {writer opened after : Writer} {graph : GraphId} {outer : List GraphId} {concept : ConceptId}
  {use : Option LabelUse} {label : String} {phrase : Phrase}

/-- An argument that is referred to. -/
theorem ReadsArg.of_label (copyable : model.Copyable source form)
    (stands : (model.concept concept).graph = some graph)
    (plain : (model.concept concept).IsPlain) (refers : model.Refers writer concept label) :
    ReadsArg model form setting graph outer writer writer concept [.boundLabel label] where
  proceeds := .refl writer
  begins := .inr ⟨label, [], rfl⟩
  reads unfinished reader rest brackets place tracks within ready there starts fits := by
    obtain ⟨other, names, denotes⟩ := tracks.denotes copyable within stands plain refers
    have beside := tracks.beside copyable stands there names
    refine .of_achieves tracks.first ?_
    simp only [Read.arc, achieves_bind, Read.achieves_peek, Reader.token_ahead_zero starts,
      Read.achieves_located, Read.achieves_advance]
    refine (Read.resolve_achieves denotes beside : Achieves _ reader.next _).mono
      fun copy later facts => ?_
    obtain ⟨rfl, rfl⟩ := facts
    exact ⟨copy, rfl, .of_past tracks (.next reader) (Reader.tail_tokens starts), .inr names⟩

/-- An argument that is written where it stands. -/
theorem ReadsArg.of_concept (copyable : model.Copyable source form)
    (mirrors : Mirrors model form setting inner (graph :: outer))
    (onDemand : setting.options.createTypesOnDemand = true) (fresh : concept ∉ writer.order)
    (stands : (model.concept concept).graph = some graph)
    (plain : (model.concept concept).IsPlain) (opens : model.Opens writer concept use opened)
    (ran : Write.emitConcept model inner concept use opened = .ok phrase after) :
    ReadsArg model form setting graph outer writer after concept (phrase.reread form) where
  proceeds := (Write.opens_proceeds opens).trans ((Write.emitConcept_proceeds copyable mirrors
    (Model.lt_of_graph stands)).of_ok ran)
  begins := by
    obtain ⟨nested, -, rfl⟩ := (Write.emitConcept_ensures copyable plain.2).of_ok ran
    obtain ⟨colon, -, tokens⟩ := Write.reread_conceptPhrase copyable concept use _ nested
    exact .inl ⟨_, tokens⟩
  reads unfinished reader rest brackets place tracks within ready there starts fits := by
    obtain ⟨nested, -, rfl⟩ := (Write.emitConcept_ensures copyable plain.2).of_ok ran
    obtain ⟨colon, -, tokens⟩ := Write.reread_conceptPhrase copyable concept use
      (Write.designated opened.markers
        (Write.conceptDesignator (model.concept concept))).1 nested
    have bracket : (reader.ahead 0).token = .punct .leftBracket := by
      rw [Reader.token_ahead, starts, tokens]
      rfl
    unfold Read.arc
    rw [Read.outcome_peek, bracket]
    refine (Read.concept_outcome copyable mirrors tracks within ready fresh stands plain there
      onDemand opens ran starts fits).mono fun copy later _ facts => ?_
    obtain ⟨id, rfl, reads, -, copies⟩ := facts
    exact ⟨id, rfl, reads, .inl copies⟩

end Arguments

namespace Write

variable {model : Model} {source form : Notation} {setting : Setting} {inner : Inner}
  {plan : Plan} {writer : Writer} {graph : GraphId} {outer : List GraphId} {concept : ConceptId}
  {relation : RelationId} {type : RelationType} {label : String}

/-- A concept has been emitted if the writer has it in its order. -/
theorem isEmitted_achieves : Achieves (isEmitted concept) writer fun answer later =>
    later = writer ∧ (answer = true ↔ concept ∈ writer.order) := by
  simp only [isEmitted, achieves_bind, achieves_get, achieves_pure, true_and,
    List.lookup_isSome_iff, Writer.order, List.mem_map, beq_iff_eq]
  exact exists_congr fun entry => and_congr_right fun _ => eq_comm

/-- A reference is read back. -/
theorem reference_readsArg (setting : Setting) (outer : List GraphId)
    (copyable : model.Copyable source form)
    (stands : (model.concept concept).graph = some graph)
    (plain : (model.concept concept).IsPlain) :
    Ensures (reference model concept) writer fun phrase after =>
      ReadsArg model form setting graph outer writer after concept (phrase.reread form) := by
  refine reference_ensures.mono fun phrase after facts => ?_
  obtain ⟨rfl, label, rfl, refers⟩ := facts
  exact .of_label copyable stands plain refers

/-- An argument of a relation is read back. -/
theorem argument_ensures (copyable : model.Copyable source form)
    (mirrors : Mirrors model form setting inner (graph :: outer))
    (onDemand : setting.options.createTypesOnDemand = true)
    (stands : (model.concept concept).graph = some graph)
    (plain : (model.concept concept).IsPlain) :
    Ensures (argument model inner plan concept) writer fun written after =>
      ReadsArg model form setting graph outer writer after concept
        (written.phrase.reread form) := by
  unfold argument
  refine isEmitted_achieves.ensures.bind fun emitted later facts => ?_
  obtain ⟨rfl, known⟩ := facts
  cases emitted with
  | true =>
      exact ensures_bind.mpr (reference_readsArg setting outer copyable stands plain)
  | false =>
      have fresh : concept ∉ later.order := fun before => by simpa using known.mpr before
      refine (firstEmission_ensures plan concept).bind fun phrase after facts => ?_
      obtain ⟨use, opened, opens, ran⟩ := facts
      exact .of_concept copyable mirrors onDemand fresh stands plain opens ran

/-- Arguments of a relation are read back one after the other. -/
theorem concat_argument (copyable : model.Copyable source form)
    (mirrors : Mirrors model form setting inner (graph :: outer))
    (onDemand : setting.options.createTypesOnDemand = true) {args : List ConceptId}
    (stand : ∀ concept ∈ args, (model.concept concept).graph = some graph ∧
      (model.concept concept).IsPlain) :
    Ensures (concat (fun concept => return [← argument model inner plan concept]) args) writer
      fun written after => ReadsArgs model form setting graph outer writer after args
        (written.flatMap fun argument => argument.phrase.reread form) := by
  induction args generalizing writer with
  | nil => exact .nil writer
  | cons concept others ih =>
      obtain ⟨stands, plain⟩ := stand concept (List.mem_cons_self ..)
      unfold concat
      simp only [bind_assoc, pure_bind]
      refine (argument_ensures copyable mirrors onDemand stands plain).bind
        fun first middle reads => ?_
      refine (ih fun other member => stand other (List.mem_cons_of_mem _ member)).bind
        fun rest after more => ?_
      exact .cons reads more

/-- Whether a concept may be written without a label where a relation begins with it. -/
def Inlines (model : Model) (writer : Writer) (inlined : Option ConceptId) : Prop :=
  ∀ concept, inlined = some concept → concept ∉ writer.order ∧ model.sharedSet? concept = none

/-- The arguments of a relation are read back. -/
theorem arguments_ensures (copyable : model.Copyable source form)
    (mirrors : Mirrors model form setting inner (graph :: outer))
    (onDemand : setting.options.createTypesOnDemand = true) {args : List ConceptId}
    {inlined : Option ConceptId} (inlines : Inlines model writer inlined)
    (stand : ∀ concept ∈ args, (model.concept concept).graph = some graph ∧
      (model.concept concept).IsPlain) :
    Ensures (arguments model inner plan inlined args) writer fun written after =>
      ReadsArgs model form setting graph outer writer after args
        (written.flatMap fun argument => argument.phrase.reread form) := by
  cases args with
  | nil => exact .nil writer
  | cons first others =>
      obtain ⟨stands, plain⟩ := stand first (List.mem_cons_self ..)
      have ended : ∀ (written : List Argument) (middle : Writer),
          ReadsArgs model form setting graph outer writer middle [first]
            (written.flatMap fun argument => argument.phrase.reread form) →
          Ensures (do
            let rest ← concat (fun concept => return [← argument model inner plan concept]) others
            return written ++ rest) middle fun written after =>
              ReadsArgs model form setting graph outer writer after (first :: others)
                (written.flatMap fun argument => argument.phrase.reread form) := by
        intro written middle reads
        refine (concat_argument copyable mirrors onDemand fun other member =>
          stand other (List.mem_cons_of_mem _ member)).bind fun rest after more => ?_
        rw [ensures_pure, List.flatMap_append]
        exact reads.append more
      unfold arguments
      refine ensures_ite.mpr ⟨fun same => ?_, fun _ => ?_⟩
      · obtain ⟨fresh, alone⟩ := inlines first same
        rw [ensures_bind]
        refine .intro fun phrase middle ran => ended _ middle ?_
        exact .cons (.of_concept copyable mirrors onDemand fresh stands plain (.unlabelled alone)
          ran) (.nil middle)
      · refine (concat_argument copyable mirrors onDemand fun concept member => ?_).bind ended
        rw [List.mem_singleton.mp member]
        exact ⟨stands, plain⟩

end Write

/-! ## Relations and actors -/

namespace Write

variable {model : Model} {source form : Notation} {setting : Setting} {inner : Inner}
  {plan : Plan} {writer after : Writer} {graph : GraphId} {outer : List GraphId}
  {concept : ConceptId} {relation : RelationId} {type : RelationType} {label : String}

/-- The type of a relation is written as its label. -/
theorem relationType_eq (links : model.Links form graph relation type label) :
    relationType model inner relation = pure (ofToken (.ident label)) := by
  simp only [relationType, links.typed, links.named]

/-- The tokens that a relation or actor is read back as: its label, its arguments and its comment
between brackets. -/
theorem reread_relationPhrase (links : model.Links form graph relation type label)
    (args : List Argument) :
    (relationPhrase model relation (ofToken (.ident label)) args).reread form =
      .punct .leftParen :: .ident label :: (args.flatMap (fun arg => arg.phrase.reread form) ++
        ((comment .relation (model.relation relation).comment).reread form ++
          [.punct .rightParen])) := by
  have each : Phrase.reread form (args.flatMap fun arg => space ++ arg.phrase) =
      args.flatMap fun arg => arg.phrase.reread form := by
    induction args with
    | nil => rfl
    | cons arg args ih => simp [ih]
  simp [relationPhrase, each, links.word.reread]

/-- A relation is read back as an item. -/
theorem relationPhrase_readsItems (links : model.Links .cgif graph relation type label)
    (passive : (model.relation relation).role = .relation)
    (onDemand : setting.options.createTypesOnDemand = true) {args : List Argument}
    (reads : ReadsArgs model .cgif setting graph outer (writer.begin relation) after
      (model.relation relation).args (args.flatMap fun arg => arg.phrase.reread .cgif)) :
    ReadsItems model .cgif setting graph outer writer after
      [relationPhrase model relation (ofToken (.ident label)) args] := by
  have tokens := reread_relationPhrase links args
  have item : ReadsItem model setting graph outer .leftParen
      (fun room place => Read.firstOf (Read.bracketProductions setting room place)) writer after
        ((relationPhrase model relation (ofToken (.ident label)) args).reread .cgif) := by
    refine ⟨(Writer.Proceeds.begin writer relation).trans reads.proceeds, ⟨_, tokens⟩,
      fun unfinished reader rest brackets place tracks within idle there starts fits => ?_⟩
    simp only [tokens, List.cons_append, List.append_assoc, List.nil_append] at starts
    exact Read.firstOf_relation (Reader.token_ahead_zero starts)
      (Read.relation_outcome links passive reads tracks within idle there onDemand starts fits)
  refine .single ?_ item
  rw [tokens]
  exact ⟨_, _, rfl, rfl, fun _ => ⟨label, _, rfl⟩⟩

/-- Whether the relations that a plan lets follow a concept stand in a graph and do not
negate. -/
def Follows (model : Model) (graph : GraphId) (plan : Plan) : Prop :=
  ∀ concept, ∀ relation ∈ plan.primary concept, (model.relation relation).graph = some graph ∧
    model.isNegation relation = false ∧ (model.relation relation).role = .relation

/-- A relation and those that follow it are read back. -/
theorem relationItems_ensures (copyable : model.Copyable source .cgif)
    (mirrors : Mirrors model .cgif setting inner (graph :: outer))
    (onDemand : setting.options.createTypesOnDemand = true) (follows : Follows model graph plan)
    (steps : Nat) {inlined : Option ConceptId} (inlines : Inlines model writer inlined)
    (stands : (model.relation relation).graph = some graph)
    (positive : model.isNegation relation = false)
    (passive : (model.relation relation).role = .relation) :
    Ensures (relationItems model inner plan steps inlined relation) writer fun items after =>
      ReadsItems model .cgif setting graph outer writer after items := by
  induction steps generalizing writer inlined relation with
  | zero => exact .nil writer
  | succ steps ih =>
      obtain ⟨type, label, links⟩ := copyable.exists_links stands positive
      unfold relationItems
      rw [ensures_bind, ensures_get]
      refine ensures_ite.mpr ⟨fun _ => .nil writer, fun _ => ?_⟩
      simp only [markWritten, ensures_bind, ensures_modify, relationType_eq links, ensures_pure]
      have begun : Inlines model (writer.begin relation) inlined := inlines
      refine (arguments_ensures copyable mirrors onDemand begun links.args).mono
        fun args middle reads => ?_
      have first := relationPhrase_readsItems links passive onDemand reads
      have others : ∀ introduced writer, Ensures (do
          concat (relationItems model inner plan steps none)
            (← unwritten (plan.primary introduced)))
          writer fun items after =>
            ReadsItems model .cgif setting graph outer writer after items := by
        intro introduced writer
        simp only [unwritten, ensures_bind, ensures_get, ensures_pure]
        refine concat_readsItems fun next member writer => ?_
        obtain ⟨stands, positive, passive⟩ :=
          follows introduced next (List.mem_of_mem_filter member)
        exact ih (fun _ same => by cases same) stands positive passive
      exact (concat_readsItems fun introduced _ => others introduced).mono
        fun following after rest => first.append rest

/-! ## Actors and negations -/

/-- The arguments of an actor are read back. -/
theorem actorArgs_ensures (setting : Setting) (outer : List GraphId)
    (copyable : model.Copyable source form) {args : List ConceptId}
    (stand : ∀ concept ∈ args, (model.concept concept).graph = some graph ∧
      (model.concept concept).IsPlain) :
    Ensures (actorArgs model args) writer fun phrase after =>
      ReadsArgs model form setting graph outer writer after args (phrase.reread form) := by
  unfold actorArgs
  induction args generalizing writer with
  | nil => exact .nil writer
  | cons concept others ih =>
      obtain ⟨stands, plain⟩ := stand concept (List.mem_cons_self ..)
      unfold concat
      simp only [bind_assoc, pure_bind]
      refine (reference_readsArg setting outer copyable stands plain).bind
        fun first middle reads => ?_
      refine (ih fun other member => stand other (List.mem_cons_of_mem _ member)).bind
        fun rest after more => ?_
      simp only [ensures_pure, Phrase.reread_append, Phrase.reread_space, List.nil_append]
      exact .cons reads more

/-- An actor is read back. -/
theorem actor_readsItem (copyable : model.Copyable source form)
    (onDemand : setting.options.createTypesOnDemand = true)
    (links : model.Links form graph relation type label)
    (active : (model.relation relation).role ≠ .relation) :
    Ensures (actor model inner relation) writer fun phrase after =>
      ReadsItem model setting graph outer .leftAngle (fun room place =>
        Read.relationInto place (Read.actor setting room (some place))) writer after
          (phrase.reread form) := by
  obtain ⟨outputsFrom, role⟩ :
    ∃ outputsFrom, (model.relation relation).role = .actor outputsFrom := by
    cases role : (model.relation relation).role with
    | relation => exact absurd role active
    | actor outputsFrom => exact ⟨outputsFrom, rfl⟩
  have ins : ∀ concept ∈ (model.relation relation).inputs,
      (model.concept concept).graph = some graph ∧ (model.concept concept).IsPlain :=
    fun concept member => links.args concept (by
      simp only [Relation.inputs, role] at member
      exact List.mem_of_mem_take member)
  have outs : ∀ concept ∈ (model.relation relation).outputs,
      (model.concept concept).graph = some graph ∧ (model.concept concept).IsPlain :=
    fun concept member => links.args concept (by
      simp only [Relation.outputs, role] at member
      exact List.mem_of_mem_drop member)
  unfold actor
  simp only [markWritten, ensures_bind, ensures_modify, relationType_eq links, ensures_pure]
  refine (actorArgs_ensures setting outer copyable ins : Ensures _ (writer.begin relation) _).mono
    fun inputs middle first => ?_
  refine (actorArgs_ensures setting outer copyable outs).mono fun outputs after second => ?_
  refine ⟨(Writer.Proceeds.begin writer relation).trans (first.proceeds.trans second.proceeds),
    ?_, fun unfinished reader rest brackets place tracks within idle there starts fits => ?_⟩
  · simp only [Phrase.reread_append, Phrase.reread_mark, List.cons_append, List.nil_append]
    exact ⟨_, rfl⟩
  · simp only [Phrase.reread_append, Phrase.reread_mark, Phrase.reread_ofToken, links.word.reread,
      Phrase.reread_space, List.cons_append, List.append_assoc, List.nil_append] at starts
    exact Read.actor_outcome links role first second tracks within idle there onDemand starts fits

/-- A negation is read back. -/
theorem negation_readsItem (copyable : model.Copyable source form)
    (mirrors : Mirrors model form setting inner (graph :: outer))
    (unwritten : relation ∉ writer.written)
    (stands : (model.relation relation).graph = some graph)
    (negative : model.isNegation relation = true) :
    Ensures (negation model inner relation) writer fun phrase after =>
      ReadsItem model setting graph outer .tilde (fun room place =>
        Read.relationInto place (Read.negation setting room place)) writer after
          (phrase.reread form) := by
  refine .intro fun phrase after ran => ?_
  obtain ⟨wrapper, -, negates, wraps, -⟩ := copyable.exists_wrapper negative
  obtain ⟨id, describes, -⟩ := wraps.descriptor?
  obtain ⟨nested, wrote, tokens⟩ := (negation_ensures form negates describes).of_ok ran
  refine ⟨?_, ?_,
    fun unfinished reader rest brackets place tracks within idle there starts fits => ?_⟩
  · have emitted : (writer.begin relation).Proceeds model
        ((writer.begin relation).emit wrapper none) := .of_onward (.emit ..) rfl
    exact (Writer.Proceeds.begin writer relation).trans
      (emitted.trans ((nestedGraphs_proceeds mirrors _).of_ok wrote))
  · rw [tokens]
    exact ⟨_, rfl⟩
  · have achieves := Read.negation_achieves copyable mirrors tracks within idle
      unwritten stands negative there ran starts fits
    have nested := copyable.setless_of_descriptor? describes
    exact .of_achieves (Model.definedFirst_of_setless nested _) achieves

/-! ## Concepts -/

/-- A concept is read back as an item. -/
theorem emitConcept_readsItems (copyable : model.Copyable source .cgif)
    (mirrors : Mirrors model .cgif setting inner (graph :: outer))
    (onDemand : setting.options.createTypesOnDemand = true) (fresh : concept ∉ writer.order)
    (stands : (model.concept concept).graph = some graph)
    (visible : (model.concept concept).hidden = false) {use : Option LabelUse} {opened : Writer}
    (opens : model.Opens writer concept use opened) :
    Ensures (emitConcept model inner concept use) opened fun phrase after =>
      ReadsItems model .cgif setting graph outer writer after [phrase] := by
  refine .intro fun phrase after ran => ?_
  have proceeds := (opens_proceeds opens).trans
    ((emitConcept_proceeds copyable mirrors (Model.lt_of_graph stands)).of_ok ran)
  cases context : (model.concept concept).special with
  | none =>
      obtain ⟨nested, -, rfl⟩ := (emitConcept_ensures copyable context).of_ok ran
      obtain ⟨colon, -, tokens⟩ := reread_conceptPhrase copyable concept use
        (designated opened.markers (conceptDesignator (model.concept concept))).1 nested
      have item : ReadsItem model setting graph outer .leftBracket
          (fun room place => Read.firstOf (Read.bracketProductions setting room place)) writer after
            ((conceptPhrase model concept use (designated opened.markers
              (conceptDesignator (model.concept concept))).1 nested).reread .cgif) :=
        ⟨proceeds, ⟨_, tokens⟩, fun unfinished reader rest brackets place tracks within idle there
          starts fits => Read.firstOf_concept ((Read.concept_outcome copyable mirrors tracks within
            idle.waiting fresh stands ⟨visible, context⟩ there onDemand opens ran starts fits).mono
              fun copy later _ facts => by
                obtain ⟨id, rfl, reads, -⟩ := facts
                exact ⟨id, rfl, reads⟩)⟩
      exact .single (item.opensGraph rfl (by decide)) item
  | some special =>
      obtain ⟨nested, -, tokens⟩ := (emitContext_ensures .cgif context).of_ok ran
      have item : ReadsItem model setting graph outer .leftBracket
          (fun room place => Read.firstOf (Read.bracketProductions setting room place)) writer after
            (phrase.reread .cgif) := by
        refine ⟨proceeds, ⟨_, tokens⟩,
          fun unfinished reader rest brackets place tracks within idle there starts fits => ?_⟩
        obtain ⟨⟨label, others, first⟩, achieves⟩ := Read.specialContext_achieves copyable mirrors
          tracks within idle.waiting fresh stands context there opens ran starts fits
        obtain ⟨_, last, _, id, _, done, _⟩ := achieves.exists_ok
        refine Read.firstOf_context first done.tracks.first
          (achieves.mono fun copy later facts => ?_)
        obtain ⟨id, rfl, reads, -⟩ := facts
        exact ⟨id, rfl, reads⟩
      exact .single (item.opensGraph rfl (by decide)) item

/-- A concept and the relations that begin with it are read back. -/
theorem conceptItems_ensures (copyable : model.Copyable source .cgif)
    (mirrors : Mirrors model .cgif setting inner (graph :: outer))
    (onDemand : setting.options.createTypesOnDemand = true) (follows : Follows model graph plan)
    (stands : (model.concept concept).graph = some graph)
    (visible : (model.concept concept).hidden = false) :
    Ensures (conceptItems model inner plan concept) writer fun items after =>
      ReadsItems model .cgif setting graph outer writer after items := by
  have related : ∀ (steps : Nat) (inlined : Option ConceptId) (writer : Writer),
      Inlines model writer inlined → ∀ relation ∈ plan.primary concept,
      Ensures (relationItems model inner plan steps inlined relation) writer fun items after =>
        ReadsItems model .cgif setting graph outer writer after items := by
    intro steps inlined writer inlines relation member
    obtain ⟨stands, positive, passive⟩ := follows concept relation member
    exact relationItems_ensures copyable mirrors onDemand follows steps inlines stands positive
      passive
  have written : ∀ (use : Option LabelUse) (opened : Writer) (primaries : List RelationId),
      concept ∉ writer.order → model.Opens writer concept use opened →
      (∀ relation ∈ primaries, relation ∈ plan.primary concept) →
      Ensures (do
        let item ← emitConcept model inner concept use
        return item :: (← concat (relationItems model inner plan (relationSteps model) none)
          primaries)) opened fun items after =>
            ReadsItems model .cgif setting graph outer writer after items := by
    intro use opened primaries fresh opens among
    refine (emitConcept_readsItems copyable mirrors onDemand fresh stands visible opens).bind
      fun item middle first => ?_
    refine (concat_readsItems fun relation member writer =>
      related _ none writer (fun _ same => by cases same) relation (among relation member)).bind
        fun others after rest => ?_
    exact first.append rest
  unfold conceptItems
  refine isEmitted_achieves.ensures.bind fun emitted later facts => ?_
  obtain ⟨rfl, known⟩ := facts
  refine ensures_ite.mpr ⟨fun _ => .nil _, fun unknown => ?_⟩
  have fresh : concept ∉ later.order := fun before => unknown (known.mpr before)
  refine (openLabel_achieves concept _).ensures.bind fun use opened opens => ?_
  simp only [unwritten, ensures_bind, ensures_get, ensures_pure]
  have among : ∀ relation ∈ (plan.primary concept).filter
      fun relation => !opened.written.contains relation, relation ∈ plan.primary concept :=
    fun relation member => List.mem_of_mem_filter member
  split
  · next only same =>
    cases opens with
    | unlabelled alone =>
        refine related _ _ _ (fun _ same => ?_) only (among only (by
          rw [same]
          exact List.mem_singleton.mpr rfl))
        cases same
        exact ⟨fresh, alone⟩
  · exact written _ opened _ fresh opens among

/-- A relation or actor is read back. -/
theorem remainingItems_ensures (copyable : model.Copyable source .cgif)
    (mirrors : Mirrors model .cgif setting inner (graph :: outer))
    (onDemand : setting.options.createTypesOnDemand = true) (follows : Follows model graph plan)
    (stands : (model.relation relation).graph = some graph) :
    Ensures (remainingItems model inner plan relation) writer fun items after =>
      ReadsItems model .cgif setting graph outer writer after items := by
  unfold remainingItems
  rw [ensures_bind, ensures_get]
  refine ensures_ite.mpr ⟨fun _ => .nil writer, fun unknown => ?_⟩
  have unwritten : relation ∉ writer.written := by simpa using unknown
  refine ensures_ite.mpr ⟨fun negative => ?_, fun other => ensures_ite.mpr ⟨fun active => ?_,
    fun passive => ?_⟩⟩
  · exact ensures_bind.mpr ((negation_readsItem copyable mirrors unwritten stands negative).mono
      fun phrase after reads => .single (reads.opensGraph rfl (by decide))
        (reads.through Read.firstOf_negation))
  · obtain ⟨type, label, links⟩ := copyable.exists_links stands (Bool.eq_false_iff.mpr other)
    have acts : (model.relation relation).role ≠ .relation := fun role => by
      simp [Relation.isActor, role] at active
    exact ensures_bind.mpr ((actor_readsItem copyable onDemand links acts).mono
      fun phrase after reads => .single (reads.opensGraph rfl (by decide))
        (reads.through Read.firstOf_actor))
  · refine relationItems_ensures copyable mirrors onDemand follows _ (fun _ same => by cases same)
      stands (Bool.eq_false_iff.mpr other) ?_
    cases role : (model.relation relation).role with
    | relation => rfl
    | actor outputsFrom => simp [Relation.isActor, role] at passive

/-! ## Graphs -/

/-- The items of a graph after its comments are read back. -/
theorem bracketGraph_ensures (copyable : model.Copyable source .cgif)
    (mirrors : Mirrors model .cgif setting inner (graph :: outer))
    (onDemand : setting.options.createTypesOnDemand = true) :
    Ensures (bracketGraph model inner graph) writer fun phrases after => ∃ items,
      phrases = comments model graph ++ items ∧
        ReadsItems model .cgif setting graph outer writer after items := by
  have listed := copyable.sound.listed
  have follows : Follows model graph (Plan.ofGraph model graph) := fun concept relation member => by
    obtain ⟨link, passive, -⟩ := Plan.mem_primary.mp member
    obtain ⟨stands, positive⟩ := (Plan.mem_links listed).mp link
    exact ⟨stands, positive, passive⟩
  unfold bracketGraph
  refine (concat_readsItems fun concept member writer => ?_).bind fun concepts middle first =>
    (concat_readsItems fun relation member writer => ?_).bind fun relations after rest =>
      ⟨concepts ++ relations, List.append_assoc .., first.append rest⟩
  · obtain ⟨listing, visible⟩ := Plan.mem_order.mp member
    exact conceptItems_ensures copyable mirrors onDemand follows
      ((listed.mem_concepts graph concept).mp listing) visible
  · exact remainingItems_ensures copyable mirrors onDemand follows
      ((listed.mem_relations graph relation).mp member)

/-! ## Graphs of which nothing is written -/

/-- Where no item is written for several arguments, nothing is done for each of them. -/
theorem concat_empty {α : Type} {step : α → Write (List Phrase)} {done : Writer → α → Prop}
    (each : ∀ argument writer, Ensures (step argument) writer fun items after =>
      items = [] → after = writer ∧ done writer argument) (arguments : List α) :
    Ensures (concat step arguments) writer fun items after =>
      items = [] → after = writer ∧ ∀ argument ∈ arguments, done writer argument := by
  induction arguments generalizing writer with
  | nil => exact fun _ => ⟨rfl, by simp⟩
  | cons argument others ih =>
      unfold concat
      refine (each argument writer).bind fun items middle first => ?_
      refine ih.bind fun more after rest empty => ?_
      obtain ⟨none, nothing⟩ := List.append_eq_nil_iff.mp empty
      obtain ⟨rfl, here⟩ := first none
      obtain ⟨rfl, there⟩ := rest nothing
      exact ⟨rfl, List.forall_mem_cons.mpr ⟨here, there⟩⟩

/-- A relation that has not been written is an item. -/
theorem relationItems_nonempty (unwritten : relation ∉ writer.written) (steps : Nat)
    (inlined : Option ConceptId) :
    Ensures (relationItems model inner plan (steps + 1) inlined relation) writer
      fun items _ => items ≠ [] := by
  unfold relationItems
  rw [ensures_bind, ensures_get]
  refine ensures_ite.mpr ⟨fun known => absurd (by simpa using known) unwritten, fun _ => ?_⟩
  simp only [markWritten, ensures_bind, ensures_modify, ensures_pure]
  exact .intro fun _ _ _ => .intro fun _ _ _ => .intro fun _ _ _ => List.cons_ne_nil _ _

/-- A concept that writes nothing has been written before, and the writer is as it was. -/
theorem conceptItems_empty (concept : ConceptId) (writer : Writer) :
    Ensures (conceptItems model inner plan concept) writer fun items after =>
      items = [] → after = writer ∧ concept ∈ writer.order := by
  unfold conceptItems
  refine isEmitted_achieves.ensures.bind fun emitted later facts => ?_
  obtain ⟨rfl, known⟩ := facts
  refine ensures_ite.mpr ⟨fun emitted _ => ⟨rfl, known.mp emitted⟩, fun _ => ?_⟩
  refine (openLabel_achieves concept _).ensures.bind fun use opened _ => ?_
  simp only [Write.unwritten, ensures_bind, ensures_get, ensures_pure]
  split
  · next only same _ =>
    have fresh : only ∉ opened.written := by
      have member : only ∈ (plan.primary concept).filter
          fun relation => !opened.written.contains relation := by
        rw [same]
        exact List.mem_singleton.mpr rfl
      simpa using List.of_mem_filter member
    exact (relationItems_nonempty fresh _ _).mono fun _ _ nonempty empty => absurd empty nonempty
  · simp only [ensures_bind, ensures_pure]
    exact .intro fun _ _ _ => .intro fun _ _ _ empty => absurd empty (List.cons_ne_nil _ _)

/-- A relation that writes nothing has been written before, and the writer is as it was. -/
theorem remainingItems_empty (relation : RelationId) (writer : Writer) :
    Ensures (remainingItems model inner plan relation) writer fun items after =>
      items = [] → after = writer ∧ relation ∈ writer.written := by
  unfold remainingItems
  rw [ensures_bind, ensures_get]
  refine ensures_ite.mpr ⟨fun known _ => ⟨rfl, by simpa using known⟩, fun unknown => ?_⟩
  refine ensures_ite.mpr ⟨fun _ => ?_, fun _ => ensures_ite.mpr ⟨fun _ => ?_, fun _ => ?_⟩⟩
  · simp only [ensures_bind, ensures_pure]
    exact .intro fun _ _ _ empty => absurd empty (List.cons_ne_nil _ _)
  · simp only [ensures_bind, ensures_pure]
    exact .intro fun _ _ _ empty => absurd empty (List.cons_ne_nil _ _)
  · exact (relationItems_nonempty (by simpa using unknown) _ _).mono
      fun _ _ nonempty empty => absurd empty nonempty

/-- A graph of which no concept and no relation remains to be written has none. -/
theorem not_isInhabited (copyable : model.Copyable source form)
    (silent : (model.graph graph).comments = [])
    (concepts : ∀ concept ∈ (Plan.ofGraph model graph).order,
      (model.concept concept).graph ≠ some graph)
    (relations : ∀ relation ∈ (model.graph graph).relations,
      (model.relation relation).graph ≠ some graph) : ¬model.IsInhabited graph := by
  have listed := copyable.sound.listed
  have unrelated : ∀ relation, (model.relation relation).graph ≠ some graph :=
    fun relation stands =>
      relations relation ((listed.mem_relations graph relation).mpr stands) stands
  rintro (⟨concept, stands⟩ | ⟨relation, stands⟩ | spoken)
  · cases visible : (model.concept concept).hidden with
    | false =>
        exact concepts concept (Plan.mem_order.mpr
          ⟨(listed.mem_concepts graph concept).mpr stands, visible⟩) stands
    | true =>
        obtain ⟨relation, negates, -⟩ := (copyable.isWrapper visible).negation
        exact unrelated relation (negates.graph.trans stands)
  · exact unrelated relation stands
  · exact spoken silent

/-- A graph is written as nothing only if there is nothing in it. -/
theorem bracketGraph_empty (copyable : model.Copyable source .cgif)
    (untouched : model.Untouched writer graph) :
    Ensures (bracketGraph model inner graph) writer fun phrases _ =>
      phrases = [] → ¬model.IsInhabited graph := by
  unfold bracketGraph
  refine (concat_empty conceptItems_empty _).bind fun concepts middle first => ?_
  refine (concat_empty remainingItems_empty _).bind fun relations after rest => ?_
  intro empty
  obtain ⟨front, back⟩ := List.append_eq_nil_iff.mp empty
  obtain ⟨silent, nothing⟩ := List.append_eq_nil_iff.mp front
  obtain ⟨rfl, emitted⟩ := first nothing
  obtain ⟨-, written⟩ := rest back
  exact not_isInhabited copyable (List.map_eq_nil_iff.mp silent)
    (fun concept member => untouched.concepts concept (emitted concept member))
    fun relation member => untouched.relations relation (written relation member)

end Write

end ConceptualGraph
