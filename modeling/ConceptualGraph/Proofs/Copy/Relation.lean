/-
Module: ConceptualGraph.Proofs.Copy.Relation
Purpose: Relations and actors are read back with the arguments that they had.
Main exports: Model.Refers, ReadsArg, ReadsArgs, Read.relation_outcome, Read.actor_outcome
-/
import ConceptualGraph.Proofs.Copy.Context

namespace ConceptualGraph

open Phrase (mark ofToken space)

/-! ## References -/

/-- Whether a label refers to a concept: the one under which it has been written, or the
one by which it is known before that. -/
inductive Model.Refers (model : Model) (writer : Writer) (concept : ConceptId) :
    String → Prop where
  | written {label : String} (member : (concept, some label) ∈ writer.emitted) :
      Refers model writer concept label
  | known {label : String} (fresh : concept ∉ writer.order)
      (named : writer.labels.name? (.concept concept) = some label) :
      Refers model writer concept label
  | shared {set : CorefSetId} {label : String}
      (first : (model.concept concept).corefSets.head? = some set)
      (named : writer.labels.name? (.set set) = some label) :
      Refers model writer concept label

namespace Write

variable {model : Model} {writer : Writer} {concept : ConceptId}

/-- The label by which a concept is known is one that refers to it, and asking for it changes
nothing. -/
theorem knownLabel_ensures (fresh : concept ∉ writer.order) :
    Ensures (knownLabel model concept) writer fun label after =>
      after = writer ∧ model.Refers writer concept label := by
  unfold knownLabel
  rw [ensures_bind, ensures_get]
  cases first : (model.concept concept).corefSets.head? with
  | some set =>
      cases named : writer.labels.name? (.set set) with
      | some label =>
          simp only [named, ensures_pure, true_and]
          exact .shared first named
      | none =>
          simp only [named, ensures_throw]
  | none =>
      cases named : writer.labels.name? (.concept concept) with
      | some label =>
          simp only [named, ensures_pure, true_and]
          exact .known fresh named
      | none =>
          simp only [named, ensures_throw]

/-- A reference is a label that refers to the concept. -/
theorem reference_ensures :
    Ensures (reference model concept) writer fun phrase after =>
      after = writer ∧ ∃ label, phrase = ofToken (.boundLabel label) ∧
        model.Refers writer concept label := by
  unfold reference
  rw [ensures_bind, ensures_get]
  cases found : writer.emitted.lookup concept with
  | some label =>
      obtain ⟨front, back, same, -⟩ := List.lookup_eq_some_iff.mp found
      cases label with
      | some label =>
          simp only [ensures_pure, true_and]
          exact ⟨label, rfl, .written (by simp [same])⟩
      | none => simp only [ensures_throw]
  | none =>
      have fresh : concept ∉ writer.order := by
        rintro before
        obtain ⟨entry, member, same⟩ := List.mem_map.mp before
        exact absurd (List.lookup_eq_none_iff.mp found entry member) (by simp [same])
      simp only [ensures_bind, ensures_pure]
      refine (knownLabel_ensures fresh).mono fun label after facts => ?_
      obtain ⟨rfl, refers⟩ := facts
      exact ⟨rfl, label, rfl, refers⟩

end Write

/-! ## What labels of arguments denote -/

section Denoting

variable {model : Model} {source form : Notation} {unfinished : Unfinished} {writer : Writer}
  {reader : Reader} {graph place : GraphId} {outer : List GraphId} {concept : ConceptId}
  {label : String}

/-- A label that refers to a concept of the graph that is being read denotes the copy of the
concept that speaks for it. -/
theorem Tracks.denotes (tracks : Tracks model unfinished writer reader)
    (copyable : model.Copyable source form) (within : unfinished.graphs = graph :: outer)
    (stands : (model.concept concept).graph = some graph)
    (plain : (model.concept concept).IsPlain) (refers : model.Refers writer concept label) :
    ∃ other, (writer.ledger model).Names model concept other ∧
      reader.model.Denotes reader.labels.scope label other := by
  have framed : model.Framed writer.emitted (writer.ledger model) reader.model (graph :: outer)
      reader.labels.scope := within ▸ tracks.labels.framed
  cases refers with
  | written member => exact framed.1 concept label member stands plain.2
  | known fresh named =>
      have member : (.concept concept, label) ∈ writer.labels.names := by
        obtain ⟨front, back, same, -⟩ := List.lookup_eq_some_iff.mp named
        simp [same]
      exact absurd (tracks.labels.labelled.named _ _ member).2 fresh
  | @shared set _ first named =>
      have member : (.set set, label) ∈ writer.labels.names := by
        obtain ⟨front, back, same, -⟩ := List.lookup_eq_some_iff.mp named
        simp [same]
      obtain ⟨sharer, emitted, shares⟩ := (tracks.labels.labelled.named _ _ member).2
      have several := (Model.of_sharedSet? shares).2
      have also : model.sharedSet? concept = some set := by
        cases sets : (model.concept concept).corefSets with
        | nil => simp [sets] at first
        | cons head others =>
            obtain rfl : head = set := by simpa [sets] using first
            simp [Model.sharedSet?, sets, several]
      have shared : model.corefSets ≠ #[] := fun setless => by
        rw [Model.sharedSet?_of_setless setless] at also
        cases also
      obtain ⟨home, here, -⟩ := tracks.houses.housed sharer (List.mem_map_of_mem emitted)
      have beside : (model.concept sharer).graph = some graph := by
        rw [here, copyable.root_of_graph shared here, copyable.root_of_graph shared stands]
      obtain ⟨other, names, denotes⟩ := framed.1 sharer label emitted beside
        (copyable.isPlain_of_sharedSet? shares).2
      refine ⟨other, ?_, denotes⟩
      rwa [Ledger.Names, Model.spokesman_of_sharedSet? also,
        ← Model.spokesman_of_sharedSet? shares]

/-- The copy of the concept that speaks for another one stands beside the copy of that. -/
theorem Tracks.beside (tracks : Tracks model unfinished writer reader)
    (copyable : model.Copyable source form)
    (stands : (model.concept concept).graph = some graph)
    (there : (writer.ledger model).Graph graph place) {other : ConceptId}
    (names : (writer.ledger model).Names model concept other) :
    (reader.model.concept other).graph = some place := by
  have standing : (model.concept (model.spokesman concept)).graph = some graph := by
    cases shares : model.sharedSet? concept with
    | none => rwa [Model.spokesman_of_none shares]
    | some set =>
        have shared : model.corefSets ≠ #[] := fun setless => by
          rw [Model.sharedSet?_of_setless setless] at shares
          cases shares
        have before : model.spokesman concept ∈ writer.order := by
          simpa [Writer.ledger] using Ledger.Concept.mem names
        obtain ⟨home, here, -⟩ := tracks.houses.housed _ before
        rw [here, copyable.root_of_graph shared here, copyable.root_of_graph shared stands]
  obtain ⟨home, copied, here⟩ := tracks.nodes.stands _ other names graph standing
  rwa [tracks.graph_unique copyable copied there] at here

end Denoting

namespace Read

/-- A label that denotes a concept of the graph stands for that concept. -/
theorem resolve_achieves {reader : Reader} {found : Located} {label : String} {place : GraphId}
    {other : ConceptId} (denotes : reader.model.Denotes reader.labels.scope label other)
    (beside : (reader.model.concept other).graph = some place) :
    Achieves (resolve found label (some place)) reader fun copy later =>
      copy = other ∧ later = reader := by
  obtain ⟨target, bound, represents⟩ := denotes
  have encloses : reader.model.encloses place other = true := by
    simp [Model.encloses, beside]
  have defining : Achieves (definingConcept? label) reader fun known later =>
      known = some other ∧ later = reader := by
    simp only [definingConcept?, achieves_bind, achieves_labels, LabelTable.target?_eq, bound]
    cases target with
    | concept known => exact ⟨congrArg some represents, rfl⟩
    | set set => exact ⟨congrArg some represents.2, rfl⟩
  unfold resolve
  rw [achieves_bind]
  refine defining.mono fun known later facts => ?_
  obtain ⟨rfl, rfl⟩ := facts
  simp only [representative?, achieves_bind, achieves_model, encloses, if_true, achieves_pure]
  exact ⟨trivial, trivial⟩

end Read

/-! ## Arguments -/

/-- Whether tokens are those of an argument that is written when a state of writing is left
for another one, and are read back as a copy of it. -/
structure ReadsArg (model : Model) (form : Notation) (setting : Setting) (graph : GraphId)
    (outer : List GraphId) (writer after : Writer) (argument : ConceptId) (tokens : List Token) :
    Prop where
  proceeds : writer.Proceeds model after
  begins : (∃ others, tokens = .punct .leftBracket :: others) ∨
    ∃ label others, tokens = .boundLabel label :: others
  reads : ∀ unfinished reader rest brackets place, Tracks model unfinished writer reader →
    unfinished.graphs = graph :: outer → unfinished.waiting = [] →
    (writer.ledger model).Graph graph place → reader.tokens = tokens ++ rest →
    reader.tokens.length ≤ brackets →
      Outcome (model.DefinedFirst after.order)
        (Read.arc (Read.concept setting (Read.roomFor setting brackets)) (some place)) reader
        fun copy later => ∃ id, copy = some id ∧ Reads model unfinished after reader rest later ∧
          (after.ledger model).Cites model argument id

theorem ReadsArg.length_pos {model : Model} {form : Notation} {setting : Setting} {graph : GraphId}
    {outer : List GraphId} {writer after : Writer} {argument : ConceptId} {tokens : List Token}
    (reads : ReadsArg model form setting graph outer writer after argument tokens) :
    0 < tokens.length := by
  rcases reads.begins with ⟨others, rfl⟩ | ⟨label, others, rfl⟩ <;> exact Nat.succ_pos _

/-- Whether tokens are those of arguments, one after the other. -/
inductive ReadsArgs (model : Model) (form : Notation) (setting : Setting) (graph : GraphId)
    (outer : List GraphId) : Writer → Writer → List ConceptId → List Token → Prop where
  | nil (writer : Writer) : ReadsArgs model form setting graph outer writer writer [] []
  | cons {writer middle after : Writer} {argument : ConceptId} {others : List ConceptId}
      {front back : List Token}
      (first : ReadsArg model form setting graph outer writer middle argument front)
      (rest : ReadsArgs model form setting graph outer middle after others back) :
      ReadsArgs model form setting graph outer writer after (argument :: others) (front ++ back)

/-- Whether no argument begins with a token. -/
structure EndsArgs (token : Token) : Prop where
  label : ∀ label, token ≠ .boundLabel label
  bracket : token ≠ .punct .leftBracket

namespace ReadsArgs

variable {model : Model} {form : Notation} {setting : Setting} {graph : GraphId}
  {outer : List GraphId} {writer middle after : Writer} {args others : List ConceptId}
  {tokens back : List Token}

theorem proceeds (reads : ReadsArgs model form setting graph outer writer after args tokens) :
    writer.Proceeds model after := by
  induction reads with
  | nil writer => exact .refl writer
  | cons first rest ih => exact first.proceeds.trans ih

/-- Every argument takes a token. -/
theorem length_le (reads : ReadsArgs model form setting graph outer writer after args tokens) :
    args.length ≤ tokens.length := by
  induction reads with
  | nil writer => exact Nat.le_refl _
  | cons first rest ih =>
      have one := first.length_pos
      simp only [List.length_cons, List.length_append]
      omega

/-- Arguments that are read back one after the other are read back together. -/
theorem append (reads : ReadsArgs model form setting graph outer writer middle args tokens)
    (more : ReadsArgs model form setting graph outer middle after others back) :
    ReadsArgs model form setting graph outer writer after (args ++ others) (tokens ++ back) := by
  induction reads with
  | nil writer => exact more
  | cons first rest ih =>
      rw [List.append_assoc]
      exact .cons first (ih more)

/-- Arguments are read back one after the other. -/
theorem outcome {unfinished : Unfinished} {reader : Reader} {rest : List Token}
    {brackets count : Nat} {place : GraphId}
    (reads : ReadsArgs model form setting graph outer writer after args tokens)
    (tracks : Tracks model unfinished writer reader)
    (within : unfinished.graphs = graph :: outer) (ready : unfinished.waiting = [])
    (there : (writer.ledger model).Graph graph place)
    (starts : reader.tokens = tokens ++ rest) (fits : reader.tokens.length ≤ brackets)
    (ends : EndsArgs (rest[0]?.getD .endOfInput)) (enough : args.length ≤ count) :
    Outcome (model.DefinedFirst after.order)
      (Read.arcs (Read.concept setting (Read.roomFor setting brackets)) (some place) count) reader
      fun copies later => Reads model unfinished after reader rest later ∧
        List.Forall₂ ((after.ledger model).Cites model) args copies := by
  -- The induction is on the arguments that have been written; the fuel is at least their number.
  induction reads generalizing reader count with
  | nil writer =>
      refine .of_achieves tracks.first ?_
      have done : Reads model unfinished writer reader rest reader :=
        .of_past tracks (.refl _) starts
      cases count with
      | zero => exact ⟨done, .nil⟩
      | succ count =>
          have token : (reader.ahead 0).token = rest[0]?.getD .endOfInput := by
            rw [Reader.token_ahead, starts, List.nil_append]
          simp only [Read.arcs, Read.arc, achieves_bind, Read.achieves_peek, token]
          split
          · next label found => exact absurd found (ends.label label)
          · next found => exact absurd found ends.bracket
          · exact ⟨done, .nil⟩
  | @cons writer middle after argument others front back first more ih =>
      cases count with
      | zero => exact absurd enough (Nat.not_succ_le_zero _)
      | succ count =>
          have split : reader.tokens = front ++ (back ++ rest) := by
            rw [starts, List.append_assoc]
          obtain ⟨begun, counted⟩ := first.proceeds tracks.counted
          have onward := (more.proceeds counted).1
          unfold Read.arcs
          refine Outcome.bind (first.reads unfinished reader (back ++ rest) brackets place tracks
            within ready there split fits) (fun holds => holds.of_suffix onward.order)
              fun copy later _ facts => ?_
          obtain ⟨id, rfl, parts, cites⟩ := facts
          have shorter : later.tokens.length ≤ brackets := by
            refine Nat.le_trans ?_ fits
            rw [parts.tokens, split]
            simp
          refine (ih parts.tracks (there.mono (begun.continues model)) parts.tokens shorter
            (Nat.le_of_succ_le_succ enough)).before fun copies last _ facts => ?_
          obtain ⟨ended, cited⟩ := facts
          exact ⟨ended.from_earlier parts.types, .cons (cites.mono (onward.continues model))
            cited⟩

end ReadsArgs

/-! ## Relations -/

/-- What is known of a relation or actor of a graph that does not negate. -/
structure Model.Links (model : Model) (form : Notation) (graph : GraphId) (relation : RelationId)
    (type : RelationType) (label : String) : Prop where
  stands : (model.relation relation).graph = some graph
  typed : (model.relation relation).type = some type
  named : model.hierarchy.relations.label? type = some label
  word : Token.IsName form label
  free : label ≠ Read.negationLabel ∨ model.graphs.size ≤ 1
  args : ∀ concept ∈ (model.relation relation).args,
    (model.concept concept).graph = some graph ∧ (model.concept concept).IsPlain
  role : ∀ outputsFrom, (model.relation relation).role = .actor outputsFrom →
    outputsFrom ≤ (model.relation relation).args.length

namespace Model

variable {model : Model} {source form : Notation} {graph : GraphId} {relation : RelationId}

/-- The arguments of a relation or actor that does not negate are concepts of its graph to which
labels may refer. -/
theorem Rooted.args_of_positive (rooted : model.Rooted source)
    (stands : (model.relation relation).graph = some graph)
    (positive : model.isNegation relation = false) :
    ∀ concept ∈ (model.relation relation).args,
      (model.concept concept).graph = some graph ∧ (model.concept concept).IsPlain := by
  intro concept argument
  have sound := rooted.sound.relations relation (lt_of_relation_graph stands)
  refine ⟨sound.graph concept argument graph stands, ?_⟩
  rcases sound.visible with plain | ⟨wrapper, hidden, negates⟩
  · exact plain concept argument
  · simp [isNegation, negates.args, hidden] at positive

/-- A relation that is no negation links concepts under the label of its type. -/
theorem Copyable.exists_links (copyable : model.Copyable source form)
    (stands : (model.relation relation).graph = some graph)
    (positive : model.isNegation relation = false) :
    ∃ type label, model.Links form graph relation type label := by
  have sound := copyable.sound.relations relation (lt_of_relation_graph stands)
  obtain ⟨type, typed, -⟩ := sound.type
  obtain ⟨label, named, word, free⟩ := copyable.relationType relation type typed
  exact ⟨type, label, stands, typed, named, word, free positive,
    copyable.args_of_positive stands positive, sound.role⟩

end Model

namespace Read

variable {model : Model} {form : Notation} {setting : Setting} {unfinished : Unfinished}
  {writer after : Writer} {reader : Reader} {graph place : GraphId} {outer : List GraphId}
  {rest tokens : List Token} {relation : RelationId} {type : RelationType} {label : String}
  {brackets : Nat} {possible : Prop}

/-- A relation or actor of a type that takes any number of arguments is made. -/
theorem makeRelation_unbounded {type : RelationType} {found : Located} {args : List ConceptId}
    {role : RelationRole} {comment : Option String}
    (any : reader.model.hierarchy.relations.valence? type = none) :
    Achieves (makeRelation found type args role comment) reader fun known later =>
      known = ⟨reader.model.relations.size⟩ ∧
        later = reader.withModel (reader.model.drafted
          { type := some type, args, comment, role }) := by
  simp only [makeRelation, checkValence, achieves_bind, achieves_model, any, achieves_pure,
    achieves_make, achieves_edit]
  exact ⟨rfl, congrArg reader.withModel Model.modifyRelation_newRelation⟩

/-- A relation or actor with the data of a copy is made. -/
theorem makeRelation_achieves {copy : RelationType} {found : Located} {args : List ConceptId}
    {role : RelationRole} {comment : Option String}
    (tracks : Tracks model unfinished writer reader)
    (free : label ≠ negationLabel ∨ model.graphs.size ≤ 1)
    (named : reader.model.hierarchy.relations.label? copy = some label) :
    Achieves (makeRelation found copy args role comment) reader fun known later =>
      known = ⟨reader.model.relations.size⟩ ∧
        later = reader.withModel (reader.model.drafted
          { type := some copy, args, comment, role }) := by
  have any : reader.model.hierarchy.relations.valence? copy = none := by
    cases fixed : reader.model.hierarchy.relations.valence? copy with
    | none => rfl
    | some valence =>
        obtain ⟨nested, negative⟩ := tracks.ready.valence copy valence fixed
        rw [named] at negative
        exact absurd (Option.some.inj negative) (free.resolve_right nested)
  exact makeRelation_unbounded any

/-- Whether a relation or actor has been read that stands in no graph yet. -/
def Drafted (model : Model) (unfinished : Unfinished) (after : Writer) (reader : Reader)
    (rest : List Token) (relation : RelationId) (place : GraphId) (known : Option RelationId)
    (later : Reader) : Prop :=
  ∃ last data, known = some ⟨last.model.relations.size⟩ ∧
    later = last.withModel (last.model.drafted data) ∧
    Reads model
      { unfinished with pending := relation :: unfinished.pending } after reader rest last ∧
    model.CopiedRelation (last.model.related data place) (after.ledger model) relation
      ⟨last.model.relations.size⟩

/-- A relation that has been read is put into its graph. -/
theorem relationInto_outcome (relation : RelationId) {production : Read (Option RelationId)}
    (stands : (model.relation relation).graph = some graph) (idle : unfinished.Idle model graph)
    (there : (writer.ledger model).Graph graph place) (onward : writer.Onward after)
    (drafts : Outcome possible production reader
      (Drafted model unfinished after reader rest relation place)) :
    Outcome possible (relationInto place production) reader fun found later =>
      found = true ∧ Reads model unfinished after reader rest later := by
  unfold relationInto
  refine drafts.before fun known later _ drafted => ?_
  obtain ⟨last, data, rfl, rfl, reads, copied⟩ := drafted
  have inside := reads.tracks.lt_graphs idle.waiting (there.mono (onward.continues model))
  simp only [achieves_bind, achieves_edit, achieves_pure, Reader.withModel_model,
    Model.addRelation_drafted reads.tracks.nodes.listed, true_and]
  exact ⟨reads.tokens, reads.tracks.related rfl stands idle.pending inside copied, reads.types⟩

/-- An identifier is ahead as the type of a relation. -/
theorem relationTypeAhead_achieves {places : Nat}
    (found : (reader.ahead places).token = .ident label) :
    Achieves (relationTypeAhead places) reader fun answer later =>
      answer = true ∧ later = reader := by
  simp only [relationTypeAhead, achieves_bind, achieves_ahead, found]
  exact ⟨rfl, rfl⟩

/-- The comment of a node ends its arguments. -/
theorem endsArgs_comment {node : NodeKind} {comment : Option String} {mark : Punct}
    (apart : mark ≠ .leftBracket) :
    EndsArgs (((Write.comment node comment).reread form ++ .punct mark :: rest)[0]?.getD
      .endOfInput) := by
  cases comment with
  | none => exact ⟨by simp [Write.comment], by simpa [Write.comment] using apart⟩
  | some text =>
      constructor <;> simp [Write.comment, Phrase.reread, Phrase.tokens, Token.reread]

/-- A relation is read back. -/
theorem relation_outcome (links : model.Links form graph relation type label)
    (passive : (model.relation relation).role = .relation)
    (reads : ReadsArgs model form setting graph outer (writer.begin relation) after
      (model.relation relation).args tokens)
    (tracks : Tracks model unfinished writer reader)
    (within : unfinished.graphs = graph :: outer) (idle : unfinished.Idle model graph)
    (there : (writer.ledger model).Graph graph place)
    (onDemand : setting.options.createTypesOnDemand = true)
    (starts : reader.tokens = .punct .leftParen :: .ident label :: (tokens ++
      ((Write.comment .relation (model.relation relation).comment).reread form ++
        .punct .rightParen :: rest)))
    (fits : reader.tokens.length ≤ brackets) :
    Outcome (model.DefinedFirst after.order)
      (relationInto place (Read.relation setting (roomFor setting brackets) (some place))) reader
      fun found later => found = true ∧ Reads model unfinished after reader rest later := by
  have onward := (((Writer.Proceeds.begin writer relation).trans reads.proceeds) tracks.counted).1
  have first : (reader.ahead 0).token = .punct .leftParen := Reader.token_ahead_zero starts
  have second : (reader.ahead 1).token = .ident label := by
    rw [Reader.token_ahead_succ, Reader.token_ahead_zero (Reader.tail_tokens starts)]
  cases brackets with
  | zero =>
      rw [starts] at fits
      exact absurd fits (Nat.not_succ_le_zero _)
  | succ brackets =>
      refine relationInto_outcome relation links.stands idle there onward ?_
      have body : reader.next.tokens = .ident label :: (tokens ++
          ((Write.comment .relation (model.relation relation).comment).reread form ++
            .punct .rightParen :: rest)) := Reader.tail_tokens starts
      have bracket : From 7 (.punct .rightParen :: rest) := ⟨_, _, rfl, Nat.le_refl 7⟩
      unfold Read.relation
      rw [outcome_peek]
      refine Outcome.after (relationTypeAhead_achieves second) fun answer later facts => ?_
      obtain ⟨rfl, same⟩ := facts
      rw [same, first, decide_eq_true rfl, Bool.and_self, if_pos rfl, roomFor_succ, outcome_descend,
        outcome_located, outcome_advance]
      have begun := (tracks.begun within links.stands).past (.next reader)
      refine Outcome.after (relationType_achieves begun onDemand body) fun copy typed facts => ?_
      obtain ⟨parts, named⟩ := facts
      rw [outcome_get]
      have shorter : typed.tokens.length ≤ brackets := by
        rw [parts.tokens]
        rw [starts] at fits
        simp only [List.length_cons, List.length_append] at fits ⊢
        omega
      have enough : (model.relation relation).args.length ≤ typed.rest.length := by
        have least := reads.length_le
        rw [Reader.length_rest, parts.tokens]
        simp only [List.length_append]
        omega
      refine Outcome.before
        (reads.outcome parts.tracks within idle.waiting there parts.tokens shorter
        (endsArgs_comment (by decide)) enough) fun copies argued _ facts => ?_
      obtain ⟨arguments, cited⟩ := facts
      rw [achieves_bind]
      refine (nodeComment_achieves arguments.tokens bracket).mono fun comment last facts => ?_
      obtain ⟨rfl, left, past⟩ := facts
      rw [achieves_bind, achieves_expect, achieves_bind, Reader.token_ahead_zero left]
      have ended := (arguments.tracks.past past).past (.next last)
      have grown : typed.model.hierarchy.Extends last.model.hierarchy := by
        rw [past.model]
        exact arguments.types
      have label := (grown.relations.label copy (Lattice.label?_of_lt named)).trans named
      refine ⟨rfl, (makeRelation_achieves ended links.free label).mono fun known made facts => ?_⟩
      obtain ⟨rfl, rfl⟩ := facts
      refine ⟨last.next, _, rfl, rfl, ⟨Reader.tail_tokens left, ended, parts.types.trans grown⟩, ?_⟩
      exact .of_related rfl ⟨type, links.typed, _, links.named, label⟩ cited rfl passive.symm
        links.stands (there.mono (onward.continues model))

/-- An actor after its opening bracket. -/
theorem actorBody_outcome {middle : Writer} {first second : List Token} {outputsFrom : Nat}
    {inside : Inside} {found : Located} (links : model.Links form graph relation type label)
    (active : (model.relation relation).role = .actor outputsFrom)
    (inputs : ReadsArgs model form setting graph outer (writer.begin relation) middle
      (model.relation relation).inputs first)
    (outputs : ReadsArgs model form setting graph outer middle after
      (model.relation relation).outputs second)
    (tracks : Tracks model unfinished writer reader)
    (within : unfinished.graphs = graph :: outer) (ready : unfinished.waiting = [])
    (there : (writer.ledger model).Graph graph place)
    (onDemand : setting.options.createTypesOnDemand = true)
    (room : inside.concept = concept setting (roomFor setting brackets))
    (starts : reader.tokens = .ident label :: (first ++ .punct .bar :: (second ++
      ((Write.comment .actor (model.relation relation).comment).reread form ++
        .punct .rightAngle :: rest))))
    (fits : reader.tokens.length ≤ brackets) :
    Outcome (model.DefinedFirst after.order) (actorBody setting inside found (some place)) reader
      fun known later => Drafted model unfinished after reader rest relation place (some known)
        later := by
  have begun := tracks.begun within links.stands
  obtain ⟨entered, counted⟩ := inputs.proceeds begun.counted
  have left := (outputs.proceeds counted).1
  have bracket : From 7 (.punct .rightAngle :: rest) := ⟨_, _, rfl, Nat.le_refl 7⟩
  have whole : (model.relation relation).inputs ++ (model.relation relation).outputs =
      (model.relation relation).args := by
    simp [Relation.inputs, Relation.outputs, active]
  have many : (model.relation relation).inputs.length = outputsFrom := by
    simpa [Relation.inputs, active] using Nat.min_eq_left (links.role outputsFrom active)
  unfold actorBody
  refine Outcome.after (relationTypeAhead_achieves (Reader.token_ahead_zero starts))
    fun answer later facts => ?_
  obtain ⟨rfl, same⟩ := facts
  rw [if_pos rfl, same]
  dsimp only
  refine Outcome.after (relationType_achieves begun onDemand starts) fun copy typed facts => ?_
  obtain ⟨parts, named⟩ := facts
  have shorter : typed.tokens.length ≤ brackets := by
    rw [parts.tokens]
    rw [starts] at fits
    simp only [List.length_cons, List.length_append] at fits ⊢
    omega
  -- Each list of arguments is within the fuel, because every argument has a token.
  have enough : (model.relation relation).inputs.length ≤ typed.rest.length := by
    have least := inputs.length_le
    rw [Reader.length_rest, parts.tokens]
    simp only [List.length_append]
    omega
  rw [outcome_get, room]
  refine Outcome.bind (inputs.outcome parts.tracks within ready there parts.tokens shorter
    ⟨by simp, by simp⟩ enough) (fun holds => holds.of_suffix left.order)
      fun ins argued _ facts => ?_
  obtain ⟨arguments, cited⟩ := facts
  rw [outcome_expect (Reader.token_ahead_zero arguments.tokens), outcome_get]
  have remains : argued.next.tokens = second ++
      ((Write.comment .actor (model.relation relation).comment).reread form ++
        .punct .rightAngle :: rest) := Reader.tail_tokens arguments.tokens
  have further : argued.next.tokens.length ≤ brackets := by
    refine Nat.le_trans ?_ shorter
    rw [remains, parts.tokens]
    simp only [List.length_cons, List.length_append]
    omega
  have plenty : (model.relation relation).outputs.length ≤ argued.next.rest.length := by
    have least := outputs.length_le
    rw [Reader.length_rest, remains]
    simp only [List.length_append]
    omega
  have there' := there.mono (entered.continues model)
  refine Outcome.before (outputs.outcome (arguments.tracks.past (.next argued)) within ready there'
    remains further (endsArgs_comment (by decide)) plenty) fun outs answered _ facts => ?_
  obtain ⟨results, also⟩ := facts
  rw [achieves_bind]
  refine (nodeComment_achieves results.tokens bracket).mono fun comment last facts => ?_
  obtain ⟨rfl, remaining, past⟩ := facts
  rw [achieves_bind, achieves_expect, Reader.token_ahead_zero remaining]
  have ended := (results.tracks.past past).past (.next last)
  have grown : typed.model.hierarchy.Extends last.model.hierarchy := by
    rw [past.model]
    exact arguments.types.trans results.types
  have label := (grown.relations.label copy (Lattice.label?_of_lt named)).trans named
  have both := List.rel_append (cited.imp fun _ _ cites =>
    cites.mono (left.continues model)) also
  refine ⟨rfl, (makeRelation_achieves ended links.free label).mono fun known made facts => ?_⟩
  obtain ⟨rfl, rfl⟩ := facts
  refine ⟨last.next, _, rfl, rfl,
    ⟨Reader.tail_tokens remaining, ended, parts.types.trans grown⟩, ?_⟩
  refine .of_related rfl ⟨type, links.typed, _, links.named, label⟩ (whole ▸ both) rfl ?_
    links.stands (there'.mono (left.continues model))
  rw [active, ← cited.length_eq, many]

/-- An actor is read back. -/
theorem actor_outcome {middle : Writer} {first second : List Token} {outputsFrom : Nat}
    (links : model.Links form graph relation type label)
    (active : (model.relation relation).role = .actor outputsFrom)
    (inputs : ReadsArgs model form setting graph outer (writer.begin relation) middle
      (model.relation relation).inputs first)
    (outputs : ReadsArgs model form setting graph outer middle after
      (model.relation relation).outputs second)
    (tracks : Tracks model unfinished writer reader)
    (within : unfinished.graphs = graph :: outer) (idle : unfinished.Idle model graph)
    (there : (writer.ledger model).Graph graph place)
    (onDemand : setting.options.createTypesOnDemand = true)
    (starts : reader.tokens = .punct .leftAngle :: .ident label :: (first ++ .punct .bar ::
      (second ++ ((Write.comment .actor (model.relation relation).comment).reread form ++
        .punct .rightAngle :: rest))))
    (fits : reader.tokens.length ≤ brackets) :
    Outcome (model.DefinedFirst after.order)
      (relationInto place (Read.actor setting (roomFor setting brackets) (some place))) reader
      fun found later => found = true ∧ Reads model unfinished after reader rest later := by
  have onward := (((Writer.Proceeds.begin writer relation).trans
    (inputs.proceeds.trans outputs.proceeds)) tracks.counted).1
  cases brackets with
  | zero =>
      rw [starts] at fits
      exact absurd fits (Nat.not_succ_le_zero _)
  | succ brackets =>
      have shorter : reader.next.tokens.length ≤ brackets := by
        rw [Reader.tail_tokens starts]
        rw [starts, List.length_cons] at fits
        exact Nat.le_of_succ_le_succ fits
      refine relationInto_outcome relation links.stands idle there onward ?_
      unfold Read.actor
      rw [outcome_peek, Reader.token_ahead_zero starts, if_pos rfl, roomFor_succ, outcome_descend,
        outcome_located, outcome_advance]
      refine Outcome.before (actorBody_outcome links active inputs outputs
        (tracks.past (.next reader)) within idle.waiting there onDemand ?_
          (Reader.tail_tokens starts)
          shorter) fun known later _ drafted => ?_
      · rfl
      · obtain ⟨last, data, same, left, reads, copied⟩ := drafted
        exact ⟨last, data, same, left, reads.from_earlier (.refl _), copied⟩

end Read

end ConceptualGraph
