/-
Module: ConceptualGraph.Proofs.Copy.Items
Purpose: The items of a graph in the interchange form are read back one after the other.
Main exports: Read.ItemsOutcome, ReadsItems, ReadsItems.append, Write.concat_readsItems,
  Read.items_outcome
-/
import ConceptualGraph.Proofs.Copy.Relation

namespace ConceptualGraph

open Phrase (mark ofToken space)

namespace Read

/-! ## Running through items -/

/-- The items of a graph in a notation, at most as many as there are tokens. -/
def itemsUpTo (form : Notation) (setting : Setting) (room : Option Inside) (graph : GraphId) :
    (tokens : Nat) → Read Unit :=
  match form with
  | .cgif => bracketItems setting room graph
  | .linear => statements setting room graph

theorem items_eq (setting : Setting) (room : Option Inside) (graph : GraphId) :
    items setting room graph =
      get >>= fun reader => itemsUpTo setting.form setting room graph reader.rest.length := by
  unfold items itemsUpTo
  cases setting.form <;> rfl

/-- Whether a loop reads a number of items before it goes on, exactly if that is possible. -/
def ItemsOutcome (possible : Prop) (loop : Nat → Read Unit) (count : Nat) (reader : Reader)
    (post : Reader → Prop) : Prop :=
  ∀ (fuel : Nat) (further : Prop) (final : Unit → Reader → Prop), (further → possible) →
    (∀ later, possible → post later → Outcome further (loop fuel) later final) →
    Outcome further (loop (count + fuel)) reader final

variable {setting : Setting} {room : Option Inside} {graph : GraphId} {reader : Reader}
  {possible earlier : Prop} {post middle : Reader → Prop} {count more : Nat}
  {loop : Nat → Read Unit}

namespace ItemsOutcome

/-- No items at all are read where reading may end. -/
theorem none (holds : possible) (done : post reader) :
    ItemsOutcome possible loop 0 reader post := by
  intro fuel further final _ others
  rw [Nat.zero_add]
  exact others reader holds done

/-- Items follow items, provided that the first leave the loop where it can go on. -/
theorem append (first : ItemsOutcome earlier loop count reader middle)
    (needs : possible → earlier)
    (others : ∀ later, earlier → middle later → ItemsOutcome possible loop more later post) :
    ItemsOutcome possible loop (count + more) reader post := by
  intro fuel further final needed rest
  rw [Nat.add_assoc]
  exact first (more + fuel) further final (fun holds => needs (needed holds))
    fun later holds done => others later holds done fuel further final needed rest

theorem mono {weaker : Reader → Prop} (outcome : ItemsOutcome possible loop count reader post)
    (weaken : ∀ later, post later → weaker later) :
    ItemsOutcome possible loop count reader weaker := by
  intro fuel further final needs others
  exact outcome fuel further final needs fun later holds done =>
    others later holds (weaken later done)

/-- An item in the interchange form. -/
theorem single (outcome : Outcome possible (firstOf (bracketProductions setting room graph)) reader
      fun found later => found = true ∧ post later) :
    ItemsOutcome possible (bracketItems setting room graph) 1 reader post := by
  intro fuel further final needs others
  rw [Nat.add_comm, bracketItems]
  refine outcome.bind needs fun found later holds facts => ?_
  obtain ⟨rfl, done⟩ := facts
  exact others later holds done

end ItemsOutcome

/-! ## Which production reads an item -/

section Productions

variable {place : GraphId} {production : Read (Option ConceptId)}

theorem isSome_declines (declines : Declines production none reader) :
    Declines (return (← production).isSome : Read Bool) false reader := by
  unfold Declines
  rw [achieves_bind]
  refine declines.mono fun value later facts => ?_
  obtain ⟨rfl, same⟩ := facts
  exact ⟨rfl, same⟩

/-- Whether an item was read is told from the item. -/
theorem isSome_outcome
    (outcome : Outcome possible production reader fun copy later =>
      ∃ id, copy = some id ∧ post later) :
    Outcome possible (return (← production).isSome : Read Bool) reader
      fun found later => found = true ∧ post later := by
  refine outcome.before fun copy later _ facts => ?_
  obtain ⟨id, rfl, done⟩ := facts
  exact ⟨rfl, done⟩

theorem isSome_achieves
    (achieves : Achieves production reader fun copy later => ∃ id, copy = some id ∧ post later) :
    Achieves (return (← production).isSome : Read Bool) reader
      fun found later => found = true ∧ post later := by
  rw [achieves_bind]
  refine achieves.mono fun copy later facts => ?_
  obtain ⟨id, rfl, done⟩ := facts
  exact ⟨rfl, done⟩

/-- A bracket that does not begin with a context label is a concept. -/
theorem firstOf_concept
    (outcome : Outcome possible (concept setting room (some place)) reader
      fun copy later => ∃ id, copy = some id ∧ post later) :
    Outcome possible (firstOf (bracketProductions setting room place)) reader
      fun found later => found = true ∧ post later :=
  firstOf_outcome [] (by simp) (isSome_outcome outcome)

/-- A bracket that begins with a context label is a context. -/
theorem firstOf_context {label : ContextLabel} {others : List Token}
    (starts : reader.tokens = .punct .leftBracket :: .keyword (.context label) :: others)
    (holds : possible)
    (achieves : Achieves (specialContext setting room place) reader
      fun copy later => ∃ id, copy = some id ∧ post later) :
    Outcome possible (firstOf (bracketProductions setting room place)) reader
      fun found later => found = true ∧ post later := by
  refine firstOf_outcome [_] (fun other member => ?_) (.of_achieves holds
    (isSome_achieves achieves))
  rw [List.mem_singleton.mp member]
  exact isSome_declines (concept_declines_context starts _)

/-- Where no bracket opens, none of the productions for concepts reads anything. -/
theorem concepts_decline (apart : (reader.ahead 0).token ≠ .punct .leftBracket)
    (other : Read Bool) (member : other ∈ [(return (← concept setting room (some place)).isSome :
      Read Bool), return (← specialContext setting room place).isSome]) :
    Declines other false reader := by
  simp only [List.mem_cons, List.not_mem_nil, or_false] at member
  rcases member with rfl | rfl
  · exact isSome_declines (concept_declines apart _)
  · exact isSome_declines (specialContext_declines apart)

/-- A tilde begins a negation. -/
theorem firstOf_negation (starts : (reader.ahead 0).token = .punct .tilde)
    (outcome : Outcome possible (relationInto place (negation setting room place)) reader
      fun found later => found = true ∧ post later) :
    Outcome possible (firstOf (bracketProductions setting room place)) reader
      fun found later => found = true ∧ post later :=
  firstOf_outcome [_, _] (concepts_decline (by rw [starts]; decide)) outcome

/-- A parenthesis begins a relation. -/
theorem firstOf_relation (starts : (reader.ahead 0).token = .punct .leftParen)
    (outcome : Outcome possible (relationInto place (relation setting room (some place))) reader
      fun found later => found = true ∧ post later) :
    Outcome possible (firstOf (bracketProductions setting room place)) reader
      fun found later => found = true ∧ post later := by
  refine firstOf_outcome ([_, _] ++ [_]) (fun other member => ?_) outcome
  rcases List.mem_append.mp member with early | late
  · exact concepts_decline (by rw [starts]; decide) other early
  · rw [List.mem_singleton.mp late]
    exact relationInto_declines (negation_declines (by rw [starts]; decide))

/-- An angle bracket begins an actor. -/
theorem firstOf_actor (starts : (reader.ahead 0).token = .punct .leftAngle)
    (outcome : Outcome possible (relationInto place (actor setting room (some place))) reader
      fun found later => found = true ∧ post later) :
    Outcome possible (firstOf (bracketProductions setting room place)) reader
      fun found later => found = true ∧ post later := by
  refine firstOf_outcome ([_, _] ++ [_, _]) (fun other member => ?_) outcome
  rcases List.mem_append.mp member with early | late
  · exact concepts_decline (by rw [starts]; decide) other early
  · simp only [List.mem_cons, List.not_mem_nil, or_false] at late
    rcases late with rfl | rfl
    · exact relationInto_declines (negation_declines (by rw [starts]; decide))
    · exact relationInto_declines (relation_declines (by rw [starts]; decide) _)

end Productions

end Read

/-! ## Items that are read back -/

/-- Whether tokens begin an item of a graph in a notation.  In the linear form that may also be
a statement about a concept that has been written before. -/
def OpensItem (form : Notation) (tokens : List Token) : Prop :=
  OpensGraph tokens ∨ form = .linear ∧ ∃ label others, tokens = .boundLabel label :: others

/-- What opens an item is not empty. -/
theorem OpensItem.ne_nil {form : Notation} {tokens : List Token} (opens : OpensItem form tokens) :
    tokens ≠ [] := by
  rcases opens with ⟨first, others, rfl, -⟩ | ⟨-, label, others, rfl⟩ <;>
    exact List.cons_ne_nil _ _

theorem OpensGraph.append {tokens : List Token} (opens : OpensGraph tokens) (more : List Token) :
    OpensGraph (tokens ++ more) := by
  obtain ⟨first, others, rfl, starts, typed⟩ := opens
  refine ⟨first, others ++ more, rfl, starts, fun same => ?_⟩
  obtain ⟨word, rest, rfl⟩ := typed same
  exact ⟨word, rest ++ more, rfl⟩

/-- Whether tokens that begin with a mark are those of an item that is written when a state of
writing is left for another one, and are read back by a production as what they were written
for. -/
structure ReadsItem (model : Model) (setting : Setting) (graph : GraphId) (outer : List GraphId)
    (mark : Punct) (production : Option Inside → GraphId → Read Bool) (writer after : Writer)
    (tokens : List Token) : Prop where
  proceeds : writer.Proceeds model after
  begins : ∃ others, tokens = .punct mark :: others
  reads : ∀ unfinished reader rest brackets place, Tracks model unfinished writer reader →
    unfinished.graphs = graph :: outer → unfinished.Idle model graph →
    (writer.ledger model).Graph graph place → reader.tokens = tokens ++ rest →
    reader.tokens.length ≤ brackets →
      Outcome (model.DefinedFirst after.order)
        (production (Read.roomFor setting brackets) place) reader
        fun found later => found = true ∧ Reads model unfinished after reader rest later

namespace ReadsItem

variable {model : Model} {setting : Setting} {graph : GraphId} {outer : List GraphId}
  {mark : Punct} {production other : Option Inside → GraphId → Read Bool}
  {writer after : Writer} {tokens : List Token}

/-- An item that is read opens its graph. -/
theorem opensGraph
    (reads : ReadsItem model setting graph outer mark production writer after tokens)
    (starts : Read.startsItem (.punct mark) = true) (apart : mark ≠ .leftParen) :
    OpensGraph tokens := by
  obtain ⟨others, rfl⟩ := reads.begins
  exact ⟨_, _, rfl, starts, fun same => absurd (Token.punct.inj same) apart⟩

/-- A production that leaves what begins with the mark to another one reads it back too. -/
theorem through (reads : ReadsItem model setting graph outer mark production writer after tokens)
    (leaves : ∀ {room place reader possible} {post : Reader → Prop},
      (reader.ahead 0).token = .punct mark →
      Outcome possible (production room place) reader
        (fun found later => found = true ∧ post later) →
      Outcome possible (other room place) reader fun found later => found = true ∧ post later) :
    ReadsItem model setting graph outer mark other writer after tokens where
  proceeds := reads.proceeds
  begins := reads.begins
  reads unfinished reader rest brackets place tracks within idle there starts fits := by
    obtain ⟨others, same⟩ := reads.begins
    have begins : reader.tokens = .punct mark :: (others ++ rest) := by
      rw [starts, same, List.cons_append]
    exact leaves (Reader.token_ahead_zero begins) (reads.reads unfinished reader rest brackets
      place tracks within idle there starts fits)

end ReadsItem

/-- Whether items are written when a state of writing is left for another one, and are read
back as what they were written for. -/
structure ReadsItems (model : Model) (form : Notation) (setting : Setting) (graph : GraphId)
    (outer : List GraphId) (writer after : Writer) (items : List Phrase) : Prop where
  proceeds : writer.Proceeds model after
  opens : ∀ item ∈ items, OpensItem form (item.reread form)
  reads : ∀ unfinished reader rest brackets place, Tracks model unfinished writer reader →
    unfinished.graphs = graph :: outer → unfinished.Idle model graph →
    (writer.ledger model).Graph graph place →
    reader.tokens = items.flatMap (Phrase.reread form) ++ rest → reader.tokens.length ≤ brackets →
      Read.ItemsOutcome (model.DefinedFirst after.order)
        (Read.itemsUpTo form setting (Read.roomFor setting brackets) place) items.length reader
        fun later => Reads model unfinished after reader rest later

namespace ReadsItems

variable {model : Model} {form : Notation} {setting : Setting} {graph : GraphId}
  {outer : List GraphId} {writer middle after : Writer} {items more : List Phrase}

theorem nil (writer : Writer) : ReadsItems model form setting graph outer writer writer [] where
  proceeds := .refl writer
  opens := by simp
  reads unfinished reader rest brackets place tracks within idle there starts fits :=
    .none tracks.first (.of_past tracks (.refl _) starts)

/-- Items that are read back one after the other are read back together. -/
theorem append (first : ReadsItems model form setting graph outer writer middle items)
    (others : ReadsItems model form setting graph outer middle after more) :
    ReadsItems model form setting graph outer writer after (items ++ more) where
  proceeds := first.proceeds.trans others.proceeds
  opens item member := (List.mem_append.mp member).elim (first.opens item) (others.opens item)
  reads unfinished reader rest brackets place tracks within idle there starts fits := by
    rw [List.flatMap_append, List.append_assoc] at starts
    rw [List.length_append]
    obtain ⟨begun, counted⟩ := first.proceeds tracks.counted
    have onward := (others.proceeds counted).1
    refine (first.reads unfinished reader _ brackets place tracks within idle there starts
      fits).append (fun holds => holds.of_suffix onward.order) fun later _ parts => ?_
    have shorter : later.tokens.length ≤ brackets := by
      refine Nat.le_trans ?_ fits
      rw [parts.tokens, starts]
      simp
    exact (others.reads unfinished later rest brackets place parts.tracks within idle
      (there.mono (begun.continues model)) parts.tokens shorter).mono fun last ended =>
        ended.from_earlier parts.types

/-- Every item has a token. -/
theorem length_le (reads : ReadsItems model form setting graph outer writer after items) :
    items.length ≤ (items.flatMap (Phrase.reread form)).length := by
  have opens := reads.opens
  clear reads
  induction items with
  | nil => exact Nat.le_refl _
  | cons item items ih =>
      have some := List.length_pos_iff.mpr (opens item (List.mem_cons_self ..)).ne_nil
      have rest := ih fun other member => opens other (List.mem_cons_of_mem _ member)
      simp only [List.flatMap_cons, List.length_append, List.length_cons]
      omega

/-- The items of a graph in the interchange form begin as an item, if there are any. -/
theorem opensGraph (reads : ReadsItems model .cgif setting graph outer writer after items)
    (some : items ≠ []) : OpensGraph (items.flatMap (Phrase.reread .cgif)) := by
  cases items with
  | nil => exact absurd rfl some
  | cons item items =>
      exact ((reads.opens item (List.mem_cons_self ..)).resolve_right
        fun label => by cases label.1).append _

/-- An item in the interchange form is read back. -/
theorem single {item : Phrase} {mark : Punct} (opens : OpensGraph (item.reread .cgif))
    (reads : ReadsItem model setting graph outer mark
      (fun room place => Read.firstOf (Read.bracketProductions setting room place)) writer after
      (item.reread .cgif)) :
    ReadsItems model .cgif setting graph outer writer after [item] where
  proceeds := reads.proceeds
  opens other member := by
    rw [List.mem_singleton.mp member]
    exact .inl opens
  reads unfinished reader rest brackets place tracks within idle there starts fits := by
    rw [List.flatMap_singleton] at starts
    exact .single (reads.reads unfinished reader rest brackets place tracks within idle there
      starts fits)

end ReadsItems

namespace Write

variable {model : Model} {form : Notation} {setting : Setting} {graph : GraphId}
  {outer : List GraphId} {writer : Writer}

/-- The items of several arguments are read back one after the other. -/
theorem concat_readsItems {α : Type} {step : α → Write (List Phrase)} {arguments : List α}
    (each : ∀ argument ∈ arguments, ∀ writer, Ensures (step argument) writer fun items after =>
      ReadsItems model form setting graph outer writer after items) :
    Ensures (concat step arguments) writer fun items after =>
      ReadsItems model form setting graph outer writer after items := by
  induction arguments generalizing writer with
  | nil => exact .nil writer
  | cons argument others ih =>
      unfold concat
      refine (each argument (List.mem_cons_self ..) writer).bind fun items middle first => ?_
      refine (ih fun other member => each other (List.mem_cons_of_mem _ member)).bind
        fun more after rest => ?_
      exact first.append rest

end Write

/-! ## Comments -/

section Comments

variable {model : Model} {unfinished : Unfinished} {writer : Writer} {reader : Reader}
  {graph place : GraphId}

/-- A comment of a graph is read. -/
theorem Tracks.commented (tracks : Tracks model unfinished writer reader)
    (silent : place ∈ unfinished.silent) (inside : place.index < reader.model.graphs.size)
    (text : String) :
    Tracks model unfinished writer (reader.withModel (reader.model.addComment place text)) where
  first := tracks.first
  houses := tracks.houses
  nodes := tracks.nodes.commented silent inside text
  labels := ⟨tracks.labels.labelled, tracks.labels.bound,
    tracks.labels.framed.mono (.refl _) (.of_eq rfl)⟩
  markers := tracks.markers
  ready := tracks.ready
  setless := tracks.setless

/-- All comments of a graph have been read. -/
theorem Tracks.spoken {silent : List GraphId} (tracks : Tracks model unfinished writer reader)
    (silent_eq : unfinished.silent = place :: silent)
    (comments : ∀ graph, (writer.ledger model).Graph graph place →
      (reader.model.graph place).comments = (model.graph graph).comments) :
    Tracks model { unfinished with silent } writer reader where
  first := tracks.first
  houses := tracks.houses
  nodes := by
    have same : unfinished = { unfinished with silent := place :: silent } := by
      cases unfinished; cases silent_eq; rfl
    exact (same ▸ tracks.nodes).spoken comments
  labels := ⟨tracks.labels.labelled, tracks.labels.bound, tracks.labels.framed⟩
  markers := tracks.markers
  ready := tracks.ready
  setless := tracks.setless

namespace Read

variable {setting : Setting} {room : Option Inside} {form : Notation} {rest : List Token}
  {possible : Prop} {text : String}

/-- A comment on the graph is read and added to it. -/
theorem graphComment_achieves (starts : reader.tokens = .formalComment text :: rest) :
    Achieves (graphComment place) reader fun found later => found = true ∧
      later = reader.next.withModel (reader.model.addComment place text) := by
  simp only [graphComment, achieves_bind, achieves_peek, Reader.token_ahead_zero starts,
    achieves_advance, achieves_edit, achieves_pure]
  exact ⟨trivial, rfl⟩

/-- A comment is an item in either notation. -/
theorem comment_outcome (holds : possible)
    (starts : reader.tokens = .formalComment text :: rest) :
    ItemsOutcome possible (itemsUpTo form setting room place) 1 reader fun later =>
      later = reader.next.withModel (reader.model.addComment place text) := by
  have apart : ∀ mark, (reader.ahead 0).token ≠ .punct mark := by
    rw [Reader.token_ahead_zero starts]
    exact fun _ same => by cases same
  have commented : Outcome possible (graphComment place) reader _ :=
    .of_achieves holds (graphComment_achieves starts)
  cases form with
  | cgif =>
      refine .single (firstOf_outcome ([_, _] ++ [_, _, _]) (fun other member => ?_) commented)
      rcases List.mem_append.mp member with early | late
      · exact concepts_decline (apart _) other early
      · simp only [List.mem_cons, List.not_mem_nil, or_false] at late
        rcases late with rfl | rfl | rfl
        · exact relationInto_declines (negation_declines (apart _))
        · exact relationInto_declines (relation_declines (apart _) _)
        · exact relationInto_declines (actor_declines (apart _) _)
  | linear =>
      intro fuel further final needs others
      show Outcome further (statements setting room place (1 + fuel)) reader final
      rw [Nat.add_comm, statements]
      refine commented.bind needs fun found later _ facts => ?_
      obtain ⟨rfl, same⟩ := facts
      exact others later holds same

/-- The comments of a graph are read back one after the other. -/
theorem comments_outcome (texts : List String) (tracks : Tracks model unfinished writer reader)
    (silent : place ∈ unfinished.silent) (inside : place.index < reader.model.graphs.size)
    (starts : reader.tokens = texts.map .formalComment ++ rest) :
    ItemsOutcome (model.DefinedFirst writer.order) (itemsUpTo form setting room place)
      texts.length reader fun later => Reads model unfinished writer reader rest later ∧
        (later.model.graph place).comments = (reader.model.graph place).comments ++ texts := by
  induction texts generalizing reader with
  | nil => exact .none tracks.first ⟨.of_past tracks (.refl _) starts, by simp⟩
  | cons text texts ih =>
      rw [List.length_cons, Nat.add_comm]
      refine (comment_outcome tracks.first starts).append id fun later _ same => ?_
      subst same
      have here : ((reader.model.addComment place text).graph place).comments =
          (reader.model.graph place).comments ++ [text] := by
        rw [Model.graph_addComment inside, if_pos rfl]
      refine (ih ((tracks.past (.next reader)).commented silent inside text)
        (by simpa [Model.addComment] using inside) (Reader.tail_tokens starts)).mono
          fun last facts => ?_
      obtain ⟨reads, comments⟩ := facts
      refine ⟨⟨reads.tokens, reads.tracks, reads.types⟩, ?_⟩
      rw [comments, Reader.withModel_model, Reader.next_model, here, List.append_assoc,
        List.singleton_append]

/-- What closes a graph ends its items. -/
theorem endsItems_of_closesGraph (closes : ClosesGraph reader.tokens) :
    EndsItems (reader.ahead 0).token := by
  rcases closes with nothing | ⟨first, others, starts, high⟩
  · rw [Reader.token_ahead, nothing]
    exact ⟨rfl, fun _ same => by cases same⟩
  · rw [Reader.token_ahead_zero starts]
    refine ⟨Bool.eq_false_iff.mpr fun opens => ?_, fun label same => ?_⟩
    · rw [rank_of_startsItem opens] at high
      exact absurd high (by decide)
    · rw [same] at high
      exact absurd high (by simp [Token.rank])

/-- Where no item begins, none is read. -/
theorem itemsUpTo_declines (ends : EndsItems (reader.ahead 0).token) (count : Nat) :
    Declines (itemsUpTo form setting room place count) () reader := by
  cases form with
  | cgif => exact bracketItems_declines ends count
  | linear => exact statements_declines ends count

/-- A graph is read back from its comments and its items. -/
theorem items_outcome {after : Writer} {outer silent : List GraphId} {items : List Phrase}
    {brackets : Nat}
    (reads : ReadsItems model setting.form setting graph outer writer after items)
    (tracks : Tracks model unfinished writer reader) (within : unfinished.graphs = graph :: outer)
    (idle : unfinished.Idle model graph) (there : (writer.ledger model).Graph graph place)
    (bare : (reader.model.graph place).comments = [])
    (starts : reader.tokens =
      (Write.comments model graph ++ items).flatMap (Phrase.reread setting.form) ++ rest)
    (closes : ClosesGraph rest) (fits : reader.tokens.length ≤ brackets)
    (silent_eq : unfinished.silent = place :: silent) :
    Outcome (model.DefinedFirst after.order)
      (Read.items setting (roomFor setting brackets) place) reader
      fun _ later => Reads model { unfinished with silent } after reader rest later := by
  have onward := (reads.proceeds tracks.counted).1
  have spoken : (Write.comments model graph).flatMap (Phrase.reread setting.form) =
      (model.graph graph).comments.map .formalComment := by
    simp only [Write.comments, List.flatMap_map, Phrase.reread_ofToken, Token.reread]
    exact List.map_eq_flatMap.symm
  rw [List.flatMap_append, spoken, List.append_assoc] at starts
  -- The fuel is split into the comments, the items and what is left over.
  have fuel : reader.rest.length = (model.graph graph).comments.length + (items.length +
      (reader.rest.length - (model.graph graph).comments.length - items.length)) := by
    have least := reads.length_le
    rw [Reader.length_rest, starts]
    simp only [List.length_append, List.length_map]
    omega
  rw [items_eq, outcome_get, fuel]
  have inside := tracks.lt_graphs idle.waiting there
  refine comments_outcome _ tracks (silent_eq ▸ List.mem_cons_self ..) inside starts _ _ _
    (fun holds => holds.of_suffix onward.order) fun later _ facts => ?_
  obtain ⟨said, comments⟩ := facts
  have told : Tracks model { unfinished with silent } writer later := by
    refine said.tracks.spoken silent_eq fun other copies => ?_
    obtain rfl : other = graph := Option.some.inj (copies.symm.trans there)
    rw [comments, bare, List.nil_append]
  have shorter : later.tokens.length ≤ brackets := by
    refine Nat.le_trans ?_ fits
    rw [said.tokens, starts]
    simp
  refine reads.reads _ later rest brackets place told within
    ⟨idle.waiting, idle.pending⟩ there said.tokens shorter _ _ _
    id fun last holds ended => ?_
  refine .of_achieves holds ((itemsUpTo_declines (endsItems_of_closesGraph (by
    rw [ended.tokens]
    exact closes)) _).mono fun _ final facts => ?_)
  obtain ⟨-, rfl⟩ := facts
  exact ended.from_earlier said.types

end Read

end Comments

end ConceptualGraph
