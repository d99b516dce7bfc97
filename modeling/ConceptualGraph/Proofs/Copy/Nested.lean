/-
Module: ConceptualGraph.Proofs.Copy.Nested
Purpose: A nested graph is read back as the graph that describes the copy of its owner.
Main exports: Model.Untouched, Mirrors, Tracks.entered, Tracks.left, Read.descriptor_achieves
-/
import ConceptualGraph.Proofs.Copy.Written
import ConceptualGraph.Proofs.Copy.Place
import ConceptualGraph.Proofs.Reading.Declines

namespace ConceptualGraph

/-! ## Going on -/

namespace Writer.Onward

theorem withLabels (writer : Writer) (labels : LabelTable) :
    writer.Onward (writer.withLabels labels) :=
  ⟨List.suffix_rfl, List.suffix_rfl, List.Subset.refl _⟩

theorem emit (writer : Writer) (concept : ConceptId) (label : Option String) :
    writer.Onward (writer.emit concept label) :=
  ⟨List.suffix_cons _ _, List.suffix_rfl, List.Subset.refl _⟩

end Writer.Onward

/-! ## What is asked of a nested graph -/

/-- Whether nothing in a graph has been written. -/
structure Model.Untouched (model : Model) (writer : Writer) (graph : GraphId) : Prop where
  concepts : ∀ concept ∈ writer.order, (model.concept concept).graph ≠ some graph
  relations : ∀ relation ∈ writer.written, (model.relation relation).graph ≠ some graph

/-- Whether tokens begin an item, which is not the definition of a type. -/
def OpensGraph (tokens : List Token) : Prop :=
  ∃ first others, tokens = first :: others ∧ Read.startsItem first = true ∧
    (first = .punct .leftParen → ∃ word more, others = .ident word :: more)

/-- Whether the items of a graph end before tokens. -/
def ClosesGraph (rest : List Token) : Prop :=
  rest = [] ∨ From 6 rest

/-- Whether a graph around which others are open is read back from its items. -/
structure Mirrors (model : Model) (form : Notation) (setting : Setting) (inner : Inner)
    (outer : List GraphId) : Prop where
  proceeds : ∀ graph writer, Ensures (inner graph) writer fun _ after =>
    writer.Proceeds model after
  opens : ∀ graph writer, model.Houses (graph :: outer) writer.order writer.written →
    model.Untouched writer graph → Ensures (inner graph) writer fun items _ =>
      ¬model.IsInhabited graph ∧ items.flatMap (Phrase.reread form) = [] ∨
        OpensGraph (items.flatMap (Phrase.reread form))
  reads : ∀ graph writer, Ensures (inner graph) writer fun items after =>
    ∀ unfinished reader rest brackets place, Tracks model unfinished writer reader →
      unfinished.graphs = graph :: outer → unfinished.Idle model graph →
      (writer.ledger model).Graph graph place → (reader.model.graph place).comments = [] →
      reader.tokens = items.flatMap (Phrase.reread form) ++ rest → ClosesGraph rest →
      reader.tokens.length ≤ brackets → ∀ silent, unfinished.silent = place :: silent →
        Outcome (model.DefinedFirst after.order)
          (Read.items setting (Read.roomFor setting brackets) place) reader
          fun _ later => Reads model { unfinished with silent } after reader rest later

/-! ## Entering and leaving -/

section

variable {model : Model} {source form : Notation} {unfinished : Unfinished} {writer : Writer}
  {reader : Reader} {graph inner : GraphId} {outer : List GraphId} {concept copy : ConceptId}

/-- What is unfinished once the items of a graph begin. -/
def Unfinished.enter (unfinished : Unfinished) (graph place : GraphId) : Unfinished :=
  { unfinished with
    graphs := graph :: unfinished.graphs
    waiting := []
    silent := place :: unfinished.silent }

/-- A concept has one copy. -/
theorem Tracks.concept_unique {first second : ConceptId}
    (tracks : Tracks model unfinished writer reader)
    (one : (writer.ledger model).Concept concept first)
    (two : (writer.ledger model).Concept concept second) : first = second := by
  have distinct : (writer.ledger model).concepts.Nodup :=
    List.nodup_reverse.mpr tracks.houses.distinct
  exact congrArg ConceptId.mk ((List.getElem?_inj one.lt distinct).mp (one.trans two.symm))

/-- The items of the graph that describes a concept begin. -/
theorem Tracks.entered (tracks : Tracks model unfinished writer reader)
    (copyable : model.Copyable source form) (within : unfinished.graphs = graph :: outer)
    (stands : (model.concept concept).graph = some graph)
    (describes : model.descriptor? concept = some inner)
    (waits : unfinished.waiting = [inner]) (copies : (writer.ledger model).Concept concept copy)
    (untouched : model.Untouched writer inner) :
    Tracks model (unfinished.enter inner ⟨reader.model.graphs.size⟩)
      (writer.withLabels writer.labels.push)
      ((reader.withModel (reader.model.newGraph (some copy)).2).withLabels
        reader.labels.push) where
  first := tracks.first
  houses := by
    have entered := (within ▸ tracks.houses).enter (by simpa [Writer.ledger] using copies.mem)
      stands describes
    exact (show (unfinished.enter inner ⟨reader.model.graphs.size⟩).graphs =
      inner :: graph :: outer from congrArg _ within) ▸ entered
  nodes := by
    have same : unfinished = { unfinished with waiting := [inner] } := by
      cases unfinished
      cases waits
      rfl
    have opened := (same ▸ tracks.nodes).opened (copyable.describedBy describes).owner copies
    exact ⟨opened.listed, opened.ascending, opened.size, opened.waiting, opened.concept,
      opened.distinct,
      opened.draft, opened.stands, opened.comments, opened.owner, opened.relations⟩
  labels := by
    have pushed := tracks.labels.push untouched.concepts
    exact ⟨pushed.labelled, pushed.bound, pushed.framed.mono (.refl _) (.of_eq rfl)⟩
  markers := tracks.markers
  ready := tracks.ready
  setless := tracks.setless

/-- No relation of a graph that has not been touched has been begun. -/
theorem Tracks.idle_enter {place : GraphId} (tracks : Tracks model unfinished writer reader)
    (untouched : model.Untouched writer inner) :
    (unfinished.enter inner place).Idle model inner where
  waiting := rfl
  pending relation pending := by
    obtain ⟨made, -, perm, -⟩ := tracks.nodes.relations
    exact untouched.relations relation (perm.mem_iff.mp (List.mem_append_right _ pending))

/-- The items of a nested graph end. -/
theorem Tracks.left {silent : List GraphId} {place : GraphId}
    (tracks : Tracks model { unfinished.enter inner place with silent } writer reader)
    (within : unfinished.graphs = graph :: outer) (setless : model.corefSets = #[]) :
    Tracks model { unfinished with waiting := [], silent }
      (writer.withLabels writer.labels.pop) (reader.withLabels reader.labels.pop) where
  first := tracks.first
  houses := by
    have entered : model.Houses (inner :: graph :: outer) writer.order writer.written :=
      within ▸ tracks.houses
    exact (show unfinished.graphs = graph :: outer from within) ▸ entered.leave
  nodes := ⟨tracks.nodes.listed, tracks.nodes.ascending, tracks.nodes.size, tracks.nodes.waiting,
    tracks.nodes.concept,
    tracks.nodes.distinct, tracks.nodes.draft, tracks.nodes.stands, tracks.nodes.comments,
    tracks.nodes.owner, tracks.nodes.relations⟩
  labels := by
    have popped : model.Labels unfinished.graphs _ _ _ := Model.Labels.pop tracks.labels setless
    exact ⟨popped.labelled, popped.bound, popped.framed⟩
  markers := tracks.markers
  ready := tracks.ready
  setless := tracks.setless

end

/-! ## Descriptors -/

namespace Write

variable {writer after : Writer} {inner : Inner} {graph : GraphId} {nested : List Phrase}

@[simp] theorem ensures_inContext {α : Type} {step : Write α} {post : α → Writer → Prop} :
    Ensures (inContext step) writer post ↔
      Ensures step (writer.withLabels writer.labels.push) fun value later =>
        post value (later.withLabels later.labels.pop) := by
  unfold Ensures inContext Writer.withLabels
  cases step { writer with labels := writer.labels.push } <;> rfl

@[simp] theorem achieves_inContext {α : Type} {step : Write α} {post : α → Writer → Prop} :
    Achieves (inContext step) writer post ↔
      Achieves step (writer.withLabels writer.labels.push) fun value later =>
        post value (later.withLabels later.labels.pop) := by
  unfold Achieves inContext Writer.withLabels
  cases step { writer with labels := writer.labels.push } <;> rfl

/-- A nested graph is written in a context of its own. -/
theorem nestedGraphs_ensures :
    Ensures (nestedGraphs inner (some graph)) writer fun nested after =>
      ∃ items last, inner graph (writer.withLabels writer.labels.push) = .ok items last ∧
        nested = [Phrase.join " " items] ∧ after = last.withLabels last.labels.pop := by
  unfold nestedGraphs
  rw [Option.toList_some, concat_singleton]
  simp only [nestedGraph, ensures_bind, ensures_inContext, ensures_pure]
  exact .intro fun items last ran => ⟨items, last, ran, rfl, rfl⟩

end Write

namespace Read

variable {model : Model} {source form : Notation} {setting : Setting} {inner : Inner}
  {unfinished : Unfinished} {writer after : Writer} {reader : Reader} {graph : GraphId}
  {outer : List GraphId} {concept copy : ConceptId} {inside : Inside} {brackets : Nat}
  {nested : List Phrase} {rest : List Token}

theorem rank_of_startsItem {token : Token} (opens : startsItem token = true) : token.rank = 5 := by
  unfold startsItem at opens
  split at opens <;> first | rfl | cases opens

/-- Where no graph follows, none is read. -/
theorem descriptor_achieves_none (next : From 6 reader.tokens) :
    Achieves (descriptor inside copy) reader fun read later => read = none ∧ later = reader := by
  obtain ⟨first, others, starts, high⟩ := next
  simp only [descriptor, achieves_bind, achieves_peek, Reader.token_ahead_zero starts]
  split
  · next opens =>
    rw [rank_of_startsItem opens] at high
    exact absurd high (by decide)
  · exact ⟨rfl, rfl⟩

/-- A nested graph that begins as an item is read back. -/
theorem nestedGraph_achieves {id : GraphId} (copyable : model.Copyable source form)
    (mirrors : Mirrors model form setting inner (graph :: outer))
    (tracks : Tracks model unfinished writer reader) (within : unfinished.graphs = graph :: outer)
    (stands : (model.concept concept).graph = some graph)
    (describes : model.descriptor? concept = some id) (waits : unfinished.waiting = [id])
    (copies : (writer.ledger model).Concept concept copy) (untouched : model.Untouched writer id)
    (room : ∀ id, inside.items id = items setting (roomFor setting brackets) id)
    (ran : Write.nestedGraphs inner (some id) writer = .ok nested after)
    (opening : OpensGraph (nested.flatMap (Phrase.reread form)))
    (starts : reader.tokens = nested.flatMap (Phrase.reread form) ++ rest) (next : From 6 rest)
    (fits : reader.tokens.length ≤ brackets) :
    Achieves (descriptor inside copy) reader fun read later => ∃ place, read = some place ∧
      Reads model { unfinished with waiting := [] } after reader rest later ∧
        writer.Onward after ∧ (after.ledger model).Graph id place ∧
        place.index < later.model.graphs.size ∧ (later.model.graph place).owner = some copy := by
  have setless := copyable.setless_of_descriptor? describes
  have entered := tracks.entered copyable within stands describes waits copies untouched
  obtain ⟨items, last, wrote, rfl, rfl⟩ := Write.nestedGraphs_ensures.of_ok ran
  rw [List.flatMap_singleton, Phrase.reread_join] at starts opening
  have onward := ((mirrors.proceeds id _).of_ok wrote entered.counted).1
  have grown : writer.Onward (last.withLabels last.labels.pop) :=
    ⟨onward.emitted, onward.markers, onward.written⟩
  obtain ⟨first, others, begins, starting, -⟩ := opening
  -- What the graph begins with tells that there is one.
  have begins : reader.tokens = first :: (others ++ rest) := by rw [starts, begins]; rfl
  have same : unfinished = { unfinished with waiting := [id] } := by
    cases unfinished; cases waits; rfl
  have there := (same ▸ tracks.nodes).graph_of_waiting
  simp only [descriptor, achieves_bind, achieves_peek, Reader.token_ahead_zero begins, starting,
    if_true, achieves_make, achieves_inContext, room, Model.newGraph_fst, achieves_pure]
  have reading := ((mirrors.reads id _).of_ok wrote _ _ rest brackets _ entered
    (congrArg _ within) (tracks.idle_enter untouched) there (by
      rw [Reader.withLabels_model, Reader.withModel_model, Model.graph_newGraph])
    starts (.inr next) fits _ rfl).achieves (Model.definedFirst_of_setless setless _)
  refine reading.mono fun _ later reads => ?_
  -- Once the context is left, all that has been made in it is on the ledger.
  have left := reads.tracks.left within setless
  have located := there.mono (grown.continues model)
  have inside := left.lt_graphs rfl located
  obtain ⟨other, copied, owned⟩ := left.nodes.owner id _ located inside concept
    (copyable.describedBy describes).owner
  refine ⟨_, rfl, ⟨reads.tokens, left, reads.types⟩, grown, located, inside, ?_⟩
  rw [left.concept_unique (copies.mono (grown.continues model)) copied]
  exact owned

/-- The graph that describes a concept is read back. -/
theorem descriptor_achieves (copyable : model.Copyable source form)
    (mirrors : Mirrors model form setting inner (graph :: outer))
    (tracks : Tracks model unfinished writer reader) (within : unfinished.graphs = graph :: outer)
    (stands : (model.concept concept).graph = some graph)
    (visible : (model.concept concept).hidden = false)
    (waits : unfinished.waiting = (model.descriptor? concept).toList)
    (copies : (writer.ledger model).Concept concept copy)
    (untouched : ∀ id, model.descriptor? concept = some id → model.Untouched writer id)
    (room : ∀ id, inside.items id = items setting (roomFor setting brackets) id)
    (ran : Write.nestedGraphs inner (model.descriptor? concept) writer = .ok nested after)
    (starts : reader.tokens = nested.flatMap (Phrase.reread form) ++ rest) (next : From 6 rest)
    (fits : reader.tokens.length ≤ brackets) :
    Achieves (descriptor inside copy) reader fun read later =>
      Reads model { unfinished with waiting := [] } after reader rest later ∧
        writer.Onward after ∧
        Option.Rel (after.ledger model).Graph (model.descriptor? concept) read ∧
        ∀ id, read = some id → id.index < later.model.graphs.size ∧
          (later.model.graph id).owner = some copy := by
  cases describes : model.descriptor? concept with
  | none =>
      rw [describes] at ran waits
      cases ran
      have tokens : reader.tokens = rest := starts
      refine (descriptor_achieves_none (tokens ▸ next)).mono fun read later facts => ?_
      obtain ⟨rfl, rfl⟩ := facts
      refine ⟨⟨tokens, ?_, .refl _⟩, .refl _, .none, by simp⟩
      exact (show unfinished = { unfinished with waiting := [] } by
        cases unfinished; cases waits; rfl) ▸ tracks
  | some id =>
      rw [describes] at ran waits
      obtain ⟨items, last, wrote, rfl, -⟩ := Write.nestedGraphs_ensures.of_ok ran
      have opening : OpensGraph ([Phrase.join " " items].flatMap (Phrase.reread form)) := by
        rw [List.flatMap_singleton, Phrase.reread_join]
        refine ((mirrors.opens id (writer.withLabels writer.labels.push)
          ((within ▸ tracks.houses).enter (by simpa [Writer.ledger] using copies.mem) stands
            describes)
          ⟨(untouched id describes).concepts, (untouched id describes).relations⟩).of_ok
            wrote).resolve_left ?_
        exact fun empty => empty.1 ((copyable.describedBy describes).inhabited visible)
      refine (nestedGraph_achieves copyable mirrors tracks within stands describes waits copies
        (untouched id describes) room ran opening starts next fits).mono fun read later facts => ?_
      obtain ⟨place, rfl, reads, onward, copied, inside, owned⟩ := facts
      refine ⟨reads, onward, .some copied, fun other same => ?_⟩
      cases same
      exact ⟨inside, owned⟩

/-- A graph in which nothing is written is read back as one that is made empty. -/
theorem nestedGraph_empty {id : GraphId} (copyable : model.Copyable source form)
    (mirrors : Mirrors model form setting inner (graph :: outer))
    (tracks : Tracks model unfinished writer reader) (within : unfinished.graphs = graph :: outer)
    (stands : (model.concept concept).graph = some graph)
    (describes : model.descriptor? concept = some id) (waits : unfinished.waiting = [id])
    (copies : (writer.ledger model).Concept concept copy) (untouched : model.Untouched writer id)
    (ran : Write.nestedGraphs inner (some id) writer = .ok nested after)
    (empty : nested.flatMap (Phrase.reread form) = [])
    (starts : reader.tokens = .punct .rightBracket :: rest) :
    Tracks model { unfinished with waiting := [] } after
        (reader.withModel (reader.model.newGraph (some copy)).2) ∧ writer.Onward after ∧
      (after.ledger model).Graph id ⟨reader.model.graphs.size⟩ := by
  have setless := copyable.setless_of_descriptor? describes
  have entered := tracks.entered copyable within stands describes waits copies untouched
  obtain ⟨items, last, wrote, rfl, rfl⟩ := Write.nestedGraphs_ensures.of_ok ran
  rw [List.flatMap_singleton, Phrase.reread_join] at empty
  have onward := ((mirrors.proceeds id _).of_ok wrote entered.counted).1
  have grown : writer.Onward (last.withLabels last.labels.pop) :=
    ⟨onward.emitted, onward.markers, onward.written⟩
  have same : unfinished = { unfinished with waiting := [id] } := by
    cases unfinished; cases waits; rfl
  have there := (same ▸ tracks.nodes).graph_of_waiting
  have bracket : From 6 (.punct .rightBracket :: rest) := ⟨_, _, rfl, by decide⟩
  have reading := ((mirrors.reads id _).of_ok wrote _ _ (.punct .rightBracket :: rest)
    reader.tokens.length _ entered (congrArg _ within) (tracks.idle_enter untouched) there (by
      rw [Reader.withLabels_model, Reader.withModel_model, Model.graph_newGraph])
    (by rw [empty]; exact starts) (.inr bracket) (Nat.le_refl _) _ rfl).achieves
      (Model.definedFirst_of_setless setless _)
  -- Where nothing follows, reading the items changes nothing.
  have nothing : EndsItems ((((reader.withModel (reader.model.newGraph (some copy)).2).withLabels
      reader.labels.push).ahead 0).token) := by
    rw [Reader.ahead_withLabels, Reader.ahead_withModel, Reader.token_ahead_zero starts]
    exact ⟨rfl, by simp⟩
  obtain ⟨_, later, ran, reads⟩ := reading.exists_ok
  obtain ⟨-, rfl⟩ := (Achieves.ensures (items_declines nothing)).of_ok ran
  exact ⟨reads.tracks.left within setless, grown, there.mono (grown.continues model)⟩

end Read

end ConceptualGraph
