/-
Module: ConceptualGraph.Proofs.Reading.Sound.Graphs
Purpose: Whole graphs are read soundly in both forms.
Main exports: Read.roomSound, Read.keeps_graphInto, Session.sound_parseGraph
-/
import ConceptualGraph.Proofs.Reading.Sound.Contexts
import ConceptualGraph.Proofs.Reading.Whole

namespace ConceptualGraph.Read

variable {form : Notation} {unfinished : List ConceptId} {reader : Reader}
  {setting : Setting} {room : Option Inside} {graph : GraphId}

/-! ## Items of the interchange form -/

/-- A comment of a graph is kept as it was read, and can be read again. -/
theorem keeps_graphComment (within : graph.index < reader.model.graphs.size) :
    Keeps form unfinished (graphComment graph) reader (Gains graph reader) := by
  refine .peek fun token found => ?_
  split
  · next text =>
    intro sound
    have readable : Token.IsGraphComment text := sound.scanned_ahead found
    have frame : reader.model.Frame [] (reader.model.addComment graph text) :=
      .addComment within text
    simp only [ensures_bind, ensures_advance, ensures_edit, ensures_pure]
    refine ⟨sound.next.withModel (sound.model.addComment within readable) frame (Nat.le_refl _),
      (Reader.Advances.next reader).trans (.withModel frame rfl (Nat.le_refl _)),
      fun _ => .inr (.inr ?_), by simp⟩
    rw [Reader.withModel_model, Reader.next_model, Model.graph_addComment within, if_pos rfl]
    simp
  · exact .pure fun _ => ⟨by simp, fun _ => rfl⟩

theorem keeps_isSome {production : Read (Option ConceptId)}
    (keeps : Keeps form unfinished production reader (Places graph reader)) :
    Keeps form unfinished (do return (← production).isSome) reader (Gains graph reader) := by
  refine keeps.bind fun concept later _ ⟨stands, nothing⟩ => .pure fun _ => ?_
  cases concept with
  | none => exact ⟨nofun, fun _ => nothing rfl⟩
  | some found => exact ⟨fun _ => .inl ⟨found, stands found rfl⟩, nofun⟩

/-- The first alternative that is taken keeps the arena sound, and so do those that decline. -/
theorem keeps_firstOf {productions : List (Read Bool)}
    (keeps : ∀ production ∈ productions,
      Keeps form unfinished production reader (Gains graph reader)) :
    Keeps form unfinished (firstOf productions) reader (Gains graph reader) := by
  induction productions with
  | nil => exact .pure fun _ => ⟨nofun, fun _ => rfl⟩
  | cons production others ih =>
      refine (keeps production (List.mem_cons_self ..)).bind fun gained later _ gains => ?_
      refine .ite (fun yes => .pure fun _ => ⟨fun _ => gains.1 yes, nofun⟩) fun no => ?_
      have same := gains.2 (by simpa using no)
      subst same
      exact ih fun other member => keeps other (List.mem_cons_of_mem _ member)

/-- Item by item the arena stays sound, and the graph gains what was read. -/
theorem keeps_bracketItems (roomSound : RoomSound form room)
    (within : graph.index < reader.model.graphs.size) (tokens : Nat) :
    Keeps form unfinished (bracketItems setting room graph tokens) reader
      fun _ later => Settles reader later graph := by
  induction tokens generalizing reader with
  | zero => exact .pure fun _ starts => .inl starts
  | succ tokens ih =>
      have first : Keeps form unfinished (firstOf (bracketProductions setting room graph)) reader
          (Gains graph reader) := by
        refine keeps_firstOf fun production member => ?_
        simp only [bracketProductions, List.mem_cons, List.not_mem_nil, or_false] at member
        rcases member with rfl | rfl | rfl | rfl | rfl | rfl
        · exact keeps_isSome ((keeps_concept roomSound within).mono fun _ _ _ _ finds =>
            ⟨fun found same => (finds.1 found same).1, finds.2⟩)
        · exact keeps_isSome (keeps_specialContext roomSound within)
        · exact keeps_negation roomSound within
        · exact keeps_relationInto within (relation_ensures roomSound within)
        · exact keeps_relationInto within (actor_ensures roomSound within)
        · exact keeps_graphComment within
      refine first.bind fun gained later advances gains => .ite (fun yes => ?_) fun no => ?_
      · have further := Nat.lt_of_lt_of_le within advances.frame.graphs_le
        refine (ih further).mono fun _ last _ more _ _ => .inr ?_
        exact more.frame.isInhabited further (gains.1 yes)
      · have same := gains.2 (by simpa using no)
        subst same
        exact .pure fun _ starts => .inl starts

/-! ## Statements of the linear form -/

/-- What a link leads to stands in the graph of the chain. -/
theorem keeps_target (roomSound : RoomSound form room)
    (within : graph.index < reader.model.graphs.size) :
    Keeps form unfinished (target setting room graph) reader
      fun concept later => later.model.Stands graph concept := by
  refine (keeps_arc within fun reader known =>
    (keeps_concept roomSound known).mono fun _ _ _ _ finds => finds.1).bind
      fun argument later _ stands => ?_
  cases argument with
  | none => exact .fail
  | some argument => exact .pure fun _ => stands argument rfl

/-- Whether what is known of a relation of a chain suffices to write it. -/
def NodeSound (node : RelationNode) (model : Model) : Prop :=
  node.type.index < model.hierarchy.relations.size ∧
    ∀ text, node.comment = some text → Token.IsNodeComment text

/-- A relation that is sound is so in every model that frames this one. -/
theorem NodeSound.frame {node : RelationNode} {model later : Model} {touched : List ConceptId}
    (sound : NodeSound node model) (frame : model.Frame touched later) :
    NodeSound node later :=
  ⟨frame.relationTypes.lt_size sound.1, sound.2⟩

theorem keeps_relationNodeAhead {β : Type} {next : Bool → Read β} {final : β → Reader → Prop}
    (others : ∀ answer, Keeps form unfinished (next answer) reader final) :
    Keeps form unfinished (relationNodeAhead >>= next) reader final := by
  intro sound
  unfold relationNodeAhead
  rw [ensures_bind, ensures_bind, ensures_peek, ensures_bind]
  refine (ensures_relationTypeAhead 1 reader).mono fun answer later same => ?_
  rw [same]
  exact others _ sound

theorem keeps_relationNode (roomSound : RoomSound form room) :
    Keeps form unfinished (relationNode setting room) reader
      fun node later => NodeSound node later.model := by
  refine keeps_relationNodeAhead fun answer => .ite (fun _ => ?_) fun _ => .fail
  refine .located (.advance ?_)
  refine (keeps_relationType fun _ => keeps_lambda roomSound).bind fun type later _ typed => ?_
  refine keeps_nodeComment.bind fun comment last advances readable => .expect fun _ => ?_
  exact .pure fun _ => ⟨advances.frame.relationTypes.lt_size typed, readable⟩

/-- Two nodes of a chain are connected by a relation in their graph. -/
theorem keeps_connect (within : graph.index < reader.model.graphs.size) {node : RelationNode}
    (known : NodeSound node reader.model) {args : List ConceptId}
    (stands : ∀ argument ∈ args, reader.model.Stands graph argument) :
    Keeps form unfinished (connect graph node args) reader
      fun _ later => later.model.IsInhabited graph := by
  intro sound
  unfold connect
  rw [ensures_bind]
  refine makeRelation_ensures.mono fun relation later ⟨named, same⟩ => ?_
  subst named same
  have typed : ∃ type, some node.type = some type ∧
      type.index < reader.model.hierarchy.relations.size := ⟨node.type, rfl, known.1⟩
  have related : (reader.model.related { type := some node.type, args, comment := node.comment }
      graph).Sound form unfinished :=
    sound.model.related within typed stands nofun known.2
  have frame : reader.model.Frame [] (reader.model.related
      { type := some node.type, args, comment := node.comment } graph) :=
    .related within fun concept argument _ => (stands concept argument).2.1
  exact gains_addRelation sound (.refl _) related frame nofun

theorem keeps_refuseNumberedArc {β : Type} {next : Unit → Read β} {final : β → Reader → Prop}
    (others : Keeps form unfinished (next ()) reader final) :
    Keeps form unfinished (refuseNumberedArc >>= next) reader final := by
  intro sound
  simp only [refuseNumberedArc, ensures_bind, ensures_ahead, ensures_ite, ensures_fail,
    implies_true, ensures_pure, true_and]
  exact fun _ => others sound

theorem keeps_arrowAhead {β : Type} {next : Option Direction → Read β}
    {final : β → Reader → Prop}
    (others : ∀ direction, Keeps form unfinished (next direction) reader final) :
    Keeps form unfinished (arrowAhead >>= next) reader final := by
  intro sound
  simp only [arrowAhead, ensures_bind, ensures_peek, ensures_pure]
  exact others _ sound

/-- Both ends of a link stand in the graph, whichever comes first. -/
theorem stands_order {model : Model} {before after : ConceptId} (direction : Direction)
    (first : model.Stands graph before) (second : model.Stands graph after) :
    ∀ argument ∈ direction.order before after, model.Stands graph argument := by
  cases direction <;> simp [Direction.order, first, second]

/-- Chains and fans, by the number of steps that are left. -/
theorem keeps_chains (roomSound : RoomSound form room) (steps : Nat) :
    (∀ {reader : Reader} {head : ConceptId}, graph.index < reader.model.graphs.size →
      reader.model.Stands graph head →
      Keeps form unfinished (chainTail setting room graph steps head) reader
        fun _ _ => True) ∧
    (∀ {reader : Reader} {head : ConceptId} {first : Bool},
      graph.index < reader.model.graphs.size → reader.model.Stands graph head →
      Keeps form unfinished (fan setting room graph steps head first) reader
        fun _ _ => True) := by
  -- Both are carried by what stands in the graph: the head of a chain and the target of each link.
  induction steps with
  | zero => exact ⟨fun _ _ => .pure fun _ => trivial, fun _ _ => .pure fun _ => trivial⟩
  | succ steps ih =>
      obtain ⟨tails, fans⟩ := ih
      constructor
      · intro reader head within stands
        refine keeps_refuseNumberedArc (keeps_arrowAhead fun into => ?_)
        cases into with
        | none =>
            refine .eat (fun _ => ?_) fun _ => ?_
            · exact fans (by exact within) stands
            · exact .pure fun _ => trivial
        | some into =>
            refine .advance
              ((keeps_relationNode roomSound).bind fun node first advances known => ?_)
            have firstWithin := Nat.lt_of_lt_of_le within advances.frame.graphs_le
            have firstStands : first.model.Stands graph head :=
              Model.Stands.frame stands advances.frame
            refine keeps_refuseNumberedArc (keeps_arrowAhead fun out => ?_)
            cases out with
            | none =>
                refine (keeps_connect firstWithin known ?_).mono fun _ _ _ _ _ => trivial
                simpa using firstStands
            | some out =>
                refine .located (.advance (.ite (fun _ => .failAt) fun _ => ?_))
                refine (keeps_target roomSound (by exact firstWithin)).bind
                  fun next second further nextStands => ?_
                have secondWithin := Nat.lt_of_lt_of_le firstWithin further.frame.graphs_le
                have ordered := stands_order into (firstStands.frame further.frame) nextStands
                refine (keeps_connect secondWithin (known.frame further.frame) ordered).bind
                  fun _ third last _ => ?_
                exact tails (Nat.lt_of_lt_of_le secondWithin last.frame.graphs_le)
                  (nextStands.frame last.frame)
      · intro reader head begins within stands
        refine keeps_refuseNumberedArc (keeps_relationNodeAhead fun answer => .ite (fun _ => ?_)
          fun _ => .ite (fun _ => .fail) fun _ => .eat (fun _ => .pure fun _ => trivial)
            fun _ => .pure fun _ => trivial)
        refine (keeps_relationNode roomSound).bind fun node first advances known => ?_
        have firstWithin := Nat.lt_of_lt_of_le within advances.frame.graphs_le
        have firstStands : first.model.Stands graph head := Model.Stands.frame stands advances.frame
        refine keeps_refuseNumberedArc (keeps_arrowAhead fun direction => ?_)
        cases direction with
        | none =>
            refine (keeps_connect firstWithin known (by simpa using firstStands)).bind
              fun _ second further _ => ?_
            exact fans (Nat.lt_of_lt_of_le firstWithin further.frame.graphs_le)
              (firstStands.frame further.frame)
        | some direction =>
            refine .advance ((keeps_target roomSound (by exact firstWithin)).bind
              fun next second further nextStands => ?_)
            have secondWithin := Nat.lt_of_lt_of_le firstWithin further.frame.graphs_le
            have secondStands := firstStands.frame further.frame
            refine (keeps_connect secondWithin (known.frame further.frame)
              (stands_order _ secondStands nextStands)).bind fun _ third last _ => ?_
            have thirdWithin := Nat.lt_of_lt_of_le secondWithin last.frame.graphs_le
            refine (tails thirdWithin (nextStands.frame last.frame)).bind
              fun _ fourth end' _ => ?_
            exact fans (Nat.lt_of_lt_of_le thirdWithin end'.frame.graphs_le)
              ((secondStands.frame last.frame).frame end'.frame)

/-- What a statement leaves behind: something in its graph, if an item of a graph begins
it. -/
def States (graph : GraphId) (reader : Reader) (stated : Bool) (later : Reader) : Prop :=
  (stated = true → startsItem (reader.ahead 0).token = true → later.model.IsInhabited graph) ∧
    (stated = false → later = reader)

/-- A statement in linear form states something of its graph. -/
theorem keeps_statement (roomSound : RoomSound form room)
    (within : graph.index < reader.model.graphs.size) :
    Keeps form unfinished (statement setting room graph) reader (States graph reader) := by
  have gains : ∀ {production : Read Bool},
      Keeps form unfinished production reader (Gains graph reader) →
      Keeps form unfinished production reader (States graph reader) := fun keeps =>
    keeps.mono fun _ _ _ _ gains => ⟨fun yes _ => gains.1 yes, gains.2⟩
  -- A chain leaves its head in the graph, which is inhabited by it.
  have chained : (reader.ahead 0).token = .punct .leftBracket ∨
      startsItem (reader.ahead 0).token = false →
      Keeps form unfinished (do
        chain setting room graph
        return true) reader (States graph reader) := by
    intro begins
    have read : Keeps form unfinished (chain setting room graph) reader fun _ later =>
        later.model.IsInhabited graph := by
      refine (keeps_target roomSound within).bind fun head later advances stands => .get ?_
      refine ((keeps_chains roomSound _).1
        (Nat.lt_of_lt_of_le within advances.frame.graphs_le) stands).mono
          fun _ last _ further _ => ?_
      exact .inl ⟨head, (stands.frame further.frame).1⟩
    exact read.bind fun _ later _ inhabited =>
      .pure fun _ => ⟨fun _ _ => inhabited, fun no => absurd no (by decide)⟩
  refine .peek fun token found => ?_
  split
  · exact chained (.inl found)
  · exact chained (.inr (by simp [found, startsItem]))
  · exact gains (keeps_negation roomSound within)
  · refine keeps_relationNodeAhead fun answer => .ite (fun _ => ?_) fun _ =>
      .pure fun _ => ⟨fun yes => absurd yes (by decide), fun _ => rfl⟩
    have read : Keeps form unfinished (relationChain setting room graph) reader
        fun _ later => later.model.IsInhabited graph := by
      refine (keeps_relationNode roomSound).bind fun node first advances known => ?_
      have firstWithin := Nat.lt_of_lt_of_le within advances.frame.graphs_le
      refine keeps_refuseNumberedArc (keeps_arrowAhead fun arrow => ?_)
      cases arrow with
      | none => exact keeps_connect firstWithin known (by simp)
      | some arrow =>
          refine .advance ((keeps_target roomSound (by exact firstWithin)).bind
            fun head second further stands => ?_)
          have secondWithin := Nat.lt_of_lt_of_le firstWithin further.frame.graphs_le
          refine (keeps_connect secondWithin (known.frame further.frame)
            (by simpa using stands)).bind fun _ third last inhabited => .get ?_
          have thirdWithin := Nat.lt_of_lt_of_le secondWithin last.frame.graphs_le
          refine ((keeps_chains roomSound _).1 thirdWithin (stands.frame last.frame)).mono
            fun _ _ _ more _ => more.frame.isInhabited thirdWithin inhabited
    exact read.bind fun _ later _ inhabited =>
      .pure fun _ => ⟨fun _ _ => inhabited, fun no => absurd no (by decide)⟩
  · exact gains (keeps_relationInto within (actor_ensures roomSound within))
  · exact .pure fun _ => ⟨fun yes => absurd yes (by decide), fun _ => rfl⟩

/-- What follows a statement starts where its end has been read. -/
theorem keeps_statementEnd {next : Unit → Read Unit} {final : Unit → Reader → Prop}
    (others : ∀ later : Reader, later.model = reader.model → reader.Advances later →
      Keeps form unfinished (next ()) later final) :
    Keeps form unfinished (statementEnd >>= next) reader final := by
  have ended : Keeps form unfinished statementEnd reader fun _ later =>
      later.model = reader.model := by
    refine .peek fun token found => ?_
    split
    · exact fun sound => ⟨sound.next, .next _, rfl⟩
    · exact fun sound => ⟨sound.next, .next _, rfl⟩
    · exact .pure fun _ => rfl
    · exact .pure fun _ => rfl
    · exact .fail
  exact ended.bind fun _ later advances same => others later same advances

/-- Statement by statement the arena stays sound. -/
theorem keeps_statements (roomSound : RoomSound form room)
    (within : graph.index < reader.model.graphs.size) (tokens : Nat) :
    Keeps form unfinished (statements setting room graph tokens) reader
      fun _ later => Settles reader later graph := by
  induction tokens generalizing reader with
  | zero => exact .pure fun _ starts => .inl starts
  | succ tokens ih =>
      refine (keeps_graphComment within).bind fun commented first advances gains =>
        .ite (fun yes => ?_) fun no => ?_
      · have firstWithin := Nat.lt_of_lt_of_le within advances.frame.graphs_le
        refine (ih firstWithin).mono fun _ last _ more _ _ => .inr ?_
        exact more.frame.isInhabited firstWithin (gains.1 yes)
      · have same := gains.2 (by simpa using no)
        subst same
        refine (keeps_statement roomSound within).bind fun stated second further states =>
          .ite (fun yes => ?_) fun none => ?_
        · have secondWithin := Nat.lt_of_lt_of_le within further.frame.graphs_le
          refine keeps_statementEnd fun third unchanged ended => ?_
          have thirdWithin : graph.index < third.model.graphs.size := by
            rw [unchanged]
            exact secondWithin
          refine (ih thirdWithin).mono fun _ last _ more _ starts => .inr ?_
          refine more.frame.isInhabited thirdWithin ?_
          rw [unchanged]
          exact states.1 yes starts
        · have same := states.2 (by simpa using none)
          subst same
          exact .pure fun _ starts => .inl starts

/-! ## Nesting -/

theorem keeps_items (roomSound : RoomSound form room)
    (within : graph.index < reader.model.graphs.size) :
    Keeps form unfinished (items setting room graph) reader
      fun _ later => Settles reader later graph := by
  refine .get ?_
  dsimp only
  cases setting.form with
  | cgif => exact keeps_bracketItems roomSound within _
  | linear => exact keeps_statements roomSound within _

/-- Inside of any number of brackets reading is sound. -/
theorem roomSound (brackets : Nat) : RoomSound form (roomFor setting brackets) := by
  induction brackets with
  | zero => exact nofun
  | succ brackets ih =>
      rintro inside ⟨⟩
      exact ⟨fun within => (keeps_concept ih within).mono fun _ _ _ _ finds => finds.1,
        keeps_lambda ih, keeps_items ih⟩

theorem keeps_textEnd : Keeps form unfinished (textEnd setting) reader fun _ _ => True := by
  have ended : ∀ later : Reader, Keeps form unfinished (do
      if (← peek) ≠ .endOfInput then fail .unexpected) later fun _ _ => True := fun later =>
    .peek fun token _ => .ite (fun _ => .fail) fun _ => .pure fun _ => trivial
  refine .ite (fun _ => .peek fun token _ => ?_) fun _ => ended _
  split
  · exact .advance (ended _)
  · exact .advance (ended _)
  · exact ended _

theorem keeps_graphInto (within : graph.index < reader.model.graphs.size) :
    Keeps form unfinished (graphInto setting graph) reader fun _ _ => True :=
  (keeps_items (roomSound _) within).bind fun _ _ _ _ => keeps_textEnd

end ConceptualGraph.Read

/-! ## Whole texts -/

namespace ConceptualGraph

variable {form : Notation}

/-- The empty arena is sound. -/
theorem Model.sound_default : ({} : Model).Sound form [] where
  listed := ⟨nofun, nofun, fun _ _ => ⟨nofun, nofun⟩, fun _ => List.nodup_nil,
    fun _ _ => ⟨nofun, nofun⟩, fun _ => List.nodup_nil⟩
  comments := nofun
  concepts := nofun
  unfinished := nofun
  relations := nofun
  conceptTypes := .withExtremes (by cases form <;> decide +kernel)
    (by cases form <;> decide +kernel)
  relationTypes := .withExtremes (by cases form <;> decide +kernel)
    (by cases form <;> decide +kernel)
  joined := ⟨nofun, fun _ _ => ⟨nofun, nofun⟩, nofun⟩

namespace Session

variable {options : Options} {source : String} {graph : GraphId}

/-- The state in which the tokens of a text begin to be read into a new model. -/
def start (form : Notation) (source : String) (stop : Position) : Reader where
  rest := (Scan.ofText form source).tokens
  stop := stop
  model := (({} : Model).newGraph none).2
  labels := ({} : LabelTable).push
  markers := {}

/-- The state in which a text begins to be read is sound. -/
theorem sound_start (stop : Position) : (start form source stop).Sound form [] where
  model := Model.sound_default.newGraph
  scanned _ member := Scan.scanned_of_mem member
  labels _ _ bound := by
    rcases List.mem_cons.mp bound with same | bound
    · cases same
    · cases bound
  markers := nofun

/-- A graph is read when its text can be scanned and its tokens can be read to the end. -/
theorem parseGraph_eq_ok {stop : Position} {later : Reader}
    (scanned : (Scan.ofText form source).stop = .ok stop)
    (read : Read.graphInto { form, options } ⟨0⟩ (start form source stop) = .ok () later) :
    ((withOptions options).parseGraph {} form source).result = .ok ⟨0⟩ ∧
      ((withOptions options).parseGraph {} form source).model = later.model := by
  have whole : (withOptions options).parseGraph {} form source = _ := parseGraph_of_ok scanned read
  rw [whole]
  exact ⟨rfl, rfl⟩

/-- A text that can be read has been read from its first token to its last, in a graph that is the
first of its arena. -/
theorem exists_of_parseGraph
    (parsed : ((withOptions options).parseGraph {} form source).result = .ok graph) :
    ∃ stop later, (Scan.ofText form source).stop = .ok stop ∧ graph = ⟨0⟩ ∧
      Read.graphInto { form, options } ⟨0⟩ (start form source stop) = .ok () later ∧
      ((withOptions options).parseGraph {} form source).model = later.model := by
  obtain ⟨stop, later, scanned, read⟩ := exists_of_parsed parsed
  have ran : Read.graphInto { form, options } ⟨0⟩ (start form source stop) = .ok () later := read
  obtain ⟨result, model⟩ := parseGraph_eq_ok scanned ran
  rw [result] at parsed
  cases parsed
  exact ⟨stop, later, scanned, rfl, ran, model⟩

/-- What a graph read on its own comes with. -/
structure SoundAt (form : Notation) (source : String) (model : Model) : Prop where
  sound : model.Sound form []
  inside : 0 < model.graphs.size
  owner : (model.graph ⟨0⟩).owner = none
  markers : model.markers ≤ source.length

/-- A graph that has been read in a new session into a new model. -/
theorem sound_parseGraph
    (parsed : ((withOptions options).parseGraph {} form source).result = .ok graph) :
    SoundAt form source ((withOptions options).parseGraph {} form source).model := by
  obtain ⟨stop, later, -, -, read, model⟩ := exists_of_parseGraph parsed
  have within : (⟨0⟩ : GraphId).index < (start form source stop).model.graphs.size :=
    Nat.zero_lt_one
  obtain ⟨sound, advances, -⟩ := (Read.keeps_graphInto within (sound_start stop)).of_ok read
  rw [model]
  refine ⟨sound.model, Nat.lt_of_lt_of_le within advances.frame.graphs_le, ?_, ?_⟩
  · rw [advances.frame.owner _ within]
    rfl
  · have fewer := advances.markers
    have tokens : (start form source stop).rest.length ≤ source.length :=
      Scan.length_tokens_le source
    have none : (start form source stop).model.markers = 0 := rfl
    omega

end Session

end ConceptualGraph
