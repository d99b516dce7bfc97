/-
Module: ConceptualGraph.Proofs.Copy.RoundTrip
Purpose: A plain graph that is written in either notation and read again is the same graph but for
  the handles of its parts.
Main exports: Tracks.start, Read.textEnd_achieves, Session.tracks_of_copyable,
  Session.roundTrip_cgif, Session.roundTrip_linear
-/
import ConceptualGraph.Proofs.Copy.Graph
import ConceptualGraph.Proofs.Copy.Isomorphism
import ConceptualGraph.Proofs.Copy.Plain
import ConceptualGraph.Proofs.Writing.Text

namespace ConceptualGraph

/-! ## Beginnings -/

/-- No type of a new lattice fixes its number of arguments. -/
theorem Lattice.valence?_withExtremes {kind : TypeKind} (topLabel bottomLabel : String)
    (type : TypeRef kind) :
    (Lattice.withExtremes topLabel bottomLabel : Lattice kind).valence? type = none := by
  unfold Lattice.withExtremes Lattice.valence?
  rw [Lattice.node_link_of_keeps TypeNode.valence (fun _ _ => rfl) (fun _ _ => rfl)]
  obtain ⟨place⟩ := type
  match place with
  | 0 => rfl
  | 1 => rfl
  | place + 2 => rfl

theorem Hierarchy.ready_default (flat : Prop) : ({} : Hierarchy).Ready flat where
  concepts := .withExtremes _ _
  relations := .withExtremes _ _
  valence type valence fixed := by
    rw [show ({} : Hierarchy).relations = .withExtremes "Link" "AbsurdLink" from rfl,
      Lattice.valence?_withExtremes] at fixed
    cases fixed

/-- What is unfinished when the outermost graph begins to be read: its comments have not been
read. -/
def Unfinished.start : Unfinished := { graphs := [⟨0⟩], silent := [⟨0⟩] }

variable {model : Model} {source form : Notation} {text : String} {stop : Position}

/-- At the start no label has been given on either side. -/
theorem Model.labels_start {copy : Model} :
    model.Labels [⟨0⟩] Write.start copy ({} : LabelTable).push where
  labelled :=
    { own := fun _ bound => by cases bound
      named := fun _ _ member => absurd member List.not_mem_nil
      shared := fun _ _ member => absurd member List.not_mem_nil }
  bound _ bound := by cases bound
  framed := ⟨fun _ _ member => absurd member List.not_mem_nil, [], [], rfl, List.not_mem_nil,
    trivial⟩

/-- Before anything has been written, a new graph is a copy of it. -/
theorem Model.nodes_start (root : (model.graph ⟨0⟩).owner = none) :
    model.Nodes .start (Write.start.ledger model) [] (({} : Model).newGraph none).2 where
  listed := (Model.sound_default : ({} : Model).Sound .cgif []).newGraph.listed
  ascending := (Model.Ascending.mk (fun _ => .nil) fun _ => .nil : ({} : Model).Ascending).newGraph
  size := rfl
  waiting := ⟨_, (List.append_nil _).symm, rfl⟩
  concept _ _ copies := by cases copies
  distinct := List.nodup_nil
  draft _ member := absurd member List.not_mem_nil
  stands _ _ copies := by cases copies
  comments graph place there _ spoken := by
    have inside := there.lt
    obtain rfl : place = ⟨0⟩ := congrArg GraphId.mk (Nat.lt_one_iff.mp inside)
    exact absurd (List.mem_singleton_self _) spoken
  owner graph place there _ owner owned := by
    have inside := there.lt
    obtain rfl : place = ⟨0⟩ := congrArg GraphId.mk (Nat.lt_one_iff.mp inside)
    obtain rfl : ⟨0⟩ = graph := Option.some.inj there
    rw [root] at owned
    cases owned
  relations := ⟨[], rfl, .refl _, fun _ => rfl, fun _ _ here => by cases here⟩

/-- At the start both sides are in step. -/
theorem Tracks.start (root : (model.graph ⟨0⟩).owner = none) :
    Tracks model .start Write.start (Session.start form text stop) where
  first := trivial
  houses := Write.writing_start.houses
  nodes := Model.nodes_start root
  labels := Model.labels_start
  markers := MarkerTable.paired_empty _
  ready := Hierarchy.ready_default _
  setless _ := rfl

/-! ## Reading back -/

/-- A text ends where its tokens do. -/
theorem Read.textEnd_achieves {setting : Setting} {reader : Reader} (ended : reader.tokens = []) :
    Achieves (textEnd setting) reader fun _ later => later = reader := by
  have last : (reader.ahead 0).token = .endOfInput := by
    rw [Reader.token_ahead, ended]
    rfl
  unfold textEnd
  refine achieves_ite.mpr ⟨fun _ => ?_, fun _ => ?_⟩
  · simp only [achieves_bind, achieves_peek, last]
    exact rfl
  · simp only [achieves_bind, achieves_peek, last]
    exact rfl

namespace Session

variable {options : Options} {inner : Inner} {items : List Phrase} {after : Writer}

/-- Items that are written for the outermost graph, and are read back one by one, are read back
from their text. -/
theorem tracks_of_mirrors (copyable : model.Copyable source form)
    (setless : model.corefSets = #[]) (mirrors : Mirrors model form { form, options } inner [])
    (wrote : inner ⟨0⟩ Write.start = .ok items after) {located : List Located} {stop : Position}
    (scanned : Scan.ofText form (Phrase.join "\n" items).text = ⟨located, .ok stop⟩)
    (tokens : located.map Located.token =
      (Phrase.join "\n" items).tokens.map (Token.reread form))
    (enough : (Phrase.join "\n" items).text.length ≤ options.maxDepth) :
    let reading := (withOptions options).parseGraph {} form (Phrase.join "\n" items).text
    reading.result = .ok ⟨0⟩ ∧ ∃ last, reading.model = last.model ∧
      Tracks model .none after last := by
  have starts : (start form (Phrase.join "\n" items).text stop).tokens =
      items.flatMap (Phrase.reread form) ++ [] := by
    rw [List.append_nil, ← Phrase.reread_join "\n", Phrase.reread, ← tokens]
    simp only [Reader.tokens, start, scanned]
  have fits : (start form (Phrase.join "\n" items).text stop).tokens.length ≤ options.maxDepth := by
    rw [← Reader.length_rest]
    exact Nat.le_trans (Scan.length_tokens_le _) enough
  have reading := ((mirrors.reads ⟨0⟩ Write.start).of_ok wrote .start _ [] options.maxDepth ⟨0⟩
    (Tracks.start copyable.root) rfl ⟨rfl, by simp [Unfinished.start]⟩ rfl rfl starts
    (.inl rfl) fits [] rfl).achieves
      (Model.definedFirst_of_setless setless _)
  obtain ⟨_, later, ran, reads⟩ := reading.exists_ok
  obtain ⟨_, last, ended, same⟩ := (Read.textEnd_achieves reads.tokens :
    Achieves (Read.textEnd { form, options }) later _).exists_ok
  subst same
  have whole : Read.graphInto { form, options } ⟨0⟩
      (start form (Phrase.join "\n" items).text stop) = .ok () last := by
    simp only [Read.graphInto, Read.graphText, Bind.bind, EStateM.bind, Read.room]
    rw [ran]
    exact ended
  obtain ⟨result, same⟩ := parseGraph_eq_ok (by rw [scanned]) whole
  exact ⟨result, last, same, reads.tracks⟩

/-- What is written for a graph in a new session. -/
theorem generateGraph_eq (wrote : Write.items model form ⟨0⟩ Write.start = .ok items after) :
    (({} : Session).generateGraph model form ⟨0⟩).1 = .ok (Phrase.join "\n" items).text := by
  have written := fst_generateGraph {} model form ⟨0⟩
  rw [wrote] at written
  exact written

/-- The outermost graph of a model without coreference sets is written to its end, and its text is
read back, where enough brackets may be open at once. -/
theorem tracks_of_copyable (copyable : model.Copyable source form)
    (setless : model.corefSets = #[]) (whole : ∀ concept, ¬(model.concept concept).IsFractional) :
    ∃ items after, Write.items model form ⟨0⟩ Write.start = .ok items after ∧
      model.Writing [⟨0⟩] after ∧ model.Filled after ⟨0⟩ ∧
      ∃ depth, ∀ options : Options, options.createTypesOnDemand = true → depth ≤ options.maxDepth →
        let reading := (withOptions options).parseGraph {} form (Phrase.join "\n" items).text
        reading.result = .ok ⟨0⟩ ∧
          ∃ last, reading.model = last.model ∧ Tracks model .none after last := by
  obtain ⟨items, after, wrote, writing, filled⟩ :=
    (Write.items_achieves copyable).exists_ok
  obtain ⟨located, stop, scanned, tokens⟩ :=
    Write.scanned_items (copyable.legible whole) copyable.binary wrote
  refine ⟨items, after, wrote, writing, filled, (Phrase.join "\n" items).text.length,
    fun options onDemand enough => ?_⟩
  exact tracks_of_mirrors copyable setless (Write.mirrors_graphItems copyable onDemand rfl (by
    simpa using Write.size_lt_levelBound model)) wrote scanned tokens enough

/-- Whether a graph that is read from a text in a new session can be written in a notation, and
what is written is read in another new session, where enough brackets may be open at once, as
the same graph but for the handles of its parts. -/
def RoundTrips (source form : Notation) (text : String) (graph : GraphId) : Prop :=
  let model := (({} : Session).parseGraph {} source text).model
  ∃ written, (({} : Session).generateGraph model form graph).1 = .ok written ∧
    ∃ depth, ∀ options : Options, options.createTypesOnDemand = true → depth ≤ options.maxDepth →
      let reading := (withOptions options).parseGraph {} form written
      ∃ copy, reading.result = .ok copy ∧ model.Isomorphic reading.model graph copy ∧
        reading.model.corefSets = #[]

/-- A model that can be copied is written and read back as the same one but for the handles of its
parts. -/
theorem roundTrips_of_copyable {text : String}
    (copyable : (({} : Session).parseGraph {} source text).model.Copyable source form)
    (setless : (({} : Session).parseGraph {} source text).model.corefSets = #[])
    (whole : ∀ concept,
      ¬((({} : Session).parseGraph {} source text).model.concept concept).IsFractional) :
    RoundTrips source form text ⟨0⟩ := by
  obtain ⟨items, after, wrote, writing, filled, depth, readings⟩ :=
    tracks_of_copyable copyable setless whole
  refine ⟨_, generateGraph_eq wrote, depth, fun options onDemand enough => ⟨⟨0⟩, ?_⟩⟩
  obtain ⟨result, last, same, tracks⟩ := readings options onDemand enough
  rw [same]
  exact ⟨result, tracks.isomorphic copyable whole setless (writing.complete filled),
    tracks.setless setless⟩

section Plain

variable {text : String} {graph : GraphId}
  (parsed : (({} : Session).parseGraph {} source text).result = .ok graph)
  (fits : text.length < UInt64.size)
  (plain : (({} : Session).parseGraph {} source text).model.Plain form)
  (special : form = .linear → ∀ data ∈
    (({} : Session).parseGraph {} source text).model.concepts.toList, data.special = none)
  (binary : form = .linear → (({} : Session).parseGraph {} source text).model.Binary)

include parsed fits plain special binary

/-- Plain graphs that have no contexts under labels and no relations with more than two arguments,
if they are to be written in the linear form, can be written and read back.  A text has fewer
characters than a machine word has values. -/
theorem copyable_of_plain :
    graph = ⟨0⟩ ∧ (({} : Session).parseGraph {} source text).model.Copyable source form := by
  have read : ((withOptions {}).parseGraph {} source text).result = .ok graph := parsed
  obtain ⟨-, -, -, rfl, -⟩ := exists_of_parseGraph read
  have sound : SoundAt source text (({} : Session).parseGraph {} source text).model :=
    sound_parseGraph read
  exact ⟨rfl, plain.copyable sound.sound sound.owner (Nat.lt_of_le_of_lt sound.markers fits)
    (fun linear => Model.forall_concept (fun data => data.special = none) rfl (special linear))
    binary⟩

/-- Such graphs are written and read back. -/
theorem roundTrips_of_plain : RoundTrips source form text graph := by
  obtain ⟨rfl, copyable⟩ := copyable_of_plain parsed fits plain special binary
  exact roundTrips_of_copyable copyable plain.setless plain.not_isFractional

end Plain

/-- Plain graphs are written in the interchange form and read back. -/
theorem roundTrip_cgif {text : String} {graph : GraphId}
    (parsed : (({} : Session).parseGraph {} source text).result = .ok graph)
    (fits : text.length < UInt64.size)
    (plain : (({} : Session).parseGraph {} source text).model.Plain .cgif) :
    RoundTrips source .cgif text graph :=
  roundTrips_of_plain parsed fits plain (fun same => by cases same) fun same => by cases same

/-- A graph with a negation, an actor, a marker and comments. -/
theorem roundTrip_cgif_negation :
    (({} : Session).parseGraph {} .cgif
        "[Cat: *x] (On ?x [Mat: #12]) ~[[Dog: 'Rex' ;tame]] <Sum ?x | ?x> /** done */").result =
          .ok ⟨0⟩ ∧
      RoundTrips .cgif .cgif
        "[Cat: *x] (On ?x [Mat: #12]) ~[[Dog: 'Rex' ;tame]] <Sum ?x | ?x> /** done */" ⟨0⟩ :=
  have parsed : (({} : Session).parseGraph {} .cgif
      "[Cat: *x] (On ?x [Mat: #12]) ~[[Dog: 'Rex' ;tame]] <Sum ?x | ?x> /** done */").result =
        .ok ⟨0⟩ := by decide +kernel
  ⟨parsed, roundTrip_cgif parsed (by decide +kernel) (by decide +kernel)⟩

/-- Plain graphs without contexts under labels, in which no relation but an actor takes more than
two arguments, are written in the linear form and read back: chains, and fans within fans. -/
theorem roundTrip_linear {text : String} {graph : GraphId}
    (parsed : (({} : Session).parseGraph {} source text).result = .ok graph)
    (fits : text.length < UInt64.size)
    (plain : (({} : Session).parseGraph {} source text).model.Plain .linear)
    (special : ∀ data ∈ (({} : Session).parseGraph {} source text).model.concepts.toList,
      data.special = none)
    (binary : (({} : Session).parseGraph {} source text).model.Binary) :
    RoundTrips source .linear text graph :=
  roundTrips_of_plain parsed fits plain (fun _ => special) fun _ => binary

/-- A graph with a fan within a fan, an actor, and a chain in a negation. -/
theorem roundTrip_linear_fans :
    (({} : Session).parseGraph {} .linear
        "[A: *x]- (R) -> [B]- (S) -> [C] (T) -> ?x, (U). ~[[D] -> (V) -> [#7]]. <W | ?x>.").result =
          .ok ⟨0⟩ ∧
      RoundTrips .linear .linear
        "[A: *x]- (R) -> [B]- (S) -> [C] (T) -> ?x, (U). ~[[D] -> (V) -> [#7]]. <W | ?x>." ⟨0⟩ :=
  have parsed : (({} : Session).parseGraph {} .linear
      "[A: *x]- (R) -> [B]- (S) -> [C] (T) -> ?x, (U). ~[[D] -> (V) -> [#7]]. <W | ?x>.").result =
        .ok ⟨0⟩ := by decide +kernel
  ⟨parsed, roundTrip_linear parsed (by decide +kernel) (by decide +kernel) (by decide +kernel)
    (by decide +kernel)⟩

end Session

end ConceptualGraph
