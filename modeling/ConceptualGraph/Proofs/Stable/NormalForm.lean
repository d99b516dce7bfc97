/-
Module: ConceptualGraph.Proofs.Stable.NormalForm
Purpose: What is written for a plain graph is a normal form: read and written again in the same
  notation, it is the same text.
Main exports: Write.nested_graphItems, Session.Stable, Session.stable_generateGraph
-/
import ConceptualGraph.Proofs.Copy.RoundTrip
import ConceptualGraph.Proofs.Stable.Bracket
import ConceptualGraph.Proofs.Stable.Chain
import ConceptualGraph.Proofs.Stable.Relist

namespace ConceptualGraph

/-! ## Nested graphs -/

namespace Write

variable {rerun : Rerun} {deep : Depth} {model copy : Model} {source form : Notation}
  {levels levelsAgain : Nat}

/-- The arguments of relations that do not negate are asked to be written in their graph. -/
theorem mem_order_of_args (rooted : model.Rooted source) {graph : GraphId} :
    ∀ relation ∈ (model.graph graph).relations, model.isNegation relation = false →
      ∀ concept ∈ (model.relation relation).args, concept ∈ (Plan.ofGraph model graph).order := by
  intro relation member positive concept argument
  have listed := rooted.sound.listed
  obtain ⟨stands, plain⟩ := rooted.args_of_positive
    ((listed.mem_relations graph relation).mp member) positive concept argument
  exact Plan.mem_order.mpr ⟨(listed.mem_concepts graph concept).mpr stands, plain.1⟩

/-- A copy of a graph is written as the graph where the graphs nested in it are. -/
theorem repeats_graphItems (relists : rerun.Relists model copy) (rooted : model.Rooted source)
    (nested : rerun.Nested deep.emit model (graphItems model form levels)
      (graphItems copy form levelsAgain)) :
    rerun.Nested deep model (graphItems model form (levels + 1))
      (graphItems copy form (levelsAgain + 1)) := by
  intro graph begun writer
  cases form with
  | cgif => exact repeats_bracketGraph relists nested begun
  | linear => exact repeats_linearGraph relists nested begun (mem_order_of_args rooted)

/-- A copy of a graph is written as the graph with all graphs nested in it, where the levels are
enough for all concepts on either side. -/
theorem nested_graphItems (relists : rerun.Relists model copy) (rooted : model.Rooted source)
    (enough : rerun.final.emitted.length < levels + deep.concepts)
    (enoughAgain : rerun.final.emitted.length < levelsAgain + deep.concepts) :
    rerun.Nested deep model (graphItems model form levels) (graphItems copy form levelsAgain) := by
  induction levels generalizing levelsAgain deep with
  | zero =>
      exact fun graph _ writer => .nothing (.inl (by omega))
  | succ levels ih =>
      have step : ∀ levelsAgain, rerun.final.emitted.length < levelsAgain + deep.emit.concepts →
          rerun.Nested deep model (graphItems model form (levels + 1))
            (graphItems copy form (levelsAgain + 1)) := fun levelsAgain enoughAgain =>
        repeats_graphItems relists rooted
          (ih (by simp only [Depth.emit]; omega) enoughAgain)
      cases levelsAgain with
      | zero =>
          intro graph begun writer
          exact (step levels (by simp only [Depth.emit]; omega) graph begun writer).exhausted
            (.inl (by omega))
      | succ levelsAgain => exact step levelsAgain (by simp only [Depth.emit]; omega)

end Write

/-! ## Whole texts -/

variable {model : Model} {source form : Notation}

/-- What has been written to its end is written again for its copy. -/
theorem Tracks.items_again {writer : Writer} {reader : Reader} {items : List Phrase}
    (tracks : Tracks model .none writer reader) (copyable : model.Copyable source form)
    (whole : ∀ concept, ¬(model.concept concept).IsFractional) (setless : model.corefSets = #[])
    (joined : reader.model.Joined)
    (wrote : Write.items model form ⟨0⟩ Write.start = .ok items writer)
    (writing : model.Writing [⟨0⟩] writer) (filled : model.Filled writer ⟨0⟩) :
    ∃ again, Write.items reader.model form ⟨0⟩ Write.start = .ok items again := by
  obtain ⟨made, lists⟩ := tracks.exists_made
  have relists := tracks.relists copyable lists whole setless joined writing filled
  have root : ((writer.ledger model).handles made).graph ⟨0⟩ = ⟨0⟩ :=
    (tracks.graph_eq copyable (rfl : (writer.ledger model).Graph ⟨0⟩ ⟨0⟩)).symm
  obtain ⟨old, new⟩ := relists.conceptCount
  simp only [Writer.order, List.length_map] at old new
  have nested : Rerun.Nested _ {} model (Write.items model form) (Write.items reader.model form) :=
    Write.nested_graphItems relists copyable.toRooted
      (Nat.lt_of_le_of_lt old (Write.size_lt_levelBound model))
      (Nat.lt_of_le_of_lt new (Write.size_lt_levelBound reader.model))
  have repeated := ((nested ⟨0⟩ (.inl rfl) Write.start).of_ok wrote).2
    ⟨Nat.zero_le _, Nat.zero_le _⟩ (.refl writer)
  rw [root] at repeated
  exact ⟨_, repeated⟩

namespace Session

/-- Whether a graph that is read from a text in a new session can be written in a notation, and
what is written is read in another new session, where enough brackets may be open at once, and
written in the same notation in a third one as the same text. -/
def Stable (source form : Notation) (text : String) (graph : GraphId) : Prop :=
  let model := (({} : Session).parseGraph {} source text).model
  ∃ written, (({} : Session).generateGraph model form graph).1 = .ok written ∧
    ∃ depth, ∀ options : Options, options.createTypesOnDemand = true → depth ≤ options.maxDepth →
      let reading := (withOptions options).parseGraph {} form written
      ∃ copy, reading.result = .ok copy ∧
        (({} : Session).generateGraph reading.model form copy).1 = .ok written

/-- Texts of plain graphs are normal forms: in the interchange form all of them, in the linear form
those of graphs without contexts under labels in which no relation but an actor takes more than two
arguments. -/
theorem stable_generateGraph {text : String} {graph : GraphId}
    (parsed : (({} : Session).parseGraph {} source text).result = .ok graph)
    (fits : text.length < UInt64.size)
    (plain : (({} : Session).parseGraph {} source text).model.Plain form)
    (special : form = .linear → ∀ data ∈
      (({} : Session).parseGraph {} source text).model.concepts.toList, data.special = none)
    (binary : form = .linear → (({} : Session).parseGraph {} source text).model.Binary) :
    Stable source form text graph := by
  obtain ⟨rfl, copyable⟩ := copyable_of_plain parsed fits plain special binary
  obtain ⟨items, after, wrote, writing, filled, depth, readings⟩ :=
    tracks_of_copyable copyable plain.setless plain.not_isFractional
  refine ⟨_, generateGraph_eq wrote, depth, fun options onDemand enough => ⟨⟨0⟩, ?_⟩⟩
  obtain ⟨result, last, same, tracks⟩ := readings options onDemand enough
  have sound := (sound_parseGraph result).sound
  -- The copy is written as the original was, because reading has kept track of both.
  rw [same] at sound ⊢
  obtain ⟨again, wroteAgain⟩ := tracks.items_again copyable plain.not_isFractional plain.setless
    sound.joined wrote writing filled
  exact ⟨result, generateGraph_eq wroteAgain⟩

/-- Fans in the linear form that are written in the interchange form, and a graph that is written
in the linear form, whose copy lists its concepts and its relations in another order. -/
theorem stable_generateGraph_reordered :
    ((({} : Session).parseGraph {} .linear
        "[A: *x]- (R) -> [B]- (S) -> [C] (T) -> ?x, (U). ~[[D: #9] -> (V) -> [#7]]. <W | ?x>.").result =
          .ok ⟨0⟩ ∧
      Stable .linear .cgif
        "[A: *x]- (R) -> [B]- (S) -> [C] (T) -> ?x, (U). ~[[D: #9] -> (V) -> [#7]]. <W | ?x>." ⟨0⟩) ∧
    (({} : Session).parseGraph {} .cgif
        "[C: *c] [A: *a] [B: *b] (R ?b ?a) (S ?b [D: #12]) (T ?a ?c) ~[[E ;e] (N [F])] <W ?a | ?b>").result =
          .ok ⟨0⟩ ∧
      Stable .cgif .linear
        "[C: *c] [A: *a] [B: *b] (R ?b ?a) (S ?b [D: #12]) (T ?a ?c) ~[[E ;e] (N [F])] <W ?a | ?b>" ⟨0⟩ :=
  have first : (({} : Session).parseGraph {} .linear
      "[A: *x]- (R) -> [B]- (S) -> [C] (T) -> ?x, (U). ~[[D: #9] -> (V) -> [#7]]. <W | ?x>.").result =
        .ok ⟨0⟩ := by decide +kernel
  have second : (({} : Session).parseGraph {} .cgif
      "[C: *c] [A: *a] [B: *b] (R ?b ?a) (S ?b [D: #12]) (T ?a ?c) ~[[E ;e] (N [F])] <W ?a | ?b>").result =
        .ok ⟨0⟩ := by decide +kernel
  ⟨⟨first, stable_generateGraph first (by decide +kernel) (by decide +kernel)
      (fun same => by cases same) fun same => by cases same⟩,
    second, stable_generateGraph second (by decide +kernel) (by decide +kernel)
      (fun _ => by decide +kernel) fun _ => by decide +kernel⟩

end Session

end ConceptualGraph
