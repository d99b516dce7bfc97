/-
Module: ConceptualGraph.Proofs.Writing.Progress
Purpose: What has been written while some graphs are open, and how the writing of a concept ends
  with everything that lies in the graph that describes it.
Main exports: Model.Filled, Model.Unreferred, Model.Writing, Model.Grows, Model.Writable,
  Model.Completes, Write.nestedGraph_ends, Write.emitConcept_ends
-/
import ConceptualGraph.Proofs.Copy.Bracket

namespace ConceptualGraph

/-! ## What has been written -/

namespace Model

/-- Whether all nodes of a graph have been written. -/
structure Filled (model : Model) (writer : Writer) (graph : GraphId) : Prop where
  concepts : ∀ concept, (model.concept concept).graph = some graph → concept ∈ writer.order
  relations : ∀ relation, (model.relation relation).graph = some graph →
    relation ∈ writer.written

/-- Whether a concept may stay without a label: it is hidden, or nothing in its graph asks for
one. -/
def Unreferred (model : Model) (concept : ConceptId) : Prop :=
  (model.concept concept).hidden = true ∨
    ∃ graph, (model.concept concept).graph = some graph ∧ model.Needless graph concept

/-- What has been written while some graphs are open, the innermost first.  Every other graph
that has been begun has been written to its end, and so has every negation. -/
structure Writing (model : Model) (graphs : List GraphId) (writer : Writer) : Prop where
  houses : model.Houses graphs writer.order writer.written
  once : writer.written.Nodup
  negations : ∀ relation ∈ writer.written, model.isNegation relation = true →
    ∀ concept ∈ (model.relation relation).args, concept ∈ writer.order
  filled : ∀ graph, model.Begun writer.order graph → graph ∈ graphs ∨ model.Filled writer graph
  unlabelled : ∀ concept, (concept, none) ∈ writer.emitted → model.Unreferred concept

/-- How far in a graph lies: further than any graph in which the concept stands that it
describes. -/
def rank (model : Model) (graph : GraphId) : Nat :=
  (model.graph graph).owner.elim 0 fun owner => owner.index + 1

/-- Writing goes on from a state with nodes that do not lie outside a graph. -/
structure Grows (model : Model) (graph : GraphId) (writer after : Writer) : Prop where
  emitted : writer.emitted <:+ after.emitted
  written : writer.written <:+ after.written
  concepts : ∀ concept ∈ after.order, concept ∈ writer.order ∨
    ∀ home, (model.concept concept).graph = some home → model.rank graph ≤ model.rank home
  relations : ∀ relation ∈ after.written, relation ∈ writer.written ∨
    ∀ home, (model.relation relation).graph = some home → model.rank graph ≤ model.rank home

/-- The failures that are reckoned with where the designator of a concept names another one. -/
structure Cites (faults : GenerateError → Prop) (model : Model) (concept target : ConceptId) :
    Prop where
  labelled : ¬model.Unreferred target ∨ faults (.unlabelledConcept target)
  conflict : faults (.designatorConflict concept)
  unreachable : faults (.unreachableConcept target)
  unlabelledSet : ∀ set, faults (.unlabelledSet set target)

/-- A model read from a text, all of whose types have labels.  Writing it fails only in certain
ways, if any. -/
structure Writable (source : Notation) (faults : GenerateError → Prop) (model : Model) : Prop
    extends model.Rooted source, model.TypesNamed where
  cites : ∀ concept target, model.designates? concept = some target →
    model.Cites faults concept target

/-- Whether any graph around which others are open is written to its end, apart from certain
failures. -/
def Completes (model : Model) (faults : GenerateError → Prop) (inner : Inner)
    (outer : List GraphId) : Prop :=
  ∀ graph writer, model.Writing (graph :: outer) writer → model.Untouched writer graph →
    Ends faults (inner graph) writer fun _ after =>
      model.Writing (graph :: outer) after ∧ model.Filled after graph ∧
        model.Grows graph writer after

variable {model : Model} {source : Notation} {faults : GenerateError → Prop} {graph inner : GraphId}
  {graphs outer : List GraphId} {writer middle after : Writer} {concept : ConceptId}
  {relation : RelationId} {label : Option String}

/-- A concept of a graph that shows itself there and is not referred to needs no label there. -/
theorem Unreferred.needless (unreferred : model.Unreferred concept)
    (stands : (model.concept concept).graph = some graph)
    (visible : (model.concept concept).hidden = false) : model.Needless graph concept := by
  rcases unreferred with hidden | ⟨home, here, needless⟩
  · rw [visible] at hidden
    cases hidden
  · cases stands.symm.trans here
    exact needless

theorem Filled.mono (filled : model.Filled writer graph) (order : writer.order ⊆ after.order)
    (written : writer.written ⊆ after.written) : model.Filled after graph :=
  ⟨fun concept stands => order (filled.concepts concept stands),
    fun relation stands => written (filled.relations relation stands)⟩

/-- When a concept is written, the graph that describes it is begun, and no other one. -/
theorem Begun.of_emit {other : GraphId}
    (begun : model.Begun (writer.emit concept label).order other) :
    model.Begun writer.order other ∨ model.descriptor? concept = some other := by
  rcases begun with root | ⟨owner, member, describes⟩
  · exact .inl (.inl root)
  · rcases List.mem_cons.mp member with rfl | member
    · exact .inr describes
    · exact .inl (.inr ⟨owner, member, describes⟩)

namespace Grows

theorem refl (graph : GraphId) (writer : Writer) : model.Grows graph writer writer :=
  ⟨List.suffix_rfl, List.suffix_rfl, fun _ member => .inl member, fun _ member => .inl member⟩

theorem order (grows : model.Grows graph writer after) : writer.order <:+ after.order :=
  grows.emitted.map Prod.fst

theorem trans (first : model.Grows graph writer middle)
    (second : model.Grows graph middle after) : model.Grows graph writer after where
  emitted := first.emitted.trans second.emitted
  written := first.written.trans second.written
  concepts concept member := (second.concepts concept member).elim (first.concepts concept) .inr
  relations relation member :=
    (second.relations relation member).elim (first.relations relation) .inr

/-- What does not lie outside a graph does not lie outside those around it. -/
theorem mono (grows : model.Grows inner writer after)
    (further : model.rank graph ≤ model.rank inner) :
    model.Grows graph writer after where
  emitted := grows.emitted
  written := grows.written
  concepts concept member := (grows.concepts concept member).imp id
    fun beyond home stands => Nat.le_trans further (beyond home stands)
  relations relation member := (grows.relations relation member).imp id
    fun beyond home stands => Nat.le_trans further (beyond home stands)

/-- Writing what lies further in leaves a graph alone. -/
theorem mem_order (grows : model.Grows inner writer after)
    (further : model.rank graph < model.rank inner) (member : concept ∈ after.order)
    (stands : (model.concept concept).graph = some graph) : concept ∈ writer.order :=
  (grows.concepts concept member).resolve_right fun beyond =>
    absurd (beyond graph stands) (Nat.not_le.mpr further)

theorem mem_written (grows : model.Grows inner writer after)
    (further : model.rank graph < model.rank inner) (member : relation ∈ after.written)
    (stands : (model.relation relation).graph = some graph) : relation ∈ writer.written :=
  (grows.relations relation member).resolve_right fun beyond =>
    absurd (beyond graph stands) (Nat.not_le.mpr further)

/-- A concept is written. -/
theorem emit (writer : Writer) (stands : (model.concept concept).graph = some graph)
    (label : Option String) : model.Grows graph writer (writer.emit concept label) where
  emitted := List.suffix_cons _ _
  written := List.suffix_rfl
  concepts other member := by
    rcases List.mem_cons.mp member with rfl | member
    · refine .inr fun home here => ?_
      cases stands.symm.trans here
      exact Nat.le_refl _
    · exact .inl member
  relations _ member := .inl member

/-- A relation is marked as written. -/
theorem begin (writer : Writer) (stands : (model.relation relation).graph = some graph) :
    model.Grows graph writer (writer.begin relation) where
  emitted := List.suffix_rfl
  written := List.suffix_cons _ _
  concepts _ member := .inl member
  relations other member := by
    rcases List.mem_cons.mp member with rfl | member
    · refine .inr fun home here => ?_
      cases stands.symm.trans here
      exact Nat.le_refl _
    · exact .inl member

end Grows

/-- The graph that describes a concept lies further in than the one in which that stands. -/
theorem Rooted.rank_lt (rooted : model.Rooted source)
    (nests : model.Nests (graph :: outer)) (stands : (model.concept concept).graph = some graph)
    (describes : model.descriptor? concept = some inner) : model.rank graph < model.rank inner := by
  have deep : model.rank inner = concept.index + 1 := by
    simp [rank, (rooted.describedBy describes).owner]
  have high : model.rank graph ≤ concept.index := by
    cases outer with
    | nil =>
        obtain rfl : graph = ⟨0⟩ := nests
        simp [rank, rooted.root]
    | cons next outer =>
        obtain ⟨⟨owner, holds, -⟩, -⟩ := nests
        simp only [rank, (rooted.describedBy holds).owner, Option.elim_some]
        exact (rooted.describedBy holds).later concept stands
  omega

namespace Writing

/-- Nothing but the labels and markers has changed. -/
theorem congr (writing : model.Writing graphs writer) (emitted : after.emitted = writer.emitted)
    (written : after.written = writer.written) : model.Writing graphs after := by
  have order : after.order = writer.order := congrArg (List.map Prod.fst) emitted
  constructor
  · rw [order, written]
    exact writing.houses
  · rw [written]
    exact writing.once
  · rw [order, written]
    exact writing.negations
  · intro graph begun
    rw [order] at begun
    exact (writing.filled graph begun).imp id fun filled =>
      filled.mono (by rw [order]; exact List.Subset.refl _)
        (by rw [written]; exact List.Subset.refl _)
  · rw [emitted]
    exact writing.unlabelled

/-- A concept is written, and the graph that describes it is opened if there is one. -/
theorem emit (writing : model.Writing (graph :: outer) writer) (fresh : concept ∉ writer.order)
    (stands : (model.concept concept).graph = some graph)
    (wrapped : (model.concept concept).hidden = true →
      ∀ relation, concept ∈ (model.relation relation).args → relation ∈ writer.written)
    (label : Option String) (omitted : label = none → model.Unreferred concept) :
    model.Writing ((model.descriptor? concept).toList ++ graph :: outer)
      (writer.emit concept label) where
  houses := by
    have emitted := writing.houses.emit fresh stands wrapped
    cases describes : model.descriptor? concept with
    | none => exact emitted
    | some inner => exact emitted.enter (List.mem_cons_self ..) stands describes
  once := writing.once
  negations relation member negative argument among :=
    List.mem_cons_of_mem _ (writing.negations relation member negative argument among)
  filled other begun := by
    rcases begun.of_emit with old | describes
    · exact (writing.filled other old).imp (fun among => List.mem_append_right _ among)
        fun filled => filled.mono (List.subset_cons_self _ _) (List.Subset.refl _)
    · exact .inl (by simp [describes])
  unlabelled other member := by
    rcases List.mem_cons.mp member with same | member
    · cases same
      exact omitted rfl
    · exact writing.unlabelled other member

/-- A graph is closed that has been written to its end. -/
theorem leave (writing : model.Writing (inner :: graph :: outer) writer)
    (filled : model.Filled writer inner) : model.Writing (graph :: outer) writer where
  houses := writing.houses.leave
  once := writing.once
  negations := writing.negations
  filled other begun := (writing.filled other begun).elim
    (fun member => (List.mem_cons.mp member).elim (fun same => .inr (same ▸ filled)) .inl) .inr
  unlabelled := writing.unlabelled

/-- A relation that does not negate is marked as written. -/
theorem begin (writing : model.Writing (graph :: outer) writer) (fresh : relation ∉ writer.written)
    (stands : (model.relation relation).graph = some graph)
    (positive : model.isNegation relation = false) :
    model.Writing (graph :: outer) (writer.begin relation) where
  houses := writing.houses.begin stands
  once := List.nodup_cons.mpr ⟨fresh, writing.once⟩
  negations other member negative := by
    rcases List.mem_cons.mp member with rfl | member
    · rw [positive] at negative
      cases negative
    · exact writing.negations other member negative
  filled other begun := (writing.filled other begun).imp id fun filled =>
    filled.mono (List.Subset.refl _) (List.subset_cons_self _ _)
  unlabelled := writing.unlabelled

/-- A negation is marked as written, and the graph is opened that describes its wrapper. -/
theorem negate (writing : model.Writing (graph :: outer) writer)
    (unwritten : relation ∉ writer.written)
    (stands : (model.relation relation).graph = some graph)
    (args : (model.relation relation).args = [concept]) (fresh : concept ∉ writer.order)
    (here : (model.concept concept).graph = some graph)
    (hidden : (model.concept concept).hidden = true)
    (unique : ∀ other, concept ∈ (model.relation other).args → other = relation)
    (describes : model.descriptor? concept = some inner) :
    model.Writing (inner :: graph :: outer) ((writer.begin relation).emit concept none) where
  houses := ((writing.houses.begin stands).emit fresh here fun _ other argument => by
    rw [unique other argument]
    exact List.mem_cons_self ..).enter (List.mem_cons_self ..) here describes
  once := List.nodup_cons.mpr ⟨unwritten, writing.once⟩
  negations other member negative argument among := by
    rcases List.mem_cons.mp member with rfl | member
    · rw [args] at among
      rw [List.mem_singleton.mp among]
      exact List.mem_cons_self ..
    · exact List.mem_cons_of_mem _ (writing.negations other member negative argument among)
  filled other begun := by
    rcases begun.of_emit with old | describing
    · exact (writing.filled other old).imp (fun among => List.mem_cons_of_mem _ among)
        fun filled => filled.mono (List.subset_cons_self _ _) (List.subset_cons_self _ _)
    · refine .inl ?_
      rw [Option.some.inj (describing.symm.trans describes)]
      exact List.mem_cons_self ..
  unlabelled other member := by
    rcases List.mem_cons.mp member with same | member
    · cases same
      exact .inl hidden
    · exact writing.unlabelled other member

/-- A graph has been written to its end where its visible concepts and its relations have been:
its hidden concepts are written with the relations that negate. -/
theorem filled_of (writing : model.Writing graphs writer) (rooted : model.Rooted source)
    (shown : ∀ concept ∈ (Plan.ofGraph model graph).order, concept ∈ writer.order)
    (related : ∀ relation ∈ (model.graph graph).relations, relation ∈ writer.written) :
    model.Filled writer graph := by
  have listed := rooted.sound.listed
  have standing : ∀ relation, (model.relation relation).graph = some graph →
      relation ∈ writer.written := fun relation stands =>
    related relation ((listed.mem_relations graph relation).mpr stands)
  refine ⟨fun concept stands => ?_, standing⟩
  cases visible : (model.concept concept).hidden with
  | false =>
      exact shown concept (Plan.mem_order.mpr
        ⟨(listed.mem_concepts graph concept).mpr stands, visible⟩)
  | true =>
      obtain ⟨relation, negates, -⟩ := (rooted.isWrapper visible).negation
      have negative : model.isNegation relation = true := by
        simp [isNegation, negates.args, visible]
      exact writing.negations relation (standing relation (negates.graph.trans stands))
        negative concept (by simp [negates.args])

/-- No more relations have been written than there are. -/
theorem length_written_le (writing : model.Writing graphs writer) :
    writer.written.length ≤ model.relations.size := by
  have inside : (writer.written.map RelationId.index).Nodup :=
    writing.once.map fun _ _ same => congrArg RelationId.mk same
  have subset : writer.written.map RelationId.index ⊆ List.range model.relations.size := by
    intro place member
    obtain ⟨relation, written, rfl⟩ := List.mem_map.mp member
    obtain ⟨home, stands, -⟩ := writing.houses.related relation written
    exact List.mem_range.mpr (lt_of_relation_graph stands)
  have fewer := (inside.subperm subset).length_le
  simpa using fewer

end Writing

end Model

/-! ## Concepts -/

namespace Write

variable {model : Model} {source : Notation} {faults : GenerateError → Prop} {inner : Inner}
  {graph id : GraphId} {outer : List GraphId} {writer : Writer} {concept target : ConceptId}
  {use : Option LabelUse}

/-- What ends well in a context of its own does so outside of it. -/
@[simp] theorem ends_inContext {α : Type} {step : Write α} {post : α → Writer → Prop} :
    Ends faults (inContext step) writer post ↔
      Ends faults step (writer.withLabels writer.labels.push) fun value after =>
        post value (after.withLabels after.labels.pop) := by
  unfold Ends inContext Writer.withLabels
  cases step { writer with labels := writer.labels.push } <;> rfl

/-- Steps for several arguments run one after the other. -/
theorem concat_ends {α β : Type} {step : α → Write (List β)} {arguments : List α}
    (invariant : Writer → Prop) (onward : Writer → Writer → Prop) (done : α → Writer → Prop)
    (refl : ∀ writer, onward writer writer)
    (trans : ∀ {writer middle after}, onward writer middle → onward middle after →
      onward writer after)
    (kept : ∀ {argument writer after}, onward writer after → done argument writer →
      done argument after)
    (each : ∀ argument ∈ arguments, ∀ writer, invariant writer →
      Ends faults (step argument) writer fun _ after =>
        invariant after ∧ onward writer after ∧ done argument after)
    (begins : invariant writer) :
    Ends faults (concat step arguments) writer fun _ after =>
      invariant after ∧ onward writer after ∧ ∀ argument ∈ arguments, done argument after := by
  induction arguments generalizing writer with
  | nil => exact ⟨begins, refl writer, by simp⟩
  | cons argument others ih =>
      unfold concat
      refine (each argument (List.mem_cons_self ..) writer begins).bind fun _ middle facts => ?_
      obtain ⟨still, first, here⟩ := facts
      refine (ih (fun other member => each other (List.mem_cons_of_mem _ member)) still).bind
        fun _ after facts => ?_
      obtain ⟨ended, rest, there⟩ := facts
      exact ⟨ended, trans first rest, List.forall_mem_cons.mpr ⟨kept rest here, there⟩⟩

/-- The graph that describes a concept is written to its end. -/
theorem nestedGraph_ends (completes : model.Completes faults inner (graph :: outer))
    (writing : model.Writing (id :: graph :: outer) writer)
    (untouched : model.Untouched writer id) :
    Ends faults (nestedGraph inner id) writer fun _ after =>
      model.Writing (graph :: outer) after ∧ model.Grows id writer after := by
  simp only [nestedGraph, ends_inContext, ends_bind, ends_pure]
  refine (completes id (writer.withLabels writer.labels.push) (writing.congr rfl rfl)
    ⟨untouched.concepts, untouched.relations⟩).mono fun items after facts => ?_
  obtain ⟨ended, filled, grows⟩ := facts
  exact ⟨(ended.leave filled).congr rfl rfl,
    grows.emitted, grows.written, grows.concepts, grows.relations⟩

/-- A concept that has not been written is known by a label, unless the failure is reckoned with. -/
theorem knownLabel_ends (unreachable : faults (.unreachableConcept concept))
    (unlabelled : ∀ set, faults (.unlabelledSet set concept)) :
    Ends faults (knownLabel model concept) writer fun _ after => after = writer := by
  unfold knownLabel
  rw [ends_bind, ends_get]
  dsimp only
  split
  · next set _ =>
    split
    · exact rfl
    · exact unlabelled set
  · split
    · exact rfl
    · exact unreachable

/-- A concept is referred to by a label, unless the failure is reckoned with. -/
theorem reference_ends
    (labelled : (concept, none) ∉ writer.emitted ∨ faults (.unlabelledConcept concept))
    (unknown : concept ∉ writer.order →
      faults (.unreachableConcept concept) ∧ ∀ set, faults (.unlabelledSet set concept)) :
    Ends faults (reference model concept) writer fun _ after => after = writer := by
  unfold reference
  rw [ends_bind, ends_get]
  cases found : writer.emitted.lookup concept with
  | some label =>
      obtain ⟨front, back, split, -⟩ := List.lookup_eq_some_iff.mp found
      have known : (concept, label) ∈ writer.emitted := by simp [split]
      cases label with
      | none => exact labelled.resolve_left fun absent => absent known
      | some label => exact rfl
  | none =>
      have absent : concept ∉ writer.order := by
        rintro member
        obtain ⟨entry, among, same⟩ := List.mem_map.mp member
        have apart := List.lookup_eq_none_iff.mp found entry among
        simp [same] at apart
      obtain ⟨unreachable, unlabelled⟩ := unknown absent
      exact (knownLabel_ends unreachable unlabelled).bind fun _ _ same => same

/-- What a designator comes to writes no node. -/
theorem designators_ends (unreferred : ∀ other, (other, none) ∈ writer.emitted →
      model.Unreferred other) {value : Option Designator}
    (cites : ∀ target, value = some (.defined target) → model.Cites faults concept target) :
    Ends faults (concat (fun value => return [← designator model value]) value.toList) writer
      fun _ after => after.emitted = writer.emitted ∧ after.written = writer.written := by
  cases value with
  | none => exact ⟨rfl, rfl⟩
  | some value =>
      rw [Option.toList_some, concat_singleton, ends_bind]
      cases value with
      | literal value => exact ⟨rfl, rfl⟩
      | name name => exact ⟨rfl, rfl⟩
      | marker marker => exact ⟨rfl, rfl⟩
      | defined target =>
          have cited := cites target rfl
          have labelled : (target, none) ∉ writer.emitted ∨ faults (.unlabelledConcept target) :=
            cited.labelled.imp_left fun referred member => referred (unreferred target member)
          refine (reference_ends labelled fun _ =>
            ⟨cited.unreachable, cited.unlabelledSet⟩).mono fun _ after same => ?_
          subst same
          exact ⟨rfl, rfl⟩

/-- Apart from the graph that describes it, a concept is written with no failure that is not
reckoned with. -/
theorem emitConcept_of_nested (writable : model.Writable source faults) {post : Writer → Prop}
    (unreferred : ∀ other, (other, none) ∈
      (writer.emit concept (use.map LabelUse.label)).emitted → model.Unreferred other)
    (nested : ∀ later : Writer,
      later.emitted = (writer.emit concept (use.map LabelUse.label)).emitted →
      later.written = writer.written →
      Ends faults (nestedGraphs inner (model.descriptor? concept)) later fun _ after =>
        post after) :
    Ends faults (emitConcept model inner concept use) writer fun _ after => post after := by
  unfold emitConcept
  rw [ends_bind]
  simp only [emit, ends_modify]
  -- A context has no parts of its own, and a plain concept may have a designator to be named first.
  cases (model.concept concept).special with
  | some special =>
      have holds := nested (writer.emit concept (use.map LabelUse.label)) rfl rfl
      dsimp only
      unfold specialContext
      unfold nestedGraphs at holds
      cases describes : model.descriptor? concept with
      | none =>
          rw [describes] at holds
          simp only [ends_bind, ends_pure]
          exact holds
      | some id =>
          rw [describes, Option.toList_some, concat_singleton] at holds
          simp only [ends_bind, ends_pure] at holds ⊢
          exact holds
  | none =>
      dsimp only
      unfold plainConcept
      simp only [concat_conceptType writable.toTypesNamed, pure_bind]
      refine ends_ite.mpr ⟨fun conflict => ?_, fun _ => ?_⟩
      · have named := (Bool.and_eq_true_iff.mp conflict).1
        obtain ⟨target, designates⟩ := Option.isSome_iff_exists.mp named
        exact (writable.cites concept target designates).conflict
      cases described : (model.concept concept).referent with
      | none =>
          have nothing : model.descriptor? concept = none := by simp [Model.descriptor?, described]
          have holds := nested (writer.emit concept (use.map LabelUse.label)) rfl rfl
          rw [nothing] at holds
          exact holds
      | some referent =>
          have describes : model.descriptor? concept = referent.descriptor := by
            simp [Model.descriptor?, described]
          rw [Option.toList_some, concat_singleton]
          simp only [referentParts, bind_assoc, pure_bind]
          refine (designators_ends unreferred fun target same =>
            writable.cites concept target ?_).bind
            fun designators later facts => ?_
          · simp [Model.designates?, described, Referent.definedBy?, same]
          · rw [← describes]
            exact (nested later facts.1 facts.2).bind fun _ _ holds => holds

end Write

/-- Whether a concept of a graph has been written between two states, and nothing else that
stands in the graph. -/
structure Model.Emits (model : Model) (graph : GraphId) (concept : ConceptId)
    (label : Option String) (writer after : Writer) : Prop where
  grows : model.Grows graph writer after
  member : (concept, label) ∈ after.emitted
  concepts : ∀ other ∈ after.order, (model.concept other).graph = some graph →
    other = concept ∨ other ∈ writer.order
  relations : ∀ relation ∈ after.written, (model.relation relation).graph = some graph →
    relation ∈ writer.written

namespace Write

variable {model : Model} {source : Notation} {faults : GenerateError → Prop} {inner : Inner}
  {graph id : GraphId} {outer : List GraphId} {writer : Writer} {concept : ConceptId}
  {use : Option LabelUse}

/-- A concept is written with everything in the graph that describes it. -/
theorem emitConcept_ends (writable : model.Writable source faults)
    (completes : model.Completes faults inner (graph :: outer))
    (writing : model.Writing (graph :: outer) writer) (fresh : concept ∉ writer.order)
    (stands : (model.concept concept).graph = some graph)
    (wrapped : (model.concept concept).hidden = true →
      ∀ relation, concept ∈ (model.relation relation).args → relation ∈ writer.written)
    (omitted : use = none → model.Unreferred concept) :
    Ends faults (emitConcept model inner concept use) writer fun _ after =>
      model.Writing (graph :: outer) after ∧
        model.Emits graph concept (use.map LabelUse.label) writer after := by
  have emitted := writing.emit fresh stands wrapped (use.map LabelUse.label) fun none =>
    omitted (by simpa using none)
  have grown := Model.Grows.emit writer stands (use.map LabelUse.label)
  refine emitConcept_of_nested writable emitted.unlabelled fun later same written => ?_
  -- Only a nested graph can add to what has been written.
  cases describes : model.descriptor? concept with
  | none =>
      rw [describes] at emitted
      have order : later.order = (writer.emit concept (use.map LabelUse.label)).order :=
        congrArg (List.map Prod.fst) same
      refine ⟨emitted.congr same written, ?_, ?_, ?_, ?_⟩
      · exact ⟨same ▸ grown.emitted, written ▸ grown.written, order ▸ grown.concepts,
          written ▸ grown.relations⟩
      · exact same ▸ List.mem_cons_self ..
      · intro other member _
        rw [order] at member
        exact List.mem_cons.mp member
      · exact fun _ member _ => written ▸ member
  | some id =>
      rw [describes] at emitted
      have untouched := Read.untouched_of_houses writable.toRooted (use.map LabelUse.label)
        writing.houses fresh stands describes
      have further := writable.rank_lt writing.houses.nests stands describes
      have order : later.order = (writer.emit concept (use.map LabelUse.label)).order :=
        congrArg (List.map Prod.fst) same
      unfold nestedGraphs
      rw [Option.toList_some, concat_singleton, ends_bind]
      refine (nestedGraph_ends completes (emitted.congr same written)
        ⟨order ▸ untouched.concepts, written ▸ untouched.relations⟩).mono fun _ after facts => ?_
      obtain ⟨ended, grows⟩ := facts
      have nested : model.Grows id (writer.emit concept (use.map LabelUse.label)) after :=
        ⟨same ▸ grows.emitted, written ▸ grows.written, order ▸ grows.concepts,
          written ▸ grows.relations⟩
      refine ⟨ended, grown.trans (nested.mono (Nat.le_of_lt further)),
        nested.emitted.subset (List.mem_cons_self ..), fun other member here => ?_,
        fun relation member here => nested.mem_written further member here⟩
      exact List.mem_cons.mp (nested.mem_order further member here)

end Write

end ConceptualGraph
