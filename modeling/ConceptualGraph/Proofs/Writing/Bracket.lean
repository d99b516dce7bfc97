/-
Module: ConceptualGraph.Proofs.Writing.Bracket
Purpose: How the writing of a graph in the interchange form ends: whatever is referred to as an
  argument has been written with a label, and the steps are never used up.
Main exports: Model.Steady, Model.Advances, Write.relationItems_ends, Write.conceptItems_ends,
  Write.completes_bracketGraph
-/
import ConceptualGraph.Proofs.Writing.Progress

namespace ConceptualGraph

open Phrase (mark ofToken space)

/-! ## What is known between the items of a graph -/

namespace Model

/-- A state of writing in which nothing that remains to be written in a graph refers to a
concept without a label. -/
structure Steady (model : Model) (graph : GraphId) (outer : List GraphId) (writer : Writer) :
    Prop where
  writing : model.Writing (graph :: outer) writer
  settled : ∀ concept, (concept, none) ∈ writer.emitted →
    (model.concept concept).graph = some graph → ∀ relation ∈ Plan.links model graph,
      concept ∈ (model.relation relation).args → relation ∈ writer.written

/-- Writing goes on in a graph, and every concept that is written, apart from one, is followed
by the relations that begin with it. -/
structure Advances (model : Model) (graph : GraphId) (spared : Option ConceptId)
    (writer after : Writer) : Prop where
  grows : model.Grows graph writer after
  followed : ∀ concept ∈ after.order, concept ∉ writer.order →
    (model.concept concept).graph = some graph → spared ≠ some concept →
      ∀ relation ∈ (Plan.ofGraph model graph).primary concept, relation ∈ after.written

/-- Arguments of a relation are written, some of them for the first time. -/
structure Introduces (model : Model) (graph : GraphId) (spared : Option ConceptId)
    (introduced : List ConceptId) (writer after : Writer) : Prop where
  grows : model.Grows graph writer after
  concepts : ∀ concept ∈ after.order, (model.concept concept).graph = some graph →
    concept ∈ writer.order ∨ spared = some concept ∨ concept ∈ introduced
  relations : ∀ relation ∈ after.written, (model.relation relation).graph = some graph →
    relation ∈ writer.written
  unlabelled : ∀ concept, (concept, none) ∈ after.emitted →
    (model.concept concept).graph = some graph → (concept, none) ∈ writer.emitted ∨
      (spared = some concept ∨ concept ∈ introduced) ∧ model.Needless graph concept

variable {model : Model} {graph : GraphId} {outer : List GraphId}
  {writer middle after : Writer} {concept : ConceptId} {relation : RelationId}
  {spared : Option ConceptId} {introduced more : List ConceptId}

/-- Nothing that remains to be written in a graph refers to a concept without a label. -/
theorem Steady.labelled (steady : model.Steady graph outer writer)
    (link : relation ∈ Plan.links model graph) (unwritten : relation ∉ writer.written)
    (stands : (model.concept concept).graph = some graph)
    (argument : concept ∈ (model.relation relation).args) : (concept, none) ∉ writer.emitted :=
  fun unlabelled => unwritten (steady.settled concept unlabelled stands relation link argument)

/-- A graph remains steady when a relation of it is marked as written. -/
theorem Steady.begin (steady : model.Steady graph outer writer)
    (unwritten : relation ∉ writer.written)
    (stands : (model.relation relation).graph = some graph)
    (positive : model.isNegation relation = false) :
    model.Steady graph outer (writer.begin relation) where
  writing := steady.writing.begin unwritten stands positive
  settled concept unlabelled here other link argument :=
    List.mem_cons_of_mem _ (steady.settled concept unlabelled here other link argument)

namespace Advances

theorem refl (writer : Writer) : model.Advances graph spared writer writer :=
  ⟨.refl _ _, fun _ member fresh => absurd member fresh⟩

/-- Writers that advance one after the other advance as one. -/
theorem trans (first : model.Advances graph spared writer middle)
    (second : model.Advances graph none middle after) :
    model.Advances graph spared writer after where
  grows := first.grows.trans second.grows
  followed concept member fresh stands other relation primary := by
    by_cases early : concept ∈ middle.order
    · exact second.grows.written.subset
        (first.followed concept early fresh stands other relation primary)
    · exact second.followed concept member early stands (by simp) relation primary

end Advances

namespace Introduces

theorem refl (writer : Writer) : model.Introduces graph none [] writer writer :=
  ⟨.refl _ _, fun _ member _ => .inl member, fun _ member _ => member,
    fun _ member _ => .inl member⟩

theorem trans (first : model.Introduces graph spared introduced writer middle)
    (second : model.Introduces graph none more middle after) :
    model.Introduces graph spared (introduced ++ more) writer after where
  grows := first.grows.trans second.grows
  concepts concept member stands := by
    rcases second.concepts concept member stands with early | same | late
    · exact (first.concepts concept early stands).imp id
        fun new => new.imp id fun among => List.mem_append_left _ among
    · cases same
    · exact .inr (.inr (List.mem_append_right _ late))
  relations relation member stands :=
    first.relations relation (second.relations relation member stands) stands
  unlabelled concept member stands := by
    rcases second.unlabelled concept member stands with early | ⟨same | late, unneeded⟩
    · exact (first.unlabelled concept early stands).imp id
        fun new => ⟨new.1.imp id fun among => List.mem_append_left _ among, new.2⟩
    · cases same
    · exact .inr ⟨.inr (List.mem_append_right _ late), unneeded⟩

/-- A graph remains steady while arguments of a relation are written that is marked as
written. -/
theorem steady (introduces : model.Introduces graph spared introduced writer after)
    (steady : model.Steady graph outer writer) (writing : model.Writing (graph :: outer) after)
    (link : relation ∈ Plan.links model graph) (marked : relation ∈ writer.written)
    (spares : ∀ concept, spared = some concept → concept ∈ (model.relation relation).args)
    (among : introduced ⊆ (model.relation relation).args) :
    model.Steady graph outer after where
  writing := writing
  settled concept unlabelled stands other also argument := by
    refine introduces.grows.written.subset ?_
    rcases introduces.unlabelled concept unlabelled stands with early | ⟨new, unneeded⟩
    · exact steady.settled concept early stands other also argument
    · have here := new.elim (spares concept) (among ·)
      rw [(Plan.unique_of_not_needsLabel unneeded.unneeded link here).1 other also argument]
      exact marked

end Introduces

/-- A concept that is written without a label as an argument of a relation is none of its later
arguments. -/
theorem Introduces.labelled (front : List ConceptId) {others : List ConceptId}
    (introduces : model.Introduces graph spared introduced writer after)
    (link : relation ∈ Plan.links model graph)
    (args : (model.relation relation).args = front ++ concept :: others)
    (only : ∀ other, spared = some other ∨ other ∈ introduced → other = concept)
    (stand : ∀ other ∈ others, (model.concept other).graph = some graph)
    (labelled : ∀ other ∈ others, (other, none) ∉ writer.emitted) :
    ∀ other ∈ others, (other, none) ∉ after.emitted := by
  intro other later unlabelled
  rcases introduces.unlabelled other unlabelled (stand other later) with early | ⟨new, unneeded⟩
  · exact labelled other later early
  · obtain rfl := only other new
    obtain ⟨-, once, -⟩ := Plan.unique_of_not_needsLabel unneeded.unneeded link (by simp [args])
    have again := List.count_pos_iff.mpr later
    rw [args, List.count_append, List.count_cons_self] at once
    omega

/-- Labels that are minted introduce nothing. -/
theorem Introduces.of_labels {labels : LabelTable}
    (introduces : model.Introduces graph spared introduced (writer.withLabels labels) after) :
    model.Introduces graph spared introduced writer after :=
  ⟨⟨introduces.grows.emitted, introduces.grows.written, introduces.grows.concepts,
    introduces.grows.relations⟩, introduces.concepts, introduces.relations, introduces.unlabelled⟩

/-- A concept of a graph is written, without a label only if it needs none. -/
theorem Emits.introduces {label : Option String}
    (emits : model.Emits graph concept label writer after)
    (writing : model.Writing (graph :: outer) after)
    (unneeded : label = none → model.Needless graph concept)
    (new : spared = some concept ∨ concept ∈ introduced) :
    model.Introduces graph spared introduced writer after where
  grows := emits.grows
  concepts other member stands := by
    rcases emits.concepts other member stands with rfl | before
    · exact .inr new
    · exact .inl before
  relations := emits.relations
  unlabelled other member stands := by
    have entry : ∀ entry ∈ after.emitted, entry.1 = other → entry = (other, none) :=
      fun entry among same => by
        have distinct : (after.emitted.map Prod.fst).Nodup := writing.houses.distinct
        exact List.inj_on_of_nodup_map distinct among member same
    rcases emits.concepts other (List.mem_map_of_mem member) stands with rfl | before
    · exact .inr ⟨new, unneeded (Prod.ext_iff.mp (entry _ emits.member rfl)).2⟩
    · obtain ⟨known, among, same⟩ := List.mem_map.mp before
      exact .inl (entry known (emits.grows.emitted.subset among) same ▸ among)

end Model

namespace Write

variable {model : Model} {source : Notation} {faults : GenerateError → Prop} {inner : Inner}
  {graph : GraphId} {outer : List GraphId} {writer after : Writer} {concept : ConceptId}
  {relation : RelationId} {plan : Plan}

/-! ## Labels -/

/-- A concept is written without a label only if it needs none. -/
theorem openLabel_needed (concept : ConceptId) (needed : Bool) :
    Ensures (openLabel model concept needed) writer fun use _ => use = none → needed = false := by
  unfold openLabel
  cases model.sharedSet? concept with
  | some set =>
      simp only [ensures_bind, ensures_pure]
      exact .intro fun _ _ _ same => by cases same
  | none =>
      simp only [ensures_bind, ensures_get, ensures_ite, ensures_pure]
      refine ⟨fun _ => .intro fun _ _ _ same => (by cases same), fun unlabelled _ => ?_⟩
      simp only [Bool.or_eq_true, not_or, Bool.not_eq_true] at unlabelled
      exact unlabelled.1

/-- Finding the label of a concept writes nothing.  There is none only if none is needed. -/
theorem openLabel_ends (graph : GraphId) (concept : ConceptId) :
    Ends faults
      (openLabel model concept (needsLabel model (Plan.ofGraph model graph) concept)) writer
      fun use opened => (∃ labels, opened = writer.withLabels labels) ∧
        (use = none → model.Needless graph concept) := by
  refine (((openLabel_achieves concept _).and (openLabel_needed concept _)).ends faults).mono
    fun use opened facts => ?_
  obtain ⟨opens, unneeded⟩ := facts
  refine ⟨opens.exists_labels, fun none => ⟨(Bool.or_eq_false_iff.mp (unneeded none)).1, ?_⟩⟩
  cases none
  cases opens with
  | unlabelled alone => exact alone

/-- A concept that has been written with a label is referred to by it. -/
theorem reference_known (member : concept ∈ writer.order)
    (labelled : (concept, none) ∉ writer.emitted) :
    Ends faults (reference model concept) writer fun _ after => after = writer :=
  reference_ends (.inl labelled) fun absent => absurd member absent

theorem isEmitted_ends : Ends faults (isEmitted concept) writer fun answer later =>
    later = writer ∧ (answer = true ↔ concept ∈ writer.order) :=
  isEmitted_achieves.ends faults

theorem not_hidden {goal : Prop} (visible : (model.concept concept).hidden = false)
    (hidden : (model.concept concept).hidden = true) : goal := by
  rw [visible] at hidden
  cases hidden

/-- A concept is written for the first time. -/
theorem firstEmission_ends (writable : model.Writable source faults)
    (completes : model.Completes faults inner (graph :: outer))
    (writing : model.Writing (graph :: outer) writer) (fresh : concept ∉ writer.order)
    (stands : (model.concept concept).graph = some graph)
    (visible : (model.concept concept).hidden = false) :
    Ends faults (firstEmission model inner (Plan.ofGraph model graph) concept) writer fun _ after =>
      model.Writing (graph :: outer) after ∧ concept ∈ after.order ∧
        model.Introduces graph none [concept] writer after := by
  unfold firstEmission
  refine (openLabel_ends graph concept).bind fun use opened facts => ?_
  obtain ⟨⟨labels, rfl⟩, needless⟩ := facts
  refine (emitConcept_ends writable completes (writing.congr rfl rfl :
    model.Writing (graph :: outer) (writer.withLabels labels)) fresh stands
    (not_hidden visible) fun none => .inr ⟨graph, stands, needless none⟩).mono fun _ after
    facts => ?_
  obtain ⟨ended, emits⟩ := facts
  have introduces : model.Introduces graph none [concept] (writer.withLabels labels) after :=
    emits.introduces ended (fun unlabelled => needless (by simpa using unlabelled))
      (.inr (List.mem_cons_self ..))
  exact ⟨ended, List.mem_map_of_mem emits.member, introduces.of_labels⟩

/-! ## Arguments -/

/-- The concepts that arguments introduce. -/
def introduced (args : List Argument) : List ConceptId :=
  (args.filter (·.fresh)).map (·.concept)

theorem introduced_append (front back : List Argument) :
    introduced (front ++ back) = introduced front ++ introduced back := by
  simp [introduced]

/-- An argument is written that is not known without a label. -/
theorem argument_ends (writable : model.Writable source faults)
    (completes : model.Completes faults inner (graph :: outer))
    (writing : model.Writing (graph :: outer) writer)
    (stands : (model.concept concept).graph = some graph)
    (visible : (model.concept concept).hidden = false)
    (labelled : (concept, none) ∉ writer.emitted) :
    Ends faults
      (argument model inner (Plan.ofGraph model graph) concept) writer fun written after =>
      model.Writing (graph :: outer) after ∧ concept ∈ after.order ∧
        model.Introduces graph none (introduced [written]) writer after ∧
          introduced [written] ⊆ [concept] := by
  unfold argument
  refine isEmitted_ends.bind fun emitted later facts => ?_
  obtain ⟨rfl, known⟩ := facts
  cases emitted with
  | true =>
      rw [if_pos rfl]
      refine (reference_known (known.mp rfl) labelled).bind fun phrase after same => ?_
      subst same
      exact ⟨writing, known.mp rfl, .refl _, List.nil_subset _⟩
  | false =>
      have fresh : concept ∉ later.order := fun before => by simpa using known.mpr before
      rw [if_neg (by decide)]
      refine (firstEmission_ends writable completes writing fresh stands visible).bind
        fun phrase after facts => ?_
      obtain ⟨ended, member, introduces⟩ := facts
      exact ⟨ended, member, introduces, List.Subset.refl _⟩

/-- The last arguments of a relation are written, none of which is known without a label. -/
theorem concat_argument_ends (writable : model.Writable source faults)
    (completes : model.Completes faults inner (graph :: outer)) (front : List ConceptId)
    {rest : List ConceptId} (steady : model.Steady graph outer writer)
    (link : relation ∈ Plan.links model graph)
    (marked : relation ∈ writer.written) (args : (model.relation relation).args = front ++ rest)
    (stand : ∀ concept ∈ rest, (model.concept concept).graph = some graph ∧
      (model.concept concept).hidden = false)
    (labelled : ∀ concept ∈ rest, (concept, none) ∉ writer.emitted) :
    Ends faults (concat (fun concept => return [← argument model inner (Plan.ofGraph model graph)
        concept]) rest) writer fun written after =>
      model.Steady graph outer after ∧
        model.Introduces graph none (introduced written) writer after ∧
        introduced written ⊆ rest ∧ ∀ concept ∈ rest, concept ∈ after.order := by
  -- The arguments before have been labelled, and each one leaves those behind it unchanged.
  induction rest generalizing writer front with
  | nil => exact ⟨steady, .refl _, List.nil_subset _, by simp⟩
  | cons concept others ih =>
      obtain ⟨stands, visible⟩ := stand concept (List.mem_cons_self ..)
      have among : concept ∈ (model.relation relation).args := by simp [args]
      unfold concat
      simp only [bind_assoc, pure_bind]
      refine (argument_ends writable completes steady.writing stands visible
        (labelled concept (List.mem_cons_self ..))).bind fun first middle facts => ?_
      obtain ⟨writing, member, introduces, only⟩ := facts
      have still : model.Steady graph outer middle := introduces.steady steady writing link marked
        (fun _ same => by cases same) fun other new => by
          rw [List.mem_singleton.mp (only new)]
          exact among
      have remain := introduces.labelled front link args (fun other new =>
        List.mem_singleton.mp (only (new.resolve_left (by simp))))
          (fun other later => (stand other (List.mem_cons_of_mem _ later)).1)
            fun other later => labelled other (List.mem_cons_of_mem _ later)
      refine (ih (front ++ [concept]) still (introduces.grows.written.subset marked)
        (by simp [args]) (fun other later => stand other (List.mem_cons_of_mem _ later))
          remain).bind fun written after facts => ?_
      obtain ⟨ended, more, within, present⟩ := facts
      refine ⟨ended, ?_, ?_, List.forall_mem_cons.mpr
        ⟨more.grows.order.subset member, present⟩⟩
      · rw [introduced_append]
        exact introduces.trans more
      · rw [introduced_append]
        exact List.append_subset.mpr ⟨fun new member => by
          rw [List.mem_singleton.mp (only member)]
          exact List.mem_cons_self .., List.subset_cons_of_subset _ within⟩

/-- The arguments of a relation are written, the first one without a label if it is to be
written so and has not been written before. -/
theorem arguments_ends (writable : model.Writable source faults)
    (completes : model.Completes faults inner (graph :: outer)) {inlined : Option ConceptId}
    (steady : model.Steady graph outer writer) (link : relation ∈ Plan.links model graph)
    (marked : relation ∈ writer.written)
    (stand : ∀ concept ∈ (model.relation relation).args,
      (model.concept concept).graph = some graph ∧ (model.concept concept).hidden = false)
    (labelled : ∀ concept ∈ (model.relation relation).args, (concept, none) ∉ writer.emitted)
    (first : ∀ concept, inlined = some concept →
      (model.relation relation).args.head? = some concept ∧ concept ∉ writer.order ∧
        model.Needless graph concept) :
    Ends faults
      (arguments model inner (Plan.ofGraph model graph) inlined (model.relation relation).args)
      writer fun written after => model.Steady graph outer after ∧
        model.Introduces graph inlined (introduced written) writer after ∧
          introduced written ⊆ (model.relation relation).args ∧
            ∀ concept ∈ (model.relation relation).args, concept ∈ after.order := by
  generalize same : (model.relation relation).args = args at stand labelled first ⊢
  cases args with
  | nil =>
      have none : inlined = none := by
        cases inlined with
        | none => rfl
        | some concept => cases (first concept rfl).1
      subst none
      exact ⟨steady, .refl _, List.nil_subset _, by simp⟩
  | cons head others =>
      obtain ⟨stands, visible⟩ := stand head (List.mem_cons_self ..)
      unfold arguments
      -- A concept that is held inline is written with the relation; all others are written before.
      refine ends_ite.mpr ⟨fun inline => ?_, fun other => ?_⟩
      · obtain ⟨-, fresh, unneeded⟩ := first head inline
        rw [ends_bind]
        refine (emitConcept_ends writable completes steady.writing fresh stands (not_hidden visible)
          fun _ => .inr ⟨graph, stands, unneeded⟩ :
            Ends faults (emitConcept model inner head none) _ _).mono fun phrase middle facts => ?_
        obtain ⟨writing, emits⟩ := facts
        have opening : model.Introduces graph inlined [] writer middle :=
          emits.introduces writing (fun _ => unneeded) (.inl inline)
        have only : ∀ other, inlined = some other ∨ other ∈ [] → other = head := by
          intro other new
          rcases new with same | none
          · exact Option.some.inj (same.symm.trans inline)
          · cases none
        have still := opening.steady steady writing link marked
          (fun concept also => by
            rw [only concept (.inl also), same]
            exact List.mem_cons_self ..) (List.nil_subset _)
        have remain := opening.labelled [] link same only
          (fun other later => (stand other (List.mem_cons_of_mem _ later)).1)
            fun other later => labelled other (List.mem_cons_of_mem _ later)
        refine (concat_argument_ends writable completes [head] still link
          (opening.grows.written.subset marked) same
            (fun other later => stand other (List.mem_cons_of_mem _ later)) remain).bind
              fun rest after facts => ?_
        obtain ⟨ended, more, within, present⟩ := facts
        refine ⟨ended, ?_, ?_, List.forall_mem_cons.mpr
          ⟨more.grows.order.subset (List.mem_map_of_mem emits.member), present⟩⟩
        · rw [introduced_append]
          exact opening.trans more
        · rw [introduced_append]
          exact List.subset_cons_of_subset _ within
      · have none : inlined = none := by
          cases inlined with
          | none => rfl
          | some concept => exact absurd (first concept rfl).1.symm other
        subst none
        rw [concat_singleton]
        have all := concat_argument_ends writable completes [] steady link marked
          same stand labelled
        unfold concat at all
        simpa only [bind_assoc] using all

/-! ## Relations -/

/-- Whether there are steps for all relations that have not been written. -/
def Enough (model : Model) (steps : Nat) (writer : Writer) : Prop :=
  model.relations.size < steps + writer.written.length

theorem Enough.mono {steps : Nat} (enough : Enough model steps writer)
    (grows : model.Grows graph writer after) : Enough model steps after :=
  Nat.lt_of_lt_of_le enough (Nat.add_le_add_left grows.written.length_le _)

/-- The type of a relation is written as its label. -/
theorem exists_relationType (writable : model.Writable source faults)
    (stands : (model.relation relation).graph = some graph) (inner : Inner) :
    ∃ label, relationType model inner relation = pure (ofToken (.ident label)) := by
  obtain ⟨type, typed, -⟩ :=
    (writable.sound.relations relation (Model.lt_of_relation_graph stands)).type
  obtain ⟨label, named⟩ := writable.relationType relation type typed
  exact ⟨label, by simp only [relationType, typed, named]⟩

/-- The arguments of a link of a graph are plain concepts of the graph. -/
theorem args_of_mem_links (writable : model.Writable source faults)
    (link : relation ∈ Plan.links model graph) : ∀ concept ∈ (model.relation relation).args,
      (model.concept concept).graph = some graph ∧ (model.concept concept).IsPlain := by
  obtain ⟨stands, positive⟩ := (Plan.mem_links writable.sound.listed).mp link
  exact writable.args_of_positive stands positive

/-- The relations that begin with a concept are written, except those that had been written
before. -/
theorem concat_primaries_ends {step : RelationId → Write (List Phrase)}
    (invariant : Writer → Prop) {earlier : Writer}
    (each : ∀ relation ∈ (Plan.ofGraph model graph).primary concept, ∀ writer, invariant writer →
      Ends faults (step relation) writer fun _ after => invariant after ∧
        model.Advances graph none writer after ∧ relation ∈ after.written)
    (kept : earlier.written ⊆ writer.written) (begins : invariant writer) :
    Ends faults (concat step (((Plan.ofGraph model graph).primary concept).filter
        fun relation => !earlier.written.contains relation)) writer fun _ after =>
      invariant after ∧ model.Advances graph none writer after ∧
        ∀ relation ∈ (Plan.ofGraph model graph).primary concept, relation ∈ after.written := by
  refine (concat_ends invariant (model.Advances graph none)
    (fun relation after => relation ∈ after.written) (fun writer => .refl writer)
    (fun first rest => first.trans rest)
    (fun advances member => advances.grows.written.subset member)
    (fun next member => each next (List.mem_of_mem_filter member)) begins).mono
      fun _ after facts => ?_
  obtain ⟨ended, advances, written⟩ := facts
  refine ⟨ended, advances, fun next primary => ?_⟩
  by_cases before : next ∈ earlier.written
  · exact advances.grows.written.subset (kept before)
  · exact written next (List.mem_filter.mpr ⟨primary, by simpa using before⟩)

/-- A relation is written with the relations that follow it. -/
theorem relationItems_ends (writable : model.Writable source faults)
    (completes : model.Completes faults inner (graph :: outer)) {steps : Nat}
    {inlined : Option ConceptId} (steady : model.Steady graph outer writer)
    (enough : Enough model steps writer) (link : relation ∈ Plan.links model graph)
    (first : ∀ concept, inlined = some concept →
      (model.relation relation).args.head? = some concept ∧ concept ∉ writer.order ∧
        model.Needless graph concept) :
    Ends faults (relationItems model inner (Plan.ofGraph model graph) steps inlined relation) writer
      fun _ after => model.Steady graph outer after ∧ model.Advances graph inlined writer after ∧
        relation ∈ after.written ∧ (relation ∉ writer.written →
          ∀ concept ∈ (model.relation relation).args, concept ∈ after.order) := by
  induction steps generalizing writer inlined relation with
  | zero =>
      have most := steady.writing.length_written_le
      simp only [Enough, Nat.zero_add] at enough
      exact absurd most (Nat.not_le.mpr enough)
  | succ steps ih =>
      have arguments := args_of_mem_links writable link
      obtain ⟨stands, positive⟩ := (Plan.mem_links writable.sound.listed).mp link
      obtain ⟨label, named⟩ := exists_relationType writable stands inner
      unfold relationItems
      rw [ends_bind, ends_get]
      refine ends_ite.mpr ⟨fun known => ?_, fun unknown => ?_⟩
      · have written : relation ∈ writer.written := by simpa using known
        exact ⟨steady, .refl _, written, fun unwritten => absurd written unwritten⟩
      · have unwritten : relation ∉ writer.written := by simpa using unknown
        have marked := steady.begin unwritten stands positive
        have begun : model.Grows graph writer (writer.begin relation) := .begin writer stands
        simp only [markWritten, ends_bind, ends_modify, named, ends_pure]
        refine (arguments_ends writable completes marked link (List.mem_cons_self ..)
          (fun concept argument =>
            ⟨(arguments concept argument).1, (arguments concept argument).2.1⟩)
          (fun concept argument => steady.labelled link unwritten (arguments concept argument).1
            argument) first).mono fun args middle facts => ?_
        obtain ⟨still, introduces, among, present⟩ := facts
        -- The step that is taken from the count is made up for by the relation just marked.
        have fewer : Enough model steps middle := by
          have more := introduces.grows.written.length_le
          simp only [Enough, Writer.begin, List.length_cons] at enough more ⊢
          omega
        have each : ∀ concept writer, model.Steady graph outer writer ∧ Enough model steps writer →
            Ends faults (do
              let relations ← Write.unwritten ((Plan.ofGraph model graph).primary concept)
              concat (relationItems model inner (Plan.ofGraph model graph) steps none) relations)
                writer fun _ after =>
                  (model.Steady graph outer after ∧ Enough model steps after) ∧
                    model.Advances graph none writer after ∧
                      ∀ relation ∈ (Plan.ofGraph model graph).primary concept,
                        relation ∈ after.written := by
          intro concept writer known
          simp only [Write.unwritten, ends_bind, ends_get, ends_pure]
          refine concat_primaries_ends (fun writer =>
            model.Steady graph outer writer ∧ Enough model steps writer)
            (fun next member writer known => ?_) (List.Subset.refl _) known
          obtain ⟨also, -, -⟩ := Plan.mem_primary.mp member
          refine (ih known.1 known.2 also (by simp)).mono fun _ after facts => ?_
          obtain ⟨ended, advances, written, -⟩ := facts
          exact ⟨⟨ended, known.2.mono advances.grows⟩, advances, written⟩
        refine (concat_ends (fun writer => model.Steady graph outer writer ∧
          Enough model steps writer) (model.Advances graph none)
          (fun concept after => ∀ relation ∈ (Plan.ofGraph model graph).primary concept,
            relation ∈ after.written) (fun writer => .refl writer)
          (fun first rest => first.trans rest)
          (fun advances written relation primary =>
            advances.grows.written.subset (written relation primary))
          (fun concept _ => each concept) ⟨still, fewer⟩).mono fun following after facts => ?_
        obtain ⟨⟨ended, -⟩, advances, followed⟩ := facts
        have grows := (begun.trans introduces.grows).trans advances.grows
        refine ⟨ended, ⟨grows, fun concept member fresh here other next primary => ?_⟩, ?_, ?_⟩
        · by_cases early : concept ∈ middle.order
          · rcases introduces.concepts concept early here with before | same | new
            · exact absurd before fresh
            · exact absurd same other
            · exact followed concept new next primary
          · exact advances.followed concept member early here (by simp) next primary
        · exact advances.grows.written.subset (introduces.grows.written.subset
            (List.mem_cons_self ..))
        · exact fun _ concept argument => advances.grows.order.subset (present concept argument)

/-! ## Concepts -/

/-- A concept of a graph that has been written has been followed by its relations. -/
def Saturated (model : Model) (graph : GraphId) (writer : Writer) : Prop :=
  ∀ concept ∈ writer.order, (model.concept concept).graph = some graph →
    ∀ relation ∈ (Plan.ofGraph model graph).primary concept, relation ∈ writer.written

/-- Before a concept that needs no label and begins no relation is written by itself, all concepts
have been written that begin one. -/
def InTurn (model : Model) (graph : GraphId) (concept : ConceptId) (writer : Writer) : Prop :=
  model.Needless graph concept → (Plan.ofGraph model graph).primary concept = [] → ∀ other,
    (model.concept other).graph = some graph → (model.concept other).hidden = false →
      (Plan.ofGraph model graph).primary other ≠ [] → other ∈ writer.order

/-- What is saturated stays so as the writer advances. -/
theorem Saturated.advances (saturated : Saturated model graph writer)
    (advances : model.Advances graph none writer after) : Saturated model graph after := by
  intro concept member stands relation primary
  by_cases before : concept ∈ writer.order
  · exact advances.grows.written.subset (saturated concept before stands relation primary)
  · exact advances.followed concept member before stands (by simp) relation primary

/-- The relations that begin with a concept are this one alone if no other refers to it. -/
theorem primary_eq_singleton (listed : model.Listed)
    (primary : relation ∈ (Plan.ofGraph model graph).primary concept)
    (unique : ∀ other ∈ Plan.links model graph, concept ∈ (model.relation other).args →
      other = relation) : (Plan.ofGraph model graph).primary concept = [relation] := by
  have once : ((Plan.ofGraph model graph).primary concept).Nodup :=
    (Plan.nodup_links listed).filter _
  have only : ∀ other ∈ (Plan.ofGraph model graph).primary concept, other = relation := by
    intro other member
    obtain ⟨link, -, head⟩ := Plan.mem_primary.mp member
    exact unique other link (List.mem_of_mem_head? head)
  exact List.perm_singleton.mp ((List.perm_ext_iff_of_nodup once (List.nodup_singleton _)).mpr
    fun other => ⟨fun member => List.mem_singleton.mpr (only other member), fun member => by
      rw [List.mem_singleton.mp member]
      exact primary⟩)

/-- When the turn of a concept comes that needs no label, the relation has been written of which
it is an argument, unless it begins with the concept. -/
theorem InTurn.written (writable : model.Writable source faults)
    (turn : InTurn model graph concept writer) (saturated : Saturated model graph writer)
    (needless : model.Needless graph concept) (link : relation ∈ Plan.links model graph)
    (argument : concept ∈ (model.relation relation).args)
    (apart : (model.relation relation).args.head? ≠ some concept) : relation ∈ writer.written := by
  obtain ⟨unique, -, passive⟩ := Plan.unique_of_not_needsLabel needless.unneeded link argument
  cases head : (model.relation relation).args.head? with
  | none =>
      rw [List.head?_eq_none_iff.mp head] at argument
      cases argument
  | some first =>
      obtain ⟨here, visible, -⟩ :=
        args_of_mem_links writable link first (List.mem_of_mem_head? head)
      have primary : relation ∈ (Plan.ofGraph model graph).primary first :=
        Plan.mem_primary.mpr ⟨link, passive, head⟩
      have idle : (Plan.ofGraph model graph).primary concept = [] := by
        refine List.eq_nil_iff_forall_not_mem.mpr fun next member => ?_
        obtain ⟨also, -, begins⟩ := Plan.mem_primary.mp member
        rw [unique next also (List.mem_of_mem_head? begins)] at begins
        exact apart begins
      exact saturated first
        (turn needless idle first here visible (List.ne_nil_of_mem primary)) here
        relation primary

/-- A graph remains steady when a concept of it is written by itself, unless the one relation
that begins with it could follow without a label. -/
theorem Steady.emitted {use : Option LabelUse} (writable : model.Writable source faults)
    (steady : model.Steady graph outer writer) (writing : model.Writing (graph :: outer) after)
    (emits : model.Emits graph concept (use.map LabelUse.label) writer after)
    (saturated : Saturated model graph writer) (turn : InTurn model graph concept writer)
    (unneeded : use = none → model.Needless graph concept)
    (apart : ∀ only, use = none → ((Plan.ofGraph model graph).primary concept).filter
      (fun relation => !writer.written.contains relation) = [only] → False) :
    model.Steady graph outer after where
  writing := writing
  settled other unlabelled stands relation link argument := by
    refine emits.grows.written.subset ?_
    have introduces : model.Introduces graph none [concept] writer after :=
      emits.introduces writing (fun none => unneeded (by simpa using none))
        (.inr (List.mem_cons_self ..))
    rcases introduces.unlabelled other unlabelled stands with early | ⟨new, needless⟩
    · exact steady.settled other early stands relation link argument
    obtain rfl := List.mem_singleton.mp (new.resolve_left (by simp))
    have use_eq : use = none := by
      have distinct : (after.emitted.map Prod.fst).Nodup := writing.houses.distinct
      have same := List.inj_on_of_nodup_map distinct emits.member unlabelled rfl
      simpa using (Prod.ext_iff.mp same).2
    obtain ⟨unique, -, passive⟩ := Plan.unique_of_not_needsLabel needless.unneeded link argument
    by_contra unwritten
    by_cases head : (model.relation relation).args.head? = some other
    · have primary : relation ∈ (Plan.ofGraph model graph).primary other :=
        Plan.mem_primary.mpr ⟨link, passive, head⟩
      refine apart relation use_eq ?_
      rw [primary_eq_singleton writable.sound.listed primary unique]
      simp [unwritten]
    · exact unwritten (turn.written writable saturated needless link argument head)

/-- A concept is written with the relations that begin with it. -/
theorem conceptItems_ends (writable : model.Writable source faults)
    (completes : model.Completes faults inner (graph :: outer))
    (steady : model.Steady graph outer writer) (saturated : Saturated model graph writer)
    (turn : InTurn model graph concept writer)
    (stands : (model.concept concept).graph = some graph)
    (visible : (model.concept concept).hidden = false) :
    Ends faults (conceptItems model inner (Plan.ofGraph model graph) concept) writer fun _ after =>
      model.Steady graph outer after ∧ model.Advances graph none writer after ∧
        concept ∈ after.order := by
  unfold conceptItems
  refine isEmitted_ends.bind fun emitted later facts => ?_
  obtain ⟨rfl, known⟩ := facts
  refine ends_ite.mpr ⟨fun emitted => ⟨steady, .refl _, known.mp emitted⟩, fun unknown => ?_⟩
  have fresh : concept ∉ later.order := fun before => unknown (known.mpr before)
  refine (openLabel_ends graph concept).bind fun use opened facts => ?_
  obtain ⟨⟨labels, rfl⟩, needless⟩ := facts
  have still : model.Steady graph outer (later.withLabels labels) :=
    ⟨steady.writing.congr rfl rfl, steady.settled⟩
  have plenty : ∀ writer, Enough model (relationSteps model) writer := fun writer =>
    Nat.lt_of_lt_of_le (Nat.lt_succ_self _) (Nat.le_add_right _ _)
  simp only [Write.unwritten, ends_bind, ends_get, ends_pure]
  -- Either the concept is held inline by the only relation that begins with it, or it is written
  -- first and its relations after it.
  split
  · next only same =>
    have primary : only ∈ (Plan.ofGraph model graph).primary concept ∧ only ∉ later.written := by
      have among := List.mem_singleton.mpr (rfl : only = only)
      rw [← same] at among
      simpa using among
    obtain ⟨link, -, head⟩ := Plan.mem_primary.mp primary.1
    refine (relationItems_ends writable completes still (plenty _) link fun other also => ?_).mono
      fun _ after facts => ?_
    · cases also
      exact ⟨head, fresh, needless rfl⟩
    · obtain ⟨ended, advances, written, present⟩ := facts
      have grown : model.Grows graph later after := ⟨advances.grows.emitted,
        advances.grows.written, advances.grows.concepts, advances.grows.relations⟩
      refine ⟨ended, ⟨grown, fun other member new here _ relation begins => ?_⟩,
        present primary.2 concept (List.mem_of_mem_head? head)⟩
      by_cases itself : other = concept
      · subst itself
        by_cases before : relation ∈ later.written
        · exact grown.written.subset before
        · have unwritten : relation ∈ ((Plan.ofGraph model graph).primary other).filter
              fun relation => !(later.withLabels labels).written.contains relation :=
            List.mem_filter.mpr ⟨begins, by simpa using before⟩
          rw [same] at unwritten
          rw [List.mem_singleton.mp unwritten]
          exact written
      · exact advances.followed other member new here
          (fun same => itself (Option.some.inj same).symm)
          relation begins
  · next apart =>
    rw [ends_bind]
    refine (emitConcept_ends writable completes still.writing fresh stands (not_hidden visible)
      fun none => .inr ⟨graph, stands, needless none⟩).mono fun item middle facts => ?_
    obtain ⟨writing, emits⟩ := facts
    have settled : model.Steady graph outer middle := Steady.emitted writable still writing emits
      saturated turn needless apart
    simp only [ends_bind, ends_pure]
    refine (concat_primaries_ends (model.Steady graph outer)
      (fun next member writer known => ?_) emits.grows.written.subset settled).mono
        fun others after facts => ?_
    · obtain ⟨link, -, -⟩ := Plan.mem_primary.mp member
      refine (relationItems_ends writable completes known (plenty _) link (by simp)).mono
        fun _ after facts => ?_
      obtain ⟨ended, advances, written, -⟩ := facts
      exact ⟨ended, advances, written⟩
    · obtain ⟨ended, advances, written⟩ := facts
      have early : model.Grows graph later middle := ⟨emits.grows.emitted, emits.grows.written,
        emits.grows.concepts, emits.grows.relations⟩
      refine ⟨ended,
        ⟨early.trans advances.grows, fun other member new here _ relation begins => ?_⟩,
        advances.grows.order.subset (List.mem_map_of_mem emits.member)⟩
      by_cases first : other ∈ middle.order
      · rcases emits.concepts other first here with rfl | before
        · exact written relation begins
        · exact absurd before new
      · exact advances.followed other member first here (by simp) relation begins

/-- The concepts of a graph are written in their order. -/
theorem concat_concepts_ends {step : ConceptId → Write (List Phrase)}
    (writable : model.Writable source faults)
    (each : ∀ concept writer, model.Steady graph outer writer → Saturated model graph writer →
      InTurn model graph concept writer → (model.concept concept).graph = some graph →
      (model.concept concept).hidden = false → Ends faults (step concept) writer fun _ after =>
        model.Steady graph outer after ∧ model.Advances graph none writer after ∧
          concept ∈ after.order)
    (front : List ConceptId) {back : List ConceptId}
    (split : (Plan.ofGraph model graph).order = front ++ back)
    (steady : model.Steady graph outer writer) (saturated : Saturated model graph writer)
    (past : ∀ concept ∈ front, concept ∈ writer.order) :
    Ends faults (concat step back) writer fun _ after =>
      model.Steady graph outer after ∧ Saturated model graph after ∧
        model.Grows graph writer after ∧
          ∀ concept ∈ (Plan.ofGraph model graph).order, concept ∈ after.order := by
  have listed := writable.sound.listed
  -- The induction is on the concepts that are left; those before have been written, so that it is
  -- the turn of the next one.
  induction back generalizing front writer with
  | nil =>
      rw [List.append_nil] at split
      exact ⟨steady, saturated, .refl _ _, split ▸ past⟩
  | cons concept back ih =>
      obtain ⟨here, visible⟩ := Plan.mem_order.mp (by
        rw [split]
        exact List.mem_append_right _ (List.mem_cons_self ..) :
          concept ∈ (Plan.ofGraph model graph).order)
      have turn : InTurn model graph concept writer := fun needless idle other stands shown
          begins => past other (Plan.starting_before needless split idle
          ((listed.mem_concepts graph other).mpr stands) shown begins)
      unfold concat
      refine (each concept writer steady saturated turn
        ((listed.mem_concepts graph concept).mp here) visible).bind fun items middle facts => ?_
      obtain ⟨still, advances, member⟩ := facts
      refine (ih (front ++ [concept]) (by simp [split]) still (saturated.advances advances)
        fun other among => ?_).bind fun others after facts => ?_
      · rcases List.mem_append.mp among with before | itself
        · exact advances.grows.order.subset (past other before)
        · rw [List.mem_singleton.mp itself]
          exact member
      · obtain ⟨ended, followed, grows, written⟩ := facts
        exact ⟨ended, followed, advances.grows.trans grows, written⟩

/-! ## Actors and negations -/

/-- The arguments of an actor are written as references, which changes nothing. -/
theorem actorArgs_ends {args : List ConceptId}
    (known : ∀ concept ∈ args, concept ∈ writer.order ∧ (concept, none) ∉ writer.emitted) :
    Ends faults (actorArgs model args) writer fun _ after => after = writer := by
  unfold actorArgs
  induction args with
  | nil => exact rfl
  | cons concept others ih =>
      obtain ⟨member, labelled⟩ := known concept (List.mem_cons_self ..)
      unfold concat
      simp only [bind_assoc, pure_bind]
      refine (reference_known member labelled).bind fun phrase after same => ?_
      subst same
      exact ends_bind.mpr (ih fun other later => known other (List.mem_cons_of_mem _ later))

/-- Whether all concepts of a graph that are not hidden have been written. -/
def Introduced (model : Model) (graph : GraphId) (writer : Writer) : Prop :=
  ∀ concept ∈ (Plan.ofGraph model graph).order, concept ∈ writer.order

/-- Whether all relations of a graph that begin with a concept have been written. -/
def Linked (model : Model) (graph : GraphId) (writer : Writer) : Prop :=
  ∀ concept, ∀ relation ∈ (Plan.ofGraph model graph).primary concept, relation ∈ writer.written

/-- Where the concepts of a graph are all present and saturated, the relations that begin with one
have been written. -/
theorem Saturated.linked (writable : model.Writable source faults)
    (saturated : Saturated model graph writer) (present : Introduced model graph writer) :
    Linked model graph writer := by
  intro concept relation primary
  obtain ⟨link, -, head⟩ := Plan.mem_primary.mp primary
  obtain ⟨here, visible, -⟩ :=
    args_of_mem_links writable link concept (List.mem_of_mem_head? head)
  exact saturated concept (present concept (Plan.mem_order.mpr
    ⟨(writable.sound.listed.mem_concepts graph concept).mpr here, visible⟩)) here relation primary

/-- An actor is written after all concepts of its graph. -/
theorem actor_ends (writable : model.Writable source faults)
    (steady : model.Steady graph outer writer) (present : Introduced model graph writer)
    (link : relation ∈ Plan.links model graph) (unwritten : relation ∉ writer.written) :
    Ends faults (actor model inner relation) writer fun _ after =>
      model.Steady graph outer after ∧ model.Grows graph writer after ∧
        relation ∈ after.written := by
  have listed := writable.sound.listed
  obtain ⟨stands, positive⟩ := (Plan.mem_links listed).mp link
  obtain ⟨label, named⟩ := exists_relationType writable stands inner
  have known : ∀ concept ∈ (model.relation relation).args,
      concept ∈ writer.order ∧ (concept, none) ∉ writer.emitted := fun concept argument => by
    obtain ⟨here, visible, -⟩ := args_of_mem_links writable link concept argument
    exact ⟨present concept (Plan.mem_order.mpr ⟨(listed.mem_concepts graph concept).mpr here,
      visible⟩), steady.labelled link unwritten here argument⟩
  have ins : (model.relation relation).inputs ⊆ (model.relation relation).args := by
    unfold Relation.inputs
    split
    · exact List.Subset.refl _
    · exact List.take_subset ..
  have outs : (model.relation relation).outputs ⊆ (model.relation relation).args := by
    unfold Relation.outputs
    split
    · exact List.nil_subset _
    · exact List.drop_subset ..
  unfold actor
  simp only [markWritten, ends_bind, ends_modify, named, ends_pure]
  have read : ∀ args ⊆ (model.relation relation).args, Ends faults (actorArgs model args)
      (writer.begin relation) fun _ after => after = writer.begin relation := fun args among =>
    actorArgs_ends fun concept member => known concept (among member)
  refine (read _ ins).mono fun inputs later same => ?_
  subst same
  refine (read _ outs).mono fun outputs after same => ?_
  subst same
  exact ⟨steady.begin unwritten stands positive, .begin writer stands, List.mem_cons_self ..⟩

/-- A negation is written with everything in the graph that it negates. -/
theorem negation_ends (writable : model.Writable source faults)
    (completes : model.Completes faults inner (graph :: outer))
    (steady : model.Steady graph outer writer)
    (stands : (model.relation relation).graph = some graph)
    (negative : model.isNegation relation = true) (unwritten : relation ∉ writer.written) :
    Ends faults (negation model inner relation) writer fun _ after =>
      model.Steady graph outer after ∧ model.Grows graph writer after ∧
        relation ∈ after.written := by
  obtain ⟨wrapper, hidden, negates, wraps, unique⟩ := writable.exists_wrapper negative
  obtain ⟨id, describes, -⟩ := wraps.descriptor?
  have here : (model.concept wrapper).graph = some graph := negates.graph.symm.trans stands
  have fresh : wrapper ∉ writer.order := fun before =>
    unwritten
      (steady.writing.houses.wrapped wrapper before hidden relation (by simp [negates.args]))
  have writing := steady.writing.negate unwritten stands negates.args fresh here hidden unique
    describes
  have untouched : model.Untouched ((writer.begin relation).emit wrapper none) id :=
    Read.untouched_of_houses writable.toRooted none (steady.writing.houses.begin stands) fresh here
      describes
  have further := writable.rank_lt steady.writing.houses.nests here describes
  have begun := (Model.Grows.begin writer stands).trans
    (.emit (writer.begin relation) here none)
  unfold negation
  simp only [negates.args, List.take_succ_cons, List.take_zero, concat_singleton, describes,
    Option.toList_some, ends_bind, markWritten, emit, ends_modify, ends_pure]
  refine (nestedGraph_ends completes writing untouched).mono fun body after facts => ?_
  obtain ⟨ended, grows⟩ := facts
  refine ⟨⟨ended, fun concept unlabelled standing other link argument => ?_⟩,
    begun.trans (grows.mono (Nat.le_of_lt further)),
    grows.written.subset (List.mem_cons_self ..)⟩
  have entry : (concept, none) ∈ ((writer.begin relation).emit wrapper none).emitted := by
    obtain ⟨known, among, same⟩ := List.mem_map.mp
      (grows.mem_order further (List.mem_map_of_mem unlabelled) standing)
    have distinct : (after.emitted.map Prod.fst).Nodup := ended.houses.distinct
    rwa [List.inj_on_of_nodup_map distinct unlabelled (grows.emitted.subset among) same.symm]
  -- What stood without a label before has all its relations written; the wrapper has this one.
  rcases List.mem_cons.mp entry with itself | before
  · cases itself
    rw [unique other argument, Plan.mem_links writable.sound.listed, negative] at link
    cases link.2
  · exact grows.written.subset (List.mem_cons_of_mem _
      (steady.settled concept before standing other link argument))

/-- A relation or actor is written after all concepts of its graph. -/
theorem remainingItems_ends (writable : model.Writable source faults)
    (completes : model.Completes faults inner (graph :: outer))
    (steady : model.Steady graph outer writer) (present : Introduced model graph writer)
    (stands : (model.relation relation).graph = some graph) :
    Ends faults
      (remainingItems model inner (Plan.ofGraph model graph) relation) writer fun _ after =>
      model.Steady graph outer after ∧ model.Grows graph writer after ∧
        relation ∈ after.written := by
  unfold remainingItems
  rw [ends_bind, ends_get]
  refine ends_ite.mpr ⟨fun known => ⟨steady, .refl _ _, by simpa using known⟩,
    fun unknown => ?_⟩
  have unwritten : relation ∉ writer.written := by simpa using unknown
  refine ends_ite.mpr ⟨fun negative => ?_, fun other => ?_⟩
  · exact ends_bind.mpr (negation_ends writable completes steady stands negative unwritten)
  have link : relation ∈ Plan.links model graph :=
    (Plan.mem_links writable.sound.listed).mpr ⟨stands, Bool.eq_false_iff.mpr other⟩
  refine ends_ite.mpr ⟨fun _ => ?_, fun _ => ?_⟩
  · exact ends_bind.mpr (actor_ends writable steady present link unwritten)
  · refine (relationItems_ends writable completes steady (Nat.lt_of_lt_of_le
      (Nat.lt_succ_self _) (Nat.le_add_right _ _)) link (by simp)).mono fun _ after facts => ?_
    obtain ⟨ended, advances, written, -⟩ := facts
    exact ⟨ended, advances.grows, written⟩

/-! ## Graphs -/

/-- A graph is written to its end if its concepts are, each followed by its relations, and then
the relations that remain. -/
theorem graph_ends {conceptStep : ConceptId → Write (List Phrase)}
    {relationStep : RelationId → Write (List Phrase)} (writable : model.Writable source faults)
    (writing : model.Writing (graph :: outer) writer) (untouched : model.Untouched writer graph)
    (eachConcept :
    ∀ concept writer, model.Steady graph outer writer → Saturated model graph writer →
      InTurn model graph concept writer → (model.concept concept).graph = some graph →
      (model.concept concept).hidden = false →
        Ends faults (conceptStep concept) writer fun _ after =>
        model.Steady graph outer after ∧ model.Advances graph none writer after ∧
          concept ∈ after.order)
    (eachRelation : ∀ relation writer, model.Steady graph outer writer →
      Introduced model graph writer → Linked model graph writer →
      (model.relation relation).graph = some graph → Ends faults (relationStep relation) writer
        fun _ after => model.Steady graph outer after ∧ model.Grows graph writer after ∧
          relation ∈ after.written) :
    Ends faults (do
      let concepts ← concat conceptStep (Plan.ofGraph model graph).order
      let relations ← concat relationStep (model.graph graph).relations
      return comments model graph ++ concepts ++ relations) writer fun _ after =>
        model.Writing (graph :: outer) after ∧ model.Filled after graph ∧
          model.Grows graph writer after := by
  have listed := writable.sound.listed
  -- Nothing of the graph has been written when it begins.
  have steady : model.Steady graph outer writer := ⟨writing, fun concept unlabelled stands =>
    absurd stands (untouched.concepts concept (List.mem_map_of_mem unlabelled))⟩
  have saturated : Saturated model graph writer := fun concept before stands =>
    absurd stands (untouched.concepts concept before)
  refine (concat_concepts_ends writable eachConcept [] (List.nil_append _).symm steady
    saturated (by simp)).bind fun concepts middle facts => ?_
  obtain ⟨still, followed, grows, present⟩ := facts
  refine (concat_ends (fun writer => model.Steady graph outer writer ∧
      Introduced model graph writer ∧ Linked model graph writer) (model.Grows graph)
    (fun relation writer => relation ∈ writer.written) (fun writer => .refl _ writer)
    (fun first rest => first.trans rest) (fun grows member => grows.written.subset member)
    (fun relation member writer known => ?_)
    ⟨still, present, followed.linked writable present⟩).bind fun relations after facts => ?_
  · refine (eachRelation relation writer known.1 known.2.1 known.2.2
      ((listed.mem_relations graph relation).mp member)).mono fun _ after facts => ?_
    obtain ⟨ended, grows, written⟩ := facts
    exact ⟨⟨ended, fun concept among => grows.order.subset (known.2.1 concept among),
      fun concept relation primary => grows.written.subset (known.2.2 concept relation primary)⟩,
      grows, written⟩
  · obtain ⟨⟨ended, shown, -⟩, more, written⟩ := facts
    exact ⟨ended.writing, ended.writing.filled_of writable.toRooted shown written, grows.trans more⟩

/-- A graph is written to its end where the graphs nested in it are. -/
theorem completes_bracketGraph (writable : model.Writable source faults)
    (completes : ∀ graph, model.Completes faults inner (graph :: outer)) :
    model.Completes faults (bracketGraph model inner) outer := fun graph _ writing untouched =>
  graph_ends writable writing untouched
    (fun _ _ steady saturated turn stands visible =>
      conceptItems_ends writable (completes graph) steady saturated turn stands visible)
    fun _ _ steady present _ stands =>
      remainingItems_ends writable (completes graph) steady present stands

end Write

end ConceptualGraph
