/-
Module: ConceptualGraph.Proofs.Writing.Chain
Purpose: How the writing of a graph in the linear form ends: a chain refers only to what has been
  written with a label, and its steps are never used up.
Main exports: Model.Pursues, Write.chainLinks_ends, Write.chainTarget_ends,
  Write.completes_linearGraph
-/
import ConceptualGraph.Proofs.Writing.Bracket
import ConceptualGraph.Writing.Chain

namespace ConceptualGraph

/-! ## What a chain writes -/

namespace Model

/-- A chain goes on: every concept that it writes is followed by the relations that begin with
it, and it writes no relations of the graph but those and some others.  What it writes without a
label are some targets, and else arguments of relations that it writes. -/
structure Pursues (model : Model) (graph : GraphId) (relations : List RelationId)
    (targets : List ConceptId) (writer after : Writer) : Prop
    extends model.Advances graph none writer after where
  begun : ∀ relation ∈ after.written, (model.relation relation).graph = some graph →
    relation ∈ writer.written ∨ relation ∈ relations ∨
      ∃ head, (model.relation relation).args.head? = some head ∧ head ∉ writer.order
  unlabelled : ∀ concept, (concept, none) ∈ after.emitted →
    (model.concept concept).graph = some graph → (concept, none) ∈ writer.emitted ∨
      concept ∈ targets ∨ ∃ relation ∈ Plan.links model graph,
        relation ∉ writer.written ∧ concept ∈ (model.relation relation).args

variable {model : Model} {graph : GraphId} {outer : List GraphId} {relations more : List RelationId}
  {targets others : List ConceptId} {writer middle after : Writer} {concept : ConceptId}
  {relation : RelationId}

namespace Pursues

theorem refl (writer : Writer) : model.Pursues graph relations targets writer writer :=
  ⟨.refl writer, fun _ member _ => .inl member, fun _ member _ => .inl member⟩

theorem trans (first : model.Pursues graph relations targets writer middle)
    (second : model.Pursues graph more others middle after) :
    model.Pursues graph (relations ++ more) (targets ++ others) writer after where
  toAdvances := first.toAdvances.trans second.toAdvances
  begun relation member stands := by
    rcases second.begun relation member stands with early | among | ⟨head, begins, fresh⟩
    · exact (first.begun relation early stands).imp id fun new =>
        new.imp (fun among => List.mem_append_left _ among) id
    · exact .inr (.inl (List.mem_append_right _ among))
    · exact .inr (.inr ⟨head, begins, fun before => fresh (first.grows.order.subset before)⟩)
  unlabelled concept member stands := by
    rcases second.unlabelled concept member stands with early | among |
      ⟨relation, link, new, argument⟩
    · exact (first.unlabelled concept early stands).imp id fun new =>
        new.imp (fun among => List.mem_append_left _ among) id
    · exact .inr (.inl (List.mem_append_right _ among))
    · exact .inr (.inr ⟨relation, link, fun before => new (first.grows.written.subset before),
        argument⟩)

theorem mono (pursues : model.Pursues graph relations targets writer after)
    (among : relations ⊆ more) : model.Pursues graph more targets writer after :=
  ⟨pursues.toAdvances, fun relation member stands =>
    (pursues.begun relation member stands).imp id fun new => new.imp (fun here => among here) id,
    pursues.unlabelled⟩

/-- A relation is marked as written, and the chain goes on from it to its arguments. -/
theorem of_begin (link : relation ∈ Plan.links model graph)
    (stands : (model.relation relation).graph = some graph) (unwritten : relation ∉ writer.written)
    (among : targets ⊆ (model.relation relation).args)
    (pursues : model.Pursues graph [] targets (writer.begin relation) after) :
    model.Pursues graph [relation] [] writer after where
  grows := (Grows.begin writer stands).trans pursues.grows
  followed := pursues.followed
  begun other member here := by
    rcases pursues.begun other member here with early | none | fresh
    · exact (List.mem_cons.mp early).elim (fun same => .inr (.inl (by simp [same]))) .inl
    · cases none
    · exact .inr (.inr fresh)
  unlabelled concept member here := by
    rcases pursues.unlabelled concept member here with early | target | ⟨other, also, new, argument⟩
    · exact .inl early
    · exact .inr (.inr ⟨relation, link, unwritten, among target⟩)
    · exact .inr (.inr ⟨other, also, fun before => new (List.mem_cons_of_mem _ before), argument⟩)

/-- A concept is written for the first time, and the relations that begin with it. -/
theorem of_introduces (introduces : model.Introduces graph none [concept] writer middle)
    (fresh : concept ∉ writer.order)
    (pursues : model.Pursues graph ((Plan.ofGraph model graph).primary concept) [] middle after)
    (written : ∀ relation ∈ (Plan.ofGraph model graph).primary concept, relation ∈ after.written) :
    model.Pursues graph [] [concept] writer after where
  grows := introduces.grows.trans pursues.grows
  followed other member new stands apart relation primary := by
    by_cases early : other ∈ middle.order
    · rcases introduces.concepts other early stands with before | same | itself
      · exact absurd before new
      · cases same
      · rw [List.mem_singleton.mp itself] at primary
        exact written relation primary
    · exact pursues.followed other member early stands apart relation primary
  begun relation member stands := by
    rcases pursues.begun relation member stands with early | primary | ⟨head, begins, late⟩
    · exact .inl (introduces.relations relation early stands)
    · exact .inr (.inr ⟨concept, (Plan.mem_primary.mp primary).2.2, fresh⟩)
    · exact .inr (.inr ⟨head, begins, fun before => late (introduces.grows.order.subset before)⟩)
  unlabelled other member stands := by
    rcases pursues.unlabelled other member stands with early | none |
      ⟨relation, link, new, argument⟩
    · exact (introduces.unlabelled other early stands).imp id fun new =>
        .inl (new.1.resolve_left (by simp))
    · cases none
    · exact .inr (.inr ⟨relation, link, fun before => new (introduces.grows.written.subset before),
        argument⟩)

/-- The target of a relation that has been begun leaves the later arguments as they were: each of
them has a label or is still to be written. -/
theorem labelled (pursues : model.Pursues graph relations [concept] writer after)
    (writing : model.Writing (graph :: outer) after) (front : List ConceptId)
    (link : relation ∈ Plan.links model graph) (marked : relation ∈ writer.written)
    (args : (model.relation relation).args = front ++ concept :: others)
    (stand : ∀ other ∈ others, (model.concept other).graph = some graph ∧
      (model.concept other).hidden = false)
    (labelled : ∀ other ∈ others, (other, none) ∉ writer.emitted) :
    ∀ other ∈ others, (other, none) ∉ after.emitted := by
  -- What is written without a label needs none, so the relation is all that refers to it, once.
  intro other later unlabelled
  obtain ⟨stands, visible⟩ := stand other later
  have unneeded := ((writing.unlabelled other unlabelled).needless stands visible).unneeded
  obtain ⟨unique, once, -⟩ := Plan.unique_of_not_needsLabel unneeded link (by simp [args, later])
  rcases pursues.unlabelled other unlabelled stands with early | same | ⟨next, also, new, argument⟩
  · exact labelled other later early
  · obtain rfl := List.mem_singleton.mp same
    have again := List.count_pos_iff.mpr later
    rw [args, List.count_append, List.count_cons_self] at once
    omega
  · rw [unique next also argument] at new
    exact new marked

end Pursues

/-- No more concepts have been written than there are. -/
theorem Writing.length_order_le {graphs : List GraphId} (writing : model.Writing graphs writer) :
    writer.order.length ≤ model.concepts.size := by
  have inside : (writer.order.map ConceptId.index).Nodup :=
    List.Nodup.map (fun _ _ same => congrArg ConceptId.mk same) writing.houses.distinct
  have subset : writer.order.map ConceptId.index ⊆ List.range model.concepts.size := by
    intro place member
    obtain ⟨concept, written, rfl⟩ := List.mem_map.mp member
    obtain ⟨home, stands, -⟩ := writing.houses.housed concept written
    exact List.mem_range.mpr (lt_of_graph stands)
  have fewer := (inside.subperm subset).length_le
  simpa using fewer

end Model

namespace Write

open Phrase (mark ofToken space)

variable {model : Model} {source : Notation} {faults : GenerateError → Prop} {inner : Inner}
  {graph : GraphId} {outer : List GraphId} {before writer after : Writer}
  {head concept : ConceptId} {relation : RelationId} {target : ToTarget} {place : Place}
  {steps : Nat}

/-! ## Chains -/

/-- Whether there are steps for all concepts that have not been written. -/
def Ample (model : Model) (steps : Nat) (writer : Writer) : Prop :=
  model.concepts.size < steps + writer.order.length

theorem Ample.mono (ample : Ample model steps writer) (grows : model.Grows graph writer after) :
    Ample model steps after :=
  Nat.lt_of_lt_of_le ample (Nat.add_le_add_left grows.order.length_le _)

/-- The step that writes a concept is made up for. -/
theorem Ample.step (ample : Ample model (steps + 1) writer) (grows : model.Grows graph writer after)
    (fresh : concept ∉ writer.order) (member : concept ∈ after.order) :
    Ample model steps after := by
  have longer : writer.order.length < after.order.length := by
    refine Nat.lt_of_le_of_ne grows.order.length_le fun same => fresh ?_
    rwa [grows.order.eq_of_length same]
  unfold Ample at ample ⊢
  omega

/-- Whether a target of a relation that is marked as written can be written with the chain that
goes on from it, as long as there are steps. -/
def PursuesTargets (faults : GenerateError → Prop) (model : Model) (graph : GraphId)
    (outer : List GraphId) (steps : Nat) (target : ToTarget) : Prop :=
  ∀ place concept relation writer, model.Steady graph outer writer → Ample model steps writer →
    relation ∈ Plan.links model graph → relation ∈ writer.written →
    concept ∈ (model.relation relation).args → (concept, none) ∉ writer.emitted →
      Ends faults (target place concept) writer fun _ after =>
        model.Steady graph outer after ∧ model.Pursues graph [] [concept] writer after

/-- A relation without its arguments writes no node. -/
theorem relationNode_ends (writable : model.Writable source faults)
    (stands : (model.relation relation).graph = some graph) :
    Ends faults (relationNode model inner relation) writer fun _ after => after = writer := by
  obtain ⟨label, named⟩ := exists_relationType writable stands inner
  unfold relationNode
  rw [named]
  exact rfl

/-- The last arguments of a relation are written with their numbers, none of which is known
without a label. -/
theorem numberedArgs_ends (writable : model.Writable source faults)
    (targets : PursuesTargets faults model graph outer steps target) (front : List ConceptId)
    {rest : List ConceptId} {number : Nat} (steady : model.Steady graph outer writer)
    (ample : Ample model steps writer) (link : relation ∈ Plan.links model graph)
    (marked : relation ∈ writer.written) (args : (model.relation relation).args = front ++ rest)
    (labelled : ∀ concept ∈ rest, (concept, none) ∉ writer.emitted) :
    Ends faults (numberedArgs target place number rest) writer fun _ after =>
      model.Steady graph outer after ∧ model.Pursues graph [] rest writer after := by
  induction rest generalizing writer front number with
  | nil => exact ⟨steady, .refl _⟩
  | cons concept others ih =>
      unfold numberedArgs
      refine (targets place concept relation writer steady ample link marked (by simp [args])
        (labelled concept (List.mem_cons_self ..))).bind fun phrase middle facts => ?_
      obtain ⟨still, pursues⟩ := facts
      have remain := pursues.labelled still.writing front link marked args
        (fun other later => by
          obtain ⟨here, plain⟩ := args_of_mem_links writable link other (by simp [args, later])
          exact ⟨here, plain.1⟩)
        fun other later => labelled other (List.mem_cons_of_mem _ later)
      refine (ih (front ++ [concept]) still (ample.mono pursues.grows)
        (pursues.grows.written.subset marked) (by simp [args]) remain).bind
          fun lines after facts => ?_
      obtain ⟨ended, more⟩ := facts
      exact ⟨ended, pursues.trans more⟩

/-- What follows a relation is written, none of which is known without a label. -/
theorem laterArgs_ends (writable : model.Writable source faults)
    (targets : PursuesTargets faults model graph outer steps target)
    (steady : model.Steady graph outer writer) (ample : Ample model steps writer)
    (link : relation ∈ Plan.links model graph) (marked : relation ∈ writer.written)
    (labelled : ∀ concept ∈ (model.relation relation).args.tail, (concept, none) ∉ writer.emitted) :
    Ends faults (laterArgs target place (model.relation relation).args) writer fun _ after =>
      model.Steady graph outer after ∧
        model.Pursues graph [] (model.relation relation).args.tail writer after := by
  generalize same : (model.relation relation).args = args at labelled ⊢
  rcases args with _ | ⟨first, _ | ⟨concept, _ | ⟨third, others⟩⟩⟩
  case nil => exact ⟨steady, .refl _⟩
  case cons.nil => exact ⟨steady, .refl _⟩
  case cons.cons.nil =>
      unfold laterArgs
      refine (targets place concept relation writer steady ample link marked (by simp [same])
        (labelled concept (List.mem_cons_self ..))).bind fun phrase after facts => ?_
      exact facts
  case cons.cons.cons =>
      unfold laterArgs
      refine (numberedArgs_ends writable targets [first] steady ample link marked same
        labelled).bind fun lines after facts => ?_
      exact facts

/-- A relation is written with what follows it. -/
theorem relationWithArgs_ends (writable : model.Writable source faults)
    (targets : PursuesTargets faults model graph outer steps target)
    (link : relation ∈ Plan.links model graph) (unwritten : relation ∉ writer.written)
    (steady : model.Steady graph outer (writer.begin relation)) (ample : Ample model steps writer)
    (labelled : ∀ concept ∈ (model.relation relation).args.tail, (concept, none) ∉ writer.emitted) :
    Ends faults (relationWithArgs model inner target place relation) writer fun _ after =>
      model.Steady graph outer after ∧ model.Pursues graph [relation] [] writer after ∧
        relation ∈ after.written := by
  obtain ⟨stands, -⟩ := (Plan.mem_links writable.sound.listed).mp link
  have marked : relation ∈ (writer.begin relation).written := List.mem_cons_self ..
  unfold relationWithArgs
  simp only [markWritten, ends_bind, ends_modify]
  refine (relationNode_ends writable stands).mono fun node middle same => ?_
  subst same
  refine (laterArgs_ends writable targets steady ample link marked labelled).mono
    fun phrase after facts => ?_
  obtain ⟨ended, pursues⟩ := facts
  exact ⟨ended, .of_begin link stands unwritten (List.tail_subset _) pursues,
    pursues.grows.written.subset marked⟩

/-- The branches of a fan are written, none of which begins with a concept without a label. -/
theorem concat_branch_ends (writable : model.Writable source faults)
    (targets : PursuesTargets faults model graph outer steps target) (place : Place)
    {relations : List RelationId} (distinct : relations.Nodup)
    (among : ∀ relation ∈ relations, relation ∈ (Plan.ofGraph model graph).primary head)
    (unwritten : ∀ relation ∈ relations, relation ∉ writer.written)
    (member : head ∈ writer.order) (steady : model.Steady graph outer writer)
    (ample : Ample model steps writer) :
    Ends faults (concat (branch model inner target place.branch) relations) writer fun _ after =>
      model.Steady graph outer after ∧ model.Pursues graph relations [] writer after ∧
        ∀ relation ∈ relations, relation ∈ after.written := by
  induction relations generalizing writer with
  | nil => exact ⟨steady, .refl _, by simp⟩
  | cons relation others ih =>
      have primary := among relation (List.mem_cons_self ..)
      have fresh := unwritten relation (List.mem_cons_self ..)
      obtain ⟨link, -, begins⟩ := Plan.mem_primary.mp primary
      obtain ⟨stands, positive⟩ := (Plan.mem_links writable.sound.listed).mp link
      have marked := steady.begin fresh stands positive
      have labelled : ∀ concept ∈ (model.relation relation).args.tail,
          (concept, none) ∉ writer.emitted := fun concept later =>
        steady.labelled link fresh
          (args_of_mem_links writable link concept (List.mem_of_mem_tail later)).1
          (List.mem_of_mem_tail later)
      unfold concat branch
      simp only [bind_assoc, pure_bind]
      refine (relationWithArgs_ends writable targets link fresh marked ample labelled).bind
        fun phrase middle facts => ?_
      obtain ⟨still, first, written⟩ := facts
      -- What the branch writes begins with concepts that it writes, and so is none of the others.
      have remain : ∀ other ∈ others, other ∉ middle.written := by
        intro other later early
        obtain ⟨also, -, starts⟩ := Plan.mem_primary.mp (among other (List.mem_cons_of_mem _ later))
        rcases first.begun other early ((Plan.mem_links writable.sound.listed).mp also).1 with
          before | same | ⟨head', begins', new⟩
        · exact unwritten other (List.mem_cons_of_mem _ later) before
        · rw [List.mem_singleton.mp same] at later
          exact (List.nodup_cons.mp distinct).1 later
        · rw [starts] at begins'
          exact new (Option.some.inj begins' ▸ member)
      refine (ih (List.nodup_cons.mp distinct).2
        (fun other later => among other (List.mem_cons_of_mem _ later)) remain
          (first.grows.order.subset member) still (ample.mono first.grows)).bind
            fun rest after facts => ?_
      obtain ⟨ended, more, done⟩ := facts
      exact ⟨ended, first.trans more, List.forall_mem_cons.mpr
        ⟨more.grows.written.subset written, done⟩⟩

/-- The relations are written that begin with a concept just written. -/
theorem chainLinks_ends (writable : model.Writable source faults)
    (targets : PursuesTargets faults model graph outer steps target) (place : Place)
    (steady : model.Steady graph outer before) (writing : model.Writing (graph :: outer) writer)
    (introduces : model.Introduces graph none [head] before writer) (member : head ∈ writer.order)
    (others : model.Needless graph head →
      ∀ relation ∈ Plan.links model graph, head ∈ (model.relation relation).args →
        (model.relation relation).args.head? ≠ some head → relation ∈ before.written)
    (ample : Ample model steps writer) :
    Ends faults (chainLinks model inner (Plan.ofGraph model graph) target place head) writer
      fun _ after => model.Steady graph outer after ∧
        model.Pursues graph ((Plan.ofGraph model graph).primary head) [] writer after ∧
          ∀ relation ∈ (Plan.ofGraph model graph).primary head, relation ∈ after.written := by
  have listed := writable.sound.listed
  -- The head may have been written just now without a label, because one relation will follow it.
  have settled : ∀ concept, (concept, none) ∈ writer.emitted →
      (model.concept concept).graph = some graph → ∀ relation ∈ Plan.links model graph,
      concept ∈ (model.relation relation).args → relation ∈ writer.written ∨
        (Plan.ofGraph model graph).primary head = [relation] := by
    intro concept unlabelled stands relation link argument
    rcases introduces.unlabelled concept unlabelled stands with early | ⟨new, unneeded⟩
    · exact .inl (introduces.grows.written.subset
        (steady.settled concept early stands relation link argument))
    obtain rfl := List.mem_singleton.mp (new.resolve_left (by simp))
    by_cases begins : (model.relation relation).args.head? = some concept
    · obtain ⟨unique, -, passive⟩ :=
        Plan.unique_of_not_needsLabel unneeded.unneeded link argument
      exact .inr (primary_eq_singleton listed (Plan.mem_primary.mpr ⟨link, passive, begins⟩) unique)
    · exact .inl (introduces.grows.written.subset (others unneeded relation link argument begins))
  have all : ∀ {after : Writer}, model.Grows graph writer after →
      (∀ relation ∈ ((Plan.ofGraph model graph).primary head).filter
        (fun relation => !writer.written.contains relation), relation ∈ after.written) →
      ∀ relation ∈ (Plan.ofGraph model graph).primary head, relation ∈ after.written := by
    intro after grows done relation primary
    by_cases early : relation ∈ writer.written
    · exact grows.written.subset early
    · exact done relation (List.mem_filter.mpr ⟨primary, by simpa using early⟩)
  have among : ∀ relation ∈ ((Plan.ofGraph model graph).primary head).filter
      (fun relation => !writer.written.contains relation),
      relation ∈ (Plan.ofGraph model graph).primary head ∧ relation ∉ writer.written :=
    fun relation member => by simpa using member
  have fewer := List.filter_sublist (l := (Plan.ofGraph model graph).primary head)
    (p := fun relation => !writer.written.contains relation)
  unfold chainLinks
  simp only [unwritten, ends_bind, ends_get, ends_pure]
  generalize same : ((Plan.ofGraph model graph).primary head).filter
    (fun relation => !writer.written.contains relation) = relations at all among fewer ⊢
  -- No relation ends the chain, a single one continues it, and several make a fan.
  rcases relations with _ | ⟨only, _ | ⟨second, more⟩⟩
  case nil =>
      refine ⟨⟨writing, fun concept unlabelled stands relation link argument => ?_⟩, .refl _,
        all (.refl _ _) (by simp)⟩
      rcases settled concept unlabelled stands relation link argument with written | alone
      · exact written
      · exact all (.refl _ _) (by simp) relation (by simp [alone])
  case cons.nil =>
      obtain ⟨primary, unwritten⟩ := among only (by simp)
      obtain ⟨also, -, begins⟩ := Plan.mem_primary.mp primary
      obtain ⟨stands, positive⟩ := (Plan.mem_links listed).mp also
      have arguments := args_of_mem_links writable also
      obtain ⟨tail, args⟩ := List.head?_eq_some_iff.mp begins
      have marked : model.Steady graph outer (writer.begin only) := by
        refine ⟨writing.begin unwritten stands positive,
          fun concept unlabelled here relation also argument => ?_⟩
        rcases settled concept unlabelled here relation also argument with written | alone
        · exact List.mem_cons_of_mem _ written
        · rw [alone] at primary
          rw [List.mem_singleton.mp primary]
          exact List.mem_cons_self ..
      have labelled := introduces.labelled [] also args
        (fun other new => List.mem_singleton.mp (new.resolve_left (by simp)))
        (fun other later => (arguments other (by simp [args, later])).1)
        fun other later => steady.labelled also
          (fun early => unwritten (introduces.grows.written.subset early))
          (arguments other (by simp [args, later])).1 (by simp [args, later])
      unfold link
      refine (relationWithArgs_ends writable targets also unwritten marked ample (by
        rw [args]
        exact labelled)).bind fun phrase after facts => ?_
      obtain ⟨ended, pursues, written⟩ := facts
      exact ⟨ended, pursues.mono (by simpa using primary),
        all pursues.grows (by simpa using written)⟩
  case cons.cons =>
      have steady : model.Steady graph outer writer := by
        refine ⟨writing, fun concept unlabelled here relation also argument => ?_⟩
        rcases settled concept unlabelled here relation also argument with written | alone
        · exact written
        · have few := fewer.length_le
          simp [alone] at few
      have distinct : ((Plan.ofGraph model graph).primary head).Nodup :=
        (Plan.nodup_links listed).filter _
      rw [ends_bind]
      refine (concat_branch_ends writable targets place (fewer.nodup distinct)
        (fun relation member => (among relation member).1)
        (fun relation member => (among relation member).2) member steady ample).mono
          fun branches after facts => ?_
      obtain ⟨ended, pursues, written⟩ := facts
      exact ⟨ended, pursues.mono fun relation member => (among relation member).1,
        all pursues.grows written⟩

/-- The target of a link is written with the chain that goes on from it. -/
theorem chainTarget_ends (writable : model.Writable source faults)
    (completes : model.Completes faults inner (graph :: outer)) (steps : Nat) :
    PursuesTargets faults model graph outer steps
      (chainTarget model inner (Plan.ofGraph model graph) steps) := by
  induction steps with
  | zero =>
      intro place concept relation writer steady ample
      have most := steady.writing.length_order_le
      simp only [Ample, Nat.zero_add] at ample
      exact absurd most (Nat.not_le.mpr ample)
  | succ steps ih =>
      intro place concept relation writer steady ample link marked argument labelled
      obtain ⟨stands, visible, -⟩ := args_of_mem_links writable link concept argument
      unfold chainTarget
      refine isEmitted_ends.bind fun emitted later facts => ?_
      obtain ⟨rfl, known⟩ := facts
      refine ends_ite.mpr ⟨fun emitted => ?_, fun unknown => ?_⟩
      · refine (reference_known (known.mp emitted) labelled).mono fun phrase after same => ?_
        subst same
        exact ⟨steady, .refl _⟩
      · have fresh : concept ∉ later.order := fun before => unknown (known.mpr before)
        refine (firstEmission_ends writable completes steady.writing fresh stands visible).bind
          fun phrase middle facts => ?_
        obtain ⟨writing, member, introduces⟩ := facts
        refine (chainLinks_ends writable ih place steady writing introduces member
          (fun needless other also there _ => ?_)
          (ample.step introduces.grows fresh member)).bind fun links after facts => ?_
        · rw [(Plan.unique_of_not_needsLabel needless.unneeded link argument).1 other also there]
          exact marked
        · obtain ⟨ended, pursues, written⟩ := facts
          exact ⟨ended, .of_introduces introduces fresh pursues written⟩

/-! ## Statements -/

/-- A concept is written with the chain that begins with it. -/
theorem conceptStatement_ends (writable : model.Writable source faults)
    (completes : model.Completes faults inner (graph :: outer))
    (steady : model.Steady graph outer writer) (saturated : Saturated model graph writer)
    (turn : InTurn model graph concept writer)
    (stands : (model.concept concept).graph = some graph)
    (visible : (model.concept concept).hidden = false) :
    Ends faults
      (conceptStatement model inner (Plan.ofGraph model graph) concept) writer fun _ after =>
      model.Steady graph outer after ∧ model.Advances graph none writer after ∧
        concept ∈ after.order := by
  unfold conceptStatement
  refine isEmitted_ends.bind fun emitted later facts => ?_
  obtain ⟨rfl, known⟩ := facts
  refine ends_ite.mpr ⟨fun emitted => ⟨steady, .refl _, known.mp emitted⟩, fun unknown => ?_⟩
  have fresh : concept ∉ later.order := fun before => unknown (known.mpr before)
  refine (firstEmission_ends writable completes steady.writing fresh stands visible).bind
    fun phrase middle facts => ?_
  obtain ⟨writing, member, introduces⟩ := facts
  have ample : Ample model (model.concepts.size + 1) middle :=
    Nat.lt_of_lt_of_le (Nat.lt_succ_self _) (Nat.le_add_right _ _)
  refine (chainLinks_ends writable (chainTarget_ends writable completes _) {} steady writing
    introduces member (fun needless relation link argument apart =>
      turn.written writable saturated needless link argument apart) ample).bind
        fun links after facts => ?_
  obtain ⟨ended, pursues, written⟩ := facts
  exact ⟨ended, (Model.Pursues.of_introduces introduces fresh pursues written).toAdvances,
    pursues.grows.order.subset member⟩

/-- A relation or actor is written that begins with no concept. -/
theorem remainingStatement_ends (writable : model.Writable source faults)
    (completes : model.Completes faults inner (graph :: outer))
    (steady : model.Steady graph outer writer) (present : Introduced model graph writer)
    (linked : Linked model graph writer) (stands : (model.relation relation).graph = some graph) :
    Ends faults (remainingStatement model inner (Plan.ofGraph model graph) relation) writer
      fun _ after => model.Steady graph outer after ∧ model.Grows graph writer after ∧
        relation ∈ after.written := by
  unfold remainingStatement
  rw [ends_bind, ends_get]
  refine ends_ite.mpr ⟨fun known => ⟨steady, .refl _ _, by simpa using known⟩,
    fun unknown => ?_⟩
  have unwritten : relation ∉ writer.written := by simpa using unknown
  refine ends_ite.mpr ⟨fun negative => ?_, fun other => ?_⟩
  · exact ends_bind.mpr (negation_ends writable completes steady stands negative unwritten)
  have positive : model.isNegation relation = false := Bool.eq_false_iff.mpr other
  have link : relation ∈ Plan.links model graph :=
    (Plan.mem_links writable.sound.listed).mpr ⟨stands, positive⟩
  refine ends_ite.mpr ⟨fun _ => ?_, fun passive => ?_⟩
  · exact ends_bind.mpr (actor_ends writable steady present link unwritten)
  · unfold relationFrom
    split
    · next none =>
      simp only [markWritten, ends_bind, ends_modify]
      refine (relationNode_ends writable stands).mono fun node after same => ?_
      subst same
      exact ⟨steady.begin unwritten stands positive, .begin writer stands, List.mem_cons_self ..⟩
    · next head others args =>
      have primary : relation ∈ (Plan.ofGraph model graph).primary head := Plan.mem_primary.mpr
        ⟨link, Plan.isActor_eq_false.mp (Bool.eq_false_iff.mpr passive), by simp [args]⟩
      exact absurd (linked head relation primary) unwritten

/-- A graph is written to its end where the graphs nested in it are. -/
theorem completes_linearGraph (writable : model.Writable source faults)
    (completes : ∀ graph, model.Completes faults inner (graph :: outer)) :
    model.Completes faults (linearGraph model inner) outer := fun graph _ writing untouched =>
  graph_ends writable writing untouched
    (fun _ _ steady saturated turn stands visible =>
      conceptStatement_ends writable (completes graph) steady saturated turn stands visible)
    fun _ _ steady present linked stands =>
      remainingStatement_ends writable (completes graph) steady present linked stands

end Write

end ConceptualGraph
