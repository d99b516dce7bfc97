/-
Module: ConceptualGraph.Proofs.Stable.Chain
Purpose: A copy whose nodes are listed in the order of writing is written in the linear form as
  the graph that it copies.
Main exports: Write.repeats_chainLinks, Write.repeats_chainTarget, Write.repeats_conceptStatement,
  Write.repeats_linearGraph
-/
import ConceptualGraph.Proofs.Copy.Bracket
import ConceptualGraph.Proofs.Stable.Node
import ConceptualGraph.Writing.Chain

namespace ConceptualGraph.Write

open Phrase (mark ofToken space)

open scoped List

variable {rerun : Rerun} {deep : Depth} {model copy : Model} {inner again : Inner}
  {plan planAgain : Plan} {writer : Writer} {concept : ConceptId} {relation : RelationId}
  {target targetAgain : ToTarget} {place : Place}

/-! ## Orders of writing -/

/-- Two parts of a list without repetitions that have the same elements are the same. -/
theorem eq_of_perm_of_sublist {α : Type} {whole first second : List α} (distinct : whole.Nodup)
    (one : first <+ whole) (two : second <+ whole) (perm : first.Perm second) : first = second := by
  induction whole generalizing first second with
  | nil => rw [List.sublist_nil.mp one, List.sublist_nil.mp two]
  | cons element whole ih =>
      obtain ⟨apart, distinct⟩ := List.nodup_cons.mp distinct
      rcases List.sublist_cons_iff.mp one with left | ⟨_, rfl, left⟩ <;>
        rcases List.sublist_cons_iff.mp two with right | ⟨_, rfl, right⟩
      · exact ih distinct left right perm
      · exact absurd (left.subset (perm.mem_iff.mpr (List.mem_cons_self ..))) apart
      · exact absurd (right.subset (perm.mem_iff.mp (List.mem_cons_self ..))) apart
      · rw [ih distinct left right perm.cons_inv]

/-- Relations that are marked as written one after the other are remembered in that order. -/
theorem sublist_of_marks {β : Type} {step : RelationId → Write (List β)}
    {relations : List RelationId}
    (each : ∀ relation ∈ relations, ∀ writer, Ensures (step relation) writer fun _ after =>
      relation :: writer.written <:+ after.written) {seen : List RelationId}
    (before : seen <+ writer.written.reverse) :
    Ensures (concat step relations) writer fun _ after =>
      seen ++ relations <+ after.written.reverse := by
  induction relations generalizing seen writer with
  | nil => exact (List.append_nil seen).symm ▸ before
  | cons relation others ih =>
      obtain ⟨first, rest⟩ := List.forall_mem_cons.mp each
      refine (first writer).bind fun _ middle marks => ?_
      have onward : seen ++ [relation] <+ middle.written.reverse := by
        have later := (List.reverse_prefix.mpr marks).sublist
        rw [List.reverse_cons] at later
        exact (before.append_right _).trans later
      refine (ih rest onward).bind fun _ after ended => ?_
      rw [List.append_assoc] at ended
      exact ended

/-- How a chain goes on from a concept just written, given the relations that begin with it. -/
def onward (model : Model) (inner : Inner) (target : ToTarget) (place : Place) :
    List RelationId → Write Phrase
  | [] => return []
  | [only] => link model inner target place only
  | relations => do
      let branches ← concat (branch model inner target place.branch) relations
      return mark .hyphen ++ branches ++ place.closing

theorem chainLinks_eq (head : ConceptId) : chainLinks model inner plan target place head =
    (do onward model inner target place (← unwritten (plan.primary head))) := rfl

/-- Whether targets of a copy are written as the targets that they copy. -/
def RepeatsTarget (rerun : Rerun) (deep : Depth) (target targetAgain : ToTarget) : Prop :=
  ∀ place, ∀ concept ∈ rerun.final.order, ∀ writer, rerun.Repeats deep (target place concept)
    (targetAgain place (rerun.handles.concept concept)) id writer

/-- A target is repeated as well after one more relation has been begun. -/
theorem RepeatsTarget.begin (targets : RepeatsTarget rerun deep target targetAgain) :
    RepeatsTarget rerun deep.begin target targetAgain :=
  fun place concept known writer => (targets place concept known writer).weaken fun _ enough =>
    ⟨enough.concepts, Nat.le_of_succ_le enough.relations⟩

/-! ## Relations -/

/-- Arguments with numbers are written again as they were. -/
theorem repeats_numberedArgs (targets : RepeatsTarget rerun deep target targetAgain) (place : Place)
    (number : Nat) {args : List ConceptId}
    (known : ∀ concept ∈ args, concept ∈ rerun.final.order) :
    rerun.Repeats deep (numberedArgs target place number args)
      (numberedArgs targetAgain place number (args.map rerun.handles.concept)) id writer := by
  induction args generalizing number writer with
  | nil => exact .pure rfl
  | cons concept others ih =>
      obtain ⟨here, there⟩ := List.forall_mem_cons.mp known
      exact (targets place concept here writer).followed fun phrase _ _ =>
        (ih (number + 1) there).followed fun lines _ _ => .pure rfl

/-- The arguments after the first two are written again as they were. -/
theorem repeats_laterArgs (targets : RepeatsTarget rerun deep target targetAgain) (place : Place)
    {args : List ConceptId} (known : ∀ concept ∈ args, concept ∈ rerun.final.order) :
    rerun.Repeats deep (laterArgs target place args)
      (laterArgs targetAgain place (args.map rerun.handles.concept)) id writer := by
  match args with
  | [] | [_] => exact .pure rfl
  | [_, concept] =>
      have here := known concept (by simp)
      exact (targets place concept here writer).followed fun _ _ _ => .pure rfl
  | _ :: second :: third :: others =>
      have there := (List.forall_mem_cons.mp known).2
      exact (repeats_numberedArgs targets place.branch 1 there).followed fun _ _ _ => .pure rfl

section

variable (relists : rerun.Relists model copy)

include relists

theorem repeats_relationNode (known : relation ∈ rerun.final.written) :
    rerun.Repeats deep (relationNode model inner relation)
      (relationNode copy again (rerun.handles.relation relation)) id writer := by
  unfold relationNode
  rw [(relists.relation relation known).comment]
  exact (repeats_relationType relists known).followed fun _ _ _ => .pure rfl

variable (again) in
/-- A relation is marked as written before anything else, and written with what follows it. -/
theorem repeats_relationWithArgs (targets : RepeatsTarget rerun deep target targetAgain)
    (place : Place) (known : relation ∈ rerun.final.written) :
    rerun.Repeats deep (relationWithArgs model inner target place relation)
        (relationWithArgs copy again targetAgain place (rerun.handles.relation relation))
          id writer ∧
      Ensures (relationWithArgs model inner target place relation) writer fun _ after =>
        relation :: writer.written <:+ after.written := by
  unfold relationWithArgs
  refine Rerun.Repeats.marked ?_
  rw [(relists.relation relation known).args]
  exact (repeats_relationNode relists known).followed fun _ _ _ =>
    (repeats_laterArgs targets.begin place (relists.args relation known)).followed
      fun _ _ _ => .pure rfl

variable (again) in
theorem repeats_link (targets : RepeatsTarget rerun deep target targetAgain) (place : Place)
    (known : relation ∈ rerun.final.written) :
    rerun.Repeats deep (link model inner target place relation)
        (link copy again targetAgain place (rerun.handles.relation relation)) id writer ∧
      Ensures (link model inner target place relation) writer fun _ after =>
        relation :: writer.written <:+ after.written := by
  obtain ⟨repeats, marks⟩ := repeats_relationWithArgs again relists targets place known
  exact ⟨repeats.followed fun _ _ _ => .pure rfl, marks.bind fun _ _ marked => marked⟩

variable (again) in
theorem repeats_branch (targets : RepeatsTarget rerun deep target targetAgain) (place : Place)
    (known : relation ∈ rerun.final.written) :
    rerun.Repeats deep (branch model inner target place relation)
        (branch copy again targetAgain place (rerun.handles.relation relation)) id writer ∧
      Ensures (branch model inner target place relation) writer fun _ after =>
        relation :: writer.written <:+ after.written := by
  obtain ⟨repeats, marks⟩ := repeats_relationWithArgs again relists targets place known
  exact ⟨repeats.followed fun _ _ _ => .pure rfl, marks.bind fun _ _ marked => marked⟩

/-! ## Chains -/

variable (again) in
/-- What goes on from a concept goes on from its copy, where the relations are in the same order,
and they are marked as written in that order. -/
theorem repeats_onward (targets : RepeatsTarget rerun deep target targetAgain) (place : Place)
    {links : List RelationId} (known : ∀ relation ∈ links, relation ∈ rerun.final.written) :
    rerun.Repeats deep (onward model inner target place links)
        (onward copy again targetAgain place (links.map rerun.handles.relation)) id writer ∧
      Ensures (onward model inner target place links) writer fun _ after =>
        links <+ after.written.reverse := by
  match links with
  | [] => exact ⟨.pure rfl, List.nil_sublist _⟩
  | [only] =>
      obtain ⟨repeats, marks⟩ := repeats_link again relists targets place (known only (by simp))
      refine ⟨repeats, marks.mono fun _ _ marked => List.singleton_sublist.mpr ?_⟩
      exact List.mem_reverse.mpr (marked.subset (List.mem_cons_self ..))
  | first :: second :: others =>
      refine ⟨Rerun.Repeats.followed (.all fun relation member _ _ =>
        (repeats_branch again relists targets place.branch (known relation member)).1)
          fun _ _ _ => .pure rfl, ?_⟩
      refine (sublist_of_marks (fun relation member writer =>
        (repeats_branch again relists targets place.branch (known relation member)).2)
          (List.nil_sublist writer.written.reverse)).bind fun _ _ listed => listed

section

variable (replans : rerun.Replans model plan planAgain)

include replans

variable (again) in
/-- What goes on from a concept goes on from its copy: the branches of a fan are written in the
order in which they have been. -/
theorem repeats_chainLinks (targets : RepeatsTarget rerun deep target targetAgain) (place : Place)
    (head : ConceptId) :
    rerun.Repeats deep (chainLinks model inner plan target place head)
      (chainLinks copy again planAgain targetAgain place (rerun.handles.concept head)) id
        writer := by
  obtain ⟨ordered, same, perm, sorted⟩ := replans.primary head
  have left := perm.filter fun relation => !writer.written.contains relation
  have kept : ordered.filter (fun relation => !writer.written.contains relation) <+
      rerun.final.written.reverse := List.filter_sublist.trans sorted
  rw [chainLinks_eq, chainLinks_eq]
  refine .unwritten ?_
  rw [same, filter_contains_rename relists.injective]
  obtain ⟨repeats, marks⟩ := repeats_onward again relists targets place
    (fun relation member => replans.mem_written (List.mem_of_mem_filter member) :
      ∀ relation ∈ (plan.primary head).filter fun relation => !writer.written.contains relation,
        relation ∈ rerun.final.written)
  refine repeats.congr marks fun _ after listed last => ?_
  have among := listed.trans (List.reverse_prefix.mpr last.written).sublist
  rw [eq_of_perm_of_sublist (List.nodup_reverse.mpr relists.relationOnce) kept among left]

variable (nested : rerun.Nested deep.emit model inner again)

include nested

/-- A chain is written from the copy of a concept as it has been from the concept, where the steps
are enough for all concepts on either side. -/
theorem repeats_chainTarget {steps stepsAgain : Nat}
    (enough : rerun.final.emitted.length < steps + deep.concepts)
    (enoughAgain : rerun.final.emitted.length < stepsAgain + deep.concepts) :
    RepeatsTarget rerun deep (chainTarget model inner plan steps)
      (chainTarget copy again planAgain stepsAgain) := by
  induction steps generalizing stepsAgain deep with
  | zero =>
      intro _ concept _ writer
      exact (repeats_reference relists concept).exhausted (.inl (by omega))
  | succ steps ih =>
      have step : ∀ stepsAgain, rerun.final.emitted.length < stepsAgain + deep.emit.concepts →
          RepeatsTarget rerun deep (chainTarget model inner plan (steps + 1))
            (chainTarget copy again planAgain (stepsAgain + 1)) := by
        intro stepsAgain enoughAgain place concept known writer
        have targets := ih nested.emit (by simp only [Depth.emit]; omega) enoughAgain
        unfold chainTarget
        refine (repeats_isEmitted relists.injective concept).followed fun emitted start _ => ?_
        refine .ite .rfl (fun _ => repeats_reference relists concept) fun _ => ?_
        have first : rerun.Repeats deep _ _ id start :=
          repeats_firstEmission relists replans nested known
        refine first.bind_deeper (first.before.and (opens_firstEmission relists nested plan known))
          (fun _ middle facts reached => ?_) fun phrase _ _ _ =>
            (repeats_chainLinks again relists replans targets place concept).followed
              fun links _ _ => .pure rfl
        have longer := facts.2.length_le
        simp only [List.length_cons, Writer.order, List.length_map] at longer
        exact ⟨Nat.le_trans (Nat.succ_le_succ reached.concepts) longer,
          Nat.le_trans reached.relations facts.1.written.length_le⟩
      cases stepsAgain with
      | zero =>
          intro place concept known writer
          exact (step steps (by simp only [Depth.emit]; omega) place concept known writer).exhausted
            (.inl (by omega))
      | succ stepsAgain => exact step stepsAgain (by simp only [Depth.emit]; omega)

theorem repeats_anyTarget : RepeatsTarget rerun deep (anyTarget model inner plan)
    (anyTarget copy again planAgain) := by
  obtain ⟨old, new⟩ := relists.conceptCount
  simp only [Writer.order, List.length_map] at old new
  unfold anyTarget
  exact repeats_chainTarget relists replans nested (by omega) (by omega)

/-! ## Statements -/

theorem repeats_conceptStatement (known : concept ∈ rerun.final.order) :
    rerun.Repeats deep (conceptStatement model inner plan concept)
      (conceptStatement copy again planAgain (rerun.handles.concept concept)) id writer := by
  unfold conceptStatement
  refine (repeats_isEmitted relists.injective concept).followed fun emitted _ _ => ?_
  refine .ite .rfl (fun _ => .pure rfl) fun _ => ?_
  exact (repeats_firstEmission relists replans nested known).followed fun head _ _ =>
    (repeats_chainLinks again relists replans (repeats_anyTarget relists replans nested) {}
      concept).followed fun links _ _ => .pure rfl

/-- Nothing is written before a concept that has not been written. -/
theorem opens_conceptStatement (known : concept ∈ rerun.final.order)
    (fresh : concept ∉ writer.order) :
    Ensures (conceptStatement model inner plan concept) writer fun _ after =>
      concept :: writer.order <:+ after.order := by
  unfold conceptStatement
  refine isEmitted_achieves.ensures.bind fun emitted same answer => ?_
  obtain ⟨rfl, answer⟩ := answer
  refine ensures_ite.mpr ⟨fun present => absurd (answer.mp present) fresh, fun _ => ?_⟩
  refine (opens_firstEmission relists nested plan known).bind fun head middle opened => ?_
  refine (repeats_chainLinks again relists replans (repeats_anyTarget relists replans nested) {}
    concept).before.bind fun links after before => ?_
  exact opened.trans before.order

/-- A chain that begins with a relation is written again as it was. -/
theorem repeats_relationFrom (known : relation ∈ rerun.final.written) :
    rerun.Repeats deep (relationFrom model inner plan relation)
      (relationFrom copy again planAgain (rerun.handles.relation relation)) id writer := by
  have among := relists.args relation known
  unfold relationFrom
  rw [(relists.relation relation known).args]
  match args : (model.relation relation).args with
  | [] =>
      have rest : rerun.Repeats deep.begin (relationNode model inner relation)
          (relationNode copy again (rerun.handles.relation relation)) id (writer.begin relation) :=
        repeats_relationNode relists known
      exact rest.marked.1
  | head :: _ =>
      have here := among head (by simp [args])
      have targets := repeats_anyTarget relists replans nested
      refine (repeats_isEmitted relists.injective head).followed fun emitted _ _ => ?_
      refine .ite .rfl (fun _ => ?_) fun _ => ?_
      · exact (repeats_reference relists head).followed fun first _ _ =>
          (repeats_link again relists targets {} known).1.followed fun _ _ _ => .pure rfl
      · exact (repeats_firstEmission relists replans nested here).followed fun first _ _ =>
          (repeats_link again relists targets {} known).1.followed fun _ _ _ => .pure rfl

/-- Where the first argument of a relation has been written, nothing is marked as written before
the relation. -/
theorem marks_relationFrom (known : relation ∈ rerun.final.written)
    (head : ∀ concept, (model.relation relation).args.head? = some concept →
      concept ∈ writer.order) :
    Ensures (relationFrom model inner plan relation) writer fun _ after =>
      relation :: writer.written <:+ after.written := by
  unfold relationFrom
  match args : (model.relation relation).args with
  | [] =>
      have rest : rerun.Repeats deep.begin (relationNode model inner relation)
          (relationNode copy again (rerun.handles.relation relation)) id (writer.begin relation) :=
        repeats_relationNode relists known
      exact rest.marked.2
  | first :: _ =>
      have written := head first (by rw [args]; rfl)
      refine isEmitted_achieves.ensures.bind fun emitted same facts => ?_
      obtain ⟨rfl, answer⟩ := facts
      refine ensures_ite.mpr ⟨fun _ => ?_, fun unknown => absurd (answer.mpr written) unknown⟩
      refine (quiet_reference first same ⟨rfl, rfl⟩).bind fun phrase middle facts => ?_
      rw [← facts.1.2]
      exact (repeats_link again relists (repeats_anyTarget relists replans nested) {} known).2.bind
        fun _ _ marks => marks

/-- What is left is stated again as it was. -/
theorem repeats_remainingStatement (known : relation ∈ rerun.final.written) :
    rerun.Repeats deep (remainingStatement model inner plan relation)
      (remainingStatement copy again planAgain (rerun.handles.relation relation)) id writer := by
  unfold remainingStatement
  rw [relists.isNegation_eq known, relists.isActor_eq known]
  refine .get (.ite ?_ (fun _ => .pure rfl) fun _ => ?_)
  · rw [Writer.contains_written_rename relists.injective]
  refine .ite .rfl (fun _ => ?_) fun _ => .ite .rfl (fun _ => ?_) fun _ => ?_
  · exact (repeats_negation relists nested known).1.bind fun _ _ _ => .pure rfl
  · exact (repeats_actor deep again relists known).1.bind fun _ _ _ => .pure rfl
  · exact (repeats_relationFrom relists replans nested known).bind fun _ _ _ => .pure rfl

/-- A relation that is left is marked as written before anything else is. -/
theorem marks_remainingStatement (known : relation ∈ rerun.final.written)
    (fresh : relation ∉ writer.written)
    (head : model.isNegation relation = false → ∀ concept,
      (model.relation relation).args.head? = some concept → concept ∈ writer.order) :
    Ensures (remainingStatement model inner plan relation) writer fun _ after =>
      relation :: writer.written <:+ after.written := by
  unfold remainingStatement
  refine ensures_bind.mpr (ensures_ite.mpr ⟨fun present => ?_, fun _ => ensures_ite.mpr
    ⟨fun _ => ?_, fun positive => ensures_ite.mpr ⟨fun _ => ?_, fun _ => ?_⟩⟩⟩)
  · exact absurd (by simpa using present) fresh
  · exact (repeats_negation relists nested known).2.bind fun _ _ marks => marks
  · exact (repeats_actor deep again relists known).2.bind fun _ _ marks => marks
  · exact (marks_relationFrom relists replans nested known (head (by simpa using positive))).bind
      fun _ _ marks => marks

end

/-! ## Passing over -/

omit relists in
/-- A concept that has been written is passed over. -/
theorem conceptStatement_of_emitted (known : concept ∈ writer.order) :
    conceptStatement model inner plan concept writer = .ok [] writer := by
  have emitted := isSome_lookup_emitted.mpr known
  unfold conceptStatement isEmitted
  show (if (writer.emitted.lookup concept).isSome = true then pure [] else _ : Write _) writer = _
  rw [if_pos emitted]
  rfl

omit relists in
/-- A relation or actor that has been written is passed over. -/
theorem remainingStatement_of_written (known : relation ∈ writer.written) :
    remainingStatement model inner plan relation writer = .ok [] writer := by
  have written : writer.written.contains relation = true := by simpa using known
  unfold remainingStatement
  show (if writer.written.contains relation then pure [] else _ : Write _) writer = _
  rw [if_pos written]
  rfl

/-! ## Graphs -/

section

variable (nested : rerun.Nested deep.emit model inner again) {graph : GraphId}
  (begun : model.Begun rerun.final.order graph)

include nested begun

/-- The loop over the concepts of a graph runs again over their copies. -/
theorem loop_conceptStatement :
    rerun.Loop deep Writer.order (fun _ => True) (Plan.ofGraph model graph).order
      (conceptStatement model inner (Plan.ofGraph model graph))
      (fun concept => conceptStatement copy again (Plan.ofGraph copy (rerun.handles.graph graph))
        (rerun.handles.concept concept)) where
  log_before before := before.order
  kept _ _ := trivial
  skip _ _ known := conceptStatement_of_emitted known
  skipAgain _ _ known := conceptStatement_of_emitted (mem_order_rename known)
  each _ member _ _ fresh :=
    have known := relists.mem_order begun member
    ⟨repeats_conceptStatement relists (relists.replans begun) nested known,
      opens_conceptStatement relists (relists.replans begun) nested known fresh⟩

/-- The relations that are left begin with concepts that have been written. -/
theorem loop_remainingStatement (among : ∀ relation ∈ (model.graph graph).relations,
    model.isNegation relation = false → ∀ concept ∈ (model.relation relation).args,
      concept ∈ (Plan.ofGraph model graph).order) :
    rerun.Loop deep Writer.written
      (fun writer => ∀ concept ∈ (Plan.ofGraph model graph).order, concept ∈ writer.order)
      (model.graph graph).relations
      (remainingStatement model inner (Plan.ofGraph model graph))
      (fun relation => remainingStatement copy again (Plan.ofGraph copy (rerun.handles.graph graph))
        (rerun.handles.relation relation)) where
  log_before before := before.written
  kept before shown concept member := before.order.subset (shown concept member)
  skip _ _ known := remainingStatement_of_written known
  skipAgain _ _ known := remainingStatement_of_written (List.mem_map_of_mem known)
  each relation member _ shown fresh :=
    have known := relists.mem_written begun member
    ⟨repeats_remainingStatement relists (relists.replans begun) nested known,
      marks_remainingStatement relists (relists.replans begun) nested known fresh
        fun positive concept head => shown concept (among relation member positive concept
          (List.mem_of_mem_head? head))⟩

/-- A copy of a graph is written in the linear form as the graph. -/
theorem repeats_linearGraph (among : ∀ relation ∈ (model.graph graph).relations,
    model.isNegation relation = false → ∀ concept ∈ (model.relation relation).args,
      concept ∈ (Plan.ofGraph model graph).order) :
    rerun.Repeats deep (linearGraph model inner graph)
      (linearGraph copy again (rerun.handles.graph graph)) id writer := by
  have replans := relists.replans begun
  obtain ⟨ordered, same, members, agree⟩ := replans.order
  have concepts := loop_conceptStatement relists nested begun
  unfold linearGraph
  simp only [comments_eq relists begun, same, relists.relations graph begun, Rerun.concat_map]
  refine (concepts.repeats relists.conceptOnce replans.distinct trivial
    (fun concept _ => members concept) fun first second _ _ => agree first second).bind_of
      (concepts.ensures trivial) fun statements middle shown _ => ?_
  exact ((loop_remainingStatement relists nested begun among).repeats relists.relationOnce
    (relists.old.listed.nodup_relations graph) shown.2
    (fun relation _ => (relists.perm_relations begun).mem_iff.symm)
    fun first second _ _ pair => .inr (pair.trans List.filter_sublist)).followed
      fun others _ _ => .pure rfl

end

end

end ConceptualGraph.Write
