/-
Module: ConceptualGraph.Proofs.Stable.Bracket
Purpose: A copy whose nodes are listed in the order of writing is written in the interchange form
  as the graph that it copies.
Main exports: Write.Argument.rename, Write.repeats_relationItems, Write.repeats_conceptItems,
  Write.repeats_bracketGraph
-/
import ConceptualGraph.Proofs.Copy.Bracket
import ConceptualGraph.Proofs.Stable.Node
import ConceptualGraph.Writing.Bracket

namespace ConceptualGraph.Write

open Phrase (mark space)

/-- An argument under new handles. -/
def Argument.rename (handles : Renaming) (argument : Argument) : Argument :=
  { argument with concept := handles.concept argument.concept }

variable {rerun : Rerun} {deep : Depth} {model copy : Model} {inner again : Inner}
  {plan planAgain : Plan} {writer : Writer} {concept : ConceptId} {relation : RelationId}

section

variable (relists : rerun.Relists model copy) (replans : rerun.Replans model plan planAgain)
  (nested : rerun.Nested deep.emit model inner again)

include relists replans nested

/-! ## Arguments -/

theorem repeats_argument (known : concept ∈ rerun.final.order) :
    rerun.Repeats deep (argument model inner plan concept)
      (argument copy again planAgain (rerun.handles.concept concept))
      (Argument.rename rerun.handles) writer := by
  unfold argument
  refine (repeats_isEmitted relists.injective concept).bind fun emitted _ _ => ?_
  refine .ite .rfl (fun _ => ?_) fun _ => ?_
  · exact (repeats_reference relists concept).bind fun _ _ _ => .pure rfl
  · exact (repeats_firstEmission relists replans nested known).bind fun _ _ _ => .pure rfl

theorem repeats_concat_argument {concepts : List ConceptId}
    (known : ∀ concept ∈ concepts, concept ∈ rerun.final.order) :
    rerun.Repeats deep
      (concat (fun concept => return [← argument model inner plan concept]) concepts)
      (concat (fun concept => return [← argument copy again planAgain concept])
        (concepts.map rerun.handles.concept))
      (List.map (Argument.rename rerun.handles)) writer :=
  .concat fun concept member _ _ =>
    (repeats_argument relists replans nested (known concept member)).bind fun _ _ _ => .pure rfl

/-- Arguments are written again as they were, in the order of the relation. -/
theorem repeats_arguments (inlined : Option ConceptId) {args : List ConceptId}
    (known : ∀ concept ∈ args, concept ∈ rerun.final.order) :
    rerun.Repeats deep (arguments model inner plan inlined args)
      (arguments copy again planAgain (inlined.map rerun.handles.concept)
        (args.map rerun.handles.concept))
      (List.map (Argument.rename rerun.handles)) writer := by
  cases args with
  | nil => exact .pure rfl
  | cons first others =>
      obtain ⟨here, there⟩ := List.forall_mem_cons.mp known
      have same : inlined.map rerun.handles.concept = some (rerun.handles.concept first) ↔
          inlined = some first := by
        cases inlined <;> simp [relists.injective.concept.eq_iff]
      have finish : ∀ written middle, rerun.Repeats deep
          (do return written ++ (← concat (fun concept =>
            return [← argument model inner plan concept]) others))
          (do return written.map (Argument.rename rerun.handles) ++ (← concat (fun concept =>
            return [← argument copy again planAgain concept]) (others.map rerun.handles.concept)))
          (List.map (Argument.rename rerun.handles)) middle := fun written middle =>
        (repeats_concat_argument relists replans nested there).bind fun rest _ _ =>
          .pure (List.map_append ..).symm
      unfold arguments
      refine .ite same (fun _ => ?_) fun _ => ?_
      · exact (repeats_emitConcept relists nested here none).bind fun phrase middle _ =>
          finish [{ concept := first, phrase, fresh := false }] middle
      · have single : ∀ concept ∈ [first], concept ∈ rerun.final.order := by simpa using here
        exact (repeats_concat_argument relists replans nested single).bind
          fun written middle _ => finish written middle

/-! ## Relations -/

omit replans nested in
/-- A relation and its copy are spelled in the same way. -/
theorem relationPhrase_eq (known : relation ∈ rerun.final.written) (type : Phrase)
    (args : List Argument) :
    relationPhrase copy (rerun.handles.relation relation) type
        (args.map (Argument.rename rerun.handles)) = relationPhrase model relation type args := by
  unfold relationPhrase
  rw [(relists.relation relation known).comment, List.flatMap_map]
  rfl

omit relists replans nested in
/-- A relation that has been written is passed over. -/
theorem relationItems_of_written {steps : Nat} {inlined : Option ConceptId}
    (known : relation ∈ writer.written) :
    relationItems model inner plan steps inlined relation writer = .ok [] writer := by
  cases steps with
  | zero => rfl
  | succ steps =>
      have written : writer.written.contains relation = true := by simpa using known
      unfold relationItems
      show (if writer.written.contains relation then pure [] else _ : Write _) writer = _
      rw [if_pos written]
      rfl

/-- What is known of the relations that are written in some numbers of steps: the copies of them
are written as they are, and nothing is marked as written before a relation. -/
def RepeatsItems (rerun : Rerun) (deep : Depth) (model copy : Model) (inner again : Inner)
    (plan planAgain : Plan) (steps stepsAgain : Nat) : Prop :=
  ∀ (inlined : Option ConceptId), ∀ relation ∈ rerun.final.written, ∀ writer : Writer,
    rerun.Repeats deep (relationItems model inner plan steps inlined relation)
        (relationItems copy again planAgain stepsAgain (inlined.map rerun.handles.concept)
          (rerun.handles.relation relation)) id writer ∧
      (0 < steps → relation ∉ writer.written →
        Ensures (relationItems model inner plan steps inlined relation) writer fun _ after =>
          relation :: writer.written <:+ after.written)

section Following

variable {steps stepsAgain : Nat}
  (items : RepeatsItems rerun deep model copy inner again plan planAgain steps stepsAgain)
  (enough : rerun.final.written.length < steps + deep.relations)

include items enough

omit nested in
/-- Those relations that begin with a concept are written that have not been written at some time
before. -/
theorem repeats_primaryItems (earlier : Writer) (concept : ConceptId) :
    rerun.Repeats deep
      (concat (relationItems model inner plan steps none)
        ((plan.primary concept).filter fun relation => !earlier.written.contains relation))
      (concat (relationItems copy again planAgain stepsAgain none)
        ((planAgain.primary (rerun.handles.concept concept)).filter fun relation =>
          !(earlier.rename rerun.handles).written.contains relation)) id writer := by
  obtain ⟨ordered, same, perm, sorted⟩ := replans.primary concept
  -- Without fuel nothing is written, and there is nothing to be written either.
  cases steps with
  | zero =>
      have silent : ∀ relations : List RelationId,
          concat (fun _ => (pure [] : Write (List Phrase))) relations = pure [] :=
            fun relations => by
        induction relations with
        | nil => rfl
        | cons relation others ih => simp [concat, ih]
      show rerun.Repeats deep (concat (fun _ => pure []) _) _ id writer
      rw [silent]
      exact .nothing (.inr (by omega))
  | succ steps =>
      have loop : rerun.Loop deep Writer.written (fun _ => True)
          ((plan.primary concept).filter fun relation => !earlier.written.contains relation)
          (relationItems model inner plan (steps + 1) none)
          (fun relation => relationItems copy again planAgain stepsAgain none
            (rerun.handles.relation relation)) :=
        { log_before := fun before => before.written
          kept := fun _ _ => trivial
          skip := fun relation writer known => relationItems_of_written known
          skipAgain := fun relation writer known =>
            relationItems_of_written (List.mem_map_of_mem known)
          each := fun relation member writer _ fresh => by
            obtain ⟨repeats, marks⟩ := items none relation
              (replans.mem_written (List.mem_of_mem_filter member)) writer
            exact ⟨repeats, marks (Nat.succ_pos steps) fresh⟩ }
      rw [same, filter_contains_rename relists.injective, Rerun.concat_map]
      refine loop.repeats relists.relationOnce ?_ trivial (fun relation _ => ?_)
        fun first second _ _ pair => .inr (pair.trans (List.filter_sublist.trans sorted))
      · exact (perm.nodup_iff.mp
          (sorted.nodup (List.nodup_reverse.mpr relists.relationOnce))).filter _
      · exact ((perm.filter _).mem_iff).symm

omit nested in
/-- The relations that begin with concepts just written follow these. -/
theorem repeats_following (concepts : List ConceptId) :
    rerun.Repeats deep
      (concat (fun concept => do
        concat (relationItems model inner plan steps none) (← unwritten (plan.primary concept)))
          concepts)
      (concat (fun concept => do
        concat (relationItems copy again planAgain stepsAgain none)
          (← unwritten (planAgain.primary concept))) (concepts.map rerun.handles.concept))
      id writer :=
  .all fun concept _ middle _ =>
    .unwritten (repeats_primaryItems relists replans items enough middle concept)

/-- A relation is written after it is marked as written. -/
theorem repeats_relation (inlined : Option ConceptId) (known : relation ∈ rerun.final.written) :
    rerun.Repeats deep
      (do
        let type ← relationType model inner relation
        let args ← arguments model inner plan inlined (model.relation relation).args
        let introduced := (args.filter (·.fresh)).map (·.concept)
        let following ← concat (fun concept => do
          concat (relationItems model inner plan steps none) (← unwritten (plan.primary concept)))
            introduced
        return relationPhrase model relation type args :: following)
      (do
        let type ← relationType copy again (rerun.handles.relation relation)
        let args ← arguments copy again planAgain (inlined.map rerun.handles.concept)
          (copy.relation (rerun.handles.relation relation)).args
        let introduced := (args.filter (·.fresh)).map (·.concept)
        let following ← concat (fun concept => do
          concat (relationItems copy again planAgain stepsAgain none)
            (← unwritten (planAgain.primary concept))) introduced
        return relationPhrase copy (rerun.handles.relation relation) type args :: following)
      id writer := by
  rw [(relists.relation relation known).args]
  refine (repeats_relationType relists known).bind fun type _ _ => ?_
  refine (repeats_arguments relists replans nested inlined (relists.args relation known)).bind
    fun args _ _ => ?_
  have introduced : ((args.map (Argument.rename rerun.handles)).filter (·.fresh)).map (·.concept) =
      ((args.filter (·.fresh)).map (·.concept)).map rerun.handles.concept := by
    simp only [List.filter_map, List.map_map]
    rfl
  simp only [introduced, relationPhrase_eq relists known]
  exact (repeats_following relists replans items enough _).bind fun following _ _ => .pure rfl

end Following

/-- The steps are enough for all relations to be written on either side. -/
theorem repeats_relationItems {steps stepsAgain : Nat}
    (enough : rerun.final.written.length < steps + deep.relations)
    (enoughAgain : rerun.final.written.length < stepsAgain + deep.relations) :
    RepeatsItems rerun deep model copy inner again plan planAgain steps stepsAgain := by
  induction steps generalizing stepsAgain deep with
  | zero =>
      exact fun _ _ _ writer =>
        ⟨.nothing (.inr (by omega)), fun none => absurd none (Nat.lt_irrefl 0)⟩
  | succ steps ih =>
      have step : ∀ stepsAgain, rerun.final.written.length < stepsAgain + deep.begin.relations →
          RepeatsItems rerun deep model copy inner again plan planAgain (steps + 1)
            (stepsAgain + 1) := by
        intro stepsAgain enoughAgain inlined relation known writer
        have enough : rerun.final.written.length < steps + deep.begin.relations := by
          simp only [Depth.begin]
          omega
        obtain ⟨repeats, marks⟩ := (repeats_relation relists replans nested.begin
          (ih nested.begin enough enoughAgain) enough inlined known :
            rerun.Repeats deep.begin _ _ id (writer.begin relation)).marked
        unfold relationItems
        refine ⟨.get (.ite ?_ (fun _ => .pure rfl) fun _ => repeats), fun _ fresh => ?_⟩
        · rw [Writer.contains_written_rename relists.injective]
        · refine ensures_bind.mpr (ensures_ite.mpr ⟨fun known => ?_, fun _ => marks⟩)
          exact absurd (by simpa using known) fresh
      cases stepsAgain with
      | zero =>
          intro inlined relation known writer
          obtain ⟨repeats, marks⟩ := step steps (by simp only [Depth.begin]; omega) inlined relation
            known writer
          exact ⟨repeats.exhausted (.inr (by omega)), marks⟩
      | succ stepsAgain => exact step stepsAgain (by simp only [Depth.begin]; omega)

/-- Of all concepts the one that is written inside a relation is written first. -/
theorem opens_relationItems {steps : Nat}
    (enough : rerun.final.written.length < steps + 1 + deep.relations)
    (known : relation ∈ rerun.final.written) (fresh : relation ∉ writer.written)
    (head : (model.relation relation).args.head? = some concept) :
    Ensures (relationItems model inner plan (steps + 1) (some concept) relation) writer
      fun _ after => concept :: writer.order <:+ after.order := by
  obtain ⟨others, same⟩ : ∃ others, (model.relation relation).args = concept :: others :=
    List.head?_eq_some_iff.mp head
  obtain ⟨here, there⟩ := List.forall_mem_cons.mp (same ▸ relists.args relation known)
  have left : rerun.final.written.length < steps + deep.begin.relations := by
    simp only [Depth.begin]
    omega
  unfold relationItems
  refine ensures_bind.mpr (ensures_ite.mpr ⟨fun known => ?_, fun _ => ?_⟩)
  · exact absurd (by simpa using known) fresh
  refine ensures_bind.mpr ((quiet_relationType relists.old.toTypesNamed relation
    (writer.begin relation) ⟨rfl, rfl⟩).bind fun type middle facts => ?_)
  rw [← show middle.order = writer.order from congrArg (List.map Prod.fst) facts.1.1, same]
  have opens : Ensures (arguments model inner plan (some concept) (concept :: others)) middle
      fun _ after => concept :: middle.order <:+ after.order := by
    unfold arguments
    refine ensures_ite.mpr ⟨fun _ => ?_, fun apart => absurd rfl apart⟩
    refine ensures_bind.mpr ((opens_emitConcept relists nested here none).mono
      fun phrase later opened => ?_)
    show Ensures (concat _ others >>= fun rest => pure (_ ++ rest)) later _
    refine (repeats_concat_argument relists replans nested there).before.bind
      fun rest after before => ?_
    exact opened.trans before.order
  refine opens.bind fun args later opened => ?_
  refine (repeats_following relists replans
    (repeats_relationItems relists replans nested.begin left left) left _).before.bind
      fun rest after before => ?_
  exact opened.trans before.order

/-! ## Passing over -/

omit relists replans nested in
/-- A concept that has been written is passed over. -/
theorem conceptItems_of_emitted (known : concept ∈ writer.order) :
    conceptItems model inner plan concept writer = .ok [] writer := by
  have emitted := isSome_lookup_emitted.mpr known
  unfold conceptItems isEmitted
  show (if (writer.emitted.lookup concept).isSome = true then pure [] else _ : Write _) writer = _
  rw [if_pos emitted]
  rfl

omit relists replans nested in
/-- A relation or actor that has been written is passed over. -/
theorem remainingItems_of_written (known : relation ∈ writer.written) :
    remainingItems model inner plan relation writer = .ok [] writer := by
  have written : writer.written.contains relation = true := by simpa using known
  unfold remainingItems
  show (if writer.written.contains relation then pure [] else _ : Write _) writer = _
  rw [if_pos written]
  rfl

/-! ## Concepts -/

omit replans nested in
/-- There are more steps than relations. -/
theorem lt_relationSteps (deep : Depth) :
    rerun.final.written.length < relationSteps model + deep.relations ∧
      rerun.final.written.length < relationSteps copy + deep.relations := by
  obtain ⟨old, new⟩ := relists.relationCount
  unfold relationSteps
  omega

theorem repeats_items : RepeatsItems rerun deep model copy inner again plan planAgain
    (relationSteps model) (relationSteps copy) :=
  repeats_relationItems relists replans nested (lt_relationSteps relists deep).1
    (lt_relationSteps relists deep).2

/-- A concept is written out by itself, with the relations that begin with it after it. -/
theorem repeats_leading (earlier : Writer) (known : concept ∈ rerun.final.order)
    (label : Option LabelUse) :
    rerun.Repeats deep
      (do
        let item ← emitConcept model inner concept label
        return item :: (← concat (relationItems model inner plan (relationSteps model) none)
          ((plan.primary concept).filter fun relation => !earlier.written.contains relation)))
      (do
        let item ← emitConcept copy again (rerun.handles.concept concept) label
        return item :: (← concat (relationItems copy again planAgain (relationSteps copy) none)
          ((planAgain.primary (rerun.handles.concept concept)).filter fun relation =>
            !(earlier.rename rerun.handles).written.contains relation))) id writer :=
  (repeats_emitConcept relists nested known label).bind fun _ _ _ =>
    (repeats_primaryItems relists replans (repeats_items relists replans nested)
      (lt_relationSteps relists deep).1 earlier concept).bind fun _ _ _ => .pure rfl

/-- What a concept writes is written again as it was. -/
theorem repeats_conceptItems (known : concept ∈ rerun.final.order) :
    rerun.Repeats deep (conceptItems model inner plan concept)
      (conceptItems copy again planAgain (rerun.handles.concept concept)) id writer := by
  unfold conceptItems needsLabel
  rw [replans.needsLabel, relists.old.undefined, relists.new.undefined]
  refine (repeats_isEmitted relists.injective concept).bind fun emitted _ _ => ?_
  refine .ite .rfl (fun _ => .pure rfl) fun _ => ?_
  refine (repeats_openLabel relists concept _).bind fun label middle _ => .unwritten ?_
  have leading : rerun.Repeats deep _ _ id middle :=
    repeats_leading relists replans nested middle known label
  obtain ⟨ordered, same, perm, -⟩ := replans.primary concept
  have left := perm.filter fun relation => !middle.written.contains relation
  have among : ∀ relation ∈ (plan.primary concept).filter fun relation =>
      !middle.written.contains relation, relation ∈ rerun.final.written := fun relation member =>
    replans.mem_written (List.mem_of_mem_filter member)
  rw [same, filter_contains_rename relists.injective] at leading ⊢
  generalize (plan.primary concept).filter _ = primaries at leading left among ⊢
  generalize ordered.filter _ = copied at leading left ⊢
  match label, primaries, copied, left with
  | some use, _, _, _ => exact leading
  | none, [], _, left =>
      obtain rfl := left.eq_nil
      exact leading
  | none, [only], _, left =>
      obtain rfl := left.eq_singleton
      exact (repeats_items relists replans nested (some concept) only
        (among only (List.mem_singleton_self _)) middle).1
  | none, _ :: _ :: _, [], left => exact absurd left.length_eq (by simp)
  | none, _ :: _ :: _, [_], left => exact absurd left.length_eq (by simp)
  | none, _ :: _ :: _, _ :: _ :: _, _ => exact leading

/-- Nothing is written before a concept that has not been written. -/
theorem opens_conceptItems (known : concept ∈ rerun.final.order) (fresh : concept ∉ writer.order) :
    Ensures (conceptItems model inner plan concept) writer fun _ after =>
      concept :: writer.order <:+ after.order := by
  unfold conceptItems
  refine isEmitted_achieves.ensures.bind fun emitted same answer => ?_
  obtain ⟨rfl, answer⟩ := answer
  refine ensures_ite.mpr ⟨fun present => absurd (answer.mp present) fresh, fun _ => ?_⟩
  refine (quiet_openLabel concept _ same ⟨rfl, rfl⟩).bind fun label middle facts => ?_
  rw [← show middle.order = same.order from congrArg (List.map Prod.fst) facts.1.1]
  have left : Ensures (unwritten (plan.primary concept)) middle fun primaries after =>
      after = middle ∧
        primaries = (plan.primary concept).filter fun relation =>
          !middle.written.contains relation :=
    ⟨rfl, rfl⟩
  refine left.bind fun primaries after facts => ?_
  obtain ⟨rfl, among⟩ := facts
  split
  · next only =>
    have member : only ∈ (plan.primary concept).filter fun relation =>
      !after.written.contains relation := among ▸ List.mem_singleton_self only
    obtain ⟨primary, unwritten⟩ := List.mem_filter.mp member
    exact opens_relationItems relists replans nested (lt_relationSteps relists deep).1
      (replans.mem_written primary) (by simpa using unwritten)
      (replans.first concept only primary)
  · rw [among]
    refine (opens_emitConcept relists nested known label).bind fun item later opened => ?_
    refine (repeats_primaryItems relists replans (repeats_items relists replans nested)
      (lt_relationSteps relists deep).1 after concept).before.bind fun rest last before => ?_
    exact opened.trans before.order

/-! ## Graphs -/

/-- What a relation that is left writes is written again as it was. -/
theorem repeats_remainingItems (known : relation ∈ rerun.final.written) :
    rerun.Repeats deep (remainingItems model inner plan relation)
      (remainingItems copy again planAgain (rerun.handles.relation relation)) id writer := by
  unfold remainingItems
  rw [relists.isNegation_eq known, relists.isActor_eq known]
  refine .get (.ite ?_ (fun _ => .pure rfl) fun _ => ?_)
  · rw [Writer.contains_written_rename relists.injective]
  refine .ite .rfl (fun _ => ?_) fun _ => .ite .rfl (fun _ => ?_) fun _ => ?_
  · exact (repeats_negation relists nested known).1.bind fun _ _ _ => .pure rfl
  · exact (repeats_actor deep again relists known).1.bind fun _ _ _ => .pure rfl
  · exact (repeats_items relists replans nested none relation known writer).1

/-- Nothing is marked as written before a relation or actor that has not been. -/
theorem marks_remainingItems (known : relation ∈ rerun.final.written)
    (fresh : relation ∉ writer.written) :
    Ensures (remainingItems model inner plan relation) writer fun _ after =>
      relation :: writer.written <:+ after.written := by
  unfold remainingItems
  refine ensures_bind.mpr (ensures_ite.mpr ⟨fun present => ?_, fun _ => ensures_ite.mpr
    ⟨fun _ => ?_, fun _ => ensures_ite.mpr ⟨fun _ => ?_, fun _ => ?_⟩⟩⟩)
  · exact absurd (by simpa using present) fresh
  · exact (repeats_negation relists nested known).2.bind fun _ _ marks => marks
  · exact (repeats_actor deep again relists known).2.bind fun _ _ marks => marks
  · exact (repeats_items relists replans nested none relation known writer).2
      (Nat.succ_pos _) fresh

end

section

variable (relists : rerun.Relists model copy) (nested : rerun.Nested deep.emit model inner again)
  {graph : GraphId} (begun : model.Begun rerun.final.order graph)

include relists nested begun

/-- The loop over the concepts of a graph runs again over their copies. -/
theorem loop_conceptItems :
    rerun.Loop deep Writer.order (fun _ => True) (Plan.ofGraph model graph).order
      (conceptItems model inner (Plan.ofGraph model graph))
      (fun concept => conceptItems copy again (Plan.ofGraph copy (rerun.handles.graph graph))
        (rerun.handles.concept concept)) where
  log_before before := before.order
  kept _ _ := trivial
  skip _ _ known := conceptItems_of_emitted known
  skipAgain _ _ known := conceptItems_of_emitted (mem_order_rename known)
  each _ member _ _ fresh :=
    have known := relists.mem_order begun member
    ⟨repeats_conceptItems relists (relists.replans begun) nested known,
      opens_conceptItems relists (relists.replans begun) nested known fresh⟩

/-- The loop over the relations that are left runs again over their copies. -/
theorem loop_remainingItems :
    rerun.Loop deep Writer.written (fun _ => True) (model.graph graph).relations
      (remainingItems model inner (Plan.ofGraph model graph))
      (fun relation => remainingItems copy again (Plan.ofGraph copy (rerun.handles.graph graph))
        (rerun.handles.relation relation)) where
  log_before before := before.written
  kept _ _ := trivial
  skip _ _ known := remainingItems_of_written known
  skipAgain _ _ known := remainingItems_of_written (List.mem_map_of_mem known)
  each _ member _ _ fresh :=
    have known := relists.mem_written begun member
    ⟨repeats_remainingItems relists (relists.replans begun) nested known,
      marks_remainingItems relists (relists.replans begun) nested known fresh⟩

/-- A copy of a graph is written in the interchange form as the graph. -/
theorem repeats_bracketGraph :
    rerun.Repeats deep (bracketGraph model inner graph)
      (bracketGraph copy again (rerun.handles.graph graph)) id writer := by
  have replans := relists.replans begun
  obtain ⟨ordered, same, members, agree⟩ := replans.order
  unfold bracketGraph
  simp only [comments_eq relists begun, same, relists.relations graph begun, Rerun.concat_map]
  refine ((loop_conceptItems relists nested begun).repeats relists.conceptOnce replans.distinct
    trivial (fun concept _ => members concept) fun first second _ _ => agree first second).followed
      fun concepts _ _ => ?_
  exact ((loop_remainingItems relists nested begun).repeats relists.relationOnce
    (relists.old.listed.nodup_relations graph) trivial
    (fun relation _ => (relists.perm_relations begun).mem_iff.symm)
    fun first second _ _ pair => .inr (pair.trans List.filter_sublist)).followed
      fun relations _ _ => .pure rfl

end

end ConceptualGraph.Write
