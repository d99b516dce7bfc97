/-
Module: ConceptualGraph.Proofs.Stable.Rerun
Purpose: A step of writing that is run again under new handles, with one rule for every way in
  which steps are put together, and with one for loops that pass over what has been written.
Main exports: Writer.Before, Rerun, Rerun.Repeats, Rerun.Loop, Rerun.Loop.repeats
-/
import ConceptualGraph.Proofs.Copy.Nested
import ConceptualGraph.Proofs.Stable.Renamed

namespace ConceptualGraph

/-! ## Going on -/

/-- Whether writing may go on from one state to another one: what has been written remains, and
nothing is put before it. -/
structure Writer.Before (writer after : Writer) : Prop where
  emitted : writer.emitted <:+ after.emitted
  written : writer.written <:+ after.written

namespace Writer.Before

variable {writer middle after : Writer}

theorem refl (writer : Writer) : writer.Before writer := ⟨List.suffix_rfl, List.suffix_rfl⟩

theorem trans (first : writer.Before middle) (second : middle.Before after) :
    writer.Before after :=
  ⟨first.emitted.trans second.emitted, first.written.trans second.written⟩

theorem order (before : writer.Before after) : writer.order <:+ after.order :=
  before.emitted.map Prod.fst

theorem emit (writer : Writer) (concept : ConceptId) (label : Option String) :
    writer.Before (writer.emit concept label) :=
  ⟨List.suffix_cons _ _, List.suffix_rfl⟩

theorem begin (writer : Writer) (relation : RelationId) :
    writer.Before (writer.begin relation) :=
  ⟨List.suffix_rfl, List.suffix_cons _ _⟩

end Writer.Before

/-! ## Running again -/

/-- Writing that is repeated: the new handles, and the state to which the writing comes that is
repeated. -/
structure Rerun where
  handles : Renaming
  final : Writer

/-- How many nodes have been written at least. -/
structure Depth where
  concepts : Nat := 0
  relations : Nat := 0

namespace Depth

/-- One concept more. -/
def emit (deep : Depth) : Depth := { deep with concepts := deep.concepts + 1 }

/-- One relation more. -/
def begin (deep : Depth) : Depth := { deep with relations := deep.relations + 1 }

/-- Whether as many nodes have been written. -/
structure Reached (deep : Depth) (writer : Writer) : Prop where
  concepts : deep.concepts ≤ writer.emitted.length
  relations : deep.relations ≤ writer.written.length

theorem Reached.mono {deep : Depth} {writer after : Writer} (reached : deep.Reached writer)
    (before : writer.Before after) : deep.Reached after :=
  ⟨Nat.le_trans reached.concepts before.emitted.length_le,
    Nat.le_trans reached.relations before.written.length_le⟩

end Depth

/-- Whether a step, if it succeeds, goes on writing, and another step does the same under new
handles where that is part of the writing that is repeated and some nodes have been written
before. -/
def Rerun.Repeats (rerun : Rerun) (deep : Depth) {α β : Type} (step : Write α) (again : Write β)
    (image : α → β) (writer : Writer) : Prop :=
  Ensures step writer fun value after => writer.Before after ∧
    (deep.Reached writer → after.Before rerun.final →
      again (writer.rename rerun.handles) = .ok (image value) (after.rename rerun.handles))

namespace Rerun

variable {rerun : Rerun} {deep deeper : Depth} {α β γ δ : Type} {step other : Write α}
  {again : Write β}
  {image : α → β} {next : α → Write γ} {nextAgain : β → Write δ} {nextImage : γ → δ}
  {writer : Writer}

/-! ### Steps -/

namespace Repeats

theorem before (repeats : rerun.Repeats deep step again image writer) :
    Ensures step writer fun _ after => writer.Before after :=
  repeats.mono fun _ _ facts => facts.1

theorem pure {value : α} {result : β} (same : result = image value) :
    rerun.Repeats deep (Pure.pure value) (Pure.pure result) image writer := by
  subst same
  exact ⟨.refl writer, fun _ _ => rfl⟩

theorem throw (error : GenerateError) :
    rerun.Repeats deep (MonadExcept.throw error : Write α) again image writer := trivial

/-- What is known of the first of two steps may be used for the second one, with the nodes that
the first one has written. -/
theorem bind_deeper {post : α → Writer → Prop} (first : rerun.Repeats deep step again image writer)
    (known : Ensures step writer post)
    (further : ∀ value middle, post value middle → deep.Reached writer → deeper.Reached middle)
    (others : ∀ value middle, post value middle → writer.Before middle →
      rerun.Repeats deeper (next value) (nextAgain (image value)) nextImage middle) :
    rerun.Repeats deep (step >>= next) (again >>= nextAgain) nextImage writer := by
  refine (first.and known).bind fun value middle facts => ?_
  obtain ⟨⟨before, repeated⟩, holds⟩ := facts
  refine (others value middle holds before).mono fun result after ended => ?_
  refine ⟨before.trans ended.1, fun enough last => ?_⟩
  simp only [Bind.bind, EStateM.bind, repeated enough (ended.1.trans last),
    ended.2 (further value middle holds enough) last]

/-- Steps in a row are repeated one after the other, with what is known after the first. -/
theorem bind_of {post : α → Writer → Prop} (first : rerun.Repeats deep step again image writer)
    (known : Ensures step writer post)
    (others : ∀ value middle, post value middle → writer.Before middle →
      rerun.Repeats deep (next value) (nextAgain (image value)) nextImage middle) :
    rerun.Repeats deep (step >>= next) (again >>= nextAgain) nextImage writer :=
  first.bind_deeper (first.before.and known) (fun _ _ facts enough => enough.mono facts.1)
    fun value middle facts => others value middle facts.2

theorem bind (first : rerun.Repeats deep step again image writer)
    (others : ∀ value middle, writer.Before middle →
      rerun.Repeats deep (next value) (nextAgain (image value)) nextImage middle) :
    rerun.Repeats deep (step >>= next) (again >>= nextAgain) nextImage writer :=
  first.bind_of (.trivial step writer) fun value middle _ => others value middle

/-- The result of the first step does not change under new handles. -/
theorem followed {same : Write α} {nextAgain : α → Write δ}
    (first : rerun.Repeats deep step same id writer)
    (others : ∀ value middle, writer.Before middle →
      rerun.Repeats deep (next value) (nextAgain value) nextImage middle) :
    rerun.Repeats deep (step >>= next) (same >>= nextAgain) nextImage writer :=
  first.bind others

theorem get {next : Writer → Write α} {nextAgain : Writer → Write β}
    (others :
    rerun.Repeats deep (next writer) (nextAgain (writer.rename rerun.handles)) image writer) :
    rerun.Repeats deep (MonadState.get >>= next) (MonadState.get >>= nextAgain) image writer :=
  others

/-- What filters out the relations that have been written is repeated by what filters out their
copies. -/
theorem unwritten {next : List RelationId → Write α} {nextAgain : List RelationId → Write β}
    {relations relationsAgain : List RelationId}
    (others : rerun.Repeats deep
      (next (relations.filter fun relation => !writer.written.contains relation))
      (nextAgain (relationsAgain.filter fun relation =>
        !(writer.rename rerun.handles).written.contains relation)) image writer) :
    rerun.Repeats deep (Write.unwritten relations >>= next)
      (Write.unwritten relationsAgain >>= nextAgain) image writer :=
  others

/-- A change to the writer is repeated if it can be renamed. -/
theorem modify {change changeAgain : Writer → Writer} (before : writer.Before (change writer))
    (same : changeAgain (writer.rename rerun.handles) = (change writer).rename rerun.handles) :
    rerun.Repeats deep (modify change) (modify changeAgain) id writer :=
  ⟨before, fun _ _ => congrArg (EStateM.Result.ok PUnit.unit) same⟩

/-- A choice is made again as it was, and either side of it repeats. -/
theorem ite {condition also : Prop} [Decidable condition] [Decidable also] {otherAgain : Write β}
    (same : also ↔ condition) (first : condition → rerun.Repeats deep step again image writer)
    (second : ¬condition → rerun.Repeats deep other otherAgain image writer) :
    rerun.Repeats deep (if condition then step else other)
      (if also then again else otherAgain) image
      writer := by
  by_cases holds : condition
  · rw [if_pos holds, if_pos (same.mpr holds)]
    exact first holds
  · rw [if_neg holds, if_neg (mt same.mp holds)]
    exact second holds

/-- What is known of the way to the end of a step may be used to replace its repetition. -/
theorem congr {againToo : Write β} {post : α → Writer → Prop}
    (repeats : rerun.Repeats deep step again image writer) (known : Ensures step writer post)
    (same : ∀ value after, post value after → after.Before rerun.final →
      againToo (writer.rename rerun.handles) = again (writer.rename rerun.handles)) :
    rerun.Repeats deep step againToo image writer :=
  (repeats.and known).mono fun value after facts =>
    ⟨facts.1.1, fun enough last => (same value after facts.2 last).trans (facts.1.2 enough last)⟩

/-- Where more has been written than in the end, nothing is to be repeated. -/
theorem exhausted {againToo : Write β} (repeats : rerun.Repeats deep step again image writer)
    (beyond : rerun.final.emitted.length < deep.concepts ∨
      rerun.final.written.length < deep.relations) :
    rerun.Repeats deep step againToo image writer := by
  refine repeats.mono fun _ _ facts => ⟨facts.1, fun reached last => ?_⟩
  have most := facts.1.trans last
  rcases beyond with concepts | relations
  · exact absurd (Nat.le_trans reached.concepts most.emitted.length_le) (Nat.not_le.mpr concepts)
  · exact absurd (Nat.le_trans reached.relations most.written.length_le) (Nat.not_le.mpr relations)

/-- Beyond the end of the run nothing has to be repeated. -/
theorem nothing {again : Write (List Phrase)} (beyond : rerun.final.emitted.length < deep.concepts ∨
    rerun.final.written.length < deep.relations) :
    rerun.Repeats deep (Pure.pure []) again id writer :=
  exhausted (.pure (rfl : ([] : List Phrase) = id [])) beyond

/-- Where more has been written, less has been. -/
theorem weaken (repeats : rerun.Repeats deep step again image writer)
    (further : ∀ writer, deeper.Reached writer → deep.Reached writer) :
    rerun.Repeats deeper step again image writer :=
  repeats.mono fun _ _ facts => ⟨facts.1, fun enough => facts.2 (further writer enough)⟩

/-- What is written in a context is written again in a context. -/
theorem inContext (injective : rerun.handles.Injective)
    (repeats : rerun.Repeats deep step again image (writer.withLabels writer.labels.push)) :
    rerun.Repeats deep (Write.inContext step) (Write.inContext again) image writer := by
  refine Write.ensures_inContext.mpr (repeats.mono fun value after facts => ?_)
  obtain ⟨before, repeated⟩ := facts
  refine ⟨⟨before.emitted, before.written⟩, fun enough last => ?_⟩
  have ran := repeated ⟨enough.concepts, enough.relations⟩ ⟨last.emitted, last.written⟩
  have pushed : (writer.withLabels writer.labels.push).rename rerun.handles =
      { writer.rename rerun.handles with labels := (writer.rename rerun.handles).labels.push } :=
    rfl
  rw [pushed] at ran
  unfold Write.inContext
  simp only [ran]
  exact congrArg (EStateM.Result.ok _) (congrArg (fun labels =>
    ({ after.rename rerun.handles with labels } : Writer)) (LabelTable.pop_rename injective))

/-- A concept is written: from there on one concept more has been written. -/
theorem emit {next : Write γ} {nextAgain : Write δ} {concept : ConceptId} {label : Option String}
    (rest : rerun.Repeats deep.emit next nextAgain nextImage (writer.emit concept label)) :
    rerun.Repeats deep (Write.emit concept label >>= fun _ => next)
      (Write.emit (rerun.handles.concept concept) label >>= fun _ => nextAgain) nextImage
        writer := by
  refine ensures_bind.mpr (rest.mono fun value after facts => ?_)
  refine ⟨(Writer.Before.emit writer concept label).trans facts.1, fun enough last => ?_⟩
  exact facts.2 ⟨Nat.succ_le_succ enough.concepts, enough.relations⟩ last

/-- A relation is marked as written before anything else. -/
theorem marked {next : Write γ} {nextAgain : Write δ} {relation : RelationId}
    (rest : rerun.Repeats deep.begin next nextAgain nextImage (writer.begin relation)) :
    rerun.Repeats deep (Write.markWritten relation >>= fun _ => next)
        (Write.markWritten (rerun.handles.relation relation) >>= fun _ => nextAgain) nextImage
        writer ∧
      Ensures (Write.markWritten relation >>= fun _ => next) writer fun _ after =>
        relation :: writer.written <:+ after.written := by
  refine ⟨ensures_bind.mpr (rest.mono fun value after facts => ?_),
    ensures_bind.mpr (rest.before.mono fun _ _ before => before.written)⟩
  refine ⟨(Writer.Before.begin writer relation).trans facts.1, fun enough last => ?_⟩
  exact facts.2 ⟨enough.concepts, Nat.succ_le_succ enough.relations⟩ last

/-- Steps for several arguments run one after the other. -/
theorem concat {ε ζ : Type} {step : ε → Write (List α)} {again : ζ → Write (List β)} {image : α → β}
    {handle : ε → ζ} {arguments : List ε}
    (each : ∀ argument ∈ arguments, ∀ middle, writer.Before middle →
      rerun.Repeats deep (step argument) (again (handle argument)) (List.map image) middle) :
    rerun.Repeats deep (Write.concat step arguments) (Write.concat again (arguments.map handle))
      (List.map image) writer := by
  induction arguments generalizing writer with
  | nil => exact .pure rfl
  | cons argument others ih =>
      refine (each argument (List.mem_cons_self ..) writer (.refl writer)).bind
        fun first middle before => ?_
      refine (ih fun other member later after =>
        each other (List.mem_cons_of_mem _ member) later (before.trans after)).bind
          fun rest last _ => .pure (List.map_append ..).symm

/-- Steps whose results do not change under new handles run one after the other. -/
theorem all {ε ζ : Type} {step : ε → Write (List α)} {again : ζ → Write (List α)}
    {handle : ε → ζ} {arguments : List ε}
    (each : ∀ argument ∈ arguments, ∀ middle, writer.Before middle →
      rerun.Repeats deep (step argument) (again (handle argument)) id middle) :
    rerun.Repeats deep (Write.concat step arguments) (Write.concat again (arguments.map handle)) id
      writer := by
  have whole :
    rerun.Repeats deep (Write.concat step arguments) (Write.concat again (arguments.map handle))
      (List.map id) writer := concat (by simpa only [List.map_id_fun] using each)
  simpa only [List.map_id_fun] using whole

end Repeats

/-! ### Loops

The nodes of a graph are written in the order of its lists, but a node that has been written with
an earlier one is passed over.  Read back, the nodes are listed in the order in which they were
written, so a loop over the new list meets the nodes to be written in the same order. -/

/-- A step that is run for every element of a list that has not been written.  The log says what
has been, and in which order; an invariant of going on may be needed as well. -/
structure Loop (rerun : Rerun) (deep : Depth) (log : Writer → List γ) (invariant : Writer → Prop)
    (elements : List γ) (step again : γ → Write (List Phrase)) : Prop where
  log_before : ∀ {writer after : Writer}, writer.Before after → log writer <:+ log after
  kept : ∀ {writer after : Writer}, writer.Before after → invariant writer → invariant after
  skip : ∀ element writer, element ∈ log writer → step element writer = .ok [] writer
  skipAgain : ∀ element writer, element ∈ log writer →
    again element (writer.rename rerun.handles) = .ok [] (writer.rename rerun.handles)
  each : ∀ element ∈ elements, ∀ writer, invariant writer → element ∉ log writer →
    rerun.Repeats deep (step element) (again element) id writer ∧
      Ensures (step element) writer fun _ after => element :: log writer <:+ log after

/-- Steps run for elements under new handles. -/
theorem concat_map {ε ζ : Type} (step : ζ → Write (List α)) (handle : ε → ζ) (arguments : List ε) :
    Write.concat step (arguments.map handle) =
      Write.concat (fun argument => step (handle argument)) arguments := by
  induction arguments with
  | nil => rfl
  | cons argument others ih => simp only [List.map_cons, Write.concat, ih]

namespace Loop

open scoped List

variable {log : Writer → List γ} {invariant : Writer → Prop} {elements ordered : List γ}
  {step again : γ → Write (List Phrase)}

/-- A loop goes on writing, and in the end all elements have been written. -/
theorem ensures (loop : rerun.Loop deep log invariant elements step again)
    (begins : invariant writer) :
    Ensures (Write.concat step elements) writer fun _ after =>
      writer.Before after ∧ ∀ element ∈ elements, element ∈ log after := by
  induction elements generalizing writer with
  | nil => exact ⟨.refl writer, by simp⟩
  | cons element others ih =>
      have rest : rerun.Loop deep log invariant others step again :=
        { loop with each := fun other member => loop.each other (List.mem_cons_of_mem _ member) }
      have first : Ensures (step element) writer fun _ middle =>
          writer.Before middle ∧ element ∈ log middle := by
        by_cases done : element ∈ log writer
        · exact .intro fun value middle ran => by
            cases (loop.skip element writer done).symm.trans ran
            exact ⟨.refl writer, done⟩
        · obtain ⟨repeats, logged⟩ := loop.each element (List.mem_cons_self ..) writer begins done
          exact (repeats.before.and logged).mono fun _ _ facts =>
            ⟨facts.1, facts.2.subset (List.mem_cons_self ..)⟩
      refine first.bind fun _ middle facts => ?_
      refine (ih rest (loop.kept facts.1 begins)).bind fun _ after ended => ?_
      exact ⟨facts.1.trans ended.1, List.forall_mem_cons.mpr
        ⟨(loop.log_before ended.1).subset facts.2, ended.2⟩⟩

/-- In a list without repetitions, what stands behind an element comes after it. -/
theorem mem_of_pair_sublist {front back : List γ} {first second : γ}
    (distinct : (front ++ first :: back).Nodup) (pair : [first, second] <+ front ++ first :: back) :
    second ∈ back := by
  induction front with
  | nil =>
      rcases List.sublist_cons_iff.mp pair with later | ⟨rest, same, behind⟩
      · exact absurd (later.subset (List.mem_cons_self ..)) (List.nodup_cons.mp distinct).1
      · obtain rfl := (List.cons.inj same).2
        exact behind.subset (List.mem_singleton_self _)
  | cons head front ih =>
      obtain ⟨apart, distinct⟩ := List.nodup_cons.mp distinct
      rcases List.sublist_cons_iff.mp pair with later | ⟨rest, same, -⟩
      · exact ih distinct later
      · obtain rfl := (List.cons.inj same).1
        exact absurd (List.mem_append_right _ (List.mem_cons_self ..)) apart

/-- Steps for several arguments succeed where the first one does and the others do. -/
theorem concat_cons_eq_ok {element : γ} {others : List γ} {writer after : Writer}
    {values : List Phrase} :
    Write.concat step (element :: others) writer = .ok values after ↔
      ∃ first middle rest, step element writer = .ok first middle ∧
        Write.concat step others middle = .ok rest after ∧ values = first ++ rest := by
  cases one : step element writer with
  | error error later => simp [Write.concat, Bind.bind, EStateM.bind, one]
  | ok first middle =>
      cases two : Write.concat step others middle with
      | error error later => simp [Write.concat, Bind.bind, EStateM.bind, one, two]
      | ok rest later =>
          have ran : Write.concat step (element :: others) writer = .ok (first ++ rest) later := by
            simp only [Write.concat, Bind.bind, EStateM.bind, one, two]
            rfl
          rw [ran]
          constructor
          · intro ended
            cases ended
            exact ⟨first, middle, rest, rfl, two, rfl⟩
          · rintro ⟨_, _, _, begun, ended, rfl⟩
            cases begun
            cases two.symm.trans ended
            rfl

/-- What has been written is passed over. -/
theorem concat_append_of_skip {front back : List γ} {writer : Writer}
    (skip : ∀ element ∈ front, again element writer = .ok [] writer) :
    Write.concat again (front ++ back) writer = Write.concat again back writer := by
  induction front with
  | nil => rfl
  | cons element front ih =>
      have rest := ih fun other member => skip other (List.mem_cons_of_mem _ member)
      simp only [List.cons_append, Write.concat, Bind.bind, EStateM.bind,
        skip element (List.mem_cons_self ..), rest]
      cases Write.concat again back writer <;> rfl

variable [DecidableEq γ]

/-- The first element of a new list that has not been written is the first one of the old list,
where the new list keeps to the old one or to the order of writing. -/
theorem exists_split {element : γ} {others : List γ} {middle : Writer}
    (loop : rerun.Loop deep log invariant (element :: others) step again)
    (once : (log rerun.final).Nodup) (distinct : (element :: others).Nodup)
    (undone : element ∉ log writer) (member : element ∈ ordered)
    (agree : ∀ first second, first ∉ log writer → second ∉ log writer → [first, second] <+ ordered →
      [first, second] <+ element :: others ∨ [first, second] <+ (log rerun.final).reverse)
    (logged : element :: log writer <:+ log middle) (last : middle.Before rerun.final) :
    ∃ front back, ordered = front ++ element :: back ∧ ∀ other ∈ front, other ∈ log writer := by
  have some : (ordered.find? fun other => other ∉ log writer).isSome :=
    List.find?_isSome.mpr ⟨element, member, by simpa using undone⟩
  obtain ⟨first, found⟩ := Option.isSome_iff_exists.mp some
  obtain ⟨fresh, front, back, rfl, passed⟩ := List.find?_eq_some_iff_append.mp found
  have passed : ∀ other ∈ front, other ∈ log writer := by simpa using passed
  have fresh : first ∉ log writer := by simpa using fresh
  suffices first = element from ⟨front, back, this ▸ rfl, passed⟩
  by_contra apart
  have behind : element ∈ back := by
    rcases List.mem_append.mp member with before | after
    · exact absurd (passed element before) undone
    · exact (List.mem_cons.mp after).resolve_left (Ne.symm apart)
  have pair : [first, element] <+ front ++ first :: back :=
    (List.Sublist.cons_cons _ (List.singleton_sublist.mpr behind)).trans
      (List.sublist_append_right _ _)
  rcases agree first element fresh undone pair with kept | written
  · rcases List.sublist_cons_iff.mp kept with later | ⟨rest, same, -⟩
    · exact (List.nodup_cons.mp distinct).1
        (later.subset (List.mem_cons_of_mem _ (List.mem_singleton_self _)))
    · exact apart (List.cons.inj same).1
  · obtain ⟨newer, whole⟩ := logged.trans (loop.log_before last)
    rw [← whole] at once written
    have older := mem_of_pair_sublist once (by simpa using written.reverse :
      [element, first] <+ newer ++ element :: log writer)
    exact fresh older

/-- A loop over the new list does what the loop over the old list did. -/
theorem repeats (loop : rerun.Loop deep log invariant elements step again)
    (once : (log rerun.final).Nodup) (distinct : elements.Nodup) (begins : invariant writer)
    (same : ∀ element, element ∉ log writer → (element ∈ elements ↔ element ∈ ordered))
    (agree : ∀ first second, first ∉ log writer → second ∉ log writer → [first, second] <+ ordered →
      [first, second] <+ elements ∨ [first, second] <+ (log rerun.final).reverse) :
    rerun.Repeats deep (Write.concat step elements) (Write.concat again ordered) id writer := by
  refine .intro fun values after ran => ?_
  refine ⟨((loop.ensures begins).of_ok ran).1, fun enough last => ?_⟩
  -- The induction is on what is still to be done; what is done already is skipped on both sides.
  induction elements generalizing writer ordered values with
  | nil =>
      cases ran
      have skipped : Write.concat again (ordered ++ []) (after.rename rerun.handles) = _ :=
        concat_append_of_skip fun element member => loop.skipAgain element after
          (Classical.not_not.mp fun undone =>
            absurd ((same element undone).mpr member) List.not_mem_nil)
      rw [List.append_nil] at skipped
      exact skipped
  | cons element others ih =>
      have rest : rerun.Loop deep log invariant others step again :=
        { loop with each := fun other member => loop.each other (List.mem_cons_of_mem _ member) }
      have fewer := (List.nodup_cons.mp distinct).2
      obtain ⟨found, middle, more, first, ended, rfl⟩ := concat_cons_eq_ok.mp ran
      by_cases done : element ∈ log writer
      · cases (loop.skip element writer done).symm.trans first
        refine ih rest fewer begins (fun other undone => ?_) (fun first second one two pair => ?_)
          _ ended enough
        · rw [← same other undone, List.mem_cons]
          refine (or_iff_right fun here => undone ?_).symm
          exact here ▸ done
        · refine (agree first second one two pair).imp_left fun kept => ?_
          rcases List.sublist_cons_iff.mp kept with later | ⟨behind, here, -⟩
          · exact later
          · exact absurd done ((List.cons.inj here).1 ▸ one)
      -- In the other order some that are done already may stand before this one.
      · obtain ⟨repeats, logs⟩ := loop.each element (List.mem_cons_self ..) writer begins done
        obtain ⟨before, repeated⟩ := repeats.of_ok first
        have logged := logs.of_ok first
        have known : ∀ other ∈ log writer, other ∈ log middle := (loop.log_before before).subset
        have onward := ((rest.ensures (loop.kept before begins)).of_ok ended).1
        have near := onward.trans last
        obtain ⟨front, back, rfl, passed⟩ := loop.exists_split once distinct done
          ((same element done).mp (List.mem_cons_self ..)) agree logged near
        have onto : Write.concat again back (middle.rename rerun.handles) =
            .ok (id more) (after.rename rerun.handles) :=
          ih rest fewer (loop.kept before begins) (fun other undone => ?_)
            (fun first second one two pair => ?_) _ ended (enough.mono before)
        · rw [concat_append_of_skip fun other member =>
            loop.skipAgain other writer (passed other member)]
          exact concat_cons_eq_ok.mpr ⟨_, _, _, repeated enough near, onto, rfl⟩
        · have fresh : other ∉ log writer := fun member => undone (known other member)
          have apart : other ≠ element := fun here =>
            undone (here ▸ logged.subset (List.mem_cons_self ..))
          have absent : other ∉ front := fun member => fresh (passed other member)
          simpa [apart, absent] using same other fresh
        · have fresh : ∀ {other}, other ∉ log middle → other ∉ log writer := fun undone member =>
            undone (known _ member)
          have behind : [first, second] <+ front ++ element :: back :=
            pair.trans ((List.sublist_cons_self ..).trans (List.sublist_append_right ..))
          refine (agree first second (fresh one) (fresh two) behind).imp_left fun kept => ?_
          rcases List.sublist_cons_iff.mp kept with later | ⟨_, here, -⟩
          · exact later
          · refine absurd ?_ one
            exact (List.cons.inj here).1 ▸ logged.subset (List.mem_cons_self ..)

end Loop

end Rerun

end ConceptualGraph
