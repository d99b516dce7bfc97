/-
Module: ConceptualGraph.Proofs.Stable.Node
Purpose: Concepts, actors and negations of a copy are written as those that it copies.
Main exports: Write.repeats_openLabel, Write.repeats_reference, Write.repeats_emitConcept,
  Write.repeats_actor, Write.repeats_negation
-/
import ConceptualGraph.Proofs.Copy.Written
import ConceptualGraph.Proofs.Stable.Plan
import ConceptualGraph.Proofs.Writing.Tally

namespace ConceptualGraph

/-- Whether graphs that are begun are written again under new handles, where some nodes have been
written before. -/
def Rerun.Nested (rerun : Rerun) (deep : Depth) (model : Model) (inner again : Inner) : Prop :=
  ∀ graph, model.Begun rerun.final.order graph → ∀ writer,
    rerun.Repeats deep (inner graph) (again (rerun.handles.graph graph)) id writer

namespace Rerun.Nested

variable {rerun : Rerun} {deep : Depth} {model : Model} {inner again : Inner}

/-- What is nested is repeated as well after one more concept has been emitted. -/
theorem emit (nested : rerun.Nested deep model inner again) :
    rerun.Nested deep.emit model inner again :=
  fun graph begun writer => (nested graph begun writer).weaken fun _ enough =>
    ⟨Nat.le_of_succ_le enough.concepts, enough.relations⟩

/-- What is nested is repeated as well after one more relation has been begun. -/
theorem begin (nested : rerun.Nested deep.emit model inner again) :
    rerun.Nested deep.begin.emit model inner again :=
  fun graph begun writer => (nested graph begun writer).weaken fun _ enough =>
    ⟨enough.concepts, Nat.le_of_succ_le enough.relations⟩

end Rerun.Nested

namespace Write

open Phrase (join mark ofToken space)

variable {rerun : Rerun} {deep : Depth} {model copy : Model} {inner again : Inner}
  {plan planAgain : Plan} {writer : Writer} {concept : ConceptId} {relation : RelationId}

/-! ## What has been written -/

section Tables

variable (injective : rerun.handles.Injective)

include injective

omit injective in
/-- A concept has been emitted if it is in the order. -/
theorem isSome_lookup_emitted :
    (writer.emitted.lookup concept).isSome = true ↔ concept ∈ writer.order := by
  simp only [List.lookup_isSome_iff, Writer.order, List.mem_map, beq_iff_eq]
  exact exists_congr fun entry => and_congr_right fun _ => eq_comm

omit injective in
theorem mem_order_rename (member : concept ∈ writer.order) :
    rerun.handles.concept concept ∈ (writer.rename rerun.handles).order := by
  obtain ⟨entry, among, rfl⟩ := List.mem_map.mp member
  exact List.mem_map.mpr ⟨_, List.mem_map_of_mem among, rfl⟩

theorem repeats_isEmitted (concept : ConceptId) :
    rerun.Repeats deep (isEmitted concept)
      (isEmitted (rerun.handles.concept concept)) id writer := by
  unfold isEmitted
  exact .get (.pure (by rw [Writer.lookup_rename injective]; rfl))

/-- Those of some relations that have not been written are copied. -/
theorem filter_contains_rename (relations : List RelationId) :
    (relations.map rerun.handles.relation).filter (fun relation =>
        !(writer.rename rerun.handles).written.contains relation) =
      (relations.filter fun relation => !writer.written.contains relation).map
        rerun.handles.relation := by
  rw [List.filter_map]
  refine congrArg _ (List.filter_congr fun relation _ => ?_)
  simp only [Function.comp_apply, Writer.contains_written_rename injective]

/-! ## Labels -/

/-- A label that is given to a target is given to its copy. -/
theorem repeats_labelFor (target : Target) :
    rerun.Repeats deep (labelFor target) (labelFor (target.rename rerun.handles)) id writer := by
  unfold labelFor
  refine .get ?_
  rw [Writer.labels_rename, LabelTable.name?_rename injective]
  cases writer.labels.name? target with
  | some label => exact .pure rfl
  | none =>
      refine .get ?_
      rw [Writer.labels_rename, LabelTable.freshLabel_rename]
      refine (Rerun.Repeats.modify ⟨List.suffix_rfl, List.suffix_rfl⟩ ?_).bind
        fun _ middle _ => .pure rfl
      exact congrArg (fun labels => ({ writer.rename rerun.handles with labels } : Writer))
        (LabelTable.bind_rename injective _ _)

end Tables

section

variable (relists : rerun.Relists model copy)

include relists

theorem repeats_openLabel (concept : ConceptId) (needed : Bool) :
    rerun.Repeats deep (openLabel model concept needed)
      (openLabel copy (rerun.handles.concept concept) needed) id writer := by
  unfold openLabel
  rw [relists.old.sharedSet?, relists.new.sharedSet?]
  refine .get (.ite ?_ (fun _ => ?_) fun _ => .pure rfl)
  · rw [Writer.labels_rename, ← Target.rename_concept, LabelTable.name?_rename relists.injective]
  · exact (repeats_labelFor relists.injective (.concept concept)).bind fun _ _ _ => .pure rfl

/-- A concept is known again by the label by which it was known. -/
theorem repeats_knownLabel (concept : ConceptId) :
    rerun.Repeats deep (knownLabel model concept) (knownLabel copy (rerun.handles.concept concept))
      id writer := by
  unfold knownLabel
  rw [relists.old.alone, relists.new.alone]
  refine .get ?_
  dsimp only [List.head?_nil]
  rw [Writer.labels_rename, ← Target.rename_concept, LabelTable.name?_rename relists.injective]
  cases writer.labels.name? (.concept concept) with
  | some label => exact .pure rfl
  | none => exact .throw _

/-- A concept is referred to again by the label by which it was referred to. -/
theorem repeats_reference (concept : ConceptId) :
    rerun.Repeats deep (reference model concept) (reference copy (rerun.handles.concept concept))
      id writer := by
  unfold reference
  refine .get ?_
  rw [Writer.lookup_rename relists.injective]
  cases writer.emitted.lookup concept with
  | none => exact (repeats_knownLabel relists concept).bind fun _ _ _ => .pure rfl
  | some label =>
      cases label with
      | none => exact .throw _
      | some label => exact .pure rfl

/-! ## Parts -/

/-- A designator is written again as it was, up to the copies of what it stands for. -/
theorem repeats_designator (value : Designator) :
    rerun.Repeats deep (designator model value) (designator copy (rerun.handles.designator value))
      id writer := by
  cases value with
  | literal value => exact .pure rfl
  | name name => exact .pure rfl
  | defined id => exact repeats_reference relists id
  | marker marker =>
      refine Rerun.Repeats.followed ?_ fun foreign middle _ => .pure rfl
      unfold markerId
      refine .get ?_
      rw [Writer.markers_rename, MarkerTable.foreignIdFor_rename relists.injective]
      refine Rerun.Repeats.bind (.modify ?_ ?_) fun _ middle _ => .pure rfl
      · exact ⟨List.suffix_rfl, List.suffix_rfl⟩
      · rfl

theorem repeats_nestedGraph (nested : rerun.Nested deep model inner again) {graph : GraphId}
    (begun : model.Begun rerun.final.order graph) :
    rerun.Repeats deep (nestedGraph inner graph) (nestedGraph again (rerun.handles.graph graph)) id
      writer :=
  .inContext relists.injective ((nested graph begun _).bind fun _ _ _ => .pure rfl)

/-- What a concept refers to is written again part by part, and the graph that it describes as a
whole. -/
theorem repeats_referentParts (nested : rerun.Nested deep model inner again) {referent : Referent}
    (begun : ∀ graph, referent.descriptor = some graph → model.Begun rerun.final.order graph) :
    rerun.Repeats deep (referentParts model inner referent)
      (referentParts copy again (rerun.handles.referent referent)) id writer := by
  unfold referentParts
  simp only [Renaming.referent, Option.toList_map]
  refine Rerun.Repeats.followed (.all fun value _ middle _ =>
    (repeats_designator relists value).bind fun _ _ _ => .pure rfl) fun designators later _ => ?_
  refine Rerun.Repeats.followed (.all fun graph member middle _ =>
    (repeats_nestedGraph relists nested (begun graph (Option.mem_toList.mp member))).bind
      fun _ _ _ => .pure rfl) fun descriptors after _ => ?_
  exact .pure rfl

omit relists in
/-- The name of a type is its label. -/
theorem typeName_eq (type : Option ConceptType) : typeName model type =
    (type.map model.hierarchy.concepts.label?).elim [] fun label =>
      ofToken (.ident (label.getD "")) := by
  cases type <;> rfl

/-- The type of a relation or actor is written as its label, if it has one. -/
theorem repeats_relationType (known : relation ∈ rerun.final.written) :
    rerun.Repeats deep (relationType model inner relation)
      (relationType copy again (rerun.handles.relation relation)) id writer := by
  have same := (relists.relation relation known).type
  unfold relationType
  cases typed : (model.relation relation).type with
  | none => exact .throw _
  | some type =>
      obtain ⟨label, known⟩ := relists.old.relationType relation type typed
      rw [typed] at same
      cases also : (copy.relation (rerun.handles.relation relation)).type with
      | none => simp [also] at same
      | some image =>
          have named : copy.hierarchy.relations.label? image = some label := by
            simpa [also, known] using same
          simp only [known, named]
          exact .pure rfl

/-! ## Concepts -/

/-- A context is written again as it was, around a graph that is. -/
theorem repeats_specialContext (nested : rerun.Nested deep model inner again) (label : String)
    {descriptor : Option GraphId}
    (begun : ∀ graph, descriptor = some graph → model.Begun rerun.final.order graph) :
    rerun.Repeats deep (specialContext inner label descriptor)
      (specialContext again label (descriptor.map rerun.handles.graph)) id writer := by
  unfold specialContext
  cases descriptor with
  | none => exact .pure rfl
  | some graph =>
      simp only [Option.map_some, pure_bind]
      exact (repeats_nestedGraph relists nested (begun graph rfl)).bind fun _ _ _ => .pure rfl

/-- A concept that is no context is written again as it was. -/
theorem repeats_plainConcept (nested : rerun.Nested deep model inner again)
    (known : concept ∈ rerun.final.order) (use : Option LabelUse) :
    rerun.Repeats deep (plainConcept model inner concept use)
      (plainConcept copy again (rerun.handles.concept concept) use) id writer := by
  have keeps := relists.concept concept known
  have typed : (copy.concept (rerun.handles.concept concept)).type.isSome =
      (model.concept concept).type.isSome := by
    simpa using congrArg Option.isSome keeps.type
  unfold plainConcept
  simp only [relists.old.undefined, relists.new.undefined, Option.isSome_none, Bool.false_and,
    Bool.false_eq_true, if_false, concat_conceptType relists.old.toTypesNamed,
    concat_conceptType relists.new.toTypesNamed, pure_bind, keeps.comment, typed, typeName_eq,
    keeps.type, keeps.referent, Option.toList_map]
  refine Rerun.Repeats.followed (.all fun referent member middle _ =>
    repeats_referentParts relists nested fun graph described => ?_) fun _ _ _ => .pure rfl
  refine .inr ⟨concept, known, ?_⟩
  simp [Model.descriptor?, Option.mem_toList.mp member, described]

/-- The graph that describes a copy is the copy of the one that describes the original. -/
theorem descriptor?_eq (known : concept ∈ rerun.final.order) :
    copy.descriptor? (rerun.handles.concept concept) =
      (model.descriptor? concept).map rerun.handles.graph := by
  unfold Model.descriptor?
  rw [(relists.concept concept known).referent]
  cases (model.concept concept).referent <;> rfl

/-- What is written for a concept after it is remembered that it is written. -/
theorem repeats_body (nested : rerun.Nested deep model inner again)
    (known : concept ∈ rerun.final.order) (use : Option LabelUse) :
    rerun.Repeats deep
      (match (model.concept concept).special with
        | some special => specialContext inner special (model.descriptor? concept)
        | none => plainConcept model inner concept use)
      (match (copy.concept (rerun.handles.concept concept)).special with
        | some special =>
            specialContext again special (copy.descriptor? (rerun.handles.concept concept))
        | none => plainConcept copy again (rerun.handles.concept concept) use) id writer := by
  rw [(relists.concept concept known).special, descriptor?_eq relists known]
  cases (model.concept concept).special with
  | some special =>
      exact repeats_specialContext relists nested special fun graph describes =>
        .inr ⟨concept, known, describes⟩
  | none => exact repeats_plainConcept relists nested known use

theorem repeats_emitConcept (nested : rerun.Nested deep.emit model inner again)
    (known : concept ∈ rerun.final.order) (use : Option LabelUse) :
    rerun.Repeats deep (emitConcept model inner concept use)
      (emitConcept copy again (rerun.handles.concept concept) use) id writer :=
  .emit (repeats_body relists nested known use)

/-- Nothing is written before a concept that is written out. -/
theorem opens_emitConcept (nested : rerun.Nested deep.emit model inner again)
    (known : concept ∈ rerun.final.order) (use : Option LabelUse) :
    Ensures (emitConcept model inner concept use) writer fun _ after =>
      concept :: writer.order <:+ after.order :=
  ensures_bind.mpr ((repeats_body relists nested known use).before.mono
    fun _ _ before => before.order)

theorem repeats_firstEmission (replans : rerun.Replans model plan planAgain)
    (nested : rerun.Nested deep.emit model inner again) (known : concept ∈ rerun.final.order) :
    rerun.Repeats deep (firstEmission model inner plan concept)
      (firstEmission copy again planAgain (rerun.handles.concept concept)) id writer := by
  unfold firstEmission needsLabel
  rw [replans.needsLabel, relists.old.undefined, relists.new.undefined]
  exact (repeats_openLabel relists concept _).bind fun use middle _ =>
    repeats_emitConcept relists nested known use

/-- The concept of a first emission is put on the order. -/
theorem opens_firstEmission (nested : rerun.Nested deep.emit model inner again) (plan : Plan)
    (known : concept ∈ rerun.final.order) :
    Ensures (firstEmission model inner plan concept) writer fun _ after =>
      concept :: writer.order <:+ after.order := by
  refine (quiet_openLabel concept _ writer ⟨rfl, rfl⟩).bind fun use middle facts => ?_
  rw [← show middle.order = writer.order from congrArg (List.map Prod.fst) facts.1.1]
  exact opens_emitConcept relists nested known use

/-! ## Actors and negations -/

theorem repeats_actorArgs (args : List ConceptId) :
    rerun.Repeats deep (actorArgs model args)
      (actorArgs copy (args.map rerun.handles.concept)) id writer := by
  unfold actorArgs
  exact .all fun argument _ _ _ => (repeats_reference relists argument).bind fun _ _ _ => .pure rfl

variable (deep again) in
/-- An actor is written again as it was, and is marked as written first. -/
theorem repeats_actor (known : relation ∈ rerun.final.written) :
    rerun.Repeats deep (actor model inner relation)
        (actor copy again (rerun.handles.relation relation)) id writer ∧
      Ensures (actor model inner relation) writer fun _ after =>
        relation :: writer.written <:+ after.written := by
  have keeps := relists.relation relation known
  have inputs : (copy.relation (rerun.handles.relation relation)).inputs =
      (model.relation relation).inputs.map rerun.handles.concept := by
    unfold Relation.inputs
    rw [keeps.role, keeps.args]
    cases (model.relation relation).role with
    | relation => rfl
    | actor outputsFrom => exact List.map_take.symm
  have outputs : (copy.relation (rerun.handles.relation relation)).outputs =
      (model.relation relation).outputs.map rerun.handles.concept := by
    unfold Relation.outputs
    rw [keeps.role, keeps.args]
    cases (model.relation relation).role with
    | relation => rfl
    | actor outputsFrom => exact List.map_drop.symm
  unfold actor
  refine Rerun.Repeats.marked ?_
  refine (repeats_relationType relists known).bind fun type _ _ => ?_
  rw [inputs, outputs, keeps.comment]
  refine (repeats_actorArgs relists _).bind fun inputs _ _ => ?_
  exact (repeats_actorArgs relists _).bind fun outputs _ _ => .pure rfl

/-- A negation is written again as it was, and is marked as written first. -/
theorem repeats_negation (nested : rerun.Nested deep.emit model inner again)
    (known : relation ∈ rerun.final.written) :
    rerun.Repeats deep (negation model inner relation)
        (negation copy again (rerun.handles.relation relation)) id writer ∧
      Ensures (negation model inner relation) writer fun _ after =>
        relation :: writer.written <:+ after.written := by
  unfold negation
  refine Rerun.Repeats.marked ?_
  rw [(relists.relation relation known).args, ← List.map_take]
  refine Rerun.Repeats.followed (.all fun wrapper member middle _ => .emit ?_)
    fun body _ _ => .pure rfl
  have written := relists.args relation known wrapper (List.mem_of_mem_take member)
  rw [descriptor?_eq relists written, Option.toList_map]
  exact .all fun graph describes _ _ => repeats_nestedGraph relists nested.begin
    (.inr ⟨wrapper, written, Option.mem_toList.mp describes⟩)

/-- Comments of a copy are those of the graph. -/
theorem comments_eq {graph : GraphId} (begun : model.Begun rerun.final.order graph) :
    comments copy (rerun.handles.graph graph) = comments model graph := by
  unfold comments
  rw [relists.comments graph begun]

end

end Write

end ConceptualGraph
