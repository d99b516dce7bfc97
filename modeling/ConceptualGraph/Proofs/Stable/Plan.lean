/-
Module: ConceptualGraph.Proofs.Stable.Plan
Purpose: The plan of a graph whose nodes are listed in the order in which they have been written:
  it keeps to that order, and else it is the plan of the graph that was written.
Main exports: Model.Unlinked, Rerun.Relists, Plan.order_eq, Rerun.Replans, Rerun.Relists.replans
-/
import ConceptualGraph.Proofs.Model.Nested
import ConceptualGraph.Proofs.Stable.Rerun
import ConceptualGraph.Proofs.Writing.Plan
import ConceptualGraph.Proofs.Writing.Progress
import Mathlib.Data.List.Count

namespace ConceptualGraph

/-! ## Models listed anew -/

/-- A model in which no concept refers to another one, and every type of a node has a label. -/
structure Model.Unlinked (model : Model) : Prop extends model.TypesNamed where
  listed : model.Listed
  alone : ∀ concept, (model.concept concept).corefSets = []
  undefined : ∀ concept, model.designates? concept = none

theorem Model.Unlinked.sharedSet? {model : Model} (unlinked : model.Unlinked)
    (concept : ConceptId) : model.sharedSet? concept = none := by
  simp [Model.sharedSet?, unlinked.alone]

/-- A model that is the same as another one under new handles, as far as this has been written in
the end, but for the lists of its graphs: they follow the order of writing. -/
structure Rerun.Relists (rerun : Rerun) (model copy : Model) : Prop where
  injective : rerun.handles.Injective
  old : model.Unlinked
  new : copy.Unlinked
  concept : ∀ concept ∈ rerun.final.order,
    model.KeepsConcept copy rerun.handles concept (rerun.handles.concept concept)
  relation : ∀ relation ∈ rerun.final.written,
    model.KeepsRelation copy rerun.handles relation (rerun.handles.relation relation)
  args : ∀ relation ∈ rerun.final.written, ∀ concept ∈ (model.relation relation).args,
    concept ∈ rerun.final.order
  comments : ∀ graph, model.Begun rerun.final.order graph →
    (copy.graph (rerun.handles.graph graph)).comments = (model.graph graph).comments
  conceptOnce : rerun.final.order.Nodup
  relationOnce : rerun.final.written.Nodup
  filled : ∀ graph, model.Begun rerun.final.order graph → model.Filled rerun.final graph
  concepts : ∀ graph, model.Begun rerun.final.order graph →
    (copy.graph (rerun.handles.graph graph)).concepts =
      (model.conceptsIn graph rerun.final.order.reverse).map rerun.handles.concept
  relations : ∀ graph, model.Begun rerun.final.order graph →
    (copy.graph (rerun.handles.graph graph)).relations =
      (model.relationsIn graph rerun.final.written.reverse).map rerun.handles.relation
  conceptCount : rerun.final.order.length ≤ model.concepts.size ∧
    rerun.final.order.length ≤ copy.concepts.size
  relationCount : rerun.final.written.length ≤ model.relations.size ∧
    rerun.final.written.length ≤ copy.relations.size

/-! ## Orders of writing -/

namespace Plan

open scoped List

variable {model : Model} {graph : GraphId}

/-- Elements with a property go first, and none comes twice. -/
theorem eraseDups_filter_append {α : Type} [BEq α] [LawfulBEq α] {elements : List α}
    (distinct : elements.Nodup) (first : α → Bool) :
    (elements.filter first ++ elements).eraseDups =
      elements.filter first ++ elements.filter fun element => !first element := by
  have once : ∀ elements : List α, elements.Nodup → elements.eraseDups = elements := by
    intro elements distinct
    induction elements with
    | nil => rfl
    | cons element others ih =>
        obtain ⟨apart, distinct⟩ := List.nodup_cons.mp distinct
        have kept : others.filter (fun other => !other == element) = others :=
          List.filter_eq_self.mpr fun other member => by
            simpa using fun same : other = element => apart (same ▸ member)
        rw [List.eraseDups_cons, kept, ih distinct]
  have others : elements.removeAll (elements.filter first) =
      elements.filter fun element => !first element :=
    List.filter_congr fun element member => by simp [member]
  rw [List.eraseDups_append, others, once _ (distinct.filter _), once _ (distinct.filter _)]

/-- The concepts of a graph that are not hidden. -/
def visible (model : Model) (graph : GraphId) : List ConceptId :=
  (model.graph graph).concepts.filter fun concept => !(model.concept concept).hidden

/-- Whether a concept begins a relation of a graph. -/
def starts (model : Model) (graph : GraphId) (concept : ConceptId) : Bool :=
  !((ofGraph model graph).primary concept).isEmpty

/-- Where no concept refers to another one, those that begin relations come first. -/
theorem order_eq (unlinked : model.Unlinked) :
    (ofGraph model graph).order = (visible model graph).filter (starts model graph) ++
      (visible model graph).filter fun concept => !starts model graph concept := by
  have leading : (visible model graph).filter (fun concept =>
      (model.designated (model.graphs.size + 1) graph).contains concept ||
        model.definesSharedSet concept) = [] := by
    simp [designated_eq_nil unlinked.undefined, Model.definesSharedSet, unlinked.sharedSet?]
  have distinct : (visible model graph).Nodup := (unlinked.listed.nodup_concepts graph).filter _
  rw [← eraseDups_filter_append distinct, ← List.nil_append (List.filter (starts model graph) _),
    ← leading]
  rfl

end Plan

/-! ## Plans of copies -/

/-- The plan of a copy of a graph: it asks for the same labels, and what it lists follows the
order of writing, but for concepts of which one begins relations and the other one does not. -/
structure Rerun.Replans (rerun : Rerun) (model : Model) (plan copy : Plan) : Prop where
  needsLabel : ∀ concept, copy.needsLabel (rerun.handles.concept concept) = plan.needsLabel concept
  distinct : plan.order.Nodup
  order : ∃ ordered : List ConceptId, copy.order = ordered.map rerun.handles.concept ∧
    (∀ concept, concept ∈ plan.order ↔ concept ∈ ordered) ∧
    ∀ first second, [first, second].Sublist ordered →
      [first, second].Sublist plan.order ∨ [first, second].Sublist rerun.final.order.reverse
  primary : ∀ concept, ∃ ordered : List RelationId,
    copy.primary (rerun.handles.concept concept) = ordered.map rerun.handles.relation ∧
    ordered.Perm (plan.primary concept) ∧ ordered.Sublist rerun.final.written.reverse
  first : ∀ concept, ∀ relation ∈ plan.primary concept,
    (model.relation relation).args.head? = some concept

/-- The relations that begin with a concept have been written in the end. -/
theorem Rerun.Replans.mem_written {rerun : Rerun} {model : Model} {plan copy : Plan}
    (replans : rerun.Replans model plan copy) {concept : ConceptId} {relation : RelationId}
    (member : relation ∈ plan.primary concept) : relation ∈ rerun.final.written := by
  obtain ⟨ordered, -, perm, sorted⟩ := replans.primary concept
  exact List.mem_reverse.mp (sorted.subset (perm.mem_iff.mpr member))

namespace Rerun.Relists

open scoped List

variable {rerun : Rerun} {model copy : Model} (relists : rerun.Relists model copy)

include relists

/-- A relation is an actor exactly if its copy is. -/
theorem isActor_eq {relation : RelationId} (known : relation ∈ rerun.final.written) :
    (copy.relation (rerun.handles.relation relation)).isActor =
      (model.relation relation).isActor := by
  simp only [Relation.isActor, (relists.relation relation known).role]

/-- A relation that has been written is a negation exactly if its copy is one. -/
theorem isNegation_eq {relation : RelationId} (known : relation ∈ rerun.final.written) :
    copy.isNegation (rerun.handles.relation relation) = model.isNegation relation := by
  have among := relists.args relation known
  unfold Model.isNegation
  rw [(relists.relation relation known).args]
  match args : (model.relation relation).args with
  | [] => rfl
  | [concept] => exact (relists.concept concept (among concept (by simp [args]))).hidden
  | _ :: _ :: _ => rfl

section Listed

variable {graph : GraphId} (begun : model.Begun rerun.final.order graph)

include begun

/-- The concepts of a graph in the order of writing are those that it lists. -/
theorem perm_concepts :
    (model.conceptsIn graph rerun.final.order.reverse).Perm (model.graph graph).concepts := by
  refine (List.perm_ext_iff_of_nodup ((List.nodup_reverse.mpr relists.conceptOnce).filter _)
    (relists.old.listed.nodup_concepts graph)).mpr fun concept => ?_
  rw [relists.old.listed.mem_concepts, List.mem_filter, List.mem_reverse, decide_eq_true_eq,
    and_iff_right_iff_imp]
  exact (relists.filled graph begun).concepts concept

/-- All relations of a graph have been written, each of them once. -/
theorem perm_relations :
    (model.relationsIn graph rerun.final.written.reverse).Perm (model.graph graph).relations := by
  refine (List.perm_ext_iff_of_nodup ((List.nodup_reverse.mpr relists.relationOnce).filter _)
    (relists.old.listed.nodup_relations graph)).mpr fun relation => ?_
  rw [relists.old.listed.mem_relations, List.mem_filter, List.mem_reverse, decide_eq_true_eq,
    and_iff_right_iff_imp]
  exact (relists.filled graph begun).relations relation

/-- The concepts that a graph asks to be written are written. -/
theorem mem_order {concept : ConceptId} (member : concept ∈ (Plan.ofGraph model graph).order) :
    concept ∈ rerun.final.order :=
  (relists.filled graph begun).concepts concept
    ((relists.old.listed.mem_concepts graph concept).mp (Plan.mem_order.mp member).1)

theorem mem_written {relation : RelationId} (member : relation ∈ (model.graph graph).relations) :
    relation ∈ rerun.final.written :=
  (relists.filled graph begun).relations relation
    ((relists.old.listed.mem_relations graph relation).mp member)

/-- The relations and actors of a copy that do not negate, in the order of writing. -/
theorem exists_links : ∃ links : List RelationId,
    Plan.links copy (rerun.handles.graph graph) = links.map rerun.handles.relation ∧
      links.Perm (Plan.links model graph) ∧ links <+ rerun.final.written.reverse := by
  refine ⟨(model.relationsIn graph rerun.final.written.reverse).filter
    fun relation => !model.isNegation relation, ?_, (relists.perm_relations begun).filter _,
      List.filter_sublist.trans List.filter_sublist⟩
  rw [Plan.links, relists.relations graph begun, List.filter_map]
  refine congrArg _ (List.filter_congr fun relation member => ?_)
  have known := List.mem_reverse.mp (List.mem_of_mem_filter member)
  simp [relists.isNegation_eq known]

end Listed

section Links

variable {links old : List RelationId} (perm : links.Perm old)
  (sorted : links <+ rerun.final.written.reverse) (concept : ConceptId)

include perm sorted

/-- The references to a copy are those to the concept, in the order in which they were written. -/
theorem references_eq :
    Plan.references copy (links.map rerun.handles.relation) (rerun.handles.concept concept) =
      Plan.references model old concept := by
  have counts : links.map ((fun relation => (copy.relation relation).args.count
      (rerun.handles.concept concept)) ∘ rerun.handles.relation) =
        links.map fun relation => (model.relation relation).args.count concept := by
    refine List.map_congr_left fun relation member => ?_
    have known := List.mem_reverse.mp (sorted.subset member)
    simp only [Function.comp_apply, (relists.relation relation known).args]
    exact List.count_map_of_injective _ _ relists.injective.concept _
  unfold Plan.references
  rw [List.map_map, counts]
  exact (perm.map _).sum_eq

/-- A concept serves an actor exactly if its copy does. -/
theorem servesActor_eq :
    Plan.servesActor copy (links.map rerun.handles.relation) (rerun.handles.concept concept) =
      Plan.servesActor model old concept := by
  unfold Plan.servesActor
  rw [List.any_map, ← perm.any_eq, Bool.eq_iff_iff, List.any_eq_true, List.any_eq_true]
  refine exists_congr fun relation => and_congr_right fun member => ?_
  have known := List.mem_reverse.mp (sorted.subset member)
  simp only [Function.comp_apply, relists.isActor_eq known, (relists.relation relation known).args,
    Bool.and_eq_true, List.contains_iff_mem, List.mem_map_of_injective relists.injective.concept]

omit perm in
/-- The relations of a copy that begin with a concept. -/
theorem primaries_eq :
    Plan.primaries copy (links.map rerun.handles.relation) (rerun.handles.concept concept) =
      (Plan.primaries model links concept).map rerun.handles.relation := by
  unfold Plan.primaries
  rw [List.filter_map]
  refine congrArg _ (List.filter_congr fun relation member => ?_)
  have known := List.mem_reverse.mp (sorted.subset member)
  simp only [Function.comp_apply, relists.isActor_eq known, (relists.relation relation known).args,
    List.head?_map]
  cases (model.relation relation).args.head? with
  | none => rfl
  | some first =>
      have same : (some (rerun.handles.concept first) == some (rerun.handles.concept concept)) =
          (some first == some concept) := by
        rw [Bool.eq_iff_iff, beq_iff_eq, beq_iff_eq]
        simp [relists.injective.concept.eq_iff]
      rw [Option.map_some, same]

end Links

section Planned

variable {graph : GraphId} (begun : model.Begun rerun.final.order graph)

include begun

/-- The relations of a copy that begin with a concept, in the order of writing. -/
theorem exists_primary (concept : ConceptId) : ∃ ordered : List RelationId,
    (Plan.ofGraph copy (rerun.handles.graph graph)).primary (rerun.handles.concept concept) =
      ordered.map rerun.handles.relation ∧
      ordered.Perm ((Plan.ofGraph model graph).primary concept) ∧
        ordered <+ rerun.final.written.reverse := by
  obtain ⟨links, same, perm, sorted⟩ := relists.exists_links begun
  refine ⟨Plan.primaries model links concept, ?_, perm.filter _, List.filter_sublist.trans sorted⟩
  show Plan.primaries copy (Plan.links copy _) _ = _
  rw [same, relists.primaries_eq sorted]

/-- A copy of a concept begins relations if the concept does. -/
theorem starts_eq (concept : ConceptId) :
    Plan.starts copy (rerun.handles.graph graph) (rerun.handles.concept concept) =
      Plan.starts model graph concept := by
  obtain ⟨ordered, same, perm, -⟩ := relists.exists_primary begun concept
  simp only [Plan.starts, same, List.isEmpty_map]
  cases ordered with
  | nil => rw [perm.nil_eq.symm]
  | cons first others =>
      have some : (Plan.ofGraph model graph).primary concept ≠ [] := fun none => by
        rw [none] at perm
        exact absurd perm.eq_nil nofun
      simpa using List.isEmpty_eq_false_iff.mpr some

/-- A concept needs a label exactly if its copy does. -/
theorem needsLabel_eq (concept : ConceptId) :
    (Plan.ofGraph copy (rerun.handles.graph graph)).needsLabel (rerun.handles.concept concept) =
      (Plan.ofGraph model graph).needsLabel concept := by
  obtain ⟨links, same, perm, sorted⟩ := relists.exists_links begun
  simp only [Plan.ofGraph, same, relists.references_eq perm sorted,
    relists.servesActor_eq perm sorted, Plan.designated_eq_nil relists.new.undefined,
    Plan.designated_eq_nil relists.old.undefined, List.contains_nil]

/-- The visible concepts of a copy, in the order of writing. -/
theorem exists_visible : ∃ shown : List ConceptId,
    Plan.visible copy (rerun.handles.graph graph) = shown.map rerun.handles.concept ∧
      shown.Perm (Plan.visible model graph) ∧ shown <+ rerun.final.order.reverse := by
  refine ⟨(model.conceptsIn graph rerun.final.order.reverse).filter
    fun concept => !(model.concept concept).hidden, ?_, (relists.perm_concepts begun).filter _,
      List.filter_sublist.trans List.filter_sublist⟩
  rw [Plan.visible, relists.concepts graph begun, List.filter_map]
  refine congrArg _ (List.filter_congr fun concept member => ?_)
  have known := List.mem_reverse.mp (List.mem_of_mem_filter member)
  simp [(relists.concept concept known).hidden]

/-- What a copy of a graph asks of its writing is what the graph asked, in the order in which it
has been written. -/
theorem replans : rerun.Replans model (Plan.ofGraph model graph)
    (Plan.ofGraph copy (rerun.handles.graph graph)) where
  needsLabel := relists.needsLabel_eq begun
  distinct := Summary.nodup_eraseDups _
  order := by
    obtain ⟨shown, same, perm, sorted⟩ := relists.exists_visible begun
    let starts := Plan.starts model graph
    refine ⟨shown.filter starts ++ shown.filter fun concept => !starts concept, ?_,
      fun concept => ?_, fun first second pair => ?_⟩
    · rw [Plan.order_eq relists.new, same]
      simp only [List.filter_map, Function.comp_def, relists.starts_eq begun, List.map_append,
        starts]
    · rw [Plan.order_eq relists.old]
      exact (((perm.filter _).append (perm.filter _)).mem_iff).symm
    · -- two concepts of the same kind keep the order of writing, two of different kinds that
      -- of the plan
      rw [Plan.order_eq relists.old]
      obtain ⟨front, back, whole, starting, idle⟩ := List.sublist_append_iff.mp pair
      match front, back, whole with
      | [], _, rfl => exact .inr (idle.trans (List.filter_sublist.trans sorted))
      | [_], _, rfl =>
          refine .inl (.append (List.singleton_sublist.mpr ?_) (List.singleton_sublist.mpr ?_))
          · exact (perm.filter _).mem_iff.mp (List.singleton_sublist.mp starting)
          · exact (perm.filter _).mem_iff.mp (List.singleton_sublist.mp idle)
      | [_, _], [], rfl => exact .inr (starting.trans (List.filter_sublist.trans sorted))
  primary := relists.exists_primary begun
  first _ _ member := (Plan.mem_primary.mp member).2.2

end Planned

end Rerun.Relists

end ConceptualGraph
