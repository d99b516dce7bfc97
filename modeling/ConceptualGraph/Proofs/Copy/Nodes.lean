/-
Module: ConceptualGraph.Proofs.Copy.Nodes
Purpose: The nodes that have been read back so far are copies of what has been written,
  and remain so with every node that is added.
Main exports: Unfinished, Unfinished.Idle, Model.Nodes, Model.Nodes.placed, Model.Nodes.redrafted,
  Model.Nodes.settled, Model.Nodes.related
-/
import ConceptualGraph.Proofs.Copy.Ledger
import ConceptualGraph.Proofs.Model.Ascending
import ConceptualGraph.Proofs.Model.Shared

namespace ConceptualGraph

/-- What is in the middle of being read back. -/
structure Unfinished where
  /-- Concepts whose brackets are open, with their data so far. -/
  drafts : List (ConceptId × Concept) := []
  /-- The graphs whose items are being read, the innermost first. -/
  graphs : List GraphId
  /-- The graph that describes the concept begun last, until its items begin. -/
  waiting : List GraphId := []
  /-- Copies of graphs whose comments have not been read. -/
  silent : List GraphId := []
  /-- Relations that have been begun. -/
  pending : List RelationId := []

/-- Whether an item of a graph may be read next: no graph waits to be begun, and no relation of
the graph has been begun. -/
structure Unfinished.Idle (unfinished : Unfinished) (model : Model) (graph : GraphId) : Prop where
  waiting : unfinished.waiting = []
  pending : ∀ relation ∈ unfinished.pending, (model.relation relation).graph ≠ some graph

namespace Model

/-- Those of the given concepts that stand in a graph. -/
def conceptsIn (model : Model) (graph : GraphId) (concepts : List ConceptId) : List ConceptId :=
  concepts.filter fun concept => (model.concept concept).graph = some graph

/-- Those of the given relations and actors that stand in a graph. -/
def relationsIn (model : Model) (graph : GraphId) (relations : List RelationId) :
    List RelationId :=
  relations.filter fun relation => (model.relation relation).graph = some graph

/-- The nodes of a model are copies of what has been written.  In every graph they are listed
as they were made, and the relations of a graph were made in the order of writing. -/
structure Nodes (model : Model) (unfinished : Unfinished) (ledger : Ledger)
    (written : List RelationId) (copy : Model) : Prop where
  listed : copy.Listed
  ascending : copy.Ascending
  size : copy.concepts.size = ledger.concepts.length
  waiting : ∃ begun, ledger.graphs = begun ++ unfinished.waiting ∧
    begun.length = copy.graphs.size
  concept : ∀ concept other, ledger.Concept concept other →
    other ∉ unfinished.drafts.map Prod.fst → model.CopiedConcept copy ledger concept other
  distinct : (unfinished.drafts.map Prod.fst).Nodup
  draft : ∀ draft ∈ unfinished.drafts, draft.1.index < copy.concepts.size ∧
    (copy.concept draft.1).bare = draft.2
  stands : ∀ concept other, ledger.Concept concept other →
    ∀ graph, (model.concept concept).graph = some graph →
      ∃ place, ledger.Graph graph place ∧ (copy.concept other).graph = some place
  comments : ∀ graph place, ledger.Graph graph place → place.index < copy.graphs.size →
    place ∉ unfinished.silent → (copy.graph place).comments = (model.graph graph).comments
  owner : ∀ graph place, ledger.Graph graph place → place.index < copy.graphs.size →
    ∀ owner, (model.graph graph).owner = some owner →
      ∃ other, ledger.Concept owner other ∧ (copy.graph place).owner = some other
  relations : ∃ made : List RelationId, made.length = copy.relations.size ∧
    (made ++ unfinished.pending).Perm written ∧
    (∀ graph, model.relationsIn graph made ++
        (model.relationsIn graph unfinished.pending).reverse =
      model.relationsIn graph written.reverse) ∧
    ∀ place relation, made[place]? = some relation →
      model.CopiedRelation copy ledger relation ⟨place⟩

namespace Nodes

variable {model : Model} {unfinished : Unfinished} {ledger later : Ledger}
  {written : List RelationId} {copy grown : Model}

theorem lt_size (nodes : model.Nodes unfinished ledger written copy) {concept other : ConceptId}
    (copies : ledger.Concept concept other) : other.index < copy.concepts.size := by
  rw [nodes.size]
  exact copies.lt

/-- Edits that leave the data of all nodes alone, and of graphs their comments. -/
theorem mono (nodes : model.Nodes unfinished ledger written copy)
    (concepts : later.concepts = ledger.concepts) (graphs : later.graphs = ledger.graphs)
    (markers : ledger.markers <+: later.markers) (listed : grown.Listed)
    (frame : copy.Frame [] grown) (size : grown.concepts.size = copy.concepts.size)
    (same : grown.graphs = copy.graphs) (relations : grown.relations.size = copy.relations.size) :
    model.Nodes unfinished later written grown := by
  have continues : ledger.Continues later :=
    ⟨by rw [concepts], by rw [graphs], markers⟩
  have graph : ∀ id, grown.graph id = copy.graph id := by
    intro id
    simp [Model.graph, same]
  have known : ∀ concept other, later.Concept concept other → ledger.Concept concept other := by
    intro concept other copies
    rwa [Ledger.Concept, concepts] at copies
  have placed : ∀ graph place, later.Graph graph place → ledger.Graph graph place := by
    intro graph place copies
    rwa [Ledger.Graph, graphs] at copies
  -- Only the markers may have grown, so that every copy is the copy that it was.
  constructor
  · exact listed
  · exact nodes.ascending.of_eq (fun id => by rw [graph]) fun id => by rw [graph]
  · rw [size, concepts, nodes.size]
  · rw [graphs, same]
    exact nodes.waiting
  · intro concept other copies finished
    have former := known concept other copies
    exact (nodes.concept concept other former finished).mono continues frame.conceptTypes
      (frame.concept other (nodes.lt_size former) List.not_mem_nil)
  · exact nodes.distinct
  · intro draft member
    obtain ⟨inside, data⟩ := nodes.draft draft member
    rw [size, frame.concept draft.1 inside List.not_mem_nil]
    exact ⟨inside, data⟩
  · intro concept other copies id stands
    have former := known concept other copies
    obtain ⟨place, there, here⟩ := nodes.stands concept other former id stands
    rw [frame.graph other (nodes.lt_size former)]
    exact ⟨place, there.mono continues, here⟩
  · intro id place copies
    rw [same, graph]
    exact nodes.comments id place (placed id place copies)
  · intro id place copies
    rw [same, graph]
    intro inside owner owned
    obtain ⟨other, former, here⟩ := nodes.owner id place (placed id place copies) inside owner owned
    exact ⟨other, former.mono continues, here⟩
  · obtain ⟨made, length, perm, order, copied⟩ := nodes.relations
    refine ⟨made, by rw [length, relations], perm, order, fun place relation here => ?_⟩
    have inside : place < copy.relations.size := by
      rw [← length]
      exact (List.getElem?_eq_some_iff.mp here).1
    exact (copied place relation here).mono continues frame.relationTypes
      (frame.relation ⟨place⟩ inside)

/-- Editing the sets of a copy leaves its nodes as they are. -/
theorem sameButSets (nodes : model.Nodes unfinished ledger written copy)
    (same : copy.SameButSets grown) : model.Nodes unfinished ledger written grown := by
  refine nodes.mono rfl rfl List.prefix_rfl ?_ same.frame same.size same.graphs
    (by rw [same.relations])
  exact nodes.listed.of_eq (by rw [same.graphs]) (fun graph => by rw [same.graph])
    (fun graph => by rw [same.graph]) (same.field Concept.graph fun _ => rfl)
    fun relation => congrArg Relation.graph (same.relation relation)

/-- New types and markers leave the nodes of a copy as they are. -/
theorem elsewhere (nodes : model.Nodes unfinished ledger written copy)
    (concepts : later.concepts = ledger.concepts) (graphs : later.graphs = ledger.graphs)
    (markers : ledger.markers <+: later.markers) {hierarchy : Hierarchy} {count : Nat}
    (countLe : copy.markers ≤ count)
    (conceptTypes : copy.hierarchy.concepts.Extends hierarchy.concepts)
    (relationTypes : copy.hierarchy.relations.Extends hierarchy.relations) :
    model.Nodes unfinished later written { copy with hierarchy, markers := count } := by
  have listed : Listed { copy with hierarchy, markers := count } :=
    nodes.listed.of_eq rfl (fun _ => rfl) (fun _ => rfl) (fun _ => rfl) fun _ => rfl
  have frame : copy.Frame [] { copy with hierarchy, markers := count } :=
    .elsewhere countLe conceptTypes relationTypes
  exact nodes.mono concepts graphs markers listed frame rfl rfl rfl

/-- A relation that is begun is pending. -/
theorem begun (nodes : model.Nodes unfinished ledger written copy) (relation : RelationId) :
    model.Nodes { unfinished with pending := relation :: unfinished.pending } ledger
      (relation :: written) copy where
  listed := nodes.listed
  ascending := nodes.ascending
  size := nodes.size
  waiting := nodes.waiting
  concept := nodes.concept
  distinct := nodes.distinct
  draft := nodes.draft
  stands := nodes.stands
  comments := nodes.comments
  owner := nodes.owner
  relations := by
    obtain ⟨made, length, perm, order, copied⟩ := nodes.relations
    refine ⟨made, length, List.perm_middle.trans (perm.cons relation), fun graph => ?_, copied⟩
    have before := order graph
    unfold relationsIn at before ⊢
    rw [List.reverse_cons, List.filter_append, ← before, List.append_assoc, ← List.filter_reverse,
      ← List.filter_reverse, List.reverse_cons, List.filter_append]

/-! ## Concepts -/

section Concepts

variable {concept : ConceptId} {graph : GraphId} {place : GraphId} {data : Concept}

/-- One more concept in the ledger is a copy of one more concept, and all others are as before. -/
theorem concept_append {other : ConceptId} {copy : ConceptId}
    (concepts : later.concepts = ledger.concepts ++ [concept]) :
    later.Concept other copy ↔
      ledger.Concept other copy ∨ copy.index = ledger.concepts.length ∧ other = concept := by
  unfold Ledger.Concept
  rw [concepts, List.getElem?_append]
  split
  · next inside =>
    exact ⟨.inl, fun either => either.resolve_right fun last =>
      absurd last.1 (Nat.ne_of_lt inside)⟩
  · next outside =>
    have missing : ledger.concepts[copy.index]? = none :=
      List.getElem?_eq_none (Nat.le_of_not_lt outside)
    rw [missing, List.getElem?_singleton]
    split
    · next last =>
      have same : copy.index = ledger.concepts.length := by omega
      simp [same, eq_comm]
    · next further =>
      have apart : copy.index ≠ ledger.concepts.length := by omega
      simp [apart]

/-- A concept is begun: it stands in its graph, and its graph waits to be begun. -/
theorem placed (nodes : model.Nodes unfinished ledger written copy)
    (ready : unfinished.waiting = [])
    (concepts : later.concepts = ledger.concepts ++ [concept])
    (graphs : later.graphs = ledger.graphs ++ (model.descriptor? concept).toList)
    (markers : later.markers = ledger.markers)
    (stands : (model.concept concept).graph = some graph) (there : ledger.Graph graph place) :
    model.Nodes
      { unfinished with
        drafts := (⟨copy.concepts.size⟩, ({ data with graph := some place } : Concept).bare) ::
          unfinished.drafts
        waiting := (model.descriptor? concept).toList }
      later written (copy.placed data place) := by
  have continues : ledger.Continues later :=
    ⟨concepts ▸ List.prefix_append _ _, graphs ▸ List.prefix_append _ _,
      markers ▸ List.prefix_rfl⟩
  obtain ⟨begun, split, count⟩ := nodes.waiting
  rw [ready, List.append_nil] at split
  have within : place.index < copy.graphs.size := by
    rw [← count, ← split]
    exact there.lt
  have frame : copy.Frame [] (copy.placed data place) := .placed within
  have graphBefore : ∀ id other, later.Graph id other → other.index < copy.graphs.size →
      ledger.Graph id other := by
    intro id other copies inside
    unfold Ledger.Graph at copies ⊢
    rw [graphs, List.getElem?_append_left (by rw [split, count]; exact inside)] at copies
    exact copies
  -- The new concept comes last on both sides, and everything else is found where it was.
  constructor
  · exact nodes.listed.placed within
  · exact nodes.ascending.placed nodes.listed within
  · rw [size_placed, concepts, nodes.size, List.length_append, List.length_singleton]
  · exact ⟨ledger.graphs, graphs, by rw [graphs_size_placed, split, count]⟩
  · intro other known copies finished
    simp only [List.map_cons, List.mem_cons, not_or] at finished
    rcases (concept_append concepts).mp copies with former | ⟨last, -⟩
    · exact (nodes.concept other known former finished.2).mono continues frame.conceptTypes
        (frame.concept known (nodes.lt_size former) List.not_mem_nil)
    · exact absurd (congrArg ConceptId.mk (last.trans nodes.size.symm)) finished.1
  · rw [List.map_cons, List.nodup_cons]
    refine ⟨fun member => ?_, nodes.distinct⟩
    obtain ⟨draft, among, same⟩ := List.mem_map.mp member
    have inside := (nodes.draft draft among).1
    rw [same] at inside
    exact Nat.lt_irrefl _ inside
  · intro draft member
    rcases List.mem_cons.mp member with rfl | member
    · refine ⟨by rw [size_placed]; exact Nat.lt_succ_self _, ?_⟩
      rw [concept_placed, if_pos rfl]
    · obtain ⟨inside, same⟩ := nodes.draft draft member
      exact ⟨Nat.lt_of_lt_of_le inside frame.concepts_le,
        (frame.concept draft.1 inside List.not_mem_nil).trans same⟩
  · intro other known copies id here
    rcases (concept_append concepts).mp copies with former | ⟨last, rfl⟩
    · obtain ⟨position, copied, standing⟩ := nodes.stands other known former id here
      rw [frame.graph known (nodes.lt_size former)]
      exact ⟨position, copied.mono continues, standing⟩
    · rw [stands] at here
      cases here
      refine ⟨place, there.mono continues, ?_⟩
      rw [concept_placed, if_pos (last.trans nodes.size.symm)]
  · intro id other copies inside spoken
    rw [graphs_size_placed] at inside
    rw [comments_placed within]
    exact nodes.comments id other (graphBefore id other copies inside) inside spoken
  · intro id other copies inside owner owned
    rw [graphs_size_placed] at inside
    obtain ⟨holder, former, here⟩ :=
      nodes.owner id other (graphBefore id other copies inside) inside owner owned
    exact ⟨holder, former.mono continues, by rw [frame.owner other inside, here]⟩
  · obtain ⟨made, length, perm, order, copied⟩ := nodes.relations
    refine ⟨made, length, perm, order, fun position relation here => ?_⟩
    have inside : position < copy.relations.size := by
      rw [← length]
      exact (List.getElem?_eq_some_iff.mp here).1
    exact (copied position relation here).mono continues frame.relationTypes
      (frame.relation ⟨position⟩ inside)

/-- The data of a concept whose bracket is open are changed. -/
theorem redrafted {change : Concept → Concept} {id : ConceptId} {data : Concept}
    {others : List (ConceptId × Concept)}
    (nodes : model.Nodes { unfinished with drafts := (id, data) :: others } ledger written copy)
    (keeps : ∀ data, (change data).graph = data.graph)
    (hidden : ∀ data, (change data).hidden = data.hidden)
    (special : ∀ data, (change data).special = data.special)
    (bare : ∀ data, (change data).bare = change data.bare) :
    model.Nodes { unfinished with drafts := (id, change data) :: others } ledger written
      (copy.modifyConcept id change) := by
  have frame : copy.Frame [id] (copy.modifyConcept id change) :=
    .modifyConcept keeps hidden special
  have inside := (nodes.draft (id, data) (List.mem_cons_self ..)).1
  have apart : id ∉ others.map Prod.fst := (List.nodup_cons.mp nodes.distinct).1
  have stays : ∀ other, ((copy.modifyConcept id change).concept other).graph =
      (copy.concept other).graph := by
    intro other
    by_cases same : other = id
    · rw [same, concept_modifyConcept inside, keeps]
    · rw [concept_modifyConcept_of_ne same]
  -- The draft that changes is unfinished before and after, so that no finished copy changes.
  constructor
  · exact nodes.listed.of_eq rfl (fun _ => rfl) (fun _ => rfl) stays fun _ => rfl
  · exact nodes.ascending.of_eq (fun _ => rfl) fun _ => rfl
  · rw [size_modifyConcept, nodes.size]
  · exact nodes.waiting
  · intro concept other copies done
    have same : other ≠ id := by
      rintro rfl
      exact done (List.mem_cons_self ..)
    refine (nodes.concept concept other copies done).mono (.refl _) (.refl _) ?_
    rw [concept_modifyConcept_of_ne same]
  · exact nodes.distinct
  · intro other member
    rcases List.mem_cons.mp member with rfl | member
    · refine ⟨by rw [size_modifyConcept]; exact inside, ?_⟩
      rw [concept_modifyConcept inside, bare, (nodes.draft (id, data) (List.mem_cons_self ..)).2]
    · obtain ⟨within, same⟩ := nodes.draft other (List.mem_cons_of_mem _ member)
      refine ⟨by rw [size_modifyConcept]; exact within, ?_⟩
      rw [concept_modifyConcept_of_ne, same]
      exact fun equal => apart (equal ▸ List.mem_map_of_mem member)
  · intro concept other copies graph stands
    rw [stays]
    exact nodes.stands concept other copies graph stands
  · exact nodes.comments
  · exact nodes.owner
  · obtain ⟨made, length, perm, order, related⟩ := nodes.relations
    exact ⟨made, length, perm, order, fun position relation here =>
      (related position relation here).mono (.refl _) (.refl _) rfl⟩

/-- A concept is ended: its data are those of a copy. -/
theorem settled {draft : ConceptId × Concept} {others : List (ConceptId × Concept)}
    (nodes : model.Nodes { unfinished with drafts := draft :: others } ledger written copy)
    (copied : ∀ concept, ledger.Concept concept draft.1 →
      model.CopiedConcept copy ledger concept draft.1) :
    model.Nodes { unfinished with drafts := others } ledger written copy where
  listed := nodes.listed
  ascending := nodes.ascending
  size := nodes.size
  waiting := nodes.waiting
  concept concept other copies done := by
    by_cases same : other = draft.1
    · subst same
      exact copied concept copies
    · refine nodes.concept concept other copies ?_
      rw [List.map_cons, List.mem_cons, not_or]
      exact ⟨same, done⟩
  distinct := (List.nodup_cons.mp nodes.distinct).2
  draft other member := nodes.draft other (List.mem_cons_of_mem _ member)
  stands := nodes.stands
  comments := nodes.comments
  owner := nodes.owner
  relations := nodes.relations

end Concepts

/-! ## Graphs -/

section Graphs

variable {graph : GraphId} {owner copied : ConceptId}

theorem graph_of_waiting
    (nodes : model.Nodes { unfinished with waiting := [graph] } ledger written copy) :
    ledger.Graph graph ⟨copy.graphs.size⟩ := by
  obtain ⟨begun, split, count⟩ := nodes.waiting
  rw [Ledger.Graph, split, List.getElem?_append_right (Nat.le_of_eq count), count]
  simp

/-- The items of a graph begin, first of all its comments. -/
theorem opened (nodes : model.Nodes { unfinished with waiting := [graph] } ledger written copy)
    (owned : (model.graph graph).owner = some owner) (copies : ledger.Concept owner copied) :
    model.Nodes
      { unfinished with waiting := [], silent := ⟨copy.graphs.size⟩ :: unfinished.silent }
      ledger written (copy.newGraph (some copied)).2 := by
  have last := nodes.graph_of_waiting
  have split : ∀ place : GraphId,
      place.index < (copy.newGraph (some copied)).2.graphs.size →
      place.index < copy.graphs.size ∨ place = ⟨copy.graphs.size⟩ := by
    intro place inside
    rw [size_newGraph] at inside
    rcases Nat.lt_succ_iff_lt_or_eq.mp inside with old | new
    · exact .inl old
    · exact .inr (congrArg GraphId.mk new)
  have frame : copy.Frame [] (copy.newGraph (some copied)).2 := .newGraph
  -- The graph that was waited for is the last one now and has no comments yet.
  constructor
  · exact nodes.listed.newGraph
  · exact nodes.ascending.newGraph
  · exact nodes.size
  · obtain ⟨begun, whole, count⟩ := nodes.waiting
    exact ⟨begun ++ [graph], by rw [whole, List.append_nil],
      by rw [List.length_append, count, size_newGraph, List.length_singleton]⟩
  · exact fun concept other here finished =>
      (nodes.concept concept other here finished).mono (.refl _) (.refl _) rfl
  · exact nodes.distinct
  · exact nodes.draft
  · exact nodes.stands
  · intro id place here inside spoken
    rw [List.mem_cons, not_or] at spoken
    rcases split place inside with old | new
    · rw [graph_newGraph_of_lt old]
      exact nodes.comments id place here old spoken.2
    · exact absurd new spoken.1
  · intro id place here inside holder held
    rcases split place inside with old | rfl
    · rw [graph_newGraph_of_lt old]
      exact nodes.owner id place here old holder held
    · have same : id = graph := Option.some.inj (here.symm.trans last)
      subst same
      rw [owned] at held
      cases held
      exact ⟨copied, copies, by rw [graph_newGraph]⟩
  · obtain ⟨made, length, perm, order, related⟩ := nodes.relations
    exact ⟨made, length, perm, order, fun position relation here =>
      (related position relation here).mono (.refl _) (.refl _) rfl⟩

/-- A comment of a graph is read. -/
theorem commented {place : GraphId} (nodes : model.Nodes unfinished ledger written copy)
    (silent : place ∈ unfinished.silent) (inside : place.index < copy.graphs.size)
    (text : String) : model.Nodes unfinished ledger written (copy.addComment place text) := by
  have frame : copy.Frame [] (copy.addComment place text) := .addComment inside text
  have same : ∀ id, ((copy.addComment place text).graph id).concepts = (copy.graph id).concepts ∧
      ((copy.addComment place text).graph id).relations = (copy.graph id).relations := by
    intro id
    rw [graph_addComment inside]
    split
    · next same => simp [same]
    · simp
  constructor
  · exact nodes.listed.of_eq (by simp [addComment]) (fun id => (same id).1) (fun id => (same id).2)
      (fun _ => rfl) fun _ => rfl
  · exact nodes.ascending.of_eq (fun id => (same id).1) fun id => (same id).2
  · exact nodes.size
  · obtain ⟨begun, whole, count⟩ := nodes.waiting
    exact ⟨begun, whole, by simpa [addComment] using count⟩
  · exact fun concept other here finished =>
      (nodes.concept concept other here finished).mono (.refl _) (.refl _) rfl
  · exact nodes.distinct
  · exact nodes.draft
  · exact nodes.stands
  · intro id other here within spoken
    have apart : other ≠ place := by
      rintro rfl
      exact spoken silent
    rw [graph_addComment inside, if_neg apart]
    exact nodes.comments id other here (by simpa [addComment] using within) spoken
  · intro id other here within holder held
    have old : other.index < copy.graphs.size := by simpa [addComment] using within
    rw [frame.owner other old]
    exact nodes.owner id other here old holder held
  · obtain ⟨made, length, perm, order, related⟩ := nodes.relations
    exact ⟨made, length, perm, order, fun position relation here =>
      (related position relation here).mono (.refl _) (.refl _) rfl⟩

/-- All comments of a graph have been read. -/
theorem spoken {place : GraphId} {others : List GraphId}
    (nodes : model.Nodes { unfinished with silent := place :: others } ledger written copy)
    (comments : ∀ graph, ledger.Graph graph place →
      (copy.graph place).comments = (model.graph graph).comments) :
    model.Nodes { unfinished with silent := others } ledger written copy where
  listed := nodes.listed
  ascending := nodes.ascending
  size := nodes.size
  waiting := nodes.waiting
  concept := nodes.concept
  distinct := nodes.distinct
  draft := nodes.draft
  stands := nodes.stands
  comments id other here inside silent := by
    by_cases same : other = place
    · subst same
      exact comments id here
    · exact nodes.comments id other here inside
        (by rw [List.mem_cons, not_or]; exact ⟨same, silent⟩)
  owner := nodes.owner
  relations := nodes.relations

end Graphs

/-! ## Relations -/

/-- A relation is ended and put into its graph. -/
theorem related {relation : RelationId} {others : List RelationId} {data : Relation}
    {place : GraphId}
    (nodes : model.Nodes { unfinished with pending := relation :: others } ledger written copy)
    (inside : place.index < copy.graphs.size) {graph : GraphId}
    (stands : (model.relation relation).graph = some graph)
    (last : ∀ other ∈ others, (model.relation other).graph ≠ some graph)
    (copied : model.CopiedRelation (copy.related data place) ledger relation
      ⟨copy.relations.size⟩) :
    model.Nodes { unfinished with pending := others } ledger written
      (copy.related data place) := by
  have owner : ∀ id, ((copy.related data place).graph id).owner = (copy.graph id).owner := by
    intro id
    rw [graph_related inside]
    split
    · next same => rw [same]
    · rfl
  constructor
  · exact nodes.listed.related inside
  · exact nodes.ascending.related nodes.listed inside
  · exact nodes.size
  · obtain ⟨begun, whole, count⟩ := nodes.waiting
    exact ⟨begun, whole, by rw [graphs_size_related, count]⟩
  · exact fun concept other here finished =>
      (nodes.concept concept other here finished).mono (.refl _) (.refl _) rfl
  · exact nodes.distinct
  · exact nodes.draft
  · exact nodes.stands
  · intro id other here within
    rw [comments_related inside]
    exact nodes.comments id other here (by rwa [graphs_size_related] at within)
  · intro id other here within
    rw [owner]
    exact nodes.owner id other here (by rwa [graphs_size_related] at within)
  · obtain ⟨made, length, perm, order, former⟩ := nodes.relations
    refine ⟨made ++ [relation], by simp [length], ?_, fun home => ?_, fun position id here => ?_⟩
    · rwa [List.append_assoc, List.singleton_append]
    · -- Where the relation stands, no other one is left to be ended.
      rw [← order home]
      by_cases here : home = graph
      · have none : model.relationsIn graph others = [] := List.filter_eq_nil_iff.mpr
          fun other member => by simpa using last other member
        subst here
        unfold relationsIn at none ⊢
        simp only [List.filter_append, List.filter_cons, stands, decide_true, if_true, none,
          List.filter_nil, List.reverse_nil, List.reverse_singleton, List.append_nil]
      · simp [relationsIn, stands, Ne.symm here]
    · rw [List.getElem?_append] at here
      split at here
      · next old =>
        refine (former position id here).mono (.refl _) (.refl _) ?_
        rw [relation_related_of_lt (by rw [← length]; exact old)]
      · next new =>
        rw [List.getElem?_singleton] at here
        split at here
        · next first =>
          cases here
          have same : position = copy.relations.size := by omega
          rw [same]
          exact copied
        · cases here

end Nodes

end Model

end ConceptualGraph
