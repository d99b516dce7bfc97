/-
Module: ConceptualGraph.Proofs.Model.Growth
Purpose: Every edit with which texts are read keeps a model sound.
Main exports: Model.Sound.step, Model.Sound.newGraph, Model.Sound.related, Model.Sound.negated
-/
import ConceptualGraph.Proofs.Model.Sound
import Mathlib.Data.List.Infix

namespace ConceptualGraph.Model

variable {form : Notation} {unfinished touched : List ConceptId} {model later : Model}

/-! ## What has to be shown of an edit -/

/-- Whether nodes are listed where they stand depends on these parts of an arena only. -/
theorem Listed.of_eq (listed : model.Listed) (size : model.graphs.size = later.graphs.size)
    (concepts : ∀ graph, (later.graph graph).concepts = (model.graph graph).concepts)
    (relations : ∀ graph, (later.graph graph).relations = (model.graph graph).relations)
    (concept : ∀ concept, (later.concept concept).graph = (model.concept concept).graph)
    (relation : ∀ relation, (later.relation relation).graph = (model.relation relation).graph) :
    later.Listed where
  concept_graph id graph stands := by
    rw [← size]
    exact listed.concept_graph id graph (by rw [← concept, stands])
  relation_graph id graph stands := by
    rw [← size]
    exact listed.relation_graph id graph (by rw [← relation, stands])
  mem_concepts graph id := by
    rw [concepts, concept]
    exact listed.mem_concepts graph id
  nodup_concepts graph := by
    rw [concepts]
    exact listed.nodup_concepts graph
  mem_relations graph id := by
    rw [relations, relation]
    exact listed.mem_relations graph id
  nodup_relations graph := by
    rw [relations]
    exact listed.nodup_relations graph

/-- Whether sets and their members agree depends on these parts of an arena only. -/
theorem Joined.of_eq (joined : model.Joined) (sets : later.corefSets = model.corefSets)
    (corefSets : ∀ concept, (later.concept concept).corefSets =
      (model.concept concept).corefSets)
    (plain : ∀ concept, (model.concept concept).IsPlain → (later.concept concept).IsPlain) :
    later.Joined := by
  have same : ∀ set, later.corefSet set = model.corefSet set := by
    intro set
    simp [Model.corefSet, sets]
  constructor
  · intro set inside
    rw [sets] at inside
    rw [same]
    exact joined.defining set inside
  · intro set concept
    rw [same, corefSets]
    exact joined.members set concept
  · intro concept shares
    rw [corefSets] at shares
    exact plain concept (joined.shown concept shares)

/-- The nodes that an edit leaves alone stay sound; the others have to be looked at. -/
theorem Sound.step (sound : model.Sound form unfinished) (frame : model.Frame touched later)
    {unfinishedLater : List ConceptId} (listed : later.Listed) (joined : later.Joined)
    (comments : ∀ graph, ∀ text ∈ (later.graph graph).comments, Token.IsGraphComment text)
    (concepts : ∀ concept : ConceptId, concept.index < later.concepts.size →
      concept ∉ unfinishedLater →
      concept ∈ touched ∨ model.concepts.size ≤ concept.index ∨ concept ∈ unfinished →
      later.ConceptSound form concept)
    (unfinishedSound : ∀ concept ∈ unfinishedLater, (later.concept concept).hidden = true ∧
      ∀ relation, concept ∉ (later.relation relation).args)
    (relations : ∀ relation : RelationId, relation.index < later.relations.size →
      model.relations.size ≤ relation.index → later.RelationSound form relation)
    (conceptTypes : later.hierarchy.concepts.Named form)
    (relationTypes : later.hierarchy.relations.Named form) :
    later.Sound form unfinishedLater where
  listed := listed
  comments := comments
  concepts concept inside finished := by
    by_cases other : concept ∈ touched ∨ model.concepts.size ≤ concept.index ∨
        concept ∈ unfinished
    · exact concepts concept inside finished other
    · simp only [not_or, Nat.not_le] at other
      obtain ⟨apart, old, former⟩ := other
      exact (sound.concepts concept old former).frame frame old apart
  unfinished := unfinishedSound
  relations relation inside := by
    by_cases old : relation.index < model.relations.size
    · exact (sound.relations relation old).frame frame old
    · exact relations relation inside (Nat.le_of_not_lt old)
  conceptTypes := conceptTypes
  relationTypes := relationTypes
  joined := joined

/-! ## Graphs -/

section Graphs

variable {owner : Option ConceptId}

@[simp] theorem concept_newGraph (concept : ConceptId) :
    (model.newGraph owner).2.concept concept = model.concept concept := rfl

@[simp] theorem relation_newGraph (relation : RelationId) :
    (model.newGraph owner).2.relation relation = model.relation relation := rfl

/-- A graph that is made is empty, and all others are as they were. -/
theorem graph_newGraph_eq (graph : GraphId) :
    (model.newGraph owner).2.graph graph =
      if graph.index = model.graphs.size then { owner } else model.graph graph := by
  by_cases new : graph.index = model.graphs.size
  · have same : graph = ⟨model.graphs.size⟩ := congrArg GraphId.mk new
    rw [same, graph_newGraph]
    simp
  · simp [newGraph, Model.graph, Array.getElem?_push, new]

/-- An empty graph leaves every node as it is. -/
theorem Frame.newGraph : model.Frame [] (model.newGraph owner).2 where
  concepts_le := Nat.le_refl _
  relations_le := Nat.le_refl _
  graphs_le := by simp
  markers_le := Nat.le_refl _
  concept _ _ _ := rfl
  graph _ _ := rfl
  hidden _ _ := rfl
  special _ _ := rfl
  relation _ _ := rfl
  owner id inside := by rw [graph_newGraph_of_lt inside]
  comments id inside := by
    rw [graph_newGraph_of_lt inside]
  conceptTypes := .refl _
  relationTypes := .refl _
  visible relation new concept argument := by
    rw [relation_newGraph, relation_of_le new] at argument
    cases argument

/-- An empty graph lists nothing. -/
theorem Listed.newGraph (listed : model.Listed) : (model.newGraph owner).2.Listed where
  concept_graph concept graph stands := by
    rw [size_newGraph]
    exact Nat.lt_succ_of_lt (listed.concept_graph concept graph stands)
  relation_graph relation graph stands := by
    rw [size_newGraph]
    exact Nat.lt_succ_of_lt (listed.relation_graph relation graph stands)
  mem_concepts graph concept := by
    rw [graph_newGraph_eq, concept_newGraph, ← listed.mem_concepts]
    split
    · next new =>
      rw [graph_of_le (Nat.le_of_eq new.symm)]
      exact Iff.rfl
    · rfl
  nodup_concepts graph := by
    rw [graph_newGraph_eq]
    split
    · exact List.nodup_nil
    · exact listed.nodup_concepts graph
  mem_relations graph relation := by
    rw [graph_newGraph_eq, relation_newGraph, ← listed.mem_relations]
    split
    · next new =>
      rw [graph_of_le (Nat.le_of_eq new.symm)]
      exact Iff.rfl
    · rfl
  nodup_relations graph := by
    rw [graph_newGraph_eq]
    split
    · exact List.nodup_nil
    · exact listed.nodup_relations graph

/-- An arena stays sound with an empty graph more. -/
theorem Sound.newGraph (sound : model.Sound form unfinished) :
    (model.newGraph owner).2.Sound form unfinished := by
  refine sound.step Frame.newGraph sound.listed.newGraph ?_ ?_ ?_ ?_ ?_ sound.conceptTypes
    sound.relationTypes
  · exact sound.joined.of_eq rfl (fun _ => rfl) fun _ plain => plain
  · intro graph
    rw [graph_newGraph_eq]
    split
    · simp
    · exact sound.comments graph
  · intro concept inside finished other
    rcases other with member | new | former
    · cases member
    · exact absurd inside (Nat.not_lt_of_le new)
    · exact absurd former finished
  · exact sound.unfinished
  · intro relation inside new
    exact absurd inside (Nat.not_lt_of_le new)

@[simp] theorem concept_addComment (graph : GraphId) (text : String) (concept : ConceptId) :
    (model.addComment graph text).concept concept = model.concept concept := rfl

@[simp] theorem relation_addComment (graph : GraphId) (text : String) (relation : RelationId) :
    (model.addComment graph text).relation relation = model.relation relation := rfl

/-- Of all graphs only the one that is commented on is changed. -/
theorem graph_addComment {graph : GraphId} (inside : graph.index < model.graphs.size)
    (text : String) (other : GraphId) :
    (model.addComment graph text).graph other =
      if other = graph then
        { model.graph graph with comments := (model.graph graph).comments ++ [text] }
      else model.graph other := by
  split
  · next same =>
    subst same
    exact graph_modifyGraph inside
  · next different => exact graph_modifyGraph_of_ne different

/-- A comment of a graph touches no node. -/
theorem Frame.addComment {graph : GraphId} (inside : graph.index < model.graphs.size)
    (text : String) : model.Frame [] (model.addComment graph text) where
  concepts_le := Nat.le_refl _
  relations_le := Nat.le_refl _
  graphs_le := by simp [Model.addComment]
  markers_le := Nat.le_refl _
  concept _ _ _ := rfl
  graph _ _ := rfl
  hidden _ _ := rfl
  special _ _ := rfl
  relation _ _ := rfl
  owner id _ := by
    rw [graph_addComment inside]
    split
    · next same => rw [same]
    · rfl
  comments id _ := by
    rw [graph_addComment inside]
    split
    · next same =>
      rw [same]
      exact List.prefix_append _ _
    · exact List.prefix_rfl
  conceptTypes := .refl _
  relationTypes := .refl _
  visible relation new concept argument := by
    rw [relation_addComment, relation_of_le new] at argument
    cases argument

/-- An arena stays sound with one more comment that can be read back. -/
theorem Sound.addComment (sound : model.Sound form unfinished) {graph : GraphId}
    (inside : graph.index < model.graphs.size) {text : String}
    (readable : Token.IsGraphComment text) :
    (model.addComment graph text).Sound form unfinished := by
  refine sound.step (Frame.addComment inside text) ?_ ?_ ?_ ?_ ?_ ?_ sound.conceptTypes
    sound.relationTypes
  · refine sound.listed.of_eq (by simp [Model.addComment]) (fun other => ?_) (fun other => ?_)
      (fun _ => rfl) (fun _ => rfl)
    all_goals
      rw [graph_addComment inside]
      split
      · next same => rw [same]
      · rfl
  · exact sound.joined.of_eq rfl (fun _ => rfl) fun _ plain => plain
  · intro other comment
    rw [graph_addComment inside]
    split
    · intro member
      simp only [List.mem_append, List.mem_singleton] at member
      rcases member with member | rfl
      · exact sound.comments graph comment member
      · exact readable
    · exact sound.comments other comment
  · intro concept here finished other
    rcases other with member | new | former
    · cases member
    · exact absurd here (Nat.not_lt_of_le new)
    · exact absurd former finished
  · exact sound.unfinished
  · intro relation here new
    exact absurd here (Nat.not_lt_of_le new)

end Graphs

/-! ## Concepts -/

section Concepts

/-- The model with one more concept, which stands in a graph. -/
def placed (model : Model) (data : Concept) (graph : GraphId) : Model :=
  { model with concepts := model.concepts.push { data with graph := some graph } }.modifyGraph
    graph fun listed =>
      { listed with concepts := listed.concepts ++ [ConceptId.mk model.concepts.size] }

variable {data : Concept} {graph : GraphId}

/-- An element that has just been put at the end is changed there. -/
theorem modify_push {α : Type} (elements : Array α) (element : α) (change : α → α) :
    (elements.push element).modify elements.size change = elements.push (change element) := by
  apply Array.ext_getElem?
  intro place
  rw [Array.getElem?_modify, Array.getElem?_push, Array.getElem?_push]
  by_cases last : place = elements.size
  · simp [last]
  · simp [last, Ne.symm last]

theorem appendNew_of_not_mem {α : Type} [DecidableEq α] {elements : List α} {element : α}
    (new : element ∉ elements) : appendNew elements element = elements ++ [element] := by
  simp [appendNew, new]

theorem mem_appendNew {α : Type} [DecidableEq α] {elements : List α} {element other : α} :
    other ∈ appendNew elements element ↔ other = element ∨ other ∈ elements := by
  unfold appendNew
  split <;> grind

/-- An element that is appended unless it is there comes after all others. -/
theorem prefix_appendNew {α : Type} [DecidableEq α] (elements : List α) (element : α) :
    elements <+: appendNew elements element := by
  unfold appendNew
  split
  · exact List.prefix_rfl
  · exact List.prefix_append _ _

/-- A concept that has not been made is listed nowhere. -/
theorem not_mem_concepts (listed : model.Listed) :
    (⟨model.concepts.size⟩ : ConceptId) ∉ (model.graph graph).concepts := by
  have unmade : model.concept ⟨model.concepts.size⟩ = default := concept_of_le (Nat.le_refl _)
  rw [listed.mem_concepts, unmade]
  exact nofun

/-- Two changes that come to the same for the graph they are applied to are the same edit. -/
theorem modifyGraph_congr {change same : Graph → Graph}
    (agree : change (model.graph graph) = same (model.graph graph)) :
    model.modifyGraph graph change = model.modifyGraph graph same := by
  have equal : model.graphs.modify graph.index change =
      model.graphs.modify graph.index same := by
    apply Array.ext_getElem?
    intro place
    rw [Array.getElem?_modify, Array.getElem?_modify]
    by_cases here : graph.index = place
    · subst here
      cases found : model.graphs[graph.index]? with
      | none => rfl
      | some former =>
          have known : model.graph graph = former := by simp [Model.graph, found]
          simp only [if_true, Option.map_some]
          rw [← known, agree]
    · simp [here]
  simp [modifyGraph, equal]

/-- Making a concept and putting it into a graph. -/
theorem addConcept_newConcept (listed : model.Listed) (graph : GraphId)
    (type : Option ConceptType) :
    (model.newConcept type).2.addConcept graph ⟨model.concepts.size⟩ =
      model.placed { type } graph := by
  have unlisted : (⟨model.concepts.size⟩ : ConceptId) ∉ (model.graph graph).concepts :=
    not_mem_concepts listed
  have appended := appendNew_of_not_mem unlisted
  unfold addConcept newConcept modifyConcept placed
  simp only [modify_push]
  exact modifyGraph_congr (by simpa [Model.graph] using appended)

@[simp] theorem size_placed :
    (model.placed data graph).concepts.size = model.concepts.size + 1 := by
  simp [placed]

@[simp] theorem graphs_size_placed :
    (model.placed data graph).graphs.size = model.graphs.size := by
  simp [placed]

@[simp] theorem relation_placed (relation : RelationId) :
    (model.placed data graph).relation relation = model.relation relation := rfl

@[simp] theorem hierarchy_placed :
    (model.placed data graph).hierarchy = model.hierarchy := rfl

@[simp] theorem corefSets_placed :
    (model.placed data graph).corefSets = model.corefSets := rfl

/-- A concept that is placed stands in its graph, and all others are as they were. -/
theorem concept_placed (concept : ConceptId) :
    (model.placed data graph).concept concept =
      if concept.index = model.concepts.size then { data with graph := some graph }
      else model.concept concept := by
  unfold placed
  rw [concept_modifyGraph]
  by_cases new : concept.index = model.concepts.size
  · simp [Model.concept, new]
  · simp [Model.concept, Array.getElem?_push, new]

theorem concept_placed_of_lt {concept : ConceptId}
    (inside : concept.index < model.concepts.size) :
    (model.placed data graph).concept concept = model.concept concept := by
  rw [concept_placed, if_neg (Nat.ne_of_lt inside)]

/-- Of all graphs only the one that a concept is placed in is changed. -/
theorem graph_placed (inside : graph.index < model.graphs.size) (other : GraphId) :
    (model.placed data graph).graph other =
      if other = graph then
        { model.graph graph with
          concepts := (model.graph graph).concepts ++ [⟨model.concepts.size⟩] }
      else model.graph other := by
  unfold placed
  split
  · next same =>
    subst same
    rw [graph_modifyGraph (by exact inside)]
    rfl
  · next different =>
    rw [graph_modifyGraph_of_ne different]
    rfl

/-- A concept that is placed leaves all others as they are. -/
theorem Frame.placed (inside : graph.index < model.graphs.size) :
    model.Frame [] (model.placed data graph) where
  concepts_le := by simp
  relations_le := Nat.le_refl _
  graphs_le := by simp
  markers_le := Nat.le_refl _
  concept id old _ := by rw [concept_placed_of_lt old]
  graph id old := by rw [concept_placed_of_lt old]
  hidden id old := by rw [concept_placed_of_lt old]
  special id old := by rw [concept_placed_of_lt old]
  relation _ _ := rfl
  owner id _ := by
    rw [graph_placed inside]
    split
    · next same => rw [same]
    · rfl
  comments id _ := by
    rw [graph_placed inside]
    split
    · next same => rw [same]
    · exact List.prefix_rfl
  conceptTypes := .refl _
  relationTypes := .refl _
  visible relation new concept argument := by
    rw [relation_placed, relation_of_le new] at argument
    cases argument

/-- A concept that is placed is listed in its graph, after those that are there. -/
theorem Listed.placed (listed : model.Listed) (inside : graph.index < model.graphs.size) :
    (model.placed data graph).Listed where
  concept_graph concept other stands := by
    rw [graphs_size_placed]
    rw [concept_placed] at stands
    split at stands
    · cases stands
      exact inside
    · exact listed.concept_graph concept other stands
  relation_graph relation other stands := by
    rw [graphs_size_placed]
    exact listed.relation_graph relation other stands
  mem_concepts other concept := by
    rw [graph_placed inside, concept_placed]
    -- The new concept is listed in its own graph only, and all others as before.
    by_cases new : concept.index = model.concepts.size
    · have same : concept = ⟨model.concepts.size⟩ := congrArg ConceptId.mk new
      rw [if_pos new, same]
      split
      · next here => simp [here]
      · next elsewhere =>
        refine iff_of_false (not_mem_concepts listed) fun stands => ?_
        cases stands
        exact elsewhere rfl
    · have apart : concept ≠ ⟨model.concepts.size⟩ := fun same =>
        new (congrArg ConceptId.index same)
      rw [if_neg new, ← listed.mem_concepts]
      split
      · next here => simp [here, apart]
      · rfl
  nodup_concepts other := by
    rw [graph_placed inside]
    split
    · simp only [List.nodup_append, List.nodup_cons, List.not_mem_nil, not_false_eq_true,
        List.nodup_nil, and_self, true_and, List.mem_singleton]
      refine ⟨listed.nodup_concepts graph, fun concept member other same => ?_⟩
      rintro rfl
      exact not_mem_concepts listed (same ▸ member)
    · exact listed.nodup_concepts other
  mem_relations other relation := by
    rw [graph_placed inside, relation_placed, ← listed.mem_relations]
    split
    · next here => rw [here]
    · rfl
  nodup_relations other := by
    rw [graph_placed inside]
    split
    · exact listed.nodup_relations graph
    · exact listed.nodup_relations other

/-- A concept that is placed is in no set yet. -/
theorem Joined.placed (joined : model.Joined) (unshared : data.corefSets = []) :
    (model.placed data graph).Joined := by
  have none : ∀ concept : ConceptId, concept.index = model.concepts.size →
      (model.concept concept).corefSets = [] := by
    intro concept new
    rw [concept_of_le (Nat.le_of_eq new.symm)]
    rfl
  constructor
  · exact joined.defining
  · intro set concept
    rw [concept_placed]
    change concept ∈ (model.corefSet set).members ↔ _
    rw [joined.members]
    split
    · next new => simp [none concept new, unshared]
    · rfl
  · intro concept
    rw [concept_placed]
    split
    · exact fun shares => absurd unshared shares
    · exact joined.shown concept

/-- A concept that is placed leaves the comments as they are. -/
theorem comments_placed (inside : graph.index < model.graphs.size) (other : GraphId) :
    ((model.placed data graph).graph other).comments = (model.graph other).comments := by
  rw [graph_placed inside]
  split
  · next same => rw [same]
  · rfl

/-- A concept that can be seen is sound from the start, as long as it refers to nothing. -/
theorem Sound.placed (sound : model.Sound form unfinished)
    (inside : graph.index < model.graphs.size)
    (typed : ∀ type, data.type = some type → type.index < model.hierarchy.concepts.size)
    (plain : data.referent = none ∧ data.comment = none ∧ data.hidden = false ∧
      data.corefSets = [])
    (special : ∀ special, data.special = some special → data.type = none ∧
      ∃ label, special = ContextLabel.spelling label ∧ label ≠ .elseLabel) :
    (model.placed data graph).Sound form unfinished := by
  obtain ⟨unreferring, uncommented, visible, unshared⟩ := plain
  refine sound.step (Frame.placed inside) (sound.listed.placed inside)
    (sound.joined.placed unshared) ?_ ?_ ?_ ?_ sound.conceptTypes sound.relationTypes
  · intro other text
    rw [comments_placed inside]
    exact sound.comments other text
  -- The frame keeps all other concepts, so that only the new one is looked at.
  · intro concept here finished other
    rcases other with member | new | former
    · cases member
    · rw [size_placed] at here
      have last : concept.index = model.concepts.size := by omega
      have known : (model.placed data graph).concept concept =
          { data with graph := some graph } := by
        rw [concept_placed, if_pos last]
      constructor
      · rw [known]
        exact typed
      · simp [known, unreferring]
      · simp [descriptor?, known, unreferring]
      · simp [known, uncommented]
      · intro special' labelled
        rw [known] at labelled
        obtain ⟨untyped, label, spelled, allowed⟩ := special special' labelled
        refine ⟨label, spelled, allowed, ?_, ?_, ?_, ?_, ?_⟩ <;>
          simp [known, untyped, uncommented, visible, unreferring]
      · simp [known, visible]
    · exact absurd former finished
  · intro concept member
    obtain ⟨hidden, unmentioned⟩ := sound.unfinished concept member
    rw [concept_placed_of_lt (lt_of_hidden hidden)]
    exact ⟨hidden, unmentioned⟩
  · intro relation here new
    exact absurd here (Nat.not_lt_of_le new)

/-- A hidden concept is unfinished from the start. -/
theorem Sound.placed_hidden (sound : model.Sound form unfinished)
    (inside : graph.index < model.graphs.size) (hidden : data.hidden = true)
    (unshared : data.corefSets = []) :
    (model.placed data graph).Sound form (⟨model.concepts.size⟩ :: unfinished) := by
  refine sound.step (Frame.placed inside) (sound.listed.placed inside)
    (sound.joined.placed unshared) ?_ ?_ ?_ ?_ sound.conceptTypes sound.relationTypes
  · intro other text
    rw [comments_placed inside]
    exact sound.comments other text
  · intro concept here finished other
    rw [List.mem_cons, not_or] at finished
    rcases other with member | new | former
    · cases member
    · rw [size_placed] at here
      exact absurd (congrArg ConceptId.mk (by omega : concept.index = model.concepts.size))
        finished.1
    · exact absurd former finished.2
  · intro concept member
    rcases List.mem_cons.mp member with rfl | member
    · refine ⟨by simp [concept_placed, hidden], fun relation argument => ?_⟩
      rw [relation_placed] at argument
      have known := (sound.relations relation (lt_of_mem_args argument)).inside _ argument
      exact absurd known (Nat.lt_irrefl _)
    · obtain ⟨hidden, unmentioned⟩ := sound.unfinished concept member
      rw [concept_placed_of_lt (lt_of_hidden hidden)]
      exact ⟨hidden, unmentioned⟩
  · intro relation here new
    exact absurd here (Nat.not_lt_of_le new)

/-- A concept that is changed in place stays where it stands, hidden or not as it was. -/
theorem Frame.modifyConcept {concept : ConceptId} {change : Concept → Concept}
    (graph : ∀ data, (change data).graph = data.graph)
    (hidden : ∀ data, (change data).hidden = data.hidden)
    (special : ∀ data, (change data).special = data.special) :
    model.Frame [concept] (model.modifyConcept concept change) where
  concepts_le := by simp
  relations_le := Nat.le_refl _
  graphs_le := Nat.le_refl _
  markers_le := Nat.le_refl _
  concept id _ apart := by
    rw [concept_modifyConcept_of_ne fun same => apart (List.mem_singleton.mpr same)]
  graph id inside := by
    by_cases same : id = concept
    · subst same
      rw [concept_modifyConcept inside, graph]
    · rw [concept_modifyConcept_of_ne same]
  hidden id inside := by
    by_cases same : id = concept
    · subst same
      rw [concept_modifyConcept inside, hidden]
    · rw [concept_modifyConcept_of_ne same]
  special id inside := by
    by_cases same : id = concept
    · subst same
      rw [concept_modifyConcept inside, special]
    · rw [concept_modifyConcept_of_ne same]
  relation _ _ := rfl
  owner _ _ := rfl
  comments _ _ := List.prefix_rfl
  conceptTypes := .refl _
  relationTypes := .refl _
  visible relation new concept argument := by
    rw [relation_modifyConcept, relation_of_le new] at argument
    cases argument

/-- A concept may be changed as long as it is sound afterwards. -/
theorem Sound.modified (sound : model.Sound form unfinished) {concept : ConceptId}
    {change : Concept → Concept} (inside : concept.index < model.concepts.size)
    (graph : ∀ data, (change data).graph = data.graph)
    (hidden : ∀ data, (change data).hidden = data.hidden)
    (special : ∀ data, (change data).special = data.special)
    (corefSets : ∀ data, (change data).corefSets = data.corefSets)
    (fine : concept ∉ unfinished →
      (model.modifyConcept concept change).ConceptSound form concept) :
    (model.modifyConcept concept change).Sound form unfinished := by
  have same : ∀ {α : Type} (field : Concept → α), (∀ data, field (change data) = field data) →
      ∀ id, field ((model.modifyConcept concept change).concept id) =
        field (model.concept id) := by
    intro α field keeps id
    by_cases equal : id = concept
    · subst equal
      rw [concept_modifyConcept inside, keeps]
    · rw [concept_modifyConcept_of_ne equal]
  refine sound.step (Frame.modifyConcept graph hidden special) ?_ ?_ sound.comments ?_ ?_ ?_
    sound.conceptTypes sound.relationTypes
  · exact sound.listed.of_eq rfl (fun _ => rfl) (fun _ => rfl) (same Concept.graph graph)
      fun _ => rfl
  · exact sound.joined.of_eq rfl (same Concept.corefSets corefSets)
      fun id plain => ⟨(same Concept.hidden hidden id).trans plain.1,
        (same Concept.special special id).trans plain.2⟩
  · intro id here finished other
    rcases other with member | new | former
    · obtain rfl := List.mem_singleton.mp member
      exact fine finished
    · rw [size_modifyConcept] at here
      exact absurd here (Nat.not_lt_of_le new)
    · exact absurd former finished
  · intro id member
    rw [same Concept.hidden hidden]
    exact sound.unfinished id member
  · intro relation here new
    exact absurd here (Nat.not_lt_of_le new)

end Concepts

/-! ## Relations -/

section Relations

/-- The model with one more relation, which stands in no graph yet. -/
def drafted (model : Model) (data : Relation) : Model :=
  { model with relations := model.relations.push data }

/-- The model with one more relation, which stands in a graph. -/
def related (model : Model) (data : Relation) (graph : GraphId) : Model :=
  (model.drafted { data with graph := some graph }).modifyGraph graph fun listed =>
    { listed with relations := listed.relations ++ [RelationId.mk model.relations.size] }

variable {data : Relation} {graph : GraphId}

/-- Making a relation and giving it a comment. -/
theorem modifyRelation_newRelation {type : Option RelationType} {args : List ConceptId}
    {role : RelationRole} {comment : Option String} :
    (model.newRelation type args role).2.modifyRelation ⟨model.relations.size⟩
        (fun data => { data with comment }) = model.drafted { type, args, comment, role } := by
  simp only [modifyRelation, newRelation, modify_push, drafted]

/-- A relation that has not been made is listed nowhere. -/
theorem not_mem_relations (listed : model.Listed) :
    (⟨model.relations.size⟩ : RelationId) ∉ (model.graph graph).relations := by
  have unmade : model.relation ⟨model.relations.size⟩ = default :=
    relation_of_le (Nat.le_refl _)
  rw [listed.mem_relations, unmade]
  exact nofun

/-- Putting a relation into a graph that has just been made. -/
theorem addRelation_drafted (listed : model.Listed) :
    (model.drafted data).addRelation graph ⟨model.relations.size⟩ =
      model.related data graph := by
  have unlisted : (⟨model.relations.size⟩ : RelationId) ∉ (model.graph graph).relations :=
    not_mem_relations listed
  have appended := appendNew_of_not_mem unlisted
  unfold addRelation drafted modifyRelation related
  simp only [modify_push]
  exact modifyGraph_congr (by simpa [Model.graph] using appended)

@[simp] theorem size_related :
    (model.related data graph).relations.size = model.relations.size + 1 := by
  simp [related, drafted]

@[simp] theorem graphs_size_related :
    (model.related data graph).graphs.size = model.graphs.size := by
  simp [related, drafted]

@[simp] theorem concept_related (concept : ConceptId) :
    (model.related data graph).concept concept = model.concept concept := rfl

@[simp] theorem concepts_related : (model.related data graph).concepts = model.concepts := rfl

@[simp] theorem hierarchy_related :
    (model.related data graph).hierarchy = model.hierarchy := rfl

@[simp] theorem corefSets_related :
    (model.related data graph).corefSets = model.corefSets := rfl

@[simp] theorem markers_related : (model.related data graph).markers = model.markers := rfl

/-- A relation that is put into a graph stands there, and all others are as they were. -/
theorem relation_related (relation : RelationId) :
    (model.related data graph).relation relation =
      if relation.index = model.relations.size then { data with graph := some graph }
      else model.relation relation := by
  unfold related
  rw [relation_modifyGraph]
  by_cases new : relation.index = model.relations.size
  · simp [Model.relation, drafted, new]
  · simp [Model.relation, drafted, Array.getElem?_push, new]

theorem relation_related_of_lt {relation : RelationId}
    (inside : relation.index < model.relations.size) :
    (model.related data graph).relation relation = model.relation relation := by
  rw [relation_related, if_neg (Nat.ne_of_lt inside)]

/-- Of all graphs only the one that a relation is put into is changed. -/
theorem graph_related (inside : graph.index < model.graphs.size) (other : GraphId) :
    (model.related data graph).graph other =
      if other = graph then
        { model.graph graph with
          relations := (model.graph graph).relations ++ [⟨model.relations.size⟩] }
      else model.graph other := by
  unfold related
  split
  · next same =>
    subst same
    rw [graph_modifyGraph (by exact inside)]
    rfl
  · next different =>
    rw [graph_modifyGraph_of_ne different]
    rfl

/-- A relation that is put into a graph hides and shows no concept. -/
theorem Frame.related (inside : graph.index < model.graphs.size)
    (visible : ∀ concept ∈ data.args, concept ∉ touched →
      (model.concept concept).hidden = false) :
    model.Frame touched (model.related data graph) where
  concepts_le := Nat.le_refl _
  relations_le := by simp
  graphs_le := by simp
  markers_le := Nat.le_refl _
  concept _ _ _ := rfl
  graph _ _ := rfl
  hidden _ _ := rfl
  special _ _ := rfl
  relation id old := by rw [relation_related_of_lt old]
  owner id _ := by
    rw [graph_related inside]
    split
    · next same => rw [same]
    · rfl
  comments id _ := by
    rw [graph_related inside]
    split
    · next same => rw [same]
    · exact List.prefix_rfl
  conceptTypes := .refl _
  relationTypes := .refl _
  visible relation new concept argument _ apart := by
    rw [relation_related] at argument
    split at argument
    · exact visible concept argument apart
    · rw [relation_of_le new] at argument
      cases argument

/-- A relation that is put into a graph is listed there, after those that are there. -/
theorem Listed.related (listed : model.Listed) (inside : graph.index < model.graphs.size) :
    (model.related data graph).Listed where
  concept_graph concept other stands := by
    rw [graphs_size_related]
    exact listed.concept_graph concept other stands
  relation_graph relation other stands := by
    rw [graphs_size_related]
    rw [relation_related] at stands
    split at stands
    · cases stands
      exact inside
    · exact listed.relation_graph relation other stands
  mem_concepts other concept := by
    rw [graph_related inside, concept_related, ← listed.mem_concepts]
    split
    · next here => rw [here]
    · rfl
  nodup_concepts other := by
    rw [graph_related inside]
    split
    · exact listed.nodup_concepts graph
    · exact listed.nodup_concepts other
  mem_relations other relation := by
    rw [graph_related inside, relation_related]
    by_cases new : relation.index = model.relations.size
    · have same : relation = ⟨model.relations.size⟩ := congrArg RelationId.mk new
      rw [if_pos new, same]
      split
      · next here => simp [here]
      · next elsewhere =>
        refine iff_of_false (not_mem_relations listed) fun stands => ?_
        cases stands
        exact elsewhere rfl
    · have apart : relation ≠ ⟨model.relations.size⟩ := fun same =>
        new (congrArg RelationId.index same)
      rw [if_neg new, ← listed.mem_relations]
      split
      · next here => simp [here, apart]
      · rfl
  nodup_relations other := by
    rw [graph_related inside]
    split
    · simp only [List.nodup_append, List.nodup_cons, List.not_mem_nil, not_false_eq_true,
        List.nodup_nil, and_self, true_and, List.mem_singleton]
      refine ⟨listed.nodup_relations graph, fun relation member other same => ?_⟩
      rintro rfl
      exact not_mem_relations listed (same ▸ member)
    · exact listed.nodup_relations other

/-- A relation that is put into a graph leaves the comments as they are. -/
theorem comments_related (inside : graph.index < model.graphs.size) (other : GraphId) :
    ((model.related data graph).graph other).comments = (model.graph other).comments := by
  rw [graph_related inside]
  split
  · next same => rw [same]
  · rfl

/-- A relation or actor on concepts of its graph is sound. -/
theorem Sound.related (sound : model.Sound form unfinished)
    (inside : graph.index < model.graphs.size)
    (typed : ∃ type, data.type = some type ∧ type.index < model.hierarchy.relations.size)
    (args : ∀ concept ∈ data.args, (model.concept concept).graph = some graph ∧
      (model.concept concept).IsPlain)
    (role : ∀ outputsFrom, data.role = .actor outputsFrom → outputsFrom ≤ data.args.length)
    (comment : ∀ text, data.comment = some text → Token.IsNodeComment text) :
    (model.related data graph).Sound form unfinished := by
  have frame : model.Frame [] (model.related data graph) :=
    Frame.related inside fun concept argument _ => (args concept argument).2.1
  refine sound.step frame (sound.listed.related inside) ?_ ?_ ?_ ?_ ?_ sound.conceptTypes
    sound.relationTypes
  · exact sound.joined.of_eq rfl (fun _ => rfl) fun _ plain => plain
  · intro other text
    rw [comments_related inside]
    exact sound.comments other text
  · intro concept here finished other
    rcases other with member | new | former
    · cases member
    · exact absurd here (Nat.not_lt_of_le new)
    · exact absurd former finished
  · intro concept member
    obtain ⟨hidden, unmentioned⟩ := sound.unfinished concept member
    refine ⟨hidden, fun relation argument => ?_⟩
    rw [relation_related] at argument
    split at argument
    · have visible := (args concept argument).2.1
      rw [hidden] at visible
      cases visible
    · exact unmentioned relation argument
  -- Only the last relation is new, and no concept is.
  · intro relation here new
    rw [size_related] at here
    have last : relation.index = model.relations.size := by omega
    have known : (model.related data graph).relation relation =
        { data with graph := some graph } := by
      rw [relation_related, if_pos last]
    constructor
    · rw [known]
      exact typed
    · rw [known]
      exact fun concept argument => lt_of_graph (args concept argument).1
    · rw [known]
      intro concept argument other stands
      cases stands
      exact (args concept argument).1
    · rw [known]
      exact role
    · rw [known]
      exact comment
    · rw [known]
      exact .inl fun concept argument => (args concept argument).2

/-- The relation that negates a hidden concept finishes it. -/
theorem Sound.negated {concept : ConceptId} (sound : model.Sound form (concept :: unfinished))
    (new : concept ∉ unfinished) (inside : graph.index < model.graphs.size) {type : RelationType}
    (named : model.hierarchy.relations.label? type = some Read.negationLabel)
    (stands : (model.concept concept).graph = some graph)
    (plain : (model.concept concept).type = none ∧ (model.concept concept).comment = none ∧
      (model.concept concept).special = none)
    {body : GraphId}
    (referent : (model.concept concept).referent = some { descriptor := some body })
    (described : model.DescribedBy concept body) :
    model.Frame [concept] (model.related { type := some type, args := [concept] } graph) ∧
      (model.related { type := some type, args := [concept] } graph).Sound form
        unfinished := by
  obtain ⟨hidden, unmentioned⟩ := sound.unfinished concept (List.mem_cons_self ..)
  obtain ⟨untyped, uncommented, unlabelled⟩ := plain
  have frame : model.Frame [concept]
      (model.related { type := some type, args := [concept] } graph) :=
    Frame.related inside fun other argument apart => absurd argument apart
  have last : (model.related { type := some type, args := [concept] } graph).relation
      ⟨model.relations.size⟩ = { type := some type, args := [concept], graph := some graph } := by
    rw [relation_related, if_pos rfl]
  have negates : (model.related { type := some type, args := [concept] } graph).Negates
      ⟨model.relations.size⟩ concept := by
    refine ⟨by simp, ?_, ?_, ?_, ?_, type, ?_, named⟩ <;> rw [last]
    exact stands.symm
  refine ⟨frame, sound.step frame (sound.listed.related inside) ?_ ?_ ?_ ?_ ?_
    sound.conceptTypes sound.relationTypes⟩
  · exact sound.joined.of_eq rfl (fun _ => rfl) fun _ plain => plain
  · intro other text
    rw [comments_related inside]
    exact sound.comments other text
  · intro other here finished reason
    have same : other = concept := by
      rcases reason with member | new | former
      · exact List.mem_singleton.mp member
      · exact absurd here (Nat.not_lt_of_le new)
      · exact (List.mem_cons.mp former).resolve_right finished
    subst same
    -- The wrapper is finished by its negation, and what is left unfinished waits for other ones.
    constructor
    · simp [untyped]
    · intro value refers
      rw [concept_related, referent] at refers
      cases refers
      exact ⟨by simp, by simp, rfl⟩
    · intro value describes
      have : value = body := by
        simpa [descriptor?, referent] using describes.symm
      subst this
      exact frame.describedBy (lt_of_hidden hidden) described
    · simp [uncommented]
    · simp [unlabelled]
    · intro _
      refine ⟨untyped, uncommented, unlabelled, ⟨body, referent⟩, _, negates, ?_⟩
      intro relation argument
      rw [relation_related] at argument
      split at argument
      · next new => exact congrArg RelationId.mk new
      · exact absurd argument (unmentioned relation)
  · intro other member
    obtain ⟨otherHidden, otherUnmentioned⟩ := sound.unfinished other (List.mem_cons_of_mem _ member)
    refine ⟨otherHidden, fun relation argument => ?_⟩
    rw [relation_related] at argument
    split at argument
    · exact new (List.mem_singleton.mp argument ▸ member)
    · exact otherUnmentioned relation argument
  · intro relation here new
    rw [size_related] at here
    have same : relation = ⟨model.relations.size⟩ :=
      congrArg RelationId.mk (by omega : relation.index = model.relations.size)
    subst same
    -- What the new relation needs is known of its only argument.
    constructor
    · rw [last]
      exact ⟨type, rfl, Lattice.label?_of_lt named⟩
    · rw [last]
      intro other argument
      obtain rfl := List.mem_singleton.mp argument
      exact lt_of_hidden hidden
    · rw [last]
      intro other argument place here
      cases here
      obtain rfl := List.mem_singleton.mp argument
      exact stands
    · rw [last]
      simp
    · rw [last]
      simp
    · exact .inr ⟨concept, hidden, negates⟩

end Relations

end ConceptualGraph.Model
