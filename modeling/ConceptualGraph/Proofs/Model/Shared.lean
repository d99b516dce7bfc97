/-
Module: ConceptualGraph.Proofs.Model.Shared
Purpose: Edits of what the nodes of a model share, its types, its markers and its
  coreference sets, keep it sound.
Main exports: Model.Sound.elsewhere, Model.SameButSets, Model.SameButSets.sound,
  Model.SameButSets.newCorefSet, Model.SameButSets.addToCorefSet
-/
import ConceptualGraph.Proofs.Model.Growth

namespace ConceptualGraph

variable {form : Notation}

/-! ## Types -/

namespace Lattice

variable {kind : TypeKind} {lattice : Lattice kind} {label : String}

/-- A type that is created on demand has a label that can be read back. -/
theorem Named.withType (named : lattice.Named form) (word : Token.IsName form label) :
    (lattice.withType label).Named form where
  label type other here := by
    by_cases new : type.index = lattice.size
    · have same : type = ⟨lattice.size⟩ := congrArg TypeRef.mk new
      rw [same, label?_withType] at here
      cases here
      exact word
    · have inside := label?_of_lt here
      rw [size_withType] at inside
      rw [Extends.withType.label type (by omega)] at here
      exact named.label type other here
  known type inside := by
    rw [size_withType] at inside
    by_cases new : type.index = lattice.size
    · have same : type = ⟨lattice.size⟩ := congrArg TypeRef.mk new
      rw [same, label?_withType]
      exact .inl rfl
    · rw [Extends.withType.label type (by omega), Extends.withType.definition type (by omega)]
      exact named.known type (by omega)

/-- A type that is given by its definition has no label to read back. -/
theorem Named.createDefined (named : lattice.Named form) (definition : Definition) :
    (lattice.createDefined definition).2.Named form where
  label type other here := by
    have inside := label?_of_lt here
    rw [size_createDefined] at inside
    by_cases new : type.index = lattice.size
    · have same : type = ⟨lattice.size⟩ := congrArg TypeRef.mk new
      rw [same, label?_createDefined] at here
      cases here
    · rw [(Extends.createDefined definition).label type (by omega)] at here
      exact named.label type other here
  known type inside := by
    rw [size_createDefined] at inside
    by_cases new : type.index = lattice.size
    · have same : type = ⟨lattice.size⟩ := congrArg TypeRef.mk new
      rw [same, definition_createDefined]
      exact .inr rfl
    · rw [(Extends.createDefined definition).label type (by omega),
        (Extends.createDefined definition).definition type (by omega)]
      exact named.known type (by omega)

@[simp] theorem size_setValence {type : TypeRef kind} {valence : Nat} :
    (lattice.setValence type valence).size = lattice.size := by
  simp [setValence]

@[simp] theorem label?_setValence {type other : TypeRef kind} {valence : Nat} :
    (lattice.setValence type valence).label? other = lattice.label? other :=
  node_modify_of_keeps TypeNode.label _ fun _ => rfl

@[simp] theorem definition_setValence {type other : TypeRef kind} {valence : Nat} :
    ((lattice.setValence type valence).node other).definition =
      (lattice.node other).definition :=
  node_modify_of_keeps TypeNode.definition _ fun _ => rfl

/-- A valence leaves the labels readable. -/
theorem Named.setValence (named : lattice.Named form) (type : TypeRef kind) (valence : Nat) :
    (lattice.setValence type valence).Named form where
  label other text here := by
    rw [label?_setValence] at here
    exact named.label other text here
  known other inside := by
    rw [size_setValence] at inside
    rw [label?_setValence, definition_setValence]
    exact named.known other inside

/-- The two types with which a lattice begins have words for labels. -/
theorem Named.withExtremes {topLabel bottomLabel : String} (top : Token.IsName form topLabel)
    (bottom : Token.IsName form bottomLabel) :
    (withExtremes topLabel bottomLabel : Lattice kind).Named form := by
  have labels : ∀ type : TypeRef kind, type.index < 2 →
      (Lattice.withExtremes topLabel bottomLabel : Lattice kind).label? type =
        some (if type.index = 0 then topLabel else bottomLabel) := by
    rintro ⟨place⟩ inside
    unfold Lattice.withExtremes label?
    rw [node_link_of_keeps TypeNode.label (fun _ _ => rfl) (fun _ _ => rfl)]
    match place, inside with
    | 0, _ => rfl
    | 1, _ => rfl
  have size : (Lattice.withExtremes topLabel bottomLabel : Lattice kind).size = 2 := rfl
  constructor
  · intro type label here
    have inside := label?_of_lt here
    rw [size] at inside
    rw [labels type inside] at here
    cases here
    split <;> assumption
  · intro type inside
    rw [size] at inside
    rw [labels type inside]
    exact .inl rfl

end Lattice

namespace Model

variable {unfinished : List ConceptId} {model : Model}

/-- An edit that changes no node and no graph. -/
theorem Frame.elsewhere {hierarchy : Hierarchy} {markers : Nat}
    (markersLe : model.markers ≤ markers)
    (conceptTypes : model.hierarchy.concepts.Extends hierarchy.concepts)
    (relationTypes : model.hierarchy.relations.Extends hierarchy.relations) :
    model.Frame [] { model with hierarchy, markers } where
  concepts_le := Nat.le_refl _
  relations_le := Nat.le_refl _
  graphs_le := Nat.le_refl _
  markers_le := markersLe
  concept _ _ _ := rfl
  graph _ _ := rfl
  hidden _ _ := rfl
  special _ _ := rfl
  relation _ _ := rfl
  owner _ _ := rfl
  comments _ _ := List.prefix_rfl
  conceptTypes := conceptTypes
  relationTypes := relationTypes
  visible relation new concept argument := by
    rw [show Model.relation { model with hierarchy, markers } relation =
      model.relation relation from rfl, relation_of_le new] at argument
    cases argument

/-- An arena stays sound where only its types and the count of its markers grow. -/
theorem Sound.elsewhere (sound : model.Sound form unfinished) (hierarchy : Hierarchy)
    (markers : Nat) (markersLe : model.markers ≤ markers)
    (conceptTypes : model.hierarchy.concepts.Extends hierarchy.concepts)
    (relationTypes : model.hierarchy.relations.Extends hierarchy.relations)
    (conceptNames : hierarchy.concepts.Named form)
    (relationNames : hierarchy.relations.Named form) :
    model.Frame [] { model with hierarchy, markers } ∧
      Sound form unfinished { model with hierarchy, markers } := by
  have frame : model.Frame [] { model with hierarchy, markers } :=
    .elsewhere markersLe conceptTypes relationTypes
  refine ⟨frame, sound.step frame ?_ ?_ sound.comments ?_ sound.unfinished ?_ conceptNames
    relationNames⟩
  · exact sound.listed.of_eq rfl (fun _ => rfl) (fun _ => rfl) (fun _ => rfl) fun _ => rfl
  · exact sound.joined.of_eq rfl (fun _ => rfl) fun _ plain => plain
  · intro concept here finished other
    rcases other with member | new | former
    · cases member
    · exact absurd here (Nat.not_lt_of_le new)
    · exact absurd former finished
  · intro relation here new
    exact absurd here (Nat.not_lt_of_le new)

/-! ## Coreference -/

section Coreference

variable {set other : CorefSetId} {concept : ConceptId}

/-- One more membership of one concept. -/
theorem concept_noteMembership (id : ConceptId) (inside : concept.index < model.concepts.size) :
    (model.noteMembership set concept).concept id =
      if id = concept then
        { model.concept concept with
          corefSets := (model.concept concept).corefSets ++ [set] }
      else model.concept id := by
  unfold noteMembership
  split
  · next same =>
    subst same
    exact concept_modifyConcept inside
  · next different => exact concept_modifyConcept_of_ne different

/-- Membership in coreference sets is all that changes when one is begun or added to. -/
structure SameButSets (model later : Model) : Prop where
  graphs : later.graphs = model.graphs
  relations : later.relations = model.relations
  hierarchy : later.hierarchy = model.hierarchy
  markers : later.markers = model.markers
  size : later.concepts.size = model.concepts.size
  bare : ∀ concept, (later.concept concept).bare = (model.concept concept).bare

namespace SameButSets

variable {later : Model}

theorem trans {last : Model} (first : model.SameButSets later) (second : later.SameButSets last) :
    model.SameButSets last where
  graphs := second.graphs.trans first.graphs
  relations := second.relations.trans first.relations
  hierarchy := second.hierarchy.trans first.hierarchy
  markers := second.markers.trans first.markers
  size := second.size.trans first.size
  bare concept := (second.bare concept).trans (first.bare concept)

/-- A field that does not look at the sets is the same in both models. -/
theorem field {α : Type} (same : model.SameButSets later) (field : Concept → α)
    (blind : ∀ data : Concept, field data.bare = field data) (concept : ConceptId) :
    field (later.concept concept) = field (model.concept concept) := by
  rw [← blind, same.bare, blind]

theorem graph (same : model.SameButSets later) (graph : GraphId) :
    later.graph graph = model.graph graph := by
  simp [Model.graph, same.graphs]

theorem relation (same : model.SameButSets later) (relation : RelationId) :
    later.relation relation = model.relation relation := by
  simp [Model.relation, same.relations]

/-- Edits of sets alone leave nodes and graphs as they are. -/
theorem frame (same : model.SameButSets later) : model.Frame [] later where
  concepts_le := Nat.le_of_eq same.size.symm
  relations_le := by rw [same.relations]
  graphs_le := by rw [same.graphs]
  markers_le := Nat.le_of_eq same.markers.symm
  concept id _ _ := same.bare id
  graph id _ := same.field Concept.graph (fun _ => rfl) id
  hidden id _ := same.field Concept.hidden (fun _ => rfl) id
  special id _ := same.field Concept.special (fun _ => rfl) id
  relation id _ := same.relation id
  owner id _ := by rw [same.graph]
  comments id _ := by
    rw [same.graph]
  conceptTypes := by
    rw [same.hierarchy]
    exact .refl _
  relationTypes := by
    rw [same.hierarchy]
    exact .refl _
  visible id new concept argument := by
    rw [same.relation, relation_of_le new] at argument
    cases argument

/-- An arena stays sound where only its sets change and agree with their members. -/
theorem sound (same : model.SameButSets later) (sound : model.Sound form unfinished)
    (joined : later.Joined) : later.Sound form unfinished := by
  refine sound.step same.frame ?_ joined ?_ ?_ ?_ ?_ ?_ ?_
  · refine sound.listed.of_eq (by rw [same.graphs]) (fun graph => ?_) (fun graph => ?_) ?_ ?_
    · rw [same.graph]
    · rw [same.graph]
    · exact same.field Concept.graph fun _ => rfl
    · exact fun relation => congrArg Relation.graph (same.relation relation)
  · intro graph
    rw [same.graph]
    exact sound.comments graph
  · intro id here finished reason
    rcases reason with member | new | former
    · cases member
    · rw [same.size] at here
      exact absurd here (Nat.not_lt_of_le new)
    · exact absurd former finished
  · intro id member
    obtain ⟨hidden, unmentioned⟩ := sound.unfinished id member
    refine ⟨(same.field Concept.hidden (fun _ => rfl) id).trans hidden, fun relation => ?_⟩
    rw [same.relation]
    exact unmentioned relation
  · intro relation here new
    rw [same.relations] at here
    exact absurd here (Nat.not_lt_of_le new)
  · rw [same.hierarchy]
    exact sound.conceptTypes
  · rw [same.hierarchy]
    exact sound.relationTypes

end SameButSets

/-- Noting a membership changes nothing else of a concept. -/
theorem bare_noteMembership (inside : concept.index < model.concepts.size) (id : ConceptId) :
    ((model.noteMembership set concept).concept id).bare = (model.concept id).bare := by
  rw [concept_noteMembership id inside]
  split
  · next same =>
    rw [same]
    rfl
  · rfl

/-- A set that is begun changes sets alone. -/
theorem SameButSets.newCorefSet (inside : concept.index < model.concepts.size) :
    model.SameButSets (model.newCorefSet concept).2 where
  graphs := rfl
  relations := rfl
  hierarchy := rfl
  markers := rfl
  size := size_modifyConcept
  bare id := bare_noteMembership (by exact inside) id

@[simp] theorem newCorefSet_fst : (model.newCorefSet concept).1 = ⟨model.corefSets.size⟩ := rfl

@[simp] theorem size_newCorefSet :
    (model.newCorefSet concept).2.corefSets.size = model.corefSets.size + 1 := by
  simp [newCorefSet, noteMembership]

/-- A set that is begun has one member, which defines it. -/
theorem corefSet_newCorefSet (id : CorefSetId) :
    (model.newCorefSet concept).2.corefSet id =
      if id.index = model.corefSets.size then
        { defining := concept, members := [concept]
          scopeChecked := (model.concept concept).graph.isSome }
      else model.corefSet id := by
  by_cases new : id.index = model.corefSets.size
  · simp [newCorefSet, noteMembership, Model.corefSet, new]
  · simp [newCorefSet, noteMembership, Model.corefSet, Array.getElem?_push, new]

/-- A set that is begun agrees with its one member. -/
theorem Joined.newCorefSet (joined : model.Joined)
    (inside : concept.index < model.concepts.size)
    (plain : (model.concept concept).IsPlain) :
    (model.newCorefSet concept).2.Joined := by
  have fresh : ∀ id, (⟨model.corefSets.size⟩ : CorefSetId) ∉
      (model.concept id).corefSets := by
    intro id lists
    have member := lt_of_mem_members ((joined.members _ id).mpr lists)
    exact Nat.lt_irrefl _ member
  have data : ∀ id, (model.newCorefSet concept).2.concept id =
      if id = concept then
        { model.concept concept with
          corefSets := (model.concept concept).corefSets ++ [⟨model.corefSets.size⟩] }
      else model.concept id := fun id => concept_noteMembership id (by exact inside)
  constructor
  · intro set here
    rw [size_newCorefSet] at here
    rw [corefSet_newCorefSet]
    split
    · exact List.mem_singleton_self _
    · exact joined.defining set (by omega)
  · intro set id
    rw [corefSet_newCorefSet, data]
    -- The new set is listed by its only member, and the sets from before by the same members.
    by_cases new : set.index = model.corefSets.size
    · have same : set = ⟨model.corefSets.size⟩ := congrArg CorefSetId.mk new
      rw [if_pos new, same]
      split
      · next equal => simp [equal]
      · next different => simp [different, fresh id]
    · have apart : set ≠ ⟨model.corefSets.size⟩ := fun same =>
        new (congrArg CorefSetId.index same)
      rw [if_neg new, joined.members]
      split
      · next equal => simp [equal, apart]
      · rfl
  · intro id
    rw [data]
    split
    · exact fun _ => plain
    · exact joined.shown id

variable {later : Model}

/-- A member is there already, or is added at the end. -/
theorem eq_of_addToCorefSet (added : model.addToCorefSet set concept = .ok later) :
    (concept ∈ (model.corefSet set).members ∧ later = model) ∨
      (concept ∉ (model.corefSet set).members ∧ later =
        (model.modifyCorefSet set fun data =>
          { data with members := data.members ++ [concept] }).noteMembership set concept) := by
  unfold addToCorefSet at added
  simp only at added
  split at added
  · next member =>
    cases added
    exact .inl ⟨member, rfl⟩
  · next missing =>
    split at added
    · cases added
    · cases added
      exact .inr ⟨missing, rfl⟩

/-- Joining a set changes nothing but sets. -/
theorem SameButSets.addToCorefSet (inside : concept.index < model.concepts.size)
    (added : model.addToCorefSet set concept = .ok later) : model.SameButSets later := by
  rcases eq_of_addToCorefSet added with ⟨-, rfl⟩ | ⟨-, rfl⟩
  · exact ⟨rfl, rfl, rfl, rfl, rfl, fun _ => rfl⟩
  · exact ⟨rfl, rfl, rfl, rfl, size_modifyConcept,
      fun id => bare_noteMembership (by exact inside) id⟩

/-- Of all sets only the one that is changed is another. -/
theorem corefSet_modifyCorefSet {change : CorefSet → CorefSet}
    (inside : set.index < model.corefSets.size) :
    (model.modifyCorefSet set change).corefSet other =
      if other = set then change (model.corefSet set) else model.corefSet other := by
  split
  · next same =>
    subst same
    simp [modifyCorefSet, Model.corefSet, Array.getElem_modify_self, inside]
  · next different =>
    have apart : set.index ≠ other.index := by
      intro same
      exact different (by cases set; cases other; simp_all)
    simp [modifyCorefSet, Model.corefSet, Array.getElem?_modify, apart]

/-- A member that is added agrees with its set. -/
theorem Joined.addToCorefSet (joined : model.Joined) (known : set.index < model.corefSets.size)
    (inside : concept.index < model.concepts.size)
    (plain : (model.concept concept).IsPlain)
    (added : model.addToCorefSet set concept = .ok later) : later.Joined := by
  rcases eq_of_addToCorefSet added with ⟨-, rfl⟩ | ⟨missing, rfl⟩
  · exact joined
  · have data : ∀ id, ((model.modifyCorefSet set fun data =>
          { data with members := data.members ++ [concept] }).noteMembership set
            concept).concept id =
        if id = concept then
          { model.concept concept with
            corefSets := (model.concept concept).corefSets ++ [set] }
        else model.concept id := fun id => concept_noteMembership id (by exact inside)
    have sets : ∀ id, ((model.modifyCorefSet set fun data =>
          { data with members := data.members ++ [concept] }).noteMembership set
            concept).corefSet id =
        if id = set then
          { model.corefSet set with members := (model.corefSet set).members ++ [concept] }
        else model.corefSet id := fun id => corefSet_modifyCorefSet known
    -- Both lists are extended at once: that of the members and that of the sets.
    constructor
    · intro id here
      rw [sets]
      split
      · exact List.mem_append_left _ (joined.defining set known)
      · refine joined.defining id ?_
        simpa [noteMembership, modifyCorefSet] using here
    · intro id other
      rw [sets, data]
      split
      · next same =>
        subst same
        split
        · next equal => simp [equal]
        · next different => simp [different, joined.members]
      · next apart =>
        rw [joined.members]
        split
        · next equal => simp [equal, apart]
        · rfl
    · intro id
      rw [data]
      split
      · exact fun _ => plain
      · exact joined.shown id

end Coreference

end Model

end ConceptualGraph
