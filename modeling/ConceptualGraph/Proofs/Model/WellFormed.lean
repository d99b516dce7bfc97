/-
Module: ConceptualGraph.Proofs.Model.WellFormed
Purpose: What holds of an arena whatever has been read into it, nodes that a failed
  reading has left behind included, and that every edit which reading makes keeps it.
Main exports: Model.LiesIn, Model.Scoped, Model.WellFormed, Model.Persists,
  Model.WellFormed.isNestedIn_iff
-/
import ConceptualGraph.Proofs.Model.Shared
import Mathlib.Logic.Relation

section

open Relation (ReflTransGen TransGen)

namespace ConceptualGraph.Model

/-! ## The shape of an arena

Unlike `Sound`, which says that every node can be written, this asks nothing of the data
that a node carries, so it holds half way through a node as well. -/

/-- Whether a graph describes a concept that stands in another graph. -/
def LiesIn (model : Model) (inner outer : GraphId) : Prop := model.parent? inner = some outer

/-- Whether the members of every coreference set stand where they may, if that is checked. -/
def Scoped (model : Model) : Prop :=
  ∀ set, (model.corefSet set).scopeChecked = true →
    ∀ member ∈ (model.corefSet set).members, model.inScope (model.corefSet set) member = true

/-- Nodes stand where they are listed and relations beside their arguments, descriptors belong
to the concepts they describe, and every graph was made after the one in which it lies. -/
structure WellFormed (model : Model) : Prop where
  listed : model.Listed
  args : ∀ relation graph, (model.relation relation).graph = some graph →
    ∀ concept ∈ (model.relation relation).args, (model.concept concept).graph = some graph
  owned : ∀ concept graph, model.descriptor? concept = some graph →
    (model.graph graph).owner = some concept
  inside : ∀ graph concept, (model.graph graph).owner = some concept →
    concept.index < model.concepts.size
  outward : ∀ inner outer, model.LiesIn inner outer → outer.index < inner.index
  scope : model.Scoped

/-- Nodes stay where they stand, and graphs with the concepts that own them. -/
structure Persists (model later : Model) : Prop where
  concepts : model.concepts.size ≤ later.concepts.size
  graphs : model.graphs.size ≤ later.graphs.size
  stands : ∀ concept graph, (model.concept concept).graph = some graph →
    (later.concept concept).graph = some graph
  owner : ∀ graph concept, (model.graph graph).owner = some concept →
    (later.graph graph).owner = some concept

variable {model later last : Model} {graph inner outer : GraphId} {concept : ConceptId}
  {relation : RelationId}

/-! ## Nesting -/

/-- A graph lies in the one where its owner stands. -/
theorem LiesIn.exists_owner (lies : model.LiesIn inner outer) :
    ∃ owner, (model.graph inner).owner = some owner ∧
      (model.concept owner).graph = some outer :=
  Option.bind_eq_some_iff.mp lies

/-- A graph with an owner is one of the model. -/
theorem lt_of_owner (owned : (model.graph graph).owner = some concept) :
    graph.index < model.graphs.size := by
  by_contra outside
  rw [graph_of_le (Nat.le_of_not_lt outside)] at owned
  cases owned

namespace WellFormed

variable (wellFormed : model.WellFormed)

include wellFormed

/-- No graph lies inside itself. -/
theorem acyclic (graph : GraphId) : ¬TransGen model.LiesIn graph graph := by
  have earlier :
    ∀ {inner outer}, TransGen model.LiesIn inner outer → outer.index < inner.index := by
    intro inner outer path
    induction path with
    | single lies => exact wellFormed.outward _ _ lies
    | tail _ lies shorter => exact Nat.lt_trans (wellFormed.outward _ _ lies) shorter
  exact fun around => Nat.lt_irrefl _ (earlier around)

/-- A path outwards has no more steps than there are graphs before the one where it begins. -/
theorem climbsTo_of_path {ancestor : GraphId} (path : ReflTransGen model.LiesIn graph ancestor)
    {steps : Nat} (enough : graph.index ≤ steps) :
    model.climbsTo ancestor steps graph = true := by
  induction path using ReflTransGen.head_induction_on generalizing steps with
  | refl => cases steps <;> simp [climbsTo]
  | @head inner outer lies _ ih =>
      have before := wellFormed.outward _ _ lies
      cases steps with
      | zero => omega
      | succ steps =>
          have further : model.climbsTo ancestor steps outer = true := ih (by omega)
          have parent : model.parent? inner = some outer := lies
          simp [climbsTo, parent, further]

end WellFormed

/-- What the search outwards comes to is reached outwards. -/
theorem path_of_climbsTo {ancestor : GraphId} {steps : Nat}
    (climbs : model.climbsTo ancestor steps graph = true) :
    ReflTransGen model.LiesIn graph ancestor := by
  induction steps generalizing graph with
  | zero =>
      obtain rfl : graph = ancestor := by simpa [climbsTo] using climbs
      exact .refl
  | succ steps ih =>
      simp only [climbsTo, Bool.or_eq_true, beq_iff_eq, Option.any_eq_true] at climbs
      rcases climbs with rfl | ⟨outer, lies, further⟩
      · exact .refl
      · exact .head lies (ih further)

/-- The search for a graph around another one, which takes at most as many steps as there are
graphs, finds it whenever it is there. -/
theorem WellFormed.isNestedIn_iff (wellFormed : model.WellFormed) {ancestor : GraphId} :
    model.isNestedIn graph ancestor = true ↔ ReflTransGen model.LiesIn graph ancestor := by
  refine ⟨path_of_climbsTo, fun path => ?_⟩
  unfold isNestedIn
  rcases path.cases_head with rfl | ⟨outer, lies, _⟩
  · cases model.graphs.size <;> simp [climbsTo]
  · obtain ⟨owner, owned, _⟩ := lies.exists_owner
    exact wellFormed.climbsTo_of_path path (Nat.le_of_lt (lt_of_owner owned))

/-- The empty arena is well formed. -/
theorem WellFormed.empty : ({} : Model).WellFormed where
  listed := ⟨nofun, nofun, fun _ _ => ⟨nofun, nofun⟩, fun _ => List.nodup_nil,
    fun _ _ => ⟨nofun, nofun⟩, fun _ => List.nodup_nil⟩
  args := nofun
  owned := nofun
  inside := nofun
  outward := nofun
  scope := nofun

/-! ## What stays -/

namespace Persists

theorem refl (model : Model) : model.Persists model :=
  ⟨Nat.le_refl _, Nat.le_refl _, fun _ _ stands => stands, fun _ _ owned => owned⟩

theorem trans (first : model.Persists later) (second : later.Persists last) :
    model.Persists last where
  concepts := Nat.le_trans first.concepts second.concepts
  graphs := Nat.le_trans first.graphs second.graphs
  stands concept graph here := second.stands concept graph (first.stands concept graph here)
  owner graph concept owned := second.owner graph concept (first.owner graph concept owned)

variable (persists : model.Persists later)

include persists

/-- What lies in a graph does so in every model that persists. -/
theorem liesIn (lies : model.LiesIn inner outer) : later.LiesIn inner outer := by
  obtain ⟨owner, owned, stands⟩ := lies.exists_owner
  exact Option.bind_eq_some_iff.mpr
    ⟨owner, persists.owner _ _ owned, persists.stands _ _ stands⟩

/-- What was found outwards is found with more steps in an arena that goes on. -/
theorem climbsTo {ancestor : GraphId} {steps more : Nat} (le : steps ≤ more)
    (climbs : model.climbsTo ancestor steps graph = true) :
    later.climbsTo ancestor more graph = true := by
  induction steps generalizing graph more with
  | zero =>
      obtain rfl : graph = ancestor := by simpa [Model.climbsTo] using climbs
      cases more <;> simp [Model.climbsTo]
  | succ steps ih =>
      obtain ⟨more, rfl⟩ : ∃ count, more = count + 1 := ⟨more - 1, by omega⟩
      simp only [Model.climbsTo, Bool.or_eq_true, beq_iff_eq, Option.any_eq_true] at climbs ⊢
      rcases climbs with here | ⟨outer, lies, further⟩
      · exact .inl here
      · exact .inr ⟨outer, persists.liesIn lies, ih (Nat.le_of_succ_le_succ le) further⟩

/-- A concept stays in the scope of a set as long as the set keeps its defining member. -/
theorem inScope {set other : CorefSet} (same : other.defining = set.defining)
    (within : model.inScope set concept = true) : later.inScope other concept = true := by
  unfold Model.inScope at within ⊢
  rw [same]
  cases stands : (model.concept concept).graph with
  | none => simp [stands] at within
  | some graph =>
      cases scope : (model.concept set.defining).graph with
      | none => simp [stands, scope] at within
      | some outer =>
          rw [persists.stands _ _ stands, persists.stands _ _ scope]
          simp only [stands, scope] at within ⊢
          exact persists.climbsTo persists.graphs within

theorem inScopes (within : model.Scoped) (sets : later.corefSets = model.corefSets) :
    later.Scoped := by
  have same : ∀ set, later.corefSet set = model.corefSet set := fun set => by
    simp only [corefSet, sets]
  intro set checked member belongs
  rw [same] at checked belongs ⊢
  exact persists.inScope rfl (within set checked member belongs)

end Persists

/-! ## Edits -/

/-- Whether two arenas have the same nodes at the same places, whatever else these carry. -/
structure SameShape (model later : Model) : Prop where
  size : later.concepts.size = model.concepts.size
  graphs : later.graphs.size = model.graphs.size
  concepts : ∀ graph, (later.graph graph).concepts = (model.graph graph).concepts
  relations : ∀ graph, (later.graph graph).relations = (model.graph graph).relations
  owner : ∀ graph, (later.graph graph).owner = (model.graph graph).owner
  stands : ∀ concept, (later.concept concept).graph = (model.concept concept).graph
  descriptor : ∀ concept, later.descriptor? concept = model.descriptor? concept
  relation : ∀ relation, (later.relation relation).graph = (model.relation relation).graph
  args : ∀ relation, (later.relation relation).args = (model.relation relation).args

namespace SameShape

variable (same : model.SameShape later)

include same

theorem persists : model.Persists later where
  concepts := Nat.le_of_eq same.size.symm
  graphs := Nat.le_of_eq same.graphs.symm
  stands concept _ here := by rw [same.stands concept, here]
  owner graph _ owned := by rw [same.owner graph, owned]

theorem liesIn (lies : later.LiesIn inner outer) : model.LiesIn inner outer := by
  obtain ⟨owner, owned, stands⟩ := lies.exists_owner
  rw [same.owner] at owned
  rw [same.stands] at stands
  exact Option.bind_eq_some_iff.mpr ⟨owner, owned, stands⟩

/-- An arena stays well formed while what stands in it keeps its place. -/
theorem wellFormed (wellFormed : model.WellFormed) (scope : later.Scoped) :
    later.WellFormed where
  listed := wellFormed.listed.of_eq same.graphs.symm same.concepts same.relations same.stands
    same.relation
  args relation graph stands concept argument := by
    rw [same.relation] at stands
    rw [same.args] at argument
    rw [same.stands]
    exact wellFormed.args relation graph stands concept argument
  owned concept graph describes := by
    rw [same.descriptor] at describes
    rw [same.owner]
    exact wellFormed.owned concept graph describes
  inside graph concept owned := by
    rw [same.owner] at owned
    rw [same.size]
    exact wellFormed.inside graph concept owned
  outward inner outer lies := wellFormed.outward inner outer (same.liesIn lies)
  scope := scope

end SameShape

/-- What a change leaves alone of every concept is left alone by the edit. -/
theorem field_modifyConcept {α : Type} (model : Model) (id : ConceptId)
    {change : Concept → Concept} (field : Concept → α)
    (keeps : ∀ data, field (change data) = field data) (concept : ConceptId) :
    field ((model.modifyConcept id change).concept concept) = field (model.concept concept) := by
  by_cases here : concept = id
  · subst here
    by_cases inside : concept.index < model.concepts.size
    · rw [concept_modifyConcept inside, keeps]
    · rw [concept_of_le (by simpa using Nat.le_of_not_lt inside),
        concept_of_le (Nat.le_of_not_lt inside)]
  · rw [concept_modifyConcept_of_ne here]

/-- A concept that is changed in place leaves the shape of the arena. -/
theorem SameShape.modifyConcept {id : ConceptId} {change : Concept → Concept}
    (graph : ∀ data, (change data).graph = data.graph)
    (descriptor : ∀ data, (change data).referent.bind Referent.descriptor =
      data.referent.bind Referent.descriptor) :
    model.SameShape (model.modifyConcept id change) where
  size := size_modifyConcept
  graphs := rfl
  concepts _ := rfl
  relations _ := rfl
  owner _ := rfl
  stands := field_modifyConcept _ _ Concept.graph graph
  descriptor := field_modifyConcept _ _ (fun data => data.referent.bind Referent.descriptor)
    descriptor
  relation _ := rfl
  args _ := rfl

/-- A comment leaves the shape of the arena. -/
theorem SameShape.addComment (inside : graph.index < model.graphs.size) (text : String) :
    model.SameShape (model.addComment graph text) where
  size := rfl
  graphs := by simp [Model.addComment]
  concepts other := by
    rw [graph_addComment inside]
    split
    · next here => rw [here]
    · rfl
  relations other := by
    rw [graph_addComment inside]
    split
    · next here => rw [here]
    · rfl
  owner other := by
    rw [graph_addComment inside]
    split
    · next here => rw [here]
    · rfl
  stands _ := rfl
  descriptor _ := rfl
  relation _ := rfl
  args _ := rfl

/-- Types and markers are no part of the shape. -/
theorem SameShape.elsewhere (hierarchy : Hierarchy) (markers : Nat) :
    model.SameShape { model with hierarchy, markers } :=
  ⟨rfl, rfl, fun _ => rfl, fun _ => rfl, fun _ => rfl, fun _ => rfl, fun _ => rfl, fun _ => rfl,
    fun _ => rfl⟩

namespace WellFormed

variable (wellFormed : model.WellFormed)

include wellFormed

/-- Data that nodes carry are changed, but neither places nor descriptors. -/
theorem modifyConcept {id : ConceptId} {change : Concept → Concept}
    (graph : ∀ data, (change data).graph = data.graph)
    (descriptor : ∀ data, (change data).referent.bind Referent.descriptor =
      data.referent.bind Referent.descriptor) :
    (model.modifyConcept id change).WellFormed :=
  have same := SameShape.modifyConcept graph descriptor
  same.wellFormed wellFormed (same.persists.inScopes wellFormed.scope rfl)

/-- A comment keeps a model well-formed. -/
theorem addComment (inside : graph.index < model.graphs.size) (text : String) :
    (model.addComment graph text).WellFormed :=
  have same := SameShape.addComment inside text
  same.wellFormed wellFormed (same.persists.inScopes wellFormed.scope rfl)

/-- Types and markers have nothing to do with what lies where. -/
theorem elsewhere (hierarchy : Hierarchy) (markers : Nat) :
    ({ model with hierarchy, markers } : Model).WellFormed :=
  have same := SameShape.elsewhere hierarchy markers
  same.wellFormed wellFormed (same.persists.inScopes wellFormed.scope rfl)

end WellFormed

/-! ### Graphs -/

theorem Persists.newGraph {owner : Option ConceptId} :
    model.Persists (model.newGraph owner).2 where
  concepts := Nat.le_refl _
  graphs := by simp
  stands _ _ stands := stands
  owner graph concept owned := by rw [graph_newGraph_of_lt (lt_of_owner owned), owned]

/-- A graph begins inside the graph in which the concept stands that it describes. -/
theorem WellFormed.newGraph (wellFormed : model.WellFormed) {owner : Option ConceptId}
    (inside : ∀ concept, owner = some concept → concept.index < model.concepts.size) :
    (model.newGraph owner).2.WellFormed where
  listed := wellFormed.listed.newGraph
  args := wellFormed.args
  owned concept graph describes := Persists.newGraph.owner _ _ (wellFormed.owned _ _ describes)
  inside graph concept owned := by
    rw [graph_newGraph_eq] at owned
    split at owned
    · exact inside concept owned
    · exact wellFormed.inside graph concept owned
  outward inner outer lies := by
    obtain ⟨concept, owned, stands⟩ := lies.exists_owner
    rw [graph_newGraph_eq] at owned
    split at owned
    · next new =>
      rw [new]
      exact wellFormed.listed.concept_graph concept outer stands
    · exact wellFormed.outward inner outer (Option.bind_eq_some_iff.mpr ⟨concept, owned, stands⟩)
  scope := Persists.newGraph.inScopes wellFormed.scope rfl

/-! ### Concepts -/

section Concepts

variable {data : Concept} {type : Option ConceptType}

theorem concept_newConcept_eq (concept : ConceptId) :
    (model.newConcept type).2.concept concept =
      if concept.index = model.concepts.size then { type } else model.concept concept := by
  by_cases new : concept.index = model.concepts.size
  · have same : concept = ⟨model.concepts.size⟩ := congrArg ConceptId.mk new
    rw [same, concept_newConcept, if_pos rfl]
  · simp [newConcept, Model.concept, Array.getElem?_push, new]

theorem Persists.newConcept : model.Persists (model.newConcept type).2 where
  concepts := by simp
  graphs := Nat.le_refl _
  stands concept graph stands := by rw [concept_newConcept_of_lt (lt_of_graph stands), stands]
  owner _ _ owned := owned

/-- A concept is made that stands in no graph. -/
theorem WellFormed.newConcept (wellFormed : model.WellFormed) :
    (model.newConcept type).2.WellFormed := by
  have graph : ∀ concept, ((model.newConcept type).2.concept concept).graph =
      (model.concept concept).graph := fun concept => by
    rw [concept_newConcept_eq]
    split
    · next new => rw [concept_of_le (Nat.le_of_eq new.symm)]; rfl
    · rfl
  have descriptor : ∀ concept, (model.newConcept type).2.descriptor? concept =
      model.descriptor? concept := fun concept => by
    unfold descriptor?
    rw [concept_newConcept_eq]
    split
    · next new => rw [concept_of_le (Nat.le_of_eq new.symm)]; rfl
    · rfl
  constructor
  · exact wellFormed.listed.of_eq rfl (fun _ => rfl) (fun _ => rfl) graph fun _ => rfl
  · intro relation other stands concept argument
    rw [graph]
    exact wellFormed.args relation other stands concept argument
  · intro concept other describes
    rw [descriptor] at describes
    exact wellFormed.owned concept other describes
  · intro other concept owned
    rw [size_newConcept]
    exact Nat.lt_succ_of_lt (wellFormed.inside other concept owned)
  · intro inner outer lies
    obtain ⟨concept, owned, stands⟩ := lies.exists_owner
    rw [graph] at stands
    exact wellFormed.outward inner outer (Option.bind_eq_some_iff.mpr ⟨concept, owned, stands⟩)
  · exact Persists.newConcept.inScopes wellFormed.scope rfl

/-- A concept that is placed moves no other node. -/
theorem Persists.placed (within : graph.index < model.graphs.size) :
    model.Persists (model.placed data graph) where
  concepts := by simp
  graphs := by simp
  stands concept other stands := by rw [concept_placed_of_lt (lt_of_graph stands), stands]
  owner other concept owned := by
    rw [graph_placed within]
    split
    · next same => rw [← same, owned]
    · exact owned

/-- A concept is made and put into a graph. -/
theorem WellFormed.placed (wellFormed : model.WellFormed) (within : graph.index < model.graphs.size)
    (bare : data.referent.bind Referent.descriptor = none) :
    (model.placed data graph).WellFormed := by
  have owner : ∀ other, ((model.placed data graph).graph other).owner =
      (model.graph other).owner := fun other => by
    rw [graph_placed within]
    split
    · next same => rw [same]
    · rfl
  have persists : model.Persists (model.placed data graph) := .placed within
  constructor
  · exact wellFormed.listed.placed within
  · intro relation other stands concept argument
    exact persists.stands _ _ (wellFormed.args relation other stands concept argument)
  · intro concept other describes
    rw [owner]
    unfold descriptor? at describes
    rw [concept_placed] at describes
    split at describes
    · rw [bare] at describes
      cases describes
    · exact wellFormed.owned concept other describes
  · intro other concept owned
    rw [owner] at owned
    rw [size_placed]
    exact Nat.lt_succ_of_lt (wellFormed.inside other concept owned)
  · intro inner outer lies
    obtain ⟨concept, owned, stands⟩ := lies.exists_owner
    rw [owner] at owned
    -- No graph describes the new concept yet, so it comes to lie nowhere by this.
    rw [concept_placed_of_lt (wellFormed.inside inner concept owned)] at stands
    exact wellFormed.outward inner outer (Option.bind_eq_some_iff.mpr ⟨concept, owned, stands⟩)
  · exact persists.inScopes wellFormed.scope rfl

/-- A concept is given a referent whose descriptor belongs to it. -/
theorem WellFormed.setReferent (wellFormed : model.WellFormed) {referent : Referent}
    (owned : ∀ graph, referent.descriptor = some graph → (model.graph graph).owner = some concept) :
    (model.setReferent concept referent).WellFormed ∧
      model.Persists (model.setReferent concept referent) := by
  rw [setReferent_eq fun graph describes =>
    ⟨lt_of_owner (owned graph describes), owned graph describes⟩]
  have stands : ∀ other, ((model.modifyConcept concept fun data =>
      { data with referent := some referent }).concept other).graph = (model.concept other).graph :=
    field_modifyConcept _ _ Concept.graph fun _ => rfl
  have persists : model.Persists (model.modifyConcept concept fun data =>
      { data with referent := some referent }) :=
    ⟨Nat.le_of_eq size_modifyConcept.symm, Nat.le_refl _,
      fun other graph here => by rw [stands, here], fun _ _ owned => owned⟩
  refine ⟨⟨?_, ?_, ?_, ?_, ?_, ?_⟩, persists⟩
  · exact wellFormed.listed.of_eq rfl (fun _ => rfl) (fun _ => rfl) stands fun _ => rfl
  · intro relation graph here other argument
    exact persists.stands _ _ (wellFormed.args relation graph here other argument)
  · intro other graph describes
    by_cases same : other = concept
    · subst same
      by_cases known : other.index < model.concepts.size
      · rw [descriptor?, concept_modifyConcept known] at describes
        exact owned graph describes
      · rw [descriptor?, concept_of_le (by simpa using Nat.le_of_not_lt known)] at describes
        cases describes
    · rw [descriptor?, concept_modifyConcept_of_ne same] at describes
      exact wellFormed.owned other graph describes
  · intro graph other owned
    rw [size_modifyConcept]
    exact wellFormed.inside graph other owned
  · intro inner outer lies
    obtain ⟨other, owned, here⟩ := lies.exists_owner
    rw [stands] at here
    exact wellFormed.outward inner outer (Option.bind_eq_some_iff.mpr ⟨other, owned, here⟩)
  · exact persists.inScopes wellFormed.scope rfl

end Concepts

/-! ### Relations -/

section Relations

variable {data : Relation}

theorem relation_drafted (relation : RelationId) :
    (model.drafted data).relation relation =
      if relation.index = model.relations.size then data else model.relation relation := by
  by_cases new : relation.index = model.relations.size
  · simp [Model.relation, drafted, new]
  · simp [Model.relation, drafted, Array.getElem?_push, new]

theorem Persists.drafted : model.Persists (model.drafted data) :=
  ⟨Nat.le_refl _, Nat.le_refl _, fun _ _ stands => stands, fun _ _ owned => owned⟩

/-- A relation is made that stands in no graph. -/
theorem WellFormed.drafted (wellFormed : model.WellFormed) (loose : data.graph = none) :
    (model.drafted data).WellFormed where
  listed := wellFormed.listed.of_eq rfl (fun _ => rfl) (fun _ => rfl) (fun _ => rfl)
    fun relation => by
      rw [relation_drafted]
      split
      · next new => rw [relation_of_le (Nat.le_of_eq new.symm), loose]; rfl
      · rfl
  args relation graph stands := by
    rw [relation_drafted] at stands ⊢
    split at stands
    · rw [loose] at stands
      cases stands
    · next old =>
      rw [if_neg old]
      exact wellFormed.args relation graph stands
  owned := wellFormed.owned
  inside := wellFormed.inside
  outward := wellFormed.outward
  scope := Persists.drafted.inScopes wellFormed.scope rfl

/-- A relation that is put into a graph moves no other node. -/
theorem Persists.related (within : graph.index < model.graphs.size) :
    model.Persists (model.related data graph) where
  concepts := Nat.le_refl _
  graphs := by simp
  stands _ _ stands := stands
  owner other concept owned := by
    rw [graph_related within]
    split
    · next same => rw [← same, owned]
    · exact owned

/-- A relation that has been made is put into the graph of its arguments. -/
theorem WellFormed.related (wellFormed : model.WellFormed)
    (within : graph.index < model.graphs.size)
    (args : ∀ concept ∈ data.args, (model.concept concept).graph = some graph) :
    (model.related data graph).WellFormed := by
  have owner : ∀ other, ((model.related data graph).graph other).owner =
      (model.graph other).owner := fun other => by
    rw [graph_related within]
    split
    · next same => rw [same]
    · rfl
  constructor
  · exact wellFormed.listed.related within
  · intro relation other stands
    rw [relation_related] at stands ⊢
    split at stands
    · next new =>
      rw [if_pos new]
      cases stands
      exact args
    · next old =>
      rw [if_neg old]
      exact wellFormed.args relation other stands
  · intro concept other describes
    rw [owner]
    exact wellFormed.owned concept other describes
  · intro other concept owned
    rw [owner] at owned
    exact wellFormed.inside other concept owned
  · intro inner outer lies
    obtain ⟨concept, owned, stands⟩ := lies.exists_owner
    rw [owner] at owned
    exact wellFormed.outward inner outer (Option.bind_eq_some_iff.mpr ⟨concept, owned, stands⟩)
  · exact (Persists.related within).inScopes wellFormed.scope rfl

end Relations

/-! ### Coreference -/

section Coreference

variable {set : CorefSetId}

/-- A membership that is noted leaves the shape of the arena. -/
theorem SameShape.noteMembership (sets : Array CorefSet) :
    model.SameShape ({ model with corefSets := sets }.noteMembership set concept) where
  size := size_modifyConcept
  graphs := rfl
  concepts _ := rfl
  relations _ := rfl
  owner _ := rfl
  stands := field_modifyConcept { model with corefSets := sets } _ Concept.graph fun _ => rfl
  descriptor := field_modifyConcept { model with corefSets := sets } _
    (fun data => data.referent.bind Referent.descriptor) fun _ => rfl
  relation _ := rfl
  args _ := rfl

/-- The defining concept is in the scope of its own set. -/
theorem inScope_self {set : CorefSet}
    (stands : (model.concept set.defining).graph.isSome = true) :
    model.inScope set set.defining = true := by
  obtain ⟨graph, here⟩ := Option.isSome_iff_exists.mp stands
  simp only [inScope, here, isNestedIn]
  cases model.graphs.size <;> simp [climbsTo]

/-- A set begins in the scope of its defining member. -/
theorem WellFormed.newCorefSet (wellFormed : model.WellFormed) :
    (model.newCorefSet concept).2.WellFormed ∧
      model.Persists (model.newCorefSet concept).2 := by
  have same : model.SameShape (model.newCorefSet concept).2 := .noteMembership _
  refine ⟨same.wellFormed wellFormed fun id checked member belongs => ?_, same.persists⟩
  rw [corefSet_newCorefSet] at checked belongs ⊢
  split at checked
  · next new =>
    rw [if_pos new] at belongs ⊢
    obtain rfl := List.mem_singleton.mp belongs
    exact same.persists.inScope rfl (inScope_self checked)
  · next old =>
    rw [if_neg old] at belongs ⊢
    exact same.persists.inScope rfl (wellFormed.scope id checked member belongs)

/-- A set gains a member only in its scope. -/
theorem WellFormed.addToCorefSet (wellFormed : model.WellFormed)
    (added : model.addToCorefSet set concept = .ok later) :
    later.WellFormed ∧ model.Persists later := by
  have allowed : (model.corefSet set).scopeChecked = true →
      concept ∉ (model.corefSet set).members →
        model.inScope (model.corefSet set) concept = true := by
    intro checked missing
    by_contra beyond
    rw [Bool.not_eq_true] at beyond
    simp [Model.addToCorefSet, checked, missing, beyond] at added
  rcases eq_of_addToCorefSet added with ⟨-, rfl⟩ | ⟨missing, rfl⟩
  · exact ⟨wellFormed, .refl _⟩
  · have same : model.SameShape ((model.modifyCorefSet set fun data =>
        { data with members := data.members ++ [concept] }).noteMembership set concept) :=
      .noteMembership _
    refine ⟨same.wellFormed wellFormed fun id checked member belongs => ?_, same.persists⟩
    change ((model.modifyCorefSet set _).corefSet id).scopeChecked = true at checked
    change member ∈ ((model.modifyCorefSet set _).corefSet id).members at belongs
    -- Only a set of the arena changes, and only by the concept that was found in its scope.
    by_cases known : set.index < model.corefSets.size
    · by_cases here : id = set
      · subst here
        rw [corefSet_modifyCorefSet known, if_pos rfl] at checked belongs
        have defines : (((model.modifyCorefSet id fun data => { data with
            members := data.members ++ [concept] }).noteMembership id concept).corefSet
              id).defining = (model.corefSet id).defining := by
          change ((model.modifyCorefSet id _).corefSet id).defining = _
          rw [corefSet_modifyCorefSet known, if_pos rfl]
        refine same.persists.inScope defines ?_
        rcases List.mem_append.mp belongs with before | new
        · exact wellFormed.scope id checked member before
        · obtain rfl := List.mem_singleton.mp new
          exact allowed checked missing
      · rw [corefSet_modifyCorefSet known, if_neg here] at checked belongs
        refine same.persists.inScope ?_ (wellFormed.scope id checked member belongs)
        change ((model.modifyCorefSet set _).corefSet id).defining = _
        rw [corefSet_modifyCorefSet known, if_neg here]
    · have unchanged : (model.modifyCorefSet set fun data =>
          { data with members := data.members ++ [concept] }).corefSet id =
            model.corefSet id := by
        simp only [modifyCorefSet, corefSet, Array.getElem?_modify]
        split
        · rw [Array.getElem?_eq_none (by omega)]
          rfl
        · rfl
      rw [unchanged] at checked belongs
      refine same.persists.inScope ?_ (wellFormed.scope id checked member belongs)
      change ((model.modifyCorefSet set _).corefSet id).defining = _
      rw [unchanged]

end Coreference

end ConceptualGraph.Model

end
