/-
Module: ConceptualGraph.Proofs.Model.Mutual
Purpose: Membership in a coreference set is noted both at the set and at its members, and a member
  that is refused is noted at neither.
Main exports: Model.Mutual, Model.SameSets, Model.InPlace, Model.InPlace.addToCorefSet_eq,
  Model.Call
-/
import ConceptualGraph.Proofs.Model.Shared
import ConceptualGraph.Proofs.Model.WellFormed
import ConceptualGraph.Proofs.Step
import Mathlib.Data.List.Nodup

namespace ConceptualGraph.Model

variable {model later : Model} {concept defining : ConceptId} {set : CorefSetId}

/-! ## Membership on both sides -/

/-- Concepts and coreference sets list each other, once, and a set lists its defining member
first. -/
structure Mutual (model : Model) : Prop where
  mem_iff : ∀ concept set,
    set ∈ (model.concept concept).corefSets ↔ concept ∈ (model.corefSet set).members
  corefSets : ∀ concept, (model.concept concept).corefSets.Nodup
  members : ∀ set, (model.corefSet set).members.Nodup
  first : ∀ set : CorefSetId, set.index < model.corefSets.size →
    (model.corefSet set).members.head? = some (model.corefSet set).defining

/-- Two arenas have the same concepts as far as coreference is concerned, and the same coreference
sets. -/
structure SameSets (model later : Model) : Prop where
  size : later.concepts.size = model.concepts.size
  corefSets : ∀ concept, (later.concept concept).corefSets = (model.concept concept).corefSets
  sets : later.corefSets = model.corefSets

/-- What leaves the concepts and the sets alone. -/
theorem SameSets.of_eq (concepts : later.concepts = model.concepts)
    (sets : later.corefSets = model.corefSets) : model.SameSets later where
  size := by rw [concepts]
  corefSets id := by rw [Model.concept, concepts, Model.concept]
  sets := sets

/-- A concept that is changed elsewhere than in its list of sets keeps its memberships. -/
theorem SameSets.modifyConcept {change : Concept → Concept}
    (kept : (change (model.concept concept)).corefSets = (model.concept concept).corefSets) :
    model.SameSets (model.modifyConcept concept change) where
  size := size_modifyConcept
  corefSets id := by
    by_cases here : id = concept
    · subst here
      by_cases inside : id.index < model.concepts.size
      · rw [concept_modifyConcept inside, kept]
      · rw [concept_of_le (by simpa using Nat.le_of_not_lt inside),
          concept_of_le (Nat.le_of_not_lt inside)]
    · rw [concept_modifyConcept_of_ne here]
  sets := rfl

theorem SameSets.addConcept {graph : GraphId} : model.SameSets (model.addConcept graph concept) :=
  have placed : model.SameSets (model.modifyConcept concept fun data =>
    { data with graph := some graph }) := .modifyConcept rfl
  ⟨placed.size, placed.corefSets, placed.sets⟩

/-- A referent changes no membership. -/
theorem SameSets.setReferent {referent : Referent} :
    model.SameSets (model.setReferent concept referent) := by
  have refers : model.SameSets (model.modifyConcept concept fun data =>
    { data with referent := some referent }) := .modifyConcept rfl
  unfold Model.setReferent
  dsimp only
  split
  · exact ⟨refers.size, refers.corefSets, refers.sets⟩
  · exact refers

namespace Mutual

/-- A model without concepts and sets has nothing to disagree about. -/
theorem start (hierarchy : Hierarchy) : Mutual { hierarchy } where
  mem_iff _ _ := iff_of_false List.not_mem_nil List.not_mem_nil
  corefSets _ := List.nodup_nil
  members _ := List.nodup_nil
  first _ inside := absurd inside (Nat.not_lt_zero _)

/-- Memberships agree where neither sets nor lists of sets change. -/
theorem of_sameSets (agree : model.Mutual) (same : model.SameSets later) : later.Mutual := by
  have sets (set : CorefSetId) : later.corefSet set = model.corefSet set := by
    rw [Model.corefSet, same.sets, Model.corefSet]
  refine ⟨fun concept set => ?_, fun concept => ?_, fun set => ?_, fun set inside => ?_⟩
  · rw [same.corefSets, sets, agree.mem_iff]
  · rw [same.corefSets]
    exact agree.corefSets concept
  · rw [sets]
    exact agree.members set
  · rw [sets]
    exact agree.first set (same.sets ▸ inside)

/-- A new concept is a member of no set. -/
theorem newConcept (agree : model.Mutual) (type : Option ConceptType) :
    (model.newConcept type).2.Mutual := by
  have unlisted : (model.concept ⟨model.concepts.size⟩).corefSets = [] := by
    have outside : model.concept ⟨model.concepts.size⟩ = default := concept_of_le (Nat.le_refl _)
    rw [outside]
    rfl
  have listed (concept : ConceptId) : ((model.newConcept type).2.concept concept).corefSets =
      (model.concept concept).corefSets := by
    rw [concept_newConcept_eq]
    split
    · next new =>
      obtain rfl : concept = ⟨model.concepts.size⟩ := congrArg ConceptId.mk new
      exact unlisted.symm
    · rfl
  refine ⟨fun concept set => ?_, fun concept => ?_, agree.members, agree.first⟩
  · rw [listed]
    exact agree.mem_iff concept set
  · rw [listed]
    exact agree.corefSets concept

/-- A set and a concept that is no member of it list each other from now on. -/
theorem enlist (agree : model.Mutual)
    (listed : ∀ id, (later.concept id).corefSets =
      if id = concept then (model.concept concept).corefSets ++ [set]
      else (model.concept id).corefSets)
    (members : ∀ id, (later.corefSet id).members =
      if id = set then (model.corefSet set).members ++ [concept] else (model.corefSet id).members)
    (missing : concept ∉ (model.corefSet set).members)
    (first : ∀ set : CorefSetId, set.index < later.corefSets.size →
      (later.corefSet set).members.head? = some (later.corefSet set).defining) :
    later.Mutual where
  mem_iff id other := by
    rw [listed, members]
    by_cases here : id = concept <;> by_cases there : other = set <;>
      simp [here, there, agree.mem_iff]
  corefSets id := by
    rw [listed]
    split
    · rw [← List.concat_eq_append]
      exact List.Nodup.concat (fun listed => missing ((agree.mem_iff _ _).mp listed))
        (agree.corefSets _)
    · exact agree.corefSets id
  members other := by
    rw [members]
    split
    · rw [← List.concat_eq_append]
      exact List.Nodup.concat missing (agree.members _)
    · exact agree.members other
  first := first

/-- Only the concept that joins lists one more set. -/
theorem corefSets_noteMembership (inside : concept.index < model.concepts.size)
    (id : ConceptId) : ((model.noteMembership set concept).concept id).corefSets =
      if id = concept then (model.concept concept).corefSets ++ [set]
      else (model.concept id).corefSets :=
  (congrArg Concept.corefSets (concept_noteMembership id inside)).trans
    (apply_ite Concept.corefSets ..)

/-- A set that is begun lists its defining member, and this one lists it. -/
theorem newCorefSet (agree : model.Mutual) (inside : defining.index < model.concepts.size) :
    (model.newCorefSet defining).2.Mutual := by
  let new : CorefSetId := ⟨model.corefSets.size⟩
  have outside : model.corefSet new = default := corefSet_of_le (Nat.le_refl _)
  have unlisted : (model.corefSet new).members = [] := congrArg CorefSet.members outside
  refine agree.enlist (corefSets_noteMembership inside) (fun set => ?_)
    (unlisted ▸ List.not_mem_nil) fun set here => ?_
  · rw [corefSet_newCorefSet, unlisted]
    by_cases same : set = new
    · rw [if_pos (congrArg CorefSetId.index same), if_pos same]
      rfl
    · rw [if_neg fun equal => same (congrArg CorefSetId.mk equal), if_neg same]
  · rw [size_newCorefSet] at here
    rw [corefSet_newCorefSet]
    split
    · rfl
    · exact agree.first set (by omega)

/-- A member that is added is listed by the set and lists it, once. -/
theorem addToCorefSet (agree : model.Mutual) (known : set.index < model.corefSets.size)
    (inside : concept.index < model.concepts.size)
    (added : model.addToCorefSet set concept = .ok later) : later.Mutual := by
  rcases eq_of_addToCorefSet added with ⟨-, rfl⟩ | ⟨missing, rfl⟩
  · exact agree
  have sets (id : CorefSetId) : ((model.modifyCorefSet set fun data =>
      { data with members := data.members ++ [concept] }).noteMembership set concept).corefSet id =
        if id = set then
          { model.corefSet set with members := (model.corefSet set).members ++ [concept] }
        else model.corefSet id := corefSet_modifyCorefSet known
  refine agree.enlist (corefSets_noteMembership (by exact inside))
    (fun id => (congrArg CorefSet.members (sets id)).trans (apply_ite CorefSet.members ..)) missing
    fun id here => ?_
  rw [sets]
  split
  · simp [agree.first set known]
  · exact agree.first id (by simpa [noteMembership, modifyCorefSet] using here)

end Mutual

/-! ## Editing in place

The edits of an arena return a new one.  Here they are steps on one arena, which a step that fails
leaves as the steps before it have made it; a membership is noted at the set and at the member by
two steps. -/

/-- Steps on an arena. -/
abbrev InPlace := EStateM ModelError Model

namespace InPlace

/-- Begins a coreference set with its defining member. -/
def newCorefSet (defining : ConceptId) : InPlace CorefSetId := do
  let model ← get
  let id : CorefSetId := ⟨model.corefSets.size⟩
  let scopeChecked := (model.concept defining).graph.isSome
  modifyThe Model fun model =>
    { model with
      corefSets := model.corefSets.push { defining, members := [defining], scopeChecked } }
  modifyThe Model (·.noteMembership id defining)
  return id

/-- Adds a member to a coreference set; a member stays as it is. -/
def addToCorefSet (id : CorefSetId) (concept : ConceptId) : InPlace Unit := do
  let model ← get
  let set := model.corefSet id
  if concept ∈ set.members then
    return
  if set.scopeChecked && !model.inScope set concept then
    throw (.coreferenceScope id set.defining concept)
  modifyThe Model (·.modifyCorefSet id fun set =>
    { set with members := set.members ++ [concept] })
  modifyThe Model (·.noteMembership id concept)

/-- In place a set is begun as in a new arena. -/
theorem newCorefSet_eq (defining : ConceptId) :
    newCorefSet defining model =
      .ok (model.newCorefSet defining).1 (model.newCorefSet defining).2 :=
  rfl

/-- In place a member is added as it is added to a new arena, and a refused one at neither side. -/
theorem addToCorefSet_eq (model : Model) (set : CorefSetId) (concept : ConceptId) :
    addToCorefSet set concept model =
      match model.addToCorefSet set concept with
      | .ok later => .ok () later
      | .error error => .error error model := by
  unfold addToCorefSet Model.addToCorefSet
  rw [bind_of_ok (rfl : (get : InPlace _) model = .ok model model)]
  dsimp only
  split
  · rfl
  · split <;> rfl

/-- A member that is refused changes nothing. -/
theorem eq_of_addToCorefSet_error {error : ModelError}
    (refused : addToCorefSet set concept model = .error error later) : later = model := by
  rw [addToCorefSet_eq] at refused
  split at refused
  · cases refused
  · cases refused
    rfl

end InPlace

/-! ## Calls -/

/-- A call that edits an arena. -/
inductive Call where
  | newGraph (owner : Option ConceptId)
  | addComment (graph : GraphId) (comment : String)
  | newConcept (type : Option ConceptType)
  | editConcept (concept : ConceptId) (change : Concept → Concept)
  | addConcept (graph : GraphId) (concept : ConceptId)
  | setReferent (concept : ConceptId) (referent : Referent)
  | newRelation (type : Option RelationType) (args : List ConceptId) (role : RelationRole)
  | editRelation (relation : RelationId) (change : Relation → Relation)
  | addRelation (graph : GraphId) (relation : RelationId)
  | newCorefSet (defining : ConceptId)
  | addToCorefSet (set : CorefSetId) (concept : ConceptId)
  | newMarker
  | editHierarchy (change : Hierarchy → Hierarchy)

namespace Call

/-- What a call is to observe: a concept is not edited where it lists its coreference sets, and
what becomes a member, and of what, is there. -/
def Allowed (model : Model) : Call → Prop
  | .editConcept concept change =>
      (change (model.concept concept)).corefSets = (model.concept concept).corefSets
  | .newCorefSet defining => defining.index < model.concepts.size
  | .addToCorefSet set concept =>
      set.index < model.corefSets.size ∧ concept.index < model.concepts.size
  | _ => True

/-- A call on an arena that is edited in place. -/
def perform : Call → InPlace Unit
  | .newGraph owner => modifyThe Model fun model => (model.newGraph owner).2
  | .addComment graph comment => modifyThe Model (·.addComment graph comment)
  | .newConcept type => modifyThe Model fun model => (model.newConcept type).2
  | .editConcept concept change => modifyThe Model (·.modifyConcept concept change)
  | .addConcept graph concept => modifyThe Model (·.addConcept graph concept)
  | .setReferent concept referent => modifyThe Model (·.setReferent concept referent)
  | .newRelation type args role => modifyThe Model fun model => (model.newRelation type args role).2
  | .editRelation relation change => modifyThe Model (·.modifyRelation relation change)
  | .addRelation graph relation => modifyThe Model (·.addRelation graph relation)
  | .newCorefSet defining => do
      let _ ← InPlace.newCorefSet defining
  | .addToCorefSet set concept => InPlace.addToCorefSet set concept
  | .newMarker => modifyThe Model fun model => model.newMarker.2
  | .editHierarchy change => modifyThe Model fun model =>
      { model with hierarchy := change model.hierarchy }

/-- The arena after a call, whether it has been refused or not. -/
def after (model : Model) (call : Call) : Model :=
  match call.perform model with
  | .ok _ later | .error _ later => later

theorem after_newCorefSet (model : Model) (defining : ConceptId) :
    (Call.newCorefSet defining).after model = (model.newCorefSet defining).2 := by
  have performed : (Call.newCorefSet defining).perform model =
      .ok () (model.newCorefSet defining).2 :=
    bind_of_ok (InPlace.newCorefSet_eq defining)
  rw [after, performed]

/-- A member that is refused leaves the arena as it was. -/
theorem after_addToCorefSet (model : Model) (set : CorefSetId) (concept : ConceptId) :
    (Call.addToCorefSet set concept).after model =
      match model.addToCorefSet set concept with
      | .ok later => later
      | .error _ => model := by
  have performed : (Call.addToCorefSet set concept).perform model =
      InPlace.addToCorefSet set concept model := rfl
  rw [after, performed, InPlace.addToCorefSet_eq]
  cases model.addToCorefSet set concept <;> rfl

end Call

end ConceptualGraph.Model
