/-
Module: ConceptualGraph.Proofs.Model.Headed
Purpose: The concepts that define coreference sets, or may come to define one, are members of no
  set but their own; concepts that join the sets of others are none of them.
Main exports: Model.IsShown, Model.IsHead, Model.Headed, Model.Aside,
  Model.Headed.newCorefSet, Model.Headed.addToCorefSet, Model.definesSharedSet_iff
-/
import ConceptualGraph.Proofs.Model.Mutual
import ConceptualGraph.Proofs.Reading.Settled
import ConceptualGraph.Proofs.Reading.Valence
import ConceptualGraph.Writing.Plan

namespace ConceptualGraph.Model

/-! ## Heads -/

/-- A concept of the arena that is not hidden. -/
structure IsShown (model : Model) (concept : ConceptId) : Prop where
  inside : concept.index < model.concepts.size
  visible : (model.concept concept).hidden = false

/-- A concept that is a member of no set but those that it defines. -/
structure IsHead (model : Model) (concept : ConceptId) : Prop extends model.IsShown concept where
  defines : ∀ set, concept ∈ (model.corefSet set).members →
    (model.corefSet set).defining = concept

/-- An arena in which the concepts that define sets are heads, as are those that are claimed: labels
denote them, and they may come to define sets.  Neither the members of sets nor the arguments of
actors are hidden. -/
structure Headed (claimed : ConceptId → Prop) (model : Model) : Prop where
  claimed : ∀ concept, claimed concept → model.IsHead concept
  defining : ∀ set : CorefSetId, set.index < model.corefSets.size →
    model.IsHead (model.corefSet set).defining
  members : ∀ set, ∀ concept ∈ (model.corefSet set).members, model.IsShown concept
  arguments : ∀ relation, (model.relation relation).isActor = true →
    ∀ argument ∈ (model.relation relation).args, model.IsShown argument

/-- What is shown stays so, and no set is removed. -/
structure Reveals (model later : Model) : Prop where
  shown : ∀ concept, model.IsShown concept → later.IsShown concept
  sets : model.corefSets.size ≤ later.corefSets.size

/-- An edit that leaves the sets alone and hides nothing, and gives actors no arguments that were
not shown. -/
structure Aside (model later : Model) : Prop where
  sets : later.corefSets = model.corefSets
  shown : ∀ concept, model.IsShown concept → later.IsShown concept
  arguments : ∀ relation, (later.relation relation).isActor = true →
    ∀ argument ∈ (later.relation relation).args, later.IsShown argument ∨
      ∃ former, (model.relation former).isActor = true ∧ argument ∈ (model.relation former).args

variable {claimed further : ConceptId → Prop} {model middle later : Model}
  {concept defining : ConceptId} {set : CorefSetId} {graph : GraphId}

/-! ## What stays -/

/-- Whether a concept is shown can be told from the concepts alone. -/
theorem IsShown.of_eq (shown : model.IsShown concept) (same : later.concepts = model.concepts) :
    later.IsShown concept :=
  ⟨same ▸ shown.inside, by rw [Model.concept, same]; exact shown.visible⟩

theorem Reveals.refl (model : Model) : model.Reveals model := ⟨fun _ => id, Nat.le_refl _⟩

theorem Reveals.trans (first : model.Reveals middle) (second : middle.Reveals later) :
    model.Reveals later :=
  ⟨fun concept shown => second.shown concept (first.shown concept shown),
    Nat.le_trans first.sets second.sets⟩

theorem Aside.reveals (aside : model.Aside later) : model.Reveals later :=
  ⟨aside.shown, Nat.le_of_eq (congrArg Array.size aside.sets.symm)⟩

theorem Aside.corefSet (aside : model.Aside later) (set : CorefSetId) :
    later.corefSet set = model.corefSet set := by
  rw [Model.corefSet, aside.sets, Model.corefSet]

/-- A head stays one under edits that leave the sets alone and hide nothing. -/
theorem IsHead.aside (head : model.IsHead concept) (aside : model.Aside later) :
    later.IsHead concept where
  toIsShown := aside.shown concept head.toIsShown
  defines set member := by
    rw [aside.corefSet] at member ⊢
    exact head.defines set member

namespace Headed

theorem mono (headed : model.Headed claimed)
    (fewer : ∀ concept, further concept → claimed concept) : model.Headed further :=
  { headed with claimed := fun concept claim => headed.claimed concept (fewer concept claim) }

/-- Edits that keep aside of the sets leave their heads. -/
theorem aside (headed : model.Headed claimed) (aside : model.Aside later) :
    later.Headed claimed where
  claimed concept claim := (headed.claimed concept claim).aside aside
  defining set inside := by
    rw [aside.sets] at inside
    rw [aside.corefSet]
    exact (headed.defining set inside).aside aside
  members set concept member := by
    rw [aside.corefSet] at member
    exact aside.shown concept (headed.members set concept member)
  arguments relation active argument member := by
    obtain shown | ⟨former, was, there⟩ := aside.arguments relation active argument member
    · exact shown
    · exact aside.shown argument (headed.arguments former was argument there)

end Headed

/-- No actor negates: what it takes is shown. -/
theorem Headed.isNegation_eq_false (headed : model.Headed claimed) {relation : RelationId}
    (active : (model.relation relation).isActor = true) : model.isNegation relation = false := by
  unfold isNegation
  split
  · next only args => exact (headed.arguments relation active only (by simp [args])).visible
  · rfl

/-! ## Edits beside the sets -/

namespace Aside

theorem trans (first : model.Aside middle) (second : middle.Aside later) : model.Aside later where
  sets := second.sets.trans first.sets
  shown concept shown := second.shown concept (first.shown concept shown)
  arguments relation active argument member := by
    obtain shown | ⟨former, was, there⟩ := second.arguments relation active argument member
    · exact .inl shown
    · exact (first.arguments former was argument there).imp_left (second.shown argument)

/-- An edit of anything but the concepts, the relations and the sets. -/
theorem of_eq (concepts : later.concepts = model.concepts)
    (relations : later.relations = model.relations) (sets : later.corefSets = model.corefSets) :
    model.Aside later where
  sets := sets
  shown _ shown := shown.of_eq concepts
  arguments relation active argument member := by
    rw [Model.relation, relations] at active member
    exact .inr ⟨relation, active, member⟩

theorem modifyConcept {change : Concept → Concept}
    (hidden : ∀ data, (change data).hidden = data.hidden) :
    model.Aside (model.modifyConcept concept change) where
  sets := rfl
  shown id shown := ⟨by rw [size_modifyConcept]; exact shown.inside,
    (field_modifyConcept model concept Concept.hidden hidden id).trans shown.visible⟩
  arguments relation active argument member := .inr ⟨relation, active, member⟩

theorem addConcept : model.Aside (model.addConcept graph concept) := by
  have placed : model.Aside (model.modifyConcept concept fun data =>
    { data with graph := some graph }) := .modifyConcept fun _ => rfl
  exact placed.trans (.of_eq rfl rfl rfl)

/-- A referent keeps aside of the sets. -/
theorem setReferent {referent : Referent} : model.Aside (model.setReferent concept referent) := by
  unfold Model.setReferent
  dsimp only
  split
  · next body _ =>
    have owned : model.Aside (model.modifyGraph body fun data =>
      { data with owner := some concept }) := .of_eq rfl rfl rfl
    exact owned.trans (.modifyConcept fun _ => rfl)
  · exact .modifyConcept fun _ => rfl

/-- A concept that is made keeps aside of the sets. -/
theorem newConcept (type : Option ConceptType) : model.Aside (model.newConcept type).2 where
  sets := rfl
  shown id shown := by
    refine ⟨?_, ?_⟩
    · rw [size_newConcept]
      exact Nat.lt_succ_of_lt shown.inside
    · rw [concept_newConcept_of_lt shown.inside]
      exact shown.visible
  arguments relation active argument member := .inr ⟨relation, active, member⟩

/-- A concept is hidden as soon as it is made. -/
theorem conceal : model.Aside ((model.newConcept none).2.modifyConcept ⟨model.concepts.size⟩
    fun data => { data with hidden := true }) where
  sets := rfl
  shown id shown := by
    have apart : id ≠ ⟨model.concepts.size⟩ := by
      rintro rfl
      exact Nat.lt_irrefl _ shown.inside
    have still := (Aside.newConcept none).shown id shown
    refine ⟨?_, ?_⟩
    · rw [size_modifyConcept]
      exact still.inside
    · rw [concept_modifyConcept_of_ne apart]
      exact still.visible
  arguments relation active argument member := .inr ⟨relation, active, member⟩

/-- A relation that takes shown concepts alone keeps aside of the heads. -/
theorem newRelation {type : Option RelationType} {args : List ConceptId} {role : RelationRole}
    (shown : role ≠ .relation → ∀ argument ∈ args, model.IsShown argument) :
    model.Aside (model.newRelation type args role).2 where
  sets := rfl
  shown _ shown := shown.of_eq rfl
  arguments relation active argument member := by
    have made : (model.newRelation type args role).2.relation relation = _ :=
      relation_drafted relation
    rw [made] at active member
    split at member
    · next new =>
      rw [if_pos new] at active
      have active : role ≠ .relation := by
        rintro rfl
        cases active
      exact .inl ((shown active argument member).of_eq rfl)
    · next old =>
      rw [if_neg old] at active
      exact .inr ⟨relation, active, member⟩

/-- What a relation takes decides, not what it is called. -/
theorem modifyRelation {relation : RelationId} {change : Relation → Relation}
    (args : ∀ data, (change data).args = data.args)
    (role : ∀ data, (change data).role = data.role) :
    model.Aside (model.modifyRelation relation change) where
  sets := rfl
  shown _ shown := shown.of_eq rfl
  arguments other active argument member := by
    have same : ((model.modifyRelation relation change).relation other).isActor =
        (model.relation other).isActor :=
      field_modifyRelation model relation Relation.isActor
        (fun data => by rw [Relation.isActor, role, Relation.isActor]) other
    rw [field_modifyRelation model relation Relation.args args] at member
    exact .inr ⟨other, same ▸ active, member⟩

theorem addRelation {relation : RelationId} : model.Aside (model.addRelation graph relation) := by
  have placed : model.Aside (model.modifyRelation relation fun data =>
    { data with graph := some graph }) := .modifyRelation (fun _ => rfl) fun _ => rfl
  exact placed.trans (.of_eq rfl rfl rfl)

end Aside

/-! ## Edits of the sets -/

/-- Noting a membership shows and hides nothing. -/
theorem shown_noteMembership {model : Model} {set : CorefSetId} {concept id : ConceptId} :
    (model.noteMembership set concept).IsShown id ↔ model.IsShown id := by
  have hidden : ((model.noteMembership set concept).concept id).hidden =
      (model.concept id).hidden := by
    unfold noteMembership
    refine field_modifyConcept _ _ Concept.hidden ?_ _
    exact fun _ => rfl
  constructor
  · intro shown
    exact ⟨size_modifyConcept ▸ shown.inside, hidden ▸ shown.visible⟩
  · intro shown
    exact ⟨size_modifyConcept.symm ▸ shown.inside, hidden.trans shown.visible⟩

theorem size_corefSets_addToCorefSet (added : model.addToCorefSet set concept = .ok later) :
    later.corefSets.size = model.corefSets.size := by
  rcases eq_of_addToCorefSet added with ⟨-, rfl⟩ | ⟨-, rfl⟩
  · rfl
  · simp [noteMembership, modifyCorefSet]

namespace Headed

/-- A head comes to define another set. -/
theorem newCorefSet (headed : model.Headed claimed) (head : model.IsHead defining) :
    (model.newCorefSet defining).2.Headed claimed ∧
      model.Reveals (model.newCorefSet defining).2 := by
  have shown (id : ConceptId) : (model.newCorefSet defining).2.IsShown id ↔ model.IsShown id :=
    shown_noteMembership.trans ⟨fun shown => shown.of_eq rfl, fun shown => shown.of_eq rfl⟩
  have heads {id : ConceptId} (was : model.IsHead id) :
      (model.newCorefSet defining).2.IsHead id := by
    refine ⟨(shown id).mpr was.toIsShown, fun set member => ?_⟩
    rw [corefSet_newCorefSet] at member ⊢
    split at member
    · next new => rw [if_pos new, List.mem_singleton.mp member]
    · next old => rw [if_neg old, was.defines set member]
  refine ⟨⟨fun concept claim => heads (headed.claimed concept claim), fun set inside => ?_,
    fun set concept member => ?_, fun relation active argument member => ?_⟩,
    fun concept => (shown concept).mpr, by simp⟩
  · rw [size_newCorefSet] at inside
    rw [corefSet_newCorefSet]
    split
    · exact heads head
    · exact heads (headed.defining set (by omega))
  · rw [corefSet_newCorefSet] at member
    split at member
    · rw [List.mem_singleton.mp member]
      exact (shown defining).mpr head.toIsShown
    · exact (shown concept).mpr (headed.members set concept member)
  · exact (shown argument).mpr (headed.arguments relation active argument member)

/-- A concept that is neither claimed nor defines a set joins a set. -/
theorem addToCorefSet (headed : model.Headed claimed) (known : set.index < model.corefSets.size)
    (joins : model.IsShown concept) (unclaimed : ¬claimed concept)
    (undefining : ∀ set : CorefSetId, set.index < model.corefSets.size →
      (model.corefSet set).defining ≠ concept)
    (added : model.addToCorefSet set concept = .ok later) :
    later.Headed claimed ∧ model.Reveals later := by
  have shown (id : ConceptId) : later.IsShown id ↔ model.IsShown id := by
    rcases eq_of_addToCorefSet added with ⟨-, rfl⟩ | ⟨-, rfl⟩
    · exact Iff.rfl
    · exact shown_noteMembership.trans ⟨fun shown => shown.of_eq rfl, fun shown => shown.of_eq rfl⟩
  have relations : later.relations = model.relations := by
    rcases eq_of_addToCorefSet added with ⟨-, rfl⟩ | ⟨-, rfl⟩ <;> rfl
  have size := size_corefSets_addToCorefSet added
  have sets := corefSet_addToCorefSet known added
  have defines (other : CorefSetId) :
      (later.corefSet other).defining = (model.corefSet other).defining := by
    rw [sets]
    split
    · next same => rw [same]
    · rfl
  have members {other : CorefSetId} {id : ConceptId}
      (member : id ∈ (later.corefSet other).members) :
      id ∈ (model.corefSet other).members ∨ id = concept := by
    rw [sets] at member
    split at member
    · next same =>
      rw [same]
      exact (mem_appendNew.mp member).symm
    · exact .inl member
  -- The concept that joins is no head, so that heads do not change.
  have heads {id : ConceptId} (was : model.IsHead id) (apart : id ≠ concept) : later.IsHead id := by
    refine ⟨(shown id).mpr was.toIsShown, fun other member => ?_⟩
    rw [defines]
    exact was.defines other ((members member).resolve_right apart)
  refine ⟨⟨fun id claim => ?_, fun other inside => ?_, fun other id member => ?_,
    fun relation active argument member => ?_⟩, fun id => (shown id).mpr, Nat.le_of_eq size.symm⟩
  · refine heads (headed.claimed id claim) ?_
    rintro rfl
    exact unclaimed claim
  · rw [size] at inside
    rw [defines]
    exact heads (headed.defining other inside) (undefining other inside)
  · rcases members member with former | rfl
    · exact (shown id).mpr (headed.members other id former)
    · exact (shown id).mpr joins
  · rw [Model.relation, relations] at active member
    exact (shown argument).mpr (headed.arguments relation active argument member)

end Headed

/-! ## Shared sets -/

/-- A set that is shared is one of the model. -/
theorem lt_of_shared {set : CorefSetId} (shared : 1 < (model.corefSet set).members.length) :
    set.index < model.corefSets.size := by
  by_contra outside
  rw [corefSet_of_le (Nat.le_of_not_lt outside)] at shared
  exact absurd shared (by decide)

/-- The first set that a concept shares is its own exactly if any of them is. -/
theorem definesSharedSet_iff (headed : model.Headed claimed) (agree : model.Mutual) :
    model.definesSharedSet concept = true ↔
      ∃ set, (model.corefSet set).defining = concept ∧ 1 < (model.corefSet set).members.length := by
  unfold definesSharedSet sharedSet?
  constructor
  · intro defines
    obtain ⟨set, found, own⟩ := (Option.any_eq_true _ _).mp defines
    exact ⟨set, by simpa using own, by simpa using List.find?_some found⟩
  · rintro ⟨set, rfl, shared⟩
    have inside := lt_of_shared shared
    have head := headed.defining set inside
    have listed : set ∈ (model.concept (model.corefSet set).defining).corefSets :=
      (agree.mem_iff _ _).mpr (List.mem_of_mem_head? (agree.first set inside))
    have some : ((model.concept (model.corefSet set).defining).corefSets.find? fun set =>
        1 < (model.corefSet set).members.length).isSome := by
      simpa using ⟨set, listed, shared⟩
    obtain ⟨first, found⟩ := Option.isSome_iff_exists.mp some
    have belongs := (agree.mem_iff _ _).mp (List.mem_of_find?_eq_some found)
    rw [found]
    simpa using head.defines first belongs

end ConceptualGraph.Model
