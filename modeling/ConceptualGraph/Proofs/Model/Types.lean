/-
Module: ConceptualGraph.Proofs.Model.Types
Purpose: What becomes of a lattice when a text names a type that is not in it.
Main exports: Lattice.Extends, Lattice.HasBareTop, Lattice.createOnDemand_eq,
  Lattice.Extends.withType, Lattice.Extends.createDefined
-/
import ConceptualGraph.Hierarchy
import ConceptualGraph.Proofs.Lattice.Subtype

namespace ConceptualGraph.Lattice

variable {kind : TypeKind} {lattice later last : Lattice kind} {type : TypeRef kind}
  {label : String}

/-! ## Single edits -/

/-- Of all types only the one that is changed is another. -/
theorem node_modify {change : TypeNode kind → TypeNode kind} {other : TypeRef kind}
    (inside : type.index < lattice.size) :
    (lattice.modify type change).node other =
      if other = type then change (lattice.node other) else lattice.node other := by
  unfold size at inside
  by_cases same : other = type
  · subst same
    simp [modify, node, inside, Array.getElem_modify_self]
  · have apart : type.index ≠ other.index := by
      intro equal
      exact same (by cases type; cases other; simp_all)
    simp [modify, node, Array.getElem?_modify, apart, same]

/-- A change that keeps a field keeps it everywhere. -/
theorem node_modify_of_keeps {α : Type} (field : TypeNode kind → α)
    (change : TypeNode kind → TypeNode kind) {other : TypeRef kind}
    (keeps : ∀ data, field (change data) = field data) :
    field ((lattice.modify type change).node other) = field (lattice.node other) := by
  simp only [modify, node, Array.getElem?_modify]
  by_cases same : type.index = other.index
  · cases lattice.nodes[other.index]? with
    | none => simp [same]
    | some data => simp [same, keeps]
  · simp [same]

@[simp] theorem size_modify {change : TypeNode kind → TypeNode kind} :
    (lattice.modify type change).size = lattice.size := by
  simp [modify, size]

@[simp] theorem size_link {child : TypeRef kind} :
    (lattice.link type child).size = lattice.size := by
  simp [link]

/-- Links leave every other part of a type as it is. -/
theorem node_link_of_keeps {α : Type} (field : TypeNode kind → α) {child other : TypeRef kind}
    (children : ∀ data list, field { data with children := list } = field data)
    (parents : ∀ data list, field { data with parents := list } = field data) :
    field ((lattice.link type child).node other) = field (lattice.node other) := by
  unfold link
  rw [node_modify_of_keeps field _ fun data => parents data _,
    node_modify_of_keeps field _ fun data => children data _]

/-- A link changes the parents of its lower end only. -/
theorem parents_link_of_ne {child other : TypeRef kind} (different : other ≠ child) :
    ((lattice.link type child).node other).parents = (lattice.node other).parents := by
  have apart : child.index ≠ other.index := by
    intro equal
    exact different (by cases child; cases other; simp_all)
  have outer : ∀ change : TypeNode kind → TypeNode kind, ∀ base : Lattice kind,
      (base.modify child change).node other = base.node other := by
    intro change base
    simp [modify, node, Array.getElem?_modify, apart]
  rw [link, outer]
  exact node_modify_of_keeps TypeNode.parents _ fun _ => rfl

theorem node_push {newLabel : Option String} :
    (lattice.push newLabel).2.node ⟨lattice.size⟩ = { label := newLabel } := by
  simp [push, node, size]

theorem node_push_of_ne {newLabel : Option String} (old : type.index ≠ lattice.size) :
    (lattice.push newLabel).2.node type = lattice.node type := by
  unfold size at old
  simp [push, node, Array.getElem?_push, old]

@[simp] theorem size_push {newLabel : Option String} :
    (lattice.push newLabel).2.size = lattice.size + 1 := by
  simp [push, size]

/-! ## Growth -/

/-- One lattice goes on from another: every type keeps its label and its definition. -/
structure Extends (lattice later : Lattice kind) : Prop where
  size_le : lattice.size ≤ later.size
  label : ∀ type : TypeRef kind, type.index < lattice.size →
    later.label? type = lattice.label? type
  definition : ∀ type : TypeRef kind, type.index < lattice.size →
    (later.node type).definition = (lattice.node type).definition

namespace Extends

theorem refl (lattice : Lattice kind) : lattice.Extends lattice :=
  ⟨Nat.le_refl _, fun _ _ => rfl, fun _ _ => rfl⟩

theorem trans (first : lattice.Extends later) (second : later.Extends last) :
    lattice.Extends last where
  size_le := Nat.le_trans first.size_le second.size_le
  label type inside := by
    rw [second.label type (Nat.lt_of_lt_of_le inside first.size_le), first.label type inside]
  definition type inside := by
    rw [second.definition type (Nat.lt_of_lt_of_le inside first.size_le),
      first.definition type inside]

theorem lt_size (grown : lattice.Extends later) (inside : type.index < lattice.size) :
    type.index < later.size :=
  Nat.lt_of_lt_of_le inside grown.size_le

end Extends

/-- A type with a label is one of the lattice. -/
theorem label?_of_lt (named : lattice.label? type = some label) : type.index < lattice.size := by
  by_contra outside
  have missing : lattice.nodes[type.index]? = none := by
    apply Array.getElem?_eq_none
    exact Nat.le_of_not_lt outside
  simp [label?, node, missing] at named

/-- A label names the last type that has it. -/
theorem find?_eq_some_iff : lattice.find? label = some type ↔
    lattice.label? type = some label ∧
      ∀ later : TypeRef kind, type.index < later.index → lattice.label? later ≠ some label := by
  have falling : lattice.types.reverse.Pairwise fun high low => low.index < high.index :=
    List.pairwise_reverse.mpr (List.pairwise_map.mpr List.pairwise_lt_range)
  rw [find?, List.findRev?_eq_find?_reverse, List.find?_eq_some_iff_append]
  constructor
  · rintro ⟨named, front, back, split, passed⟩
    refine ⟨by simpa using named, fun later after named' => ?_⟩
    have member : later ∈ lattice.types.reverse := by simpa [mem_types] using label?_of_lt named'
    rw [split] at member falling
    rcases List.mem_append.mp member with before | rest
    · exact absurd named' (by simpa using passed later before)
    rcases List.mem_cons.mp rest with rfl | behind
    · exact Nat.lt_irrefl _ after
    · have low := (List.pairwise_cons.mp (List.pairwise_append.mp falling).2.1).1 later behind
      exact Nat.lt_asymm after low
  · rintro ⟨named, last⟩
    have member : type ∈ lattice.types.reverse := by simpa [mem_types] using label?_of_lt named
    obtain ⟨front, back, split⟩ := List.append_of_mem member
    refine ⟨by simpa using named, front, back, split, fun other before => ?_⟩
    rw [split] at falling
    have high := (List.pairwise_append.mp falling).2.2 other before type (List.mem_cons_self ..)
    simpa using last other high

theorem find?_eq_some (found : lattice.find? label = some type) :
    lattice.label? type = some label :=
  (find?_eq_some_iff.mp found).1

/-- A type that is found is one of the lattice. -/
theorem lt_size_of_find? (found : lattice.find? label = some type) : type.index < lattice.size :=
  label?_of_lt (find?_eq_some found)

/-! ## Types created on demand -/

/-- Whether the top type stands alone above all others, as it does where types are only
created on demand. -/
structure HasBareTop (lattice : Lattice kind) : Prop where
  two_le : 2 ≤ lattice.size
  bare : (lattice.node top).parents = []

/-- In a new lattice nothing is above the top type. -/
theorem HasBareTop.withExtremes (topLabel bottomLabel : String) :
    (withExtremes topLabel bottomLabel : Lattice kind).HasBareTop := by
  constructor
  · exact Nat.le_refl 2
  · rfl

/-- The lattice after a type has been created on demand. -/
def withType (lattice : Lattice kind) (label : String) : Lattice kind :=
  ((lattice.push (some label)).2.link top ⟨lattice.size⟩).link ⟨lattice.size⟩ bottom

/-- No type is above the top one, so a new type below it never closes a cycle. -/
theorem HasBareTop.obstruction? (bareTop : lattice.HasBareTop) :
    lattice.obstruction? [top] [bottom] = none := by
  have below : lattice.isSubtype top bottom = false := by
    have different : ((top : TypeRef kind) == bottom) = false := by
      cases kind <;> rfl
    have ended : ∀ steps unreached, lattice.climbs bottom steps unreached [] = false := by
      intro steps unreached
      cases steps <;> rfl
    have reached : lattice.types.filter (· ∈ ([] : List (TypeRef kind))) = [] :=
      List.filter_eq_nil_iff.2 (by simp)
    rw [isSubtype, different, Bool.false_or, climbs, bareTop.bare, reached]
    exact ended _ _
  simp [Lattice.obstruction?, below]

theorem createOnDemand_eq (missing : lattice.find? label = none) (bareTop : lattice.HasBareTop) :
    lattice.createOnDemand label = .ok (⟨lattice.size⟩, lattice.withType label) := by
  simp [createOnDemand, create, missing, bareTop.obstruction?, withType, push]

/-- A type that has been created on demand is the last one. -/
theorem eq_of_createOnDemand (created : lattice.createOnDemand label = .ok (type, later)) :
    type = ⟨lattice.size⟩ ∧ later = lattice.withType label ∧ lattice.find? label = none := by
  unfold createOnDemand create at created
  split at created
  · cases created
  · next unknown =>
    simp only [List.isEmpty_cons, Bool.false_eq_true, if_false] at created
    split at created
    · cases created
    · simp only [Except.ok.injEq, Prod.mk.injEq] at created
      obtain ⟨rfl, rfl⟩ := created
      exact ⟨rfl, rfl, by simpa using unknown⟩

@[simp] theorem size_withType : (lattice.withType label).size = lattice.size + 1 := by
  simp [withType]

/-- A type that is made under a label has it. -/
theorem label?_withType : (lattice.withType label).label? ⟨lattice.size⟩ = some label := by
  unfold withType label?
  rw [node_link_of_keeps TypeNode.label (fun _ _ => rfl) (fun _ _ => rfl),
    node_link_of_keeps TypeNode.label (fun _ _ => rfl) (fun _ _ => rfl), node_push]

/-- A type that is made leaves the valences of all others. -/
theorem valence?_withType (inside : type.index ≠ lattice.size) :
    (lattice.withType label).valence? type = lattice.valence? type := by
  unfold withType valence?
  rw [node_link_of_keeps TypeNode.valence (fun _ _ => rfl) (fun _ _ => rfl),
    node_link_of_keeps TypeNode.valence (fun _ _ => rfl) (fun _ _ => rfl),
    node_push_of_ne inside]

theorem valence?_withType_self :
    (lattice.withType label).valence? ⟨lattice.size⟩ = none := by
  unfold withType valence?
  rw [node_link_of_keeps TypeNode.valence (fun _ _ => rfl) (fun _ _ => rfl),
    node_link_of_keeps TypeNode.valence (fun _ _ => rfl) (fun _ _ => rfl), node_push]

/-- A type that is created on demand leaves all others as they are. -/
theorem Extends.withType : lattice.Extends (lattice.withType label) where
  size_le := by simp
  label type inside := by
    unfold Lattice.withType label?
    rw [node_link_of_keeps TypeNode.label (fun _ _ => rfl) (fun _ _ => rfl),
      node_link_of_keeps TypeNode.label (fun _ _ => rfl) (fun _ _ => rfl),
      node_push_of_ne (Nat.ne_of_lt inside)]
  definition type inside := by
    unfold Lattice.withType
    rw [node_link_of_keeps TypeNode.definition (fun _ _ => rfl) (fun _ _ => rfl),
      node_link_of_keeps TypeNode.definition (fun _ _ => rfl) (fun _ _ => rfl),
      node_push_of_ne (Nat.ne_of_lt inside)]

/-- No type comes to stand above the top one. -/
theorem HasBareTop.withType (bareTop : lattice.HasBareTop) :
    (lattice.withType label).HasBareTop := by
  have enough := bareTop.two_le
  have old : (top : TypeRef kind).index ≠ lattice.size := by
    change 0 ≠ lattice.size
    omega
  have notNew : (top : TypeRef kind) ≠ ⟨lattice.size⟩ := fun same =>
    old (congrArg TypeRef.index same)
  have notBottom : (top : TypeRef kind) ≠ bottom := by
    cases kind <;> decide
  refine ⟨by simp; omega, ?_⟩
  unfold Lattice.withType
  rw [parents_link_of_ne notBottom, parents_link_of_ne notNew,
    node_push_of_ne old]
  exact bareTop.bare

/-! ## Types by definition, and valences -/

/-- A type given by a definition is linked like one with a label. -/
theorem createDefined_snd (definition : Definition) :
    (lattice.createDefined definition).2 =
      (((lattice.push none).2.link top ⟨lattice.size⟩).link ⟨lattice.size⟩ bottom).modify
        ⟨lattice.size⟩ fun data => { data with definition := some definition } := rfl

@[simp] theorem createDefined_fst (definition : Definition) :
    (lattice.createDefined definition).1 = ⟨lattice.size⟩ := rfl

@[simp] theorem size_createDefined (definition : Definition) :
    (lattice.createDefined definition).2.size = lattice.size + 1 := by
  simp [createDefined_snd]

theorem label?_createDefined_eq (definition : Definition) :
    (lattice.createDefined definition).2.label? type = (lattice.push none).2.label? type := by
  rw [createDefined_snd]
  unfold label?
  rw [node_modify_of_keeps TypeNode.label
      (fun data => { data with definition := some definition }) fun _ => rfl,
    node_link_of_keeps TypeNode.label (fun _ _ => rfl) (fun _ _ => rfl),
    node_link_of_keeps TypeNode.label (fun _ _ => rfl) (fun _ _ => rfl)]

theorem label?_createDefined (definition : Definition) :
    (lattice.createDefined definition).2.label? ⟨lattice.size⟩ = none := by
  rw [label?_createDefined_eq, label?, node_push]

/-- A type that is defined has its definition. -/
theorem definition_createDefined (definition : Definition) :
    ((lattice.createDefined definition).2.node ⟨lattice.size⟩).definition =
      some definition := by
  rw [createDefined_snd, node_modify (by simp)]
  exact congrArg TypeNode.definition (if_pos rfl)

/-- A type that is given by its definition leaves all others as they are. -/
theorem Extends.createDefined (definition : Definition) :
    lattice.Extends (lattice.createDefined definition).2 where
  size_le := by simp
  label type inside := by
    rw [label?_createDefined_eq, label?, node_push_of_ne (Nat.ne_of_lt inside), label?]
  definition type inside := by
    have old : type ≠ ⟨lattice.size⟩ := fun same =>
      Nat.ne_of_lt inside (congrArg TypeRef.index same)
    rw [createDefined_snd, node_modify (by simp), if_neg old,
      node_link_of_keeps TypeNode.definition (fun _ _ => rfl) (fun _ _ => rfl),
      node_link_of_keeps TypeNode.definition (fun _ _ => rfl) (fun _ _ => rfl),
      node_push_of_ne (Nat.ne_of_lt inside)]

/-- A lattice is extended as a valence is set. -/
theorem Extends.setValence (valence : Nat) :
    lattice.Extends (lattice.setValence type valence) where
  size_le := by simp [Lattice.setValence]
  label _ _ := node_modify_of_keeps TypeNode.label _ fun _ => rfl
  definition _ _ := node_modify_of_keeps TypeNode.definition _ fun _ => rfl

/-- Setting a valence leaves those of all other types. -/
theorem valence?_setValence_of_ne {other : TypeRef kind} (inside : type.index < lattice.size)
    (different : other ≠ type) (valence : Nat) :
    (lattice.setValence type valence).valence? other = lattice.valence? other := by
  unfold setValence valence?
  rw [node_modify inside, if_neg different]

/-- A valence that is set is the one of its type. -/
theorem valence?_setValence_self (inside : type.index < lattice.size) (valence : Nat) :
    (lattice.setValence type valence).valence? type = some valence := by
  unfold setValence valence?
  rw [node_modify inside, if_pos rfl]

theorem HasBareTop.setValence (bareTop : lattice.HasBareTop) (valence : Nat) :
    (lattice.setValence type valence).HasBareTop where
  two_le := by simpa [Lattice.setValence] using bareTop.two_le
  bare := by
    rw [Lattice.setValence, node_modify_of_keeps TypeNode.parents
      (fun data => { data with valence := some valence }) fun _ => rfl]
    exact bareTop.bare

end ConceptualGraph.Lattice
