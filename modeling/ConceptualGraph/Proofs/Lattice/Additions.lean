/-
Module: ConceptualGraph.Proofs.Lattice.Additions
Purpose: A type that is put directly between the two extremes leaves all others as they are: what
  they are called, what they ask for, where they are linked and which of them are below which.
Main exports: Lattice.Conserves, Lattice.Conserves.insert, Lattice.Conserves.trans,
  Lattice.Ordered.createOnDemand_ok
-/
import ConceptualGraph.Proofs.Lattice.Calls
import Mathlib.Data.List.Find

namespace ConceptualGraph.Lattice

variable {kind : TypeKind} {lattice later last : Lattice kind}
  {type child parent other : TypeRef kind} {named : String → Prop} {label : String}

/-! ## The links of a node after an edit -/

theorem node_modify_of_ne {change : TypeNode kind → TypeNode kind} (different : other ≠ type) :
    (lattice.modify type change).node other = lattice.node other := by
  have apart : type.index ≠ other.index := fun equal =>
    different (by cases type; cases other; cases equal; rfl)
  simp [modify, node, Array.getElem?_modify, apart]

/-- A link is listed once more at its lower end, and the parents of all others are as before. -/
theorem parents_link (inside : child.index < lattice.size) :
    ((lattice.link parent child).node other).parents =
      if other = child then (lattice.node other).parents ++ [parent]
      else (lattice.node other).parents := by
  split
  · next same =>
    subst same
    rw [link, node_modify (by simpa using inside), if_pos rfl]
    refine congrArg (· ++ [parent]) (node_modify_of_keeps TypeNode.parents _ ?_)
    exact fun _ => rfl
  · next different => exact parents_link_of_ne different

/-- A link is listed once more at its upper end, and the children of all others are as before. -/
theorem children_link (inside : parent.index < lattice.size) :
    ((lattice.link parent child).node other).children =
      if other = parent then (lattice.node other).children ++ [child]
      else (lattice.node other).children := by
  have kept : ((lattice.link parent child).node other).children =
      ((lattice.modify parent fun node => { node with children := node.children ++ [child] }).node
        other).children := by
    refine node_modify_of_keeps TypeNode.children _ ?_
    exact fun _ => rfl
  rw [kept, node_modify inside]
  split <;> rfl

/-- A new type between the extremes is at first not linked. -/
theorem node_push_eq {word : Option String} :
    (lattice.push word).2.node other =
      if other = ⟨lattice.size⟩ then { label := word } else lattice.node other := by
  split
  · next same => rw [same, node_push]
  · next different =>
    refine node_push_of_ne fun equal => different ?_
    cases other
    cases equal
    rfl

/-! ### What is no link -/

section Field

variable {α : Type} (field : TypeNode kind → α)
  (ofChildren : ∀ data list, field { data with children := list } = field data)
  (ofParents : ∀ data list, field { data with parents := list } = field data)
  {parents children : List (TypeRef kind)}

include ofChildren ofParents

theorem field_foldl_parents :
    field ((parents.foldl (fun lattice parent => lattice.link parent type) lattice).node other) =
      field (lattice.node other) := by
  induction parents generalizing lattice with
  | nil => rfl
  | cons parent parents ih =>
      rw [List.foldl_cons, ih, node_link_of_keeps field ofChildren ofParents]

theorem field_foldl_children :
    field ((children.foldl (fun lattice child => lattice.link type child) lattice).node other) =
      field (lattice.node other) := by
  induction children generalizing lattice with
  | nil => rfl
  | cons child children ih =>
      rw [List.foldl_cons, ih, node_link_of_keeps field ofChildren ofParents]

/-- What is no link comes from the type itself. -/
theorem field_insert {word : Option String} :
    field ((lattice.insert word parents children).node other) =
      if other = ⟨lattice.size⟩ then field { label := word } else field (lattice.node other) := by
  rw [insert, field_foldl_children field ofChildren ofParents,
    field_foldl_parents field ofChildren ofParents, node_push_eq]
  split <;> rfl

end Field

section Between

variable (ordered : lattice.Ordered) {word : Option String}

include ordered

/-- The bottom type gains a new type between the extremes as its last parent. -/
theorem parents_insert :
    ((lattice.insert word [top] [bottom]).node other).parents =
      if other = ⟨lattice.size⟩ then [top]
      else if other = bottom then (lattice.node other).parents ++ [⟨lattice.size⟩]
      else (lattice.node other).parents := by
  have enough := ordered.two_le
  have notBottom : (⟨lattice.size⟩ : TypeRef kind) ≠ bottom := fun same =>
    absurd (congrArg TypeRef.index same) (by change lattice.size ≠ 1; omega)
  change (((((lattice.push word).2.link top ⟨lattice.size⟩).link ⟨lattice.size⟩ bottom)).node
    other).parents = _
  rw [parents_link (by change 1 < _; simp; omega), parents_link (by simp), node_push_eq]
  by_cases new : other = ⟨lattice.size⟩
  · simp [new, notBottom]
  · simp [new]

/-- The top type gains a new type between the extremes as its last child. -/
theorem children_insert :
    ((lattice.insert word [top] [bottom]).node other).children =
      if other = ⟨lattice.size⟩ then [bottom]
      else if other = top then (lattice.node other).children ++ [⟨lattice.size⟩]
      else (lattice.node other).children := by
  have enough := ordered.two_le
  have notTop : (⟨lattice.size⟩ : TypeRef kind) ≠ top := fun same =>
    absurd (congrArg TypeRef.index same) (by change lattice.size ≠ 0; omega)
  change (((((lattice.push word).2.link top ⟨lattice.size⟩).link ⟨lattice.size⟩ bottom)).node
    other).children = _
  rw [children_link (by simp), children_link (by change 0 < _; simp), node_push_eq]
  by_cases new : other = ⟨lattice.size⟩
  · simp [new, notTop]
  · simp [new]

end Between

/-! ## Labels -/

/-- A label that names nothing is no type's. -/
theorem find?_eq_none_iff :
    lattice.find? label = none ↔ ∀ type, lattice.label? type ≠ some label := by
  constructor
  · intro missing type named
    rw [find?, List.findRev?_eq_find?_reverse, List.find?_eq_none] at missing
    have member : type ∈ lattice.types.reverse := by simpa [mem_types] using label?_of_lt named
    exact missing type member (by simpa using named)
  · intro unnamed
    by_contra found
    obtain ⟨type, here⟩ := Option.ne_none_iff_exists'.mp found
    exact unnamed type (find?_eq_some here)

/-- Where types are called what they were called, labels name what they named. -/
theorem find?_congr (same : ∀ other, later.label? other = lattice.label? other) :
    later.find? label = lattice.find? label :=
  Option.ext fun _ => by simp only [find?_eq_some_iff, same]

theorem find?_setValence (valence : Nat) :
    (lattice.setValence type valence).find? label = lattice.find? label :=
  find?_congr fun _ => node_modify_of_keeps TypeNode.label _ fun _ => rfl

/-- The type that is pushed has the new label, and all others have their own. -/
theorem label?_push {new : Option String} :
    (lattice.push new).2.label? type = if type = ⟨lattice.size⟩ then new
      else lattice.label? type := by
  rw [label?, node_push_eq]
  split <;> rfl

/-- The label of the last type names it, and all others what they named before. -/
theorem find?_push {new : Option String} {word : String} :
    (lattice.push new).2.find? word =
      if some word = new then some ⟨lattice.size⟩ else lattice.find? word := by
  have grown : (lattice.push new).2.types = lattice.types ++ [⟨lattice.size⟩] := by
    simp [types, List.range_succ]
  have old {type : TypeRef kind} (member : type ∈ lattice.types.reverse) :
      (lattice.push new).2.label? type = lattice.label? type := by
    have inside : type.index < lattice.size := by simpa [mem_types] using member
    have notNew : type ≠ ⟨lattice.size⟩ := fun same =>
      Nat.ne_of_lt inside (congrArg TypeRef.index same)
    rw [label?_push, if_neg notNew]
  rw [find?, List.findRev?_eq_find?_reverse, grown, List.reverse_append, List.reverse_singleton,
    List.singleton_append, List.find?_cons, label?_push, if_pos rfl]
  by_cases named : some word = new
  · simp [named]
  · rw [if_neg named, beq_eq_false_iff_ne.mpr (Ne.symm named), find?,
      List.findRev?_eq_find?_reverse]
    exact List.find?_congr fun type member => by rw [old member]

/-- A type that is made names its label; linking it names nothing. -/
theorem find?_insert {new : Option String} {word : String}
    {parents children : List (TypeRef kind)} :
    (lattice.insert new parents children).find? word =
      if some word = new then some ⟨lattice.size⟩ else lattice.find? word := by
  refine Eq.trans (find?_congr fun other => ?_) find?_push
  rw [label?_push]
  exact field_insert TypeNode.label (fun _ _ => rfl) fun _ _ => rfl

/-- A type that is made under a label is found by it. -/
theorem find?_withType {word : String} :
    (lattice.withType label).find? word =
      if word = label then some ⟨lattice.size⟩ else lattice.find? word := by
  change (lattice.insert (some label) [top] [bottom]).find? word = _
  rw [find?_insert]
  simp only [Option.some.injEq]

theorem find?_createDefined (definition : Definition) :
    (lattice.createDefined definition).2.find? label = lattice.find? label :=
  (find?_congr fun _ => label?_createDefined_eq definition).trans (find?_push.trans (if_neg nofun))

/-! ## Additions -/

/-- A lattice goes on from another: its types stay as they are, but that the bottom type gains
parents and the top type children, and of two of them the one is below the other just as before.
A labelled type that is new lies directly between the extremes, and its label is one that a text
may name. -/
structure Conserves (named : String → Prop) (lattice later : Lattice kind) : Prop where
  size_le : lattice.size ≤ later.size
  label : ∀ type : TypeRef kind, type.index < lattice.size →
    later.label? type = lattice.label? type
  valence : ∀ type : TypeRef kind, type.index < lattice.size →
    later.valence? type = lattice.valence? type
  definition : ∀ type : TypeRef kind, type.index < lattice.size →
    (later.node type).definition = (lattice.node type).definition
  parents : ∀ type : TypeRef kind, type.index < lattice.size → type ≠ bottom →
    (later.node type).parents = (lattice.node type).parents
  parents_bottom : (lattice.node bottom).parents <+: (later.node bottom).parents
  children : ∀ type : TypeRef kind, type.index < lattice.size → type ≠ top →
    (later.node type).children = (lattice.node type).children
  below : ∀ low high : TypeRef kind, low.index < lattice.size → high.index < lattice.size →
    (later.Below low high ↔ lattice.Below low high)
  added : ∀ (type : TypeRef kind) (label : String), lattice.size ≤ type.index →
    later.label? type = some label →
    (later.node type).parents = [top] ∧ (later.node type).children = [bottom] ∧ named label

namespace Conserves

/-- A lattice conserves itself. -/
theorem refl (lattice : Lattice kind) : lattice.Conserves named lattice where
  size_le := Nat.le_refl _
  label _ _ := rfl
  valence _ _ := rfl
  definition _ _ := rfl
  parents _ _ _ := rfl
  parents_bottom := List.prefix_rfl
  children _ _ _ := rfl
  below _ _ _ _ := Iff.rfl
  added _ _ outside labelled := absurd (label?_of_lt labelled) (Nat.not_lt.mpr outside)

/-- Types that are conserved twice are conserved. -/
theorem trans (ordered : lattice.Ordered) (first : lattice.Conserves named later)
    (second : later.Conserves named last) : lattice.Conserves named last where
  size_le := Nat.le_trans first.size_le second.size_le
  label type inside := by
    rw [second.label type (Nat.lt_of_lt_of_le inside first.size_le), first.label type inside]
  valence type inside := by
    rw [second.valence type (Nat.lt_of_lt_of_le inside first.size_le), first.valence type inside]
  definition type inside := by
    rw [second.definition type (Nat.lt_of_lt_of_le inside first.size_le),
      first.definition type inside]
  parents type inside apart := by
    rw [second.parents type (Nat.lt_of_lt_of_le inside first.size_le) apart,
      first.parents type inside apart]
  parents_bottom := first.parents_bottom.trans second.parents_bottom
  children type inside apart := by
    rw [second.children type (Nat.lt_of_lt_of_le inside first.size_le) apart,
      first.children type inside apart]
  below low high lower upper := by
    rw [second.below low high (Nat.lt_of_lt_of_le lower first.size_le)
      (Nat.lt_of_lt_of_le upper first.size_le), first.below low high lower upper]
  added type label outside labelled := by
    by_cases between : type.index < later.size
    · -- The second step does not touch what the first one has added: no extreme is new.
      have notTop : type ≠ top := fun same =>
        Nat.not_lt.mpr outside (same ▸ ordered.top_lt)
      have notBottom : type ≠ bottom := fun same =>
        Nat.not_lt.mpr outside (same ▸ ordered.bottom_lt)
      rw [second.label type between] at labelled
      rw [second.parents type between notBottom, second.children type between notTop]
      exact first.added type label outside labelled
    · exact second.added type label (Nat.le_of_not_lt between) labelled

/-- A type is put between the extremes; with a label, if a text may name it. -/
theorem insert (ordered : lattice.Ordered) {word : Option String}
    (allowed : ∀ label, word = some label → named label) :
    lattice.Conserves named (lattice.insert word [top] [bottom]) := by
  have old {type : TypeRef kind} (inside : type.index < lattice.size) :
      type ≠ ⟨lattice.size⟩ := fun same =>
    Nat.lt_irrefl _ (congrArg TypeRef.index same ▸ inside)
  have bottomLt := ordered.bottom_lt
  refine ⟨by simp, fun type inside => ?_, fun type inside => ?_, fun type inside => ?_,
    fun type inside apart => ?_, ?_, fun type inside apart => ?_, fun low high lower upper => ?_,
    fun type label outside labelled => ?_⟩
  · rw [label?, field_insert TypeNode.label (fun _ _ => rfl) fun _ _ => rfl, if_neg (old inside),
      label?]
  · rw [valence?, field_insert TypeNode.valence (fun _ _ => rfl) fun _ _ => rfl,
      if_neg (old inside), valence?]
  · rw [field_insert TypeNode.definition (fun _ _ => rfl) fun _ _ => rfl, if_neg (old inside)]
  · rw [parents_insert ordered, if_neg (old inside), if_neg apart]
  · rw [parents_insert ordered, if_neg (old bottomLt), if_pos rfl]
    exact List.prefix_append _ _
  · rw [children_insert ordered, if_neg (old inside), if_neg apart]
  · rw [below_insert ordered.closed (by simpa using bottomLt)]
    simp only [old lower, old upper, List.mem_singleton, exists_eq_left, false_or]
    -- Only the bottom type is below the bottom one, and only the top type above the top one.
    refine or_iff_left_of_imp ?_
    rintro ⟨down, up⟩
    rw [ordered.antisymm _ _ down (ordered.bottom_below low lower)]
    exact ordered.bottom_below high upper
  · have new : type = ⟨lattice.size⟩ := by
      have inside := label?_of_lt labelled
      rw [size_insert] at inside
      cases type
      exact congrArg TypeRef.mk (Nat.le_antisymm (Nat.le_of_lt_succ inside) outside)
    rw [parents_insert ordered, children_insert ordered, if_pos new, if_pos new]
    rw [label?, field_insert TypeNode.label (fun _ _ => rfl) fun _ _ => rfl, if_pos new] at labelled
    exact ⟨rfl, rfl, allowed label labelled⟩

/-- Data of a new type are fixed. -/
theorem modify (conserves : lattice.Conserves named later) (new : lattice.size ≤ type.index)
    {change : TypeNode kind → TypeNode kind} (label : ∀ data, (change data).label = data.label)
    (parents : ∀ data, (change data).parents = data.parents)
    (children : ∀ data, (change data).children = data.children) :
    lattice.Conserves named (later.modify type change) := by
  have same {other : TypeRef kind} (inside : other.index < lattice.size) :
      (later.modify type change).node other = later.node other :=
    node_modify_of_ne fun equal => absurd (equal ▸ inside) (Nat.not_lt.mpr new)
  refine ⟨by simpa using conserves.size_le, fun other inside => ?_, fun other inside => ?_,
    fun other inside => ?_, fun other inside apart => ?_, ?_, fun other inside apart => ?_,
    fun low high lower upper => ?_, fun other word outside labelled => ?_⟩
  · rw [label?, same inside]
    exact conserves.label other inside
  · rw [valence?, same inside]
    exact conserves.valence other inside
  · rw [same inside, conserves.definition other inside]
  · rw [same inside, conserves.parents other inside apart]
  · rw [node_modify_of_keeps TypeNode.parents change parents]
    exact conserves.parents_bottom
  · rw [same inside, conserves.children other inside apart]
  · rw [below_modify parents, conserves.below low high lower upper]
  · rw [label?, node_modify_of_keeps TypeNode.label change label] at labelled
    rw [node_modify_of_keeps TypeNode.parents change parents,
      node_modify_of_keeps TypeNode.children change children]
    exact conserves.added other word outside labelled

/-- A type that is made on demand conserves the lattice. -/
theorem createOnDemand (ordered : lattice.Ordered) (allowed : named label)
    (created : lattice.createOnDemand label = .ok (type, later)) :
    lattice.Conserves named later := by
  obtain ⟨-, rfl, -⟩ := eq_of_createOnDemand created
  exact insert ordered (by rintro _ ⟨⟩; exact allowed)

theorem createDefined (ordered : lattice.Ordered) (definition : Definition) :
    lattice.Conserves named (lattice.createDefined definition).2 :=
  (insert ordered nofun).modify (Nat.le_refl _) (fun _ => rfl) (fun _ => rfl) fun _ => rfl

theorem setValence (conserves : lattice.Conserves named later) (new : lattice.size ≤ type.index)
    (valence : Nat) : lattice.Conserves named (later.setValence type valence) :=
  conserves.modify new (fun _ => rfl) (fun _ => rfl) fun _ => rfl

/-- Of two types that were there, the search finds the one below the other just as before. -/
theorem isSubtype_eq (conserves : lattice.Conserves named later) (ordered : lattice.Ordered)
    (still : later.Ordered) {low high : TypeRef kind} (lower : low.index < lattice.size)
    (upper : high.index < lattice.size) :
    later.isSubtype low high = lattice.isSubtype low high := by
  rw [Bool.eq_iff_iff, isSubtype_iff still.closed, isSubtype_iff ordered.closed]
  exact conserves.below low high lower upper

end Conserves

theorem Ordered.createOnDemand (ordered : lattice.Ordered)
    (created : lattice.createOnDemand label = .ok (type, later)) : later.Ordered :=
  ordered.create (by simpa using ⟨ordered.top_lt, ordered.bottom_lt⟩) created

/-- In an ordered lattice a type can always be created whose label is not there. -/
theorem Ordered.createOnDemand_ok (ordered : lattice.Ordered)
    (missing : lattice.find? label = none) :
    lattice.createOnDemand label = .ok (⟨lattice.size⟩, lattice.withType label) := by
  have free : lattice.obstruction? [top] [bottom] = none :=
    (obstruction?_eq_none ordered.closed).mpr (by simpa using ordered.not_top_below_bottom)
  simp [Lattice.createOnDemand, Lattice.create, missing, free, withType, push]

end ConceptualGraph.Lattice
