/-
Module: ConceptualGraph.Proofs.Lattice.Declared
Purpose: Declarations of types whose labels are all new and whose parents are declared before
  their children, where the declared parents lead, and what one declaration adds to a lattice.
Main exports: Declaration, Declaration.Names, Declaration.Valid, Lattice.withDeclared,
  Lattice.Ordered.below_withDeclared, Lattice.create_eq_ok_iff
-/
import ConceptualGraph.Config
import ConceptualGraph.Proofs.Lattice.Additions

section

open Relation (ReflTransGen)

namespace ConceptualGraph

/-! ## Declarations -/

/-- A declaration of a type, whichever kind it is of. -/
structure Declaration where
  label : String
  parents : List String
  valence : Option Nat

/-- What is declared of a concept type, which never asks for arguments. -/
def ConceptTypeDeclaration.declaration (declared : ConceptTypeDeclaration) : Declaration :=
  ⟨declared.label, declared.parents, none⟩

/-- What is declared of a relation type. -/
def RelationTypeDeclaration.declaration (declared : RelationTypeDeclaration) : Declaration :=
  ⟨declared.label, declared.parents, declared.valence⟩

namespace Declaration

/-- The labels that are declared. -/
abbrev labels (declarations : List Declaration) : List String := declarations.map label

/-- Whether a label is declared with another one as a parent. -/
def Names (declarations : List Declaration) (child parent : String) : Prop :=
  ∃ declaration ∈ declarations, declaration.label = child ∧ parent ∈ declaration.parents

/-- Whether declarations give every label once and none to the extremes, and name as parents
only the greatest type and types that are declared earlier. -/
structure Valid (topLabel bottomLabel : String) (declarations : List Declaration) : Prop where
  distinct : (labels declarations).Nodup
  apart : ∀ label ∈ labels declarations, label ≠ topLabel ∧ label ≠ bottomLabel
  earlier : ∀ before declaration after, declarations = before ++ declaration :: after →
    ∀ parent ∈ declaration.parents, parent = topLabel ∨ parent ∈ labels before

/-- Whether a declaration may follow others. -/
structure Follows (topLabel bottomLabel : String) (before : List Declaration)
    (declaration : Declaration) : Prop where
  new : declaration.label ∉ labels before
  apart : declaration.label ≠ topLabel ∧ declaration.label ≠ bottomLabel
  parents : ∀ parent ∈ declaration.parents, parent = topLabel ∨ parent ∈ labels before

variable {topLabel bottomLabel : String} {declarations before after : List Declaration}
  {declaration : Declaration} {child parent low high : String}

theorem Valid.nil : Valid topLabel bottomLabel [] where
  distinct := List.nodup_nil
  apart := nofun
  earlier before declaration after same := by simp at same

/-- What stands first among valid declarations is valid. -/
theorem Valid.of_append (valid : Valid topLabel bottomLabel (before ++ after)) :
    Valid topLabel bottomLabel before where
  distinct := by
    have distinct := valid.distinct
    rw [labels, List.map_append] at distinct
    exact (List.nodup_append.mp distinct).1
  apart label member := valid.apart label (by simp [labels] at member ⊢; exact .inl member)
  earlier front declaration back same :=
    valid.earlier front declaration (back ++ after) (by simp [same])

/-- Declarations are valid one by one: those before, and the last after them. -/
theorem valid_concat : Valid topLabel bottomLabel (before ++ [declaration]) ↔
    Valid topLabel bottomLabel before ∧ Follows topLabel bottomLabel before declaration := by
  constructor
  · intro valid
    have distinct := valid.distinct
    rw [labels, List.map_append, List.map_singleton, List.nodup_append] at distinct
    refine ⟨valid.of_append, fun member => ?_, valid.apart _ (by simp [labels]),
      valid.earlier before declaration [] rfl⟩
    exact distinct.2.2 _ member _ (List.mem_singleton_self _) rfl
  · rintro ⟨valid, follows⟩
    refine ⟨?_, fun label member => ?_, fun front other back same parent named => ?_⟩
    · rw [labels, List.map_append, List.map_singleton, List.nodup_append]
      refine ⟨valid.distinct, List.pairwise_singleton _ _, fun first member second last same => ?_⟩
      rw [List.mem_singleton.mp last] at same
      exact follows.new (same ▸ member)
    · rw [labels, List.map_append, List.map_singleton, List.mem_append,
        List.mem_singleton] at member
      rcases member with member | rfl
      · exact valid.apart label member
      · exact follows.apart
    · rcases List.eq_nil_or_concat back with rfl | ⟨rest, last, rfl⟩
      · obtain ⟨rfl, single⟩ := List.append_inj' same rfl
        obtain rfl := List.singleton_inj.mp single
        exact follows.parents parent named
      · have same : before ++ [declaration] = (front ++ other :: rest) ++ [last] := by
          simpa using same
        obtain ⟨rfl, -⟩ := List.append_inj' same rfl
        exact valid.earlier front other rest rfl parent named

/-! ### Paths -/

theorem names_concat : Names (before ++ [declaration]) child parent ↔
    Names before child parent ∨ declaration.label = child ∧ parent ∈ declaration.parents := by
  simp [Names, or_and_right, exists_or]

/-- Where a label leads is declared, or the label of the greatest type. -/
theorem Valid.mem_of_names (valid : Valid topLabel bottomLabel declarations)
    (named : Names declarations child parent) :
    parent = topLabel ∨ parent ∈ labels declarations := by
  obtain ⟨declaration, member, -, named⟩ := named
  obtain ⟨front, back, rfl⟩ := List.append_of_mem member
  refine (valid.earlier front declaration back rfl parent named).imp id fun earlier => ?_
  rw [labels, List.map_append]
  exact List.mem_append_left _ earlier

variable (valid : Valid topLabel bottomLabel before)
  (follows : Follows topLabel bottomLabel before declaration)

include valid follows

/-- From any other label a new declaration leads nowhere. -/
theorem path_concat_of_ne (start : low ≠ declaration.label) :
    ReflTransGen (Names (before ++ [declaration])) low high ↔
      ReflTransGen (Names before) low high := by
  refine ⟨fun path => ?_, fun path =>
    ReflTransGen.mono (fun _ _ named => names_concat.mpr (.inl named)) _ _ path⟩
  induction path using ReflTransGen.head_induction_on with
  | refl => exact .refl
  | head step path ih =>
      have named := (names_concat.mp step).resolve_right fun new => start new.1.symm
      refine .head named (ih fun same => ?_)
      rcases valid.mem_of_names named with top | member
      · exact follows.apart.1 (same ▸ top)
      · exact follows.new (same ▸ member)

/-- A new declaration leads to its label, to its parents and where these lead. -/
theorem path_concat :
    ReflTransGen (Names (before ++ [declaration])) declaration.label high ↔
      high = declaration.label ∨
        ∃ parent ∈ declaration.parents, ReflTransGen (Names before) parent high := by
  have old : ∀ parent ∈ declaration.parents, parent ≠ declaration.label := by
    rintro parent named rfl
    exact (follows.parents _ named).elim follows.apart.1 follows.new
  constructor
  · intro path
    rcases path.cases_head with same | ⟨parent, step, path⟩
    · exact .inl same.symm
    have named : parent ∈ declaration.parents := by
      refine (names_concat.mp step).elim (fun before => ?_) And.right
      obtain ⟨other, member, same, -⟩ := before
      exact absurd (List.mem_map.mpr ⟨other, member, same⟩) follows.new
    exact .inr ⟨parent, named, (path_concat_of_ne valid follows (old parent named)).mp path⟩
  · rintro (rfl | ⟨parent, named, path⟩)
    · exact .refl
    · exact .head (names_concat.mpr (.inr ⟨rfl, named⟩))
        ((path_concat_of_ne valid follows (old parent named)).mpr path)

end Declaration

/-! ## One declaration -/

namespace Lattice

variable {kind : TypeKind} {lattice later : Lattice kind} {type other low high : TypeRef kind}
  {types parents children : List (TypeRef kind)} {label word : String}

/-- A lattice with a declared type, given its parents. -/
def withDeclared (lattice : Lattice kind) (label : String) (types : List (TypeRef kind))
    (valence : Option Nat) : Lattice kind :=
  let inserted :=
    lattice.insert (some label) (if types.isEmpty then [top] else types) [bottom]
  valence.elim inserted (inserted.setValence ⟨lattice.size⟩)

/-- A declared label names the new type, and all others what they named before. -/
theorem find?_withDeclared (valence : Option Nat) :
    (lattice.withDeclared label types valence).find? word =
      if word = label then some ⟨lattice.size⟩ else lattice.find? word := by
  have inserted (parents : List (TypeRef kind)) :
      (lattice.insert (some label) parents [bottom]).find? word = _ := find?_insert
  simp only [Option.some.injEq] at inserted
  cases valence with
  | none => exact inserted _
  | some valence => exact (find?_setValence valence).trans (inserted _)

/-- What a declared type asks for, and all others as before. -/
theorem valence?_withDeclared (valence : Option Nat) :
    (lattice.withDeclared label types valence).valence? type =
      if type = ⟨lattice.size⟩ then valence else lattice.valence? type := by
  have inserted (type : TypeRef kind) (parents : List (TypeRef kind)) :
      (lattice.insert (some label) parents [bottom]).valence? type =
        if type = ⟨lattice.size⟩ then none else lattice.valence? type :=
    field_insert TypeNode.valence (fun _ _ => rfl) fun _ _ => rfl
  cases valence with
  | none => exact inserted type _
  | some valence =>
      by_cases new : type = ⟨lattice.size⟩
      · rw [if_pos new, new]
        exact valence?_setValence_self (by simp) valence
      · rw [if_neg new]
        exact (valence?_setValence_of_ne (by simp) new valence).trans
          ((inserted type _).trans (if_neg new))

section Declared

variable (ordered : lattice.Ordered)

include ordered

/-- Only the bottom type is below the bottom one. -/
theorem Ordered.below_bottom : lattice.Below type bottom ↔ type = bottom := by
  refine ⟨fun path => ?_, fun same => same ▸ .refl⟩
  by_cases inside : type.index < lattice.size
  · exact ordered.antisymm _ _ path (ordered.bottom_below type inside)
  · rcases path.cases_head with same | ⟨next, link, -⟩
    · exact same
    · exact absurd link.lt_size inside

/-- Only the top type is above the top one. -/
theorem Ordered.top_below (inside : type.index < lattice.size) :
    lattice.Below top type ↔ type = top := by
  refine ⟨fun path => ?_, fun same => same ▸ .refl⟩
  exact ordered.antisymm _ _ (ordered.below_top type inside) path

/-- The types under which a declared one comes, which are not the least. -/
theorem parents_of_declared (known : ∀ type ∈ types, type.index < lattice.size)
    (apart : bottom ∉ types) : ∀ type ∈ (if types.isEmpty then [top] else types),
      type.index < lattice.size ∧ type ≠ bottom := by
  intro type member
  split at member
  · rw [List.mem_singleton.mp member]
    exact ⟨ordered.top_lt, nofun⟩
  · exact ⟨known type member, fun same => apart (same ▸ member)⟩

/-- A declaration keeps the order of the types, given that its parents are there and above the
least. -/
theorem Ordered.withDeclared (known : ∀ type ∈ types, type.index < lattice.size)
    (apart : bottom ∉ types) (label : String) (valence : Option Nat) :
    (lattice.withDeclared label types valence).Ordered := by
  have parents := parents_of_declared ordered known apart
  have inserted : (lattice.insert (some label) (if types.isEmpty then [top] else types)
      [bottom]).Ordered := by
    refine ordered.insert (fun type member => (parents type member).1)
      (by simpa using ordered.bottom_lt) ?_ (List.cons_ne_nil _ _) ?_
    · split <;> simp_all
    · intro parent member child same path
      rw [List.mem_singleton.mp same, ordered.below_bottom] at path
      exact (parents parent member).2 path
  cases valence with
  | none => exact inserted
  | some valence => exact inserted.modify fun _ => rfl

/-- Where a path leads in a lattice with a declared type: what was not below another type before
is not so afterwards, and the declared type is below its parents and what is above them. -/
theorem Ordered.below_withDeclared (valence : Option Nat) (apart : low ≠ bottom) :
    (lattice.withDeclared label types valence).Below low high ↔ lattice.Below low high ∨
      low = ⟨lattice.size⟩ ∧ (high = ⟨lattice.size⟩ ∨
        ∃ type ∈ (if types.isEmpty then [top] else types), lattice.Below type high) := by
  have inserted : (lattice.insert (some label) (if types.isEmpty then [top] else types)
      [bottom]).Below low high ↔ _ := below_insert ordered.closed (by simpa using ordered.bottom_lt)
  simp only [List.mem_singleton, exists_eq_left, ordered.below_bottom, apart, or_false] at inserted
  cases valence with
  | none => exact inserted
  | some valence =>
      rw [← inserted]
      refine below_modify ?_
      exact fun _ => rfl

/-- A type is created below the least type exactly if this is not one of its parents. -/
theorem create_eq_ok_iff : lattice.create label types [] = .ok (type, later) ↔
    lattice.find? label = none ∧ bottom ∉ types ∧ type = ⟨lattice.size⟩ ∧
      later = lattice.insert (some label) (if types.isEmpty then [top] else types) [bottom] := by
  have free : lattice.obstruction? (if types.isEmpty then [top] else types) [bottom] = none ↔
      bottom ∉ types := by
    rw [obstruction?_eq_none ordered.closed]
    simp only [List.mem_singleton, forall_eq, ordered.below_bottom]
    split
    · next empty =>
      rw [List.isEmpty_iff.mp empty]
      simp
      nofun
    · exact ⟨fun absent member => absent _ member rfl,
        fun absent _ member same => absent (same ▸ member)⟩
  unfold create
  split
  · next found =>
    refine iff_of_false nofun fun ⟨missing, _⟩ => ?_
    rw [missing] at found
    cases found
  · next missing =>
    have missing : lattice.find? label = none := by simpa using missing
    rw [← free]
    simp only [List.isEmpty_nil, if_true]
    split
    · next blocked =>
      refine iff_of_false nofun fun ⟨_, unblocked, _⟩ => ?_
      rw [unblocked] at blocked
      cases blocked
    · next unblocked =>
      simp only [missing, unblocked, true_and, Except.ok.injEq, Prod.mk.injEq]
      exact ⟨fun ⟨same, rest⟩ => ⟨same.symm, rest.symm⟩, fun ⟨same, rest⟩ => ⟨same.symm, rest.symm⟩⟩

end Declared

end Lattice

end ConceptualGraph

end
