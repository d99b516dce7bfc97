/-
Module: ConceptualGraph.Proofs.Lattice.Links
Purpose: How links and new types change which types are below which, and when they leave a
  lattice an order.
Main exports: Lattice.insert, Lattice.below_link, Lattice.below_insert, Lattice.Ordered,
  Lattice.Ordered.link, Lattice.Ordered.insert
-/
import ConceptualGraph.Proofs.Lattice.Subtype
import ConceptualGraph.Proofs.Model.Types

namespace ConceptualGraph.Lattice

variable {kind : TypeKind} {lattice : Lattice kind}
  {type other parent child low high : TypeRef kind} {parents children : List (TypeRef kind)}

/-! ## One link -/

theorem node_eq_of_le (outside : lattice.size ≤ type.index) : lattice.node type = {} := by
  simp [node, Array.getElem?_eq_none (show lattice.nodes.size ≤ type.index from outside)]

/-- Only types of the lattice list parents. -/
theorem IsParent.lt_size (link : lattice.IsParent type parent) : type.index < lattice.size := by
  by_contra outside
  rw [IsParent, node_eq_of_le (Nat.le_of_not_lt outside)] at link
  cases link

/-- A type that is pushed has no links. -/
theorem isParent_push {label : Option String} :
    (lattice.push label).2.IsParent type parent ↔ lattice.IsParent type parent := by
  by_cases new : type.index = lattice.size
  · obtain rfl : type = ⟨lattice.size⟩ := by cases type; cases new; rfl
    have absent : lattice.node ⟨lattice.size⟩ = {} := node_eq_of_le (Nat.le_refl _)
    rw [IsParent, IsParent, absent, node_push]
  · rw [IsParent, IsParent, node_push_of_ne new]

theorem isParent_modify {change : TypeNode kind → TypeNode kind}
    (keeps : ∀ data, (change data).parents = data.parents) :
    (lattice.modify other change).IsParent type parent ↔ lattice.IsParent type parent := by
  rw [IsParent, node_modify_of_keeps TypeNode.parents change keeps, IsParent]

/-- After a link a type has the parents that it had, and the lower end has the upper one. -/
theorem isParent_link (inside : child.index < lattice.size) :
    (lattice.link parent child).IsParent type other ↔
      lattice.IsParent type other ∨ type = child ∧ other = parent := by
  unfold IsParent
  by_cases same : type = child
  · subst same
    have before : ((lattice.modify parent fun data =>
        { data with children := data.children ++ [type] }).node type).parents =
          (lattice.node type).parents := node_modify_of_keeps TypeNode.parents _ fun _ => rfl
    rw [link, node_modify (by simpa using inside), if_pos rfl, List.mem_append, before]
    simp
  · simp [parents_link_of_ne same, same]

/-- A type that is pushed changes no order. -/
theorem below_push {label : Option String} :
    (lattice.push label).2.Below low high ↔ lattice.Below low high := by
  have same : (lattice.push label).2.IsParent = lattice.IsParent :=
    funext fun _ => funext fun _ => propext isParent_push
  rw [Below, same, Below]

theorem below_modify {change : TypeNode kind → TypeNode kind}
    (keeps : ∀ data, (change data).parents = data.parents) :
    (lattice.modify other change).Below low high ↔ lattice.Below low high := by
  have same : (lattice.modify other change).IsParent = lattice.IsParent :=
    funext fun _ => funext fun _ => propext (isParent_modify keeps)
  rw [Below, same, Below]

/-- A path in a lattice with one more link goes without it, or leads to its lower end first and
from its upper end at last. -/
theorem below_link (inside : child.index < lattice.size) :
    (lattice.link parent child).Below low high ↔
      lattice.Below low high ∨ lattice.Below low child ∧ lattice.Below parent high := by
  have keeps {from_ to_ : TypeRef kind} (path : lattice.Below from_ to_) :
      (lattice.link parent child).Below from_ to_ :=
    Relation.ReflTransGen.lift id (fun _ _ old => (isParent_link inside).mpr (.inl old)) _ _ path
  constructor
  · intro path
    induction path with
    | refl => exact .inl .refl
    | tail _ step ih =>
        rcases (isParent_link inside).mp step with old | ⟨rfl, rfl⟩
        · exact ih.imp (·.tail old) fun ⟨before, after⟩ => ⟨before, after.tail old⟩
        · exact .inr ⟨ih.elim id (·.1), .refl⟩
  · rintro (path | ⟨before, after⟩)
    · exact keeps path
    · exact ((keeps before).tail ((isParent_link inside).mpr (.inr ⟨rfl, rfl⟩))).trans (keeps after)

/-! ## Several links -/

@[simp] theorem size_foldl_parents :
    (parents.foldl (fun lattice parent => lattice.link parent type) lattice).size =
      lattice.size := by
  induction parents generalizing lattice with
  | nil => rfl
  | cons parent parents ih => simp [ih]

@[simp] theorem size_foldl_children :
    (children.foldl (fun lattice child => lattice.link type child) lattice).size =
      lattice.size := by
  induction children generalizing lattice with
  | nil => rfl
  | cons child children ih => simp [ih]

/-- A type is put under others. -/
theorem below_foldl_parents (inside : type.index < lattice.size) :
    (parents.foldl (fun lattice parent => lattice.link parent type) lattice).Below low high ↔
      lattice.Below low high ∨
        lattice.Below low type ∧ ∃ parent ∈ parents, lattice.Below parent high := by
  induction parents generalizing lattice with
  | nil => simp
  | cons parent parents ih =>
      have lower (start : TypeRef kind) :
          (lattice.link parent type).Below start type ↔ lattice.Below start type := by
        rw [below_link inside, or_iff_left_of_imp And.left]
      rw [List.foldl_cons, ih (by simpa using inside), lower]
      constructor
      · rintro (path | ⟨up, via, member, path⟩)
        · exact ((below_link inside).mp path).imp id fun ⟨up, down⟩ =>
            ⟨up, parent, List.mem_cons_self, down⟩
        · refine .inr ⟨up, ((below_link inside).mp path).elim (fun down => ?_) fun step => ?_⟩
          · exact ⟨via, List.mem_cons_of_mem _ member, down⟩
          · exact ⟨parent, List.mem_cons_self, step.2⟩
      · rintro (path | ⟨up, via, member, down⟩)
        · exact .inl ((below_link inside).mpr (.inl path))
        rcases List.mem_cons.mp member with rfl | member
        · exact .inl ((below_link inside).mpr (.inr ⟨up, down⟩))
        · exact .inr ⟨up, via, member, (below_link inside).mpr (.inl down)⟩

/-- Others are put under a type. -/
theorem below_foldl_children (inside : ∀ child ∈ children, child.index < lattice.size) :
    (children.foldl (fun lattice child => lattice.link type child) lattice).Below low high ↔
      lattice.Below low high ∨
        (∃ child ∈ children, lattice.Below low child) ∧ lattice.Below type high := by
  induction children generalizing lattice with
  | nil => simp
  | cons child children ih =>
      obtain ⟨here, others⟩ := List.forall_mem_cons.mp inside
      have upper (goal : TypeRef kind) :
          (lattice.link type child).Below type goal ↔ lattice.Below type goal := by
        rw [below_link here, or_iff_left_of_imp And.right]
      rw [List.foldl_cons, ih (by simpa using others), upper]
      constructor
      · rintro (path | ⟨⟨via, member, path⟩, down⟩)
        · exact ((below_link here).mp path).imp id fun ⟨up, down⟩ =>
            ⟨⟨child, List.mem_cons_self, up⟩, down⟩
        · refine .inr ⟨((below_link here).mp path).elim (fun up => ?_) fun step => ?_, down⟩
          · exact ⟨via, List.mem_cons_of_mem _ member, up⟩
          · exact ⟨child, List.mem_cons_self, step.1⟩
      · rintro (path | ⟨⟨via, member, up⟩, down⟩)
        · exact .inl ((below_link here).mpr (.inl path))
        rcases List.mem_cons.mp member with rfl | member
        · exact .inl ((below_link here).mpr (.inr ⟨up, down⟩))
        · exact .inr ⟨⟨via, member, (below_link here).mpr (.inl up)⟩, down⟩

/-! ## A new type -/

/-- The lattice with a new type under some types and above others. -/
def insert (lattice : Lattice kind) (label : Option String)
    (parents children : List (TypeRef kind)) : Lattice kind :=
  let type : TypeRef kind := ⟨lattice.size⟩
  let lattice := parents.foldl (fun lattice parent => lattice.link parent type)
    (lattice.push label).2
  children.foldl (fun lattice child => lattice.link type child) lattice

@[simp] theorem size_insert {label : Option String} :
    (lattice.insert label parents children).size = lattice.size + 1 := by
  simp [insert]

/-- Nothing is below a type that is yet to come, -/
theorem Closed.below_new (closed : lattice.Closed) :
    lattice.Below low ⟨lattice.size⟩ ↔ low = ⟨lattice.size⟩ := by
  refine ⟨fun path => ?_, fun same => same ▸ .refl⟩
  rcases path.cases_tail with same | ⟨last, -, link⟩
  · exact same.symm
  · exact absurd (closed _ _ link) (Nat.lt_irrefl _)

/-- nor above it. -/
theorem new_below : lattice.Below ⟨lattice.size⟩ high ↔ high = ⟨lattice.size⟩ := by
  refine ⟨fun path => ?_, fun same => same ▸ .refl⟩
  rcases path.cases_head with same | ⟨next, link, -⟩
  · exact same.symm
  · exact absurd link.lt_size (Nat.lt_irrefl _)

/-- A new type is above its children and what is below them, and below its parents and what is
above them; and what is thus below it is below what is thus above it. -/
theorem below_insert (closed : lattice.Closed)
    (inside : ∀ child ∈ children, child.index < lattice.size) {label : Option String} :
    (lattice.insert label parents children).Below low high ↔
      lattice.Below low high ∨
        (low = ⟨lattice.size⟩ ∨ ∃ child ∈ children, lattice.Below low child) ∧
          (high = ⟨lattice.size⟩ ∨ ∃ parent ∈ parents, lattice.Below parent high) := by
  have room : (⟨lattice.size⟩ : TypeRef kind).index < (lattice.push label).2.size := by simp
  -- Once it has its parents, only the new type has got something above it.
  have between (start goal : TypeRef kind) :
      (parents.foldl (fun later parent => later.link parent ⟨lattice.size⟩)
        (lattice.push label).2).Below start goal ↔
        lattice.Below start goal ∨
          start = ⟨lattice.size⟩ ∧ ∃ parent ∈ parents, lattice.Below parent goal := by
    rw [below_foldl_parents room]
    simp only [below_push, closed.below_new]
  have known : ∀ child ∈ children, child.index <
      (parents.foldl (fun later parent => later.link parent ⟨lattice.size⟩)
        (lattice.push label).2).size := fun child member => by
    rw [size_foldl_parents, size_push]
    exact Nat.lt_succ_of_lt (inside child member)
  rw [insert, below_foldl_children known]
  simp only [between, new_below]
  constructor
  · rintro ((path | ⟨rfl, above⟩) | ⟨⟨child, member, path⟩, above⟩)
    · exact .inl path
    · exact .inr ⟨.inl rfl, .inr above⟩
    · exact .inr ⟨path.elim (fun path => .inr ⟨child, member, path⟩) fun new => .inl new.1,
        above.imp id And.right⟩
  · rintro (path | ⟨rfl | below, above⟩)
    · exact .inl (.inl path)
    · exact above.elim (fun same => .inl (.inl (same ▸ .refl))) fun above =>
        .inl (.inr ⟨rfl, above⟩)
    · obtain ⟨child, member, path⟩ := below
      exact .inr ⟨⟨child, member, .inl path⟩, above.imp id fun above => ⟨trivial, above⟩⟩

/-! ## Lattices in order -/

/-- A closed lattice stays closed as a type is pushed. -/
theorem Closed.push (closed : lattice.Closed) {label : Option String} :
    (lattice.push label).2.Closed := fun type parent link => by
  rw [size_push]
  exact Nat.lt_succ_of_lt (closed type parent (isParent_push.mp link))

/-- A link between types of the lattice keeps it closed. -/
theorem Closed.link (closed : lattice.Closed) (above : parent.index < lattice.size)
    (below : child.index < lattice.size) : (lattice.link parent child).Closed :=
  fun type other step => by
    rw [size_link]
    rcases (isParent_link below).mp step with old | ⟨-, rfl⟩
    · exact closed type other old
    · exact above

/-- All parents are types of the lattice after a type has been linked to some. -/
theorem Closed.foldl_parents (closed : lattice.Closed) (inside : type.index < lattice.size)
    (above : ∀ parent ∈ parents, parent.index < lattice.size) :
    (parents.foldl (fun lattice parent => lattice.link parent type) lattice).Closed := by
  induction parents generalizing lattice with
  | nil => exact closed
  | cons parent parents ih =>
      obtain ⟨here, others⟩ := List.forall_mem_cons.mp above
      exact ih (closed.link here inside) (by simpa using inside) (by simpa using others)

/-- All parents are types of the lattice after a type has been linked to children. -/
theorem Closed.foldl_children (closed : lattice.Closed) (inside : type.index < lattice.size)
    (below : ∀ child ∈ children, child.index < lattice.size) :
    (children.foldl (fun lattice child => lattice.link type child) lattice).Closed := by
  induction children generalizing lattice with
  | nil => exact closed
  | cons child children ih =>
      obtain ⟨here, others⟩ := List.forall_mem_cons.mp below
      exact ih (closed.link inside here) (by simpa using inside) (by simpa using others)

/-- All parents are types of the lattice after one has been put in. -/
theorem Closed.insert (closed : lattice.Closed)
    (above : ∀ parent ∈ parents, parent.index < lattice.size)
    (below : ∀ child ∈ children, child.index < lattice.size) {label : Option String} :
    (lattice.insert label parents children).Closed := by
  have grown {type : TypeRef kind} (inside : type.index < lattice.size) :
      type.index < lattice.size + 1 := Nat.lt_succ_of_lt inside
  refine (closed.push.foldl_parents (by simp) fun parent member => ?_).foldl_children (by simp)
    fun child member => ?_
  · simpa using grown (above parent member)
  · simpa using grown (below child member)

/-- A lattice in which to be below is a partial order, with a least and a greatest type. -/
structure Ordered (lattice : Lattice kind) : Prop where
  two_le : 2 ≤ lattice.size
  closed : lattice.Closed
  antisymm : ∀ type other, lattice.Below type other → lattice.Below other type → type = other
  below_top : ∀ type : TypeRef kind, type.index < lattice.size → lattice.Below type top
  bottom_below : ∀ type : TypeRef kind, type.index < lattice.size → lattice.Below bottom type

namespace Ordered

/-- The two extremes in order. -/
theorem withExtremes (topLabel bottomLabel : String) :
    (withExtremes topLabel bottomLabel : Lattice kind).Ordered := by
  let bare : Lattice kind := ⟨#[{ label := some topLabel }, { label := some bottomLabel }]⟩
  have unlinked (type other : TypeRef kind) : ¬ bare.IsParent type other := by
    rcases type with ⟨_ | _ | _⟩ <;> exact List.not_mem_nil
  have alone {low high : TypeRef kind} (path : bare.Below low high) : low = high :=
    path.cases_head.elim id fun ⟨next, link, _⟩ => (unlinked low next link).elim
  have below (low high : TypeRef kind) :
      (Lattice.withExtremes topLabel bottomLabel : Lattice kind).Below low high ↔
        bare.Below low high ∨ bare.Below low bottom ∧ bare.Below top high :=
    below_link (by decide : 1 < 2)
  have apart : (top : TypeRef kind) ≠ bottom := nofun
  refine ⟨Nat.le_refl 2, fun type parent link => ?_, fun type other up down => ?_,
    fun type inside => ?_, fun type inside => ?_⟩
  · rcases (isParent_link (by decide : 1 < 2)).mp link with old | ⟨-, rfl⟩
    · exact (unlinked type parent old).elim
    · exact Nat.zero_lt_two
  · rcases (below type other).mp up with same | ⟨low, high⟩
    · exact alone same
    rcases (below other type).mp down with same | ⟨low', high'⟩
    · exact (alone same).symm
    · exact absurd ((alone high).trans (alone low')) apart
  · rcases type with ⟨_ | _ | place⟩
    · exact .refl
    · exact (below _ _).mpr (.inr ⟨.refl, .refl⟩)
    · exact absurd inside (by simp [size, Lattice.withExtremes, link, modify])
  · rcases type with ⟨_ | _ | place⟩
    · exact (below _ _).mpr (.inr ⟨.refl, .refl⟩)
    · exact .refl
    · exact absurd inside (by simp [size, Lattice.withExtremes, link, modify])

variable (ordered : lattice.Ordered)

include ordered

theorem top_lt : (top : TypeRef kind).index < lattice.size :=
  Nat.lt_of_lt_of_le Nat.zero_lt_two ordered.two_le

theorem bottom_lt : (bottom : TypeRef kind).index < lattice.size :=
  Nat.lt_of_lt_of_le Nat.one_lt_two ordered.two_le

/-- The two extremes are never exchanged, so a type may always be put between them. -/
theorem not_top_below_bottom : ¬ lattice.Below top bottom := fun path =>
  nomatch ordered.antisymm top bottom path (ordered.bottom_below top ordered.top_lt)

/-- Changes apart from links leave the order. -/
theorem modify {change : TypeNode kind → TypeNode kind}
    (keeps : ∀ data, (change data).parents = data.parents) :
    (lattice.modify type change).Ordered where
  two_le := by simpa using ordered.two_le
  closed low parent step := by
    simpa using ordered.closed low parent ((isParent_modify keeps).mp step)
  antisymm low high up down :=
    ordered.antisymm low high ((below_modify keeps).mp up) ((below_modify keeps).mp down)
  below_top low inside := (below_modify keeps).mpr (ordered.below_top low (by simpa using inside))
  bottom_below high inside :=
    (below_modify keeps).mpr (ordered.bottom_below high (by simpa using inside))

/-- A link leaves the order if its upper end is not below its lower one. -/
theorem link (above : parent.index < lattice.size) (below : child.index < lattice.size)
    (apart : ¬ lattice.Below parent child) : (lattice.link parent child).Ordered where
  two_le := by simpa using ordered.two_le
  closed := ordered.closed.link above below
  antisymm low high up down := by
    rcases (below_link below).mp up with up | ⟨lower, upper⟩ <;>
      rcases (below_link below).mp down with down | ⟨lower', upper'⟩
    · exact ordered.antisymm low high up down
    · exact absurd ((upper'.trans up).trans lower') apart
    · exact absurd ((upper.trans down).trans lower) apart
    · exact absurd (upper.trans lower') apart
  below_top low inside :=
    (below_link below).mpr (.inl (ordered.below_top low (by simpa using inside)))
  bottom_below high inside :=
    (below_link below).mpr (.inl (ordered.bottom_below high (by simpa using inside)))

/-- A new type leaves the order if none of its parents is below one of its children. -/
theorem insert (above : ∀ parent ∈ parents, parent.index < lattice.size)
    (below : ∀ child ∈ children, child.index < lattice.size)
    (upward : parents ≠ []) (downward : children ≠ [])
    (apart : ∀ parent ∈ parents, ∀ child ∈ children, ¬ lattice.Below parent child)
    {label : Option String} : (lattice.insert label parents children).Ordered := by
  have order (low high : TypeRef kind) :
      (lattice.insert label parents children).Below low high ↔ lattice.Below low high ∨
        (low = ⟨lattice.size⟩ ∨ ∃ child ∈ children, lattice.Below low child) ∧
          (high = ⟨lattice.size⟩ ∨ ∃ parent ∈ parents, lattice.Below parent high) :=
    below_insert ordered.closed below
  have new {type : TypeRef kind}
      (lower : type = ⟨lattice.size⟩ ∨ ∃ child ∈ children, lattice.Below type child)
      (upper : type = ⟨lattice.size⟩ ∨ ∃ parent ∈ parents, lattice.Below parent type) :
      type = ⟨lattice.size⟩ := by
    rcases lower with same | ⟨child, lower, down⟩
    · exact same
    rcases upper with same | ⟨parent, upper, up⟩
    · exact same
    · exact absurd (up.trans down) (apart parent upper child lower)
  have descend {low high : TypeRef kind} (path : lattice.Below low high)
      (lower : high = ⟨lattice.size⟩ ∨ ∃ child ∈ children, lattice.Below high child) :
      low = ⟨lattice.size⟩ ∨ ∃ child ∈ children, lattice.Below low child := by
    rcases lower with rfl | ⟨child, member, down⟩
    · exact .inl (ordered.closed.below_new.mp path)
    · exact .inr ⟨child, member, path.trans down⟩
  have oldOrNew {type : TypeRef kind} (inside : type.index < lattice.size + 1) :
      type.index < lattice.size ∨ type = ⟨lattice.size⟩ :=
    (Nat.lt_succ_iff_lt_or_eq.mp inside).imp id fun same => by cases type; cases same; rfl
  refine ⟨?_, ordered.closed.insert above below, fun low high up down => ?_,
    fun type inside => (order _ _).mpr ?_, fun type inside => (order _ _).mpr ?_⟩
  · have enough := ordered.two_le
    rw [size_insert]
    omega
  -- Each of the two paths is an old one or goes through the new type.
  · rcases (order low high).mp up with up | ⟨lower, upper⟩ <;>
      rcases (order high low).mp down with down | ⟨lower', upper'⟩
    · exact ordered.antisymm low high up down
    · obtain rfl := new (descend up lower') upper'
      exact (new_below.mp up).symm
    · obtain rfl := new (descend down lower) upper
      exact new_below.mp down
    · exact (new lower upper').trans (new lower' upper).symm
  · rcases oldOrNew (by simpa using inside) with old | rfl
    · exact .inl (ordered.below_top type old)
    · obtain ⟨parent, member⟩ := List.exists_mem_of_ne_nil parents upward
      exact .inr ⟨.inl rfl, .inr ⟨parent, member, ordered.below_top parent (above parent member)⟩⟩
  · rcases oldOrNew (by simpa using inside) with old | rfl
    · exact .inl (ordered.bottom_below type old)
    · obtain ⟨child, member⟩ := List.exists_mem_of_ne_nil children downward
      exact .inr ⟨.inr ⟨child, member, ordered.bottom_below child (below child member)⟩, .inl rfl⟩

end Ordered

end ConceptualGraph.Lattice
