/-
Module: ConceptualGraph.Proofs.Lattice.Effect
Purpose: What an edit of a lattice does to its order, told for every pair of types: a new type joins
  what is below its children to what is above its parents, and a new link its lower end to its upper
  one.
Main exports: Lattice.Inserted, Lattice.Inserted.create, Lattice.isSubtype_addSupertype,
  Lattice.order_after_edit
-/
import ConceptualGraph.Proofs.Lattice.Additions

namespace ConceptualGraph.Lattice

variable {kind : TypeKind} {lattice later : Lattice kind}
  {type child parent low high : TypeRef kind} {parents children : List (TypeRef kind)}
  {label : String}

/-! ## One more type -/

/-- A lattice has one more type than another, which is above `children` and what is below these,
and below `parents` and what is above these.  Of the types that were there, the one is below the
other if it was before, or if the new type comes between them. -/
structure Inserted (lattice later : Lattice kind) (type : TypeRef kind)
    (parents children : List (TypeRef kind)) : Prop where
  types : later.types = lattice.types ++ [type]
  new : type ∉ lattice.types
  old : ∀ low ∈ lattice.types, ∀ high ∈ lattice.types,
    (later.isSubtype low high = true ↔ lattice.isSubtype low high = true ∨
      (∃ child ∈ children, lattice.isSubtype low child = true) ∧
        ∃ parent ∈ parents, lattice.isSubtype parent high = true)
  lower : ∀ low ∈ lattice.types,
    (later.isSubtype low type = true ↔ ∃ child ∈ children, lattice.isSubtype low child = true)
  upper : ∀ high ∈ lattice.types,
    (later.isSubtype type high = true ↔ ∃ parent ∈ parents, lattice.isSubtype parent high = true)

/-- The types that were there are below each other as before. -/
def SameOrder (lattice later : Lattice kind) : Prop :=
  ∀ low ∈ lattice.types, ∀ high ∈ lattice.types,
    later.isSubtype low high = lattice.isSubtype low high

theorem types_eq_append (size : later.size = lattice.size + 1) :
    later.types = lattice.types ++ [⟨lattice.size⟩] := by
  rw [types, size, List.range_succ, List.map_append]
  rfl

theorem new_not_mem_types : (⟨lattice.size⟩ : TypeRef kind) ∉ lattice.types := fun member =>
  Nat.lt_irrefl _ (mem_types.mp member)

/-- The search in a lattice with one more type, in terms of searches in the lattice before. -/
theorem isSubtype_insert (closed : lattice.Closed)
    (above : ∀ parent ∈ parents, parent.index < lattice.size)
    (below : ∀ child ∈ children, child.index < lattice.size) {word : Option String} :
    (lattice.insert word parents children).isSubtype low high = true ↔
      lattice.isSubtype low high = true ∨
        (low = ⟨lattice.size⟩ ∨ ∃ child ∈ children, lattice.isSubtype low child = true) ∧
          (high = ⟨lattice.size⟩ ∨ ∃ parent ∈ parents, lattice.isSubtype parent high = true) := by
  rw [isSubtype_iff (closed.insert above below), below_insert closed below]
  simp only [isSubtype_iff closed]

/-- What is listed at both ends of every link after a type has been put in. -/
theorem Inserted.insert (closed : lattice.Closed)
    (above : ∀ parent ∈ parents, parent.index < lattice.size)
    (below : ∀ child ∈ children, child.index < lattice.size) (word : Option String) :
    lattice.Inserted (lattice.insert word parents children) ⟨lattice.size⟩ parents children := by
  have old {type : TypeRef kind} (member : type ∈ lattice.types) : type ≠ ⟨lattice.size⟩ :=
    fun same => new_not_mem_types (same ▸ member)
  -- No search in the lattice before leads to the new type or from it to an old one.
  have notUp {low : TypeRef kind} (member : low ∈ lattice.types) :
      ¬ lattice.Below low ⟨lattice.size⟩ := fun path =>
    old member (closed.below_new.mp path)
  have notDown {high : TypeRef kind} (member : high ∈ lattice.types) :
      ¬ lattice.Below ⟨lattice.size⟩ high := fun path =>
    old member (new_below.mp path)
  constructor
  case types => exact types_eq_append size_insert
  case new => exact new_not_mem_types
  case old =>
    intro low lower high upper
    rw [isSubtype_insert closed above below]
    simp only [old lower, old upper, false_or]
  case lower =>
    intro low lower
    rw [isSubtype_insert closed above below, isSubtype_iff closed]
    simp only [old lower, notUp lower, false_or, true_or, and_true]
  case upper =>
    intro high upper
    rw [isSubtype_insert closed above below, isSubtype_iff closed]
    simp only [old upper, notDown upper, false_or, true_or, true_and]

/-- A type that is created is the one after the last. -/
theorem eq_new_of_create (created : lattice.create label parents children = .ok (type, later)) :
    type = ⟨lattice.size⟩ := by
  unfold Lattice.create at created
  split at created
  · cases created
  dsimp only at created
  split at created
  · cases created
  · cases created
    rfl

/-- A type that is created is inserted between its parents and its children, for which the extremes
stand in where there are none. -/
theorem Inserted.create (ordered : lattice.Ordered)
    (known : ∀ mentioned ∈ parents ++ children, mentioned ∈ lattice.types)
    (created : lattice.create label parents children = .ok (type, later)) :
    lattice.Inserted later type (if parents.isEmpty then [top] else parents)
      (if children.isEmpty then [bottom] else children) := by
  obtain rfl := eq_new_of_create created
  obtain ⟨-, rfl⟩ := create_ok created
  obtain ⟨upper, lower⟩ := List.forall_mem_append.mp known
  apply Inserted.insert ordered.closed
  · split
    · simpa using ordered.top_lt
    · exact fun parent member => mem_types.mp (upper parent member)
  · split
    · simpa using ordered.bottom_lt
    · exact fun child member => mem_types.mp (lower child member)

/-- What changes no links leaves the order as it is. -/
theorem isSubtype_modify (ordered : lattice.Ordered) {change : TypeNode kind → TypeNode kind}
    (keeps : ∀ data, (change data).parents = data.parents) :
    (lattice.modify type change).isSubtype low high = lattice.isSubtype low high := by
  rw [Bool.eq_iff_iff, isSubtype_iff (ordered.modify keeps).closed, isSubtype_iff ordered.closed]
  exact below_modify keeps

/-- A type that is given by its definition is inserted between the extremes. -/
theorem Inserted.createDefined (ordered : lattice.Ordered) (definition : Definition) :
    lattice.Inserted (lattice.createDefined definition).2 (lattice.createDefined definition).1
      [top] [bottom] := by
  have above : ∀ parent ∈ [(top : TypeRef kind)], parent.index < lattice.size := by
    simpa using ordered.top_lt
  have below : ∀ child ∈ [(bottom : TypeRef kind)], child.index < lattice.size := by
    simpa using ordered.bottom_lt
  have inserted := Inserted.insert ordered.closed above below none
  have between : (lattice.insert none [top] [bottom]).Ordered :=
    ordered.insert above below (List.cons_ne_nil _ _) (List.cons_ne_nil _ _)
      (by simpa using ordered.not_top_below_bottom)
  -- The definition is noted at the new type after it has been linked.
  have same (low high : TypeRef kind) :
      (lattice.createDefined definition).2.isSubtype low high =
        (lattice.insert none [top] [bottom]).isSubtype low high :=
    isSubtype_modify between fun _ => rfl
  rw [createDefined_fst]
  refine ⟨types_eq_append (size_createDefined definition), new_not_mem_types, ?_, ?_, ?_⟩
  · simpa only [same] using inserted.old
  · simpa only [same] using inserted.lower
  · simpa only [same] using inserted.upper

/-- A type between the extremes comes between no two others: only the bottom type is below the
bottom one, and only the top type above the top one. -/
theorem Inserted.sameOrder (ordered : lattice.Ordered)
    (inserted : lattice.Inserted later type [top] [bottom]) : lattice.SameOrder later := by
  intro low lower high upper
  rw [Bool.eq_iff_iff, inserted.old low lower high upper]
  apply or_iff_left_of_imp
  simp only [List.mem_singleton, exists_eq_left, isSubtype_iff ordered.closed]
  rintro ⟨down, -⟩
  rw [ordered.antisymm _ _ down (ordered.bottom_below low (mem_types.mp lower))]
  exact ordered.bottom_below high (mem_types.mp upper)

/-! ## One more link -/

/-- A link adds no type. -/
theorem size_addSupertype (linked : lattice.addSupertype child parent = .ok later) :
    later.size = lattice.size := by
  unfold Lattice.addSupertype at linked
  split at linked
  · cases linked
  split at linked
  · cases linked
    rfl
  · cases linked
    exact size_link

/-- A link that is added leads to its lower end whatever is below that, and from its upper end to
whatever is above that. -/
theorem isSubtype_addSupertype (ordered : lattice.Ordered) (below : child ∈ lattice.types)
    (above : parent ∈ lattice.types) (linked : lattice.addSupertype child parent = .ok later) :
    later.isSubtype low high = true ↔ lattice.isSubtype low high = true ∨
      lattice.isSubtype low child = true ∧ lattice.isSubtype parent high = true := by
  have still : later.Ordered :=
    ordered.addSupertype (mem_types.mp below) (mem_types.mp above) linked
  simp only [isSubtype_iff still.closed, isSubtype_iff ordered.closed]
  unfold Lattice.addSupertype at linked
  split at linked
  · cases linked
  split at linked
  · -- The link is already there.
    next listed =>
    cases linked
    exact (or_iff_left_of_imp fun ⟨up, down⟩ => (up.tail listed).trans down).symm
  · cases linked
    exact below_link (mem_types.mp below)

/-! ## Any lattice that edits lead to -/

/-- In a lattice to which edits have led, the next edit changes the order exactly as follows.  A
type that is created comes between its children and its parents, for which the extremes stand in
where none are given; a type between the extremes, created on demand or given by its definition,
thus changes nothing among the others; and a link leads from what is below its lower end to what is
above its upper end. -/
theorem order_after_edit (reached : lattice.Reached) :
    (∀ (label : String) (parents children : List (TypeRef kind)) (type : TypeRef kind)
        (later : Lattice kind), (∀ mentioned ∈ parents ++ children, mentioned ∈ lattice.types) →
        lattice.create label parents children = .ok (type, later) →
        lattice.Inserted later type (if parents.isEmpty then [top] else parents)
          (if children.isEmpty then [bottom] else children)) ∧
      (∀ (child parent : TypeRef kind) (later : Lattice kind), child ∈ lattice.types →
        parent ∈ lattice.types → lattice.addSupertype child parent = .ok later →
        later.types = lattice.types ∧ ∀ low ∈ lattice.types, ∀ high ∈ lattice.types,
          (later.isSubtype low high = true ↔ lattice.isSubtype low high = true ∨
            lattice.isSubtype low child = true ∧ lattice.isSubtype parent high = true)) ∧
      (∀ (label : String) (type : TypeRef kind) (later : Lattice kind),
        lattice.createOnDemand label = .ok (type, later) → lattice.SameOrder later) ∧
      ∀ definition : Definition, lattice.SameOrder (lattice.createDefined definition).2 := by
  have ordered := reached.ordered
  refine ⟨?_, ?_, ?_, ?_⟩
  · intro label parents children type later known created
    exact .create ordered known created
  · intro child parent later below above linked
    refine ⟨by rw [types, size_addSupertype linked, types], fun low _ high _ => ?_⟩
    exact isSubtype_addSupertype ordered below above linked
  -- A type that is made on demand stands between the extremes, where it orders no others.
  · intro label type later created
    have known : ∀ mentioned ∈ [top] ++ [bottom], mentioned ∈ lattice.types := by
      simpa [mem_types] using ⟨ordered.top_lt, ordered.bottom_lt⟩
    exact (Inserted.create ordered known created).sameOrder ordered
  · intro definition
    exact (Inserted.createDefined ordered definition).sameOrder ordered

/-- A mammal is put between a cat and an animal, which were not linked: from then on Tom, who is
below the cat, is below the animal, and after one more link below the being that is above it. -/
theorem order_after_edit_joined :
    let being : ConceptType := ⟨2⟩
    let animal : ConceptType := ⟨3⟩
    let cat : ConceptType := ⟨4⟩
    let tom : ConceptType := ⟨5⟩
    let mammal : ConceptType := ⟨6⟩
    let lattice := [Call.create "Being" [] [], .create "Animal" [] [], .create "Cat" [] [],
      .create "Tom" [cat] []].foldl Call.after (withExtremes "Universal" "Absurd")
    let joined := Call.after lattice (.create "Mammal" [animal] [cat])
    let linked := Call.after joined (.addSupertype animal being)
    lattice.Reached ∧ joined.Reached ∧
      lattice.create "Mammal" [animal] [cat] = .ok (mammal, joined) ∧
      joined.addSupertype animal being = .ok linked ∧
      lattice.isSubtype tom animal = false ∧ joined.isSubtype tom animal = true ∧
      joined.isSubtype tom mammal = true ∧ joined.isSubtype mammal being = false ∧
      linked.isSubtype tom being = true := by
  intro being animal cat tom mammal lattice joined linked
  have reached : lattice.Reached :=
    .call (.create "Tom" [cat] []) (by decide +kernel) <|
      .call (.create "Cat" [] []) (by decide +kernel) <|
        .call (.create "Animal" [] []) (by decide +kernel) <|
          .call (.create "Being" [] []) (by decide +kernel) <| .start "Universal" "Absurd"
  have further : joined.Reached :=
    .call (.create "Mammal" [animal] [cat]) (by decide +kernel) reached
  have created : lattice.create "Mammal" [animal] [cat] = .ok (mammal, joined) := by
    decide +kernel
  have added : joined.addSupertype animal being = .ok linked := by decide +kernel
  have inserted := (order_after_edit reached).1 _ _ _ _ _ (by decide +kernel) created
  have follows := ((order_after_edit further).2.1 _ _ _ (by decide +kernel) (by decide +kernel)
    added).2
  have below : lattice.isSubtype tom cat = true := by decide +kernel
  have joins : joined.isSubtype tom animal = true :=
    (inserted.old tom (by decide +kernel) animal (by decide +kernel)).mpr <|
      .inr ⟨⟨cat, List.mem_singleton_self _, below⟩,
        ⟨animal, List.mem_singleton_self _, by decide +kernel⟩⟩
  refine ⟨reached, further, created, added, by decide +kernel, joins, ?_, ?_, ?_⟩
  · exact (inserted.lower tom (by decide +kernel)).mpr ⟨cat, List.mem_singleton_self _, below⟩
  · rw [← Bool.not_eq_true, inserted.upper being (by decide +kernel)]
    simp [show lattice.isSubtype animal being = false by decide +kernel]
  · exact (follows tom (by decide +kernel) being (by decide +kernel)).mpr <|
      .inr ⟨joins, by decide +kernel⟩

end ConceptualGraph.Lattice
