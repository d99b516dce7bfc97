/-
Module: ConceptualGraph.Proofs.Lattice.Calls
Purpose: A lattice that is edited in place, link by link, is at every time a partial order with a
  greatest and a least type, and a call that is refused has not begun to change it.
Main exports: Lattice.InPlace, Lattice.Call, Lattice.Call.perform, Lattice.Reached,
  Lattice.SubtypeOrder, Lattice.order_of_reached
-/
import ConceptualGraph.Proofs.Lattice.Links
import ConceptualGraph.Proofs.Step

namespace ConceptualGraph.Lattice

variable {kind : TypeKind} {lattice later : Lattice kind} {type child parent : TypeRef kind}
  {parents children : List (TypeRef kind)} {label : String}

/-! ## Editing in place

The edits of a lattice return a new one.  Here the same edits are steps on one lattice, which a
step that fails leaves as the steps before it have made it. -/

/-- Steps on a lattice. -/
abbrev InPlace (kind : TypeKind) := EStateM HierarchyError (Lattice kind)

namespace InPlace

/-- Puts a type directly under another. -/
def connect (parent child : TypeRef kind) : InPlace kind Unit :=
  modifyThe (Lattice kind) (·.link parent child)

/-- Fails if a new type between a parent and a child would close a cycle. -/
def refuse (parent child : TypeRef kind) : InPlace kind Unit := do
  let lattice ← get
  if lattice.isSubtype parent child then
    throw (.cycle (lattice.displayName parent) (lattice.displayName child))

/-- Adds a labelled type and links it, first under its parents, then above its children. -/
def create (label : String) (parents children : List (TypeRef kind)) :
    InPlace kind (TypeRef kind) := do
  if ((← get).find? label).isSome then
    throw (.duplicateLabel label)
  let parents := if parents.isEmpty then [top] else parents
  let children := if children.isEmpty then [bottom] else children
  parents.forM fun parent => children.forM fun child => refuse parent child
  let type ← modifyGet (·.push (some label))
  parents.forM fun parent => connect parent type
  children.forM fun child => connect type child
  return type

/-- Adds a type given by its definition, and links it. -/
def createDefined (definition : Definition) : InPlace kind (TypeRef kind) := do
  let type ← modifyGet (·.push none)
  connect top type
  connect type bottom
  modifyThe (Lattice kind) (·.modify type fun node => { node with definition := some definition })
  return type

/-- Links two types. -/
def addSupertype (child parent : TypeRef kind) : InPlace kind Unit := do
  let lattice ← get
  if child == parent || lattice.isSubtype parent child then
    throw (.cycle (lattice.displayName parent) (lattice.displayName child))
  if !(lattice.node child).parents.contains parent then
    connect parent child

/-- What steps come to that are an edit: its lattice, or the lattice before them if it fails. -/
def outcome {α : Type} (lattice : Lattice kind) :
    Except HierarchyError (α × Lattice kind) → EStateM.Result HierarchyError (Lattice kind) α
  | .ok (value, later) => .ok value later
  | .error error => .error error lattice

/-- Linking a type to its parents one by one is a fold over them. -/
theorem forM_connect_parents (parents : List (TypeRef kind)) (type : TypeRef kind) :
    (parents.forM fun parent => connect parent type) lattice =
      .ok () (parents.foldl (fun lattice parent => lattice.link parent type) lattice) := by
  induction parents generalizing lattice with
  | nil => rfl
  | cons parent parents ih => exact ih

/-- Linking a type to its children one by one is a fold over them. -/
theorem forM_connect_children (children : List (TypeRef kind)) (type : TypeRef kind) :
    (children.forM fun child => connect type child) lattice =
      .ok () (children.foldl (fun lattice child => lattice.link type child) lattice) := by
  induction children generalizing lattice with
  | nil => rfl
  | cons child children ih => exact ih

/-- A link is refused exactly if it would close a cycle. -/
theorem refuse_eq (lattice : Lattice kind) (parent child : TypeRef kind) :
    refuse parent child lattice = if lattice.isSubtype parent child then
      .error (.cycle (lattice.displayName parent) (lattice.displayName child)) lattice
    else .ok () lattice := by
  unfold refuse
  rw [bind_of_ok (rfl : (get : InPlace kind _) lattice = .ok lattice lattice)]
  split <;> rfl

/-- Going through the pairs one by one refuses the first that would close a cycle, as the search for
it says. -/
theorem forM_refuse (pairs : List (TypeRef kind × TypeRef kind)) :
    (pairs.forM fun pair => refuse pair.1 pair.2) lattice =
      match pairs.find? fun pair => lattice.isSubtype pair.1 pair.2 with
      | some (parent, child) =>
          .error (.cycle (lattice.displayName parent) (lattice.displayName child)) lattice
      | none => .ok () lattice := by
  induction pairs with
  | nil => rfl
  | cons pair pairs ih =>
      have here := refuse_eq lattice pair.1 pair.2
      rw [List.find?_cons]
      cases obstructs : lattice.isSubtype pair.1 pair.2 with
      | false =>
          rw [obstructs] at here
          exact (bind_of_ok here).trans ih
      | true =>
          rw [obstructs] at here
          exact bind_of_error here

/-- The pairs are tried in order, and the first that obstructs is reported. -/
theorem forM_refuse_pairs (lattice : Lattice kind) (parents children : List (TypeRef kind)) :
    (parents.forM fun parent => children.forM fun child => refuse parent child) lattice =
      match lattice.obstruction? parents children with
      | some (parent, child) =>
          .error (.cycle (lattice.displayName parent) (lattice.displayName child)) lattice
      | none => .ok () lattice := by
  have pairs : (parents.forM fun parent => children.forM fun child => refuse parent child) =
      (parents.flatMap fun parent => children.map (parent, ·)).forM fun pair =>
        refuse pair.1 pair.2 := by
    simp only [List.forM_eq_forM]
    induction parents with
    | nil => rfl
    | cons parent parents ih =>
        rw [List.forM_cons, List.flatMap_cons, List.forM_append, List.forM_map, ih]
  rw [pairs]
  exact forM_refuse _

/-- A type is added in place as it is added to a new lattice, and a refused one not in part. -/
theorem create_eq (label : String) (parents children : List (TypeRef kind)) :
    InPlace.create label parents children lattice =
      outcome lattice (lattice.create label parents children) := by
  unfold InPlace.create Lattice.create
  rw [bind_of_ok (rfl : (get : InPlace kind _) lattice = .ok lattice lattice)]
  split
  · rfl
  generalize (if parents.isEmpty then [top] else parents) = parents
  generalize (if children.isEmpty then [bottom] else children) = children
  have tried := forM_refuse_pairs lattice parents children
  dsimp only
  cases found : lattice.obstruction? parents children with
  | some pair =>
      rw [found] at tried
      exact bind_of_error tried
  | none =>
      rw [found] at tried
      refine (bind_of_ok tried).trans ?_
      refine (bind_of_ok
        (rfl : (modifyGet (·.push (some label)) : InPlace kind _) lattice = _)).trans ?_
      exact (bind_of_ok (forM_connect_parents _ _)).trans (bind_of_ok (forM_connect_children _ _))

/-- A link is added in place as it is added to a new lattice. -/
theorem addSupertype_eq (lattice : Lattice kind) (child parent : TypeRef kind) :
    InPlace.addSupertype child parent lattice =
      outcome lattice ((lattice.addSupertype child parent).map ((), ·)) := by
  unfold InPlace.addSupertype Lattice.addSupertype
  rw [bind_of_ok (rfl : (get : InPlace kind _) lattice = .ok lattice lattice)]
  split
  · rfl
  simp only [List.contains_eq_mem]
  by_cases listed : parent ∈ (lattice.node child).parents
  · rw [decide_eq_true listed, if_pos listed]
    rfl
  · rw [decide_eq_false listed, if_neg listed]
    rfl

end InPlace

/-! ## Calls -/

/-- A call that edits a lattice. -/
inductive Call (kind : TypeKind) where
  | create (label : String) (parents children : List (TypeRef kind))
  | createOnDemand (label : String)
  | createDefined (definition : Definition)
  | addSupertype (child parent : TypeRef kind)
  | setValence (type : TypeRef kind) (valence : Nat)

namespace Call

/-- The types that a call refers to. -/
def mentioned : Call kind → List (TypeRef kind)
  | .create _ parents children => parents ++ children
  | .createOnDemand _ => []
  | .createDefined _ => []
  | .addSupertype child parent => [child, parent]
  | .setValence type _ => [type]

/-- A call on a lattice that is edited in place, with the type that it adds. -/
def perform : Call kind → InPlace kind (Option (TypeRef kind))
  | .create label parents children => some <$> InPlace.create label parents children
  | .createOnDemand label => some <$> InPlace.create label [top] [bottom]
  | .createDefined definition => some <$> InPlace.createDefined definition
  | .addSupertype child parent => do
      InPlace.addSupertype child parent
      return none
  | .setValence type valence => do
      modifyThe (Lattice kind) (·.setValence type valence)
      return none

/-- A call as an edit that returns a new lattice. -/
def edit (lattice : Lattice kind) :
    Call kind → Except HierarchyError (Option (TypeRef kind) × Lattice kind)
  | .create label parents children =>
      (lattice.create label parents children).map fun (type, later) => (some type, later)
  | .createOnDemand label =>
      (lattice.createOnDemand label).map fun (type, later) => (some type, later)
  | .createDefined definition =>
      let (type, later) := lattice.createDefined definition
      .ok (some type, later)
  | .addSupertype child parent => (lattice.addSupertype child parent).map (none, ·)
  | .setValence type valence => .ok (none, lattice.setValence type valence)

/-- The lattice after a call, whether it has been refused or not. -/
def after (lattice : Lattice kind) (call : Call kind) : Lattice kind :=
  match call.perform lattice with
  | .ok _ later | .error _ later => later

/-- In place a call does what the edit says, and leaves the lattice if the edit fails. -/
theorem perform_eq (call : Call kind) :
    call.perform lattice = InPlace.outcome lattice (call.edit lattice) := by
  have created (label : String) (parents children : List (TypeRef kind)) :
      (some <$> InPlace.create label parents children : InPlace kind _) lattice =
        InPlace.outcome lattice ((lattice.create label parents children).map
          fun (type, later) => (some type, later)) := by
    show EStateM.map some (InPlace.create label parents children) lattice = _
    rw [EStateM.map, InPlace.create_eq]
    cases lattice.create label parents children <;> rfl
  cases call with
  | create label parents children => exact created label parents children
  | createOnDemand label => exact created label [top] [bottom]
  | createDefined definition => rfl
  | addSupertype child parent =>
      have linked := InPlace.addSupertype_eq lattice child parent
      show (InPlace.addSupertype child parent >>= fun _ => pure none : InPlace kind _) lattice =
        InPlace.outcome lattice ((lattice.addSupertype child parent).map (none, ·))
      cases result : lattice.addSupertype child parent with
      | ok later =>
          rw [result] at linked
          exact bind_of_ok linked
      | error error =>
          rw [result] at linked
          exact bind_of_error linked
  | setValence type valence => rfl

/-- A call that is refused leaves the lattice. -/
theorem eq_of_refused {call : Call kind} {error : HierarchyError}
    (refused : call.perform lattice = .error error later) : later = lattice := by
  rw [perform_eq] at refused
  cases result : call.edit lattice with
  | ok edited =>
      rw [result] at refused
      cases refused
  | error cause =>
      rw [result] at refused
      cases refused
      rfl

end Call

/-! ## Calls keep the order -/

/-- A new type may stand between parents and children exactly where none of the parents is below a
child. -/
theorem obstruction?_eq_none (closed : lattice.Closed) :
    lattice.obstruction? parents children = none ↔
      ∀ parent ∈ parents, ∀ child ∈ children, ¬ lattice.Below parent child := by
  simp only [obstruction?, List.find?_eq_none, List.mem_flatMap, List.mem_map, isSubtype_iff closed]
  constructor
  · exact fun unobstructed parent above child below =>
      unobstructed (parent, child) ⟨parent, above, child, below, rfl⟩
  · rintro apart _ ⟨parent, above, child, below, rfl⟩
    exact apart parent above child below

/-- A type that is added with a label is a new type between others. -/
theorem create_ok (created : lattice.create label parents children = .ok (type, later)) :
    let parents := if parents.isEmpty then [top] else parents
    let children := if children.isEmpty then [bottom] else children
    lattice.obstruction? parents children = none ∧
      later = lattice.insert (some label) parents children := by
  unfold Lattice.create at created
  split at created
  · cases created
  dsimp only at created ⊢
  split at created
  · cases created
  · next free =>
    cases created
    exact ⟨free, rfl⟩

namespace Ordered

variable (ordered : lattice.Ordered)

include ordered

/-- A type that is created stands between its parents and its children, and closes no cycle. -/
theorem create (known : ∀ type ∈ parents ++ children, type.index < lattice.size)
    (created : lattice.create label parents children = .ok (type, later)) : later.Ordered := by
  obtain ⟨free, rfl⟩ := create_ok created
  obtain ⟨above, below⟩ := List.forall_mem_append.mp known
  refine ordered.insert ?_ ?_ ?_ ?_ ((obstruction?_eq_none ordered.closed).mp free)
  · split
    · simpa using ordered.top_lt
    · exact above
  · split
    · simpa using ordered.bottom_lt
    · exact below
  · split <;> simp_all
  · split <;> simp_all

/-- Nothing is checked where a type is added by its definition, as nothing can be wrong. -/
theorem createDefined (definition : Definition) : (lattice.createDefined definition).2.Ordered := by
  have inserted : (lattice.insert none [top] [bottom]).Ordered :=
    ordered.insert (by simpa using ordered.top_lt) (by simpa using ordered.bottom_lt)
      (List.cons_ne_nil _ _) (List.cons_ne_nil _ _)
      (by simpa using ordered.not_top_below_bottom)
  exact inserted.modify fun _ => rfl

/-- A link that is accepted closes no cycle. -/
theorem addSupertype (below : child.index < lattice.size) (above : parent.index < lattice.size)
    (linked : lattice.addSupertype child parent = .ok later) : later.Ordered := by
  unfold Lattice.addSupertype at linked
  split at linked
  · cases linked
  next passed =>
  split at linked
  · cases linked
    exact ordered
  cases linked
  refine ordered.link above below fun path => passed ?_
  rw [(isSubtype_iff ordered.closed).mpr path, Bool.or_true]

/-- A call that is carried out keeps the order, given that it refers to types of the lattice. -/
theorem edit {call : Call kind} (known : ∀ type ∈ call.mentioned, type.index < lattice.size)
    {added : Option (TypeRef kind)} (edited : call.edit lattice = .ok (added, later)) :
    later.Ordered := by
  have created {label : String} {parents children : List (TypeRef kind)}
      (known : ∀ type ∈ parents ++ children, type.index < lattice.size)
      (edited : (lattice.create label parents children).map
        (fun (type, later) => (some type, later)) = .ok (added, later)) : later.Ordered := by
    cases result : lattice.create label parents children with
    | error error =>
        rw [result] at edited
        cases edited
    | ok created =>
        rw [result] at edited
        cases edited
        exact ordered.create known result
  cases call with
  | create label parents children => exact created known edited
  | createOnDemand label =>
      exact created (by simpa using ⟨ordered.top_lt, ordered.bottom_lt⟩) edited
  | createDefined definition =>
      cases edited
      exact ordered.createDefined definition
  | addSupertype child parent =>
      have below := known child (by simp [Call.mentioned])
      have above := known parent (by simp [Call.mentioned])
      change (lattice.addSupertype child parent).map (none, ·) = .ok (added, later) at edited
      cases result : lattice.addSupertype child parent with
      | error error =>
          rw [result] at edited
          cases edited
      | ok linked =>
          rw [result] at edited
          cases edited
          exact ordered.addSupertype below above result
  | setValence type valence =>
      cases edited
      exact ordered.modify fun _ => rfl

/-- A call to types that are known keeps the lattice ordered. -/
theorem after {call : Call kind} (known : ∀ type ∈ call.mentioned, type.index < lattice.size) :
    (call.after lattice).Ordered := by
  unfold Call.after
  rw [Call.perform_eq]
  cases result : call.edit lattice with
  | error error => exact ordered
  | ok edited => exact ordered.edit known result

end Ordered

/-! ## Lattices that calls lead to -/

/-- A lattice to which calls lead from one of two types, some of them refused.  A call refers to
types that are there. -/
inductive Reached : Lattice kind → Prop
  | start (topLabel bottomLabel : String) : Reached (withExtremes topLabel bottomLabel)
  | call {lattice : Lattice kind} (call : Call kind)
      (known : ∀ type ∈ call.mentioned, type.index < lattice.size) :
      Reached lattice → Reached (call.after lattice)

/-- Every lattice that can be reached is ordered. -/
theorem Reached.ordered (reached : lattice.Reached) : lattice.Ordered := by
  induction reached with
  | start topLabel bottomLabel => exact .withExtremes topLabel bottomLabel
  | call call known _ ih => exact ih.after known

/-- The subtypes that are found make a partial order, in which all types are below the top one
and above the bottom one. -/
structure SubtypeOrder (lattice : Lattice kind) : Prop where
  refl : ∀ type, lattice.isSubtype type type = true
  trans : ∀ low middle high, lattice.isSubtype low middle = true →
    lattice.isSubtype middle high = true → lattice.isSubtype low high = true
  antisymm : ∀ type other, lattice.isSubtype type other = true →
    lattice.isSubtype other type = true → type = other
  top : ∀ type ∈ lattice.types, lattice.isSubtype type top = true
  bottom : ∀ type ∈ lattice.types, lattice.isSubtype bottom type = true

/-- Reaching upwards is an order of the types, with a greatest and a least. -/
theorem Ordered.subtypeOrder (ordered : lattice.Ordered) : lattice.SubtypeOrder where
  refl type := (isSubtype_iff ordered.closed).mpr .refl
  trans low middle high up further := by
    rw [isSubtype_iff ordered.closed] at up further ⊢
    exact up.trans further
  antisymm type other up down := by
    rw [isSubtype_iff ordered.closed] at up down
    exact ordered.antisymm type other up down
  top type inside :=
    (isSubtype_iff ordered.closed).mpr (ordered.below_top type (mem_types.mp inside))
  bottom type inside :=
    (isSubtype_iff ordered.closed).mpr (ordered.bottom_below type (mem_types.mp inside))

/-- Whatever calls a lattice is edited by, and whichever of them are refused, its types are
ordered; and the next call that is refused leaves it as it is. -/
theorem order_of_reached (reached : lattice.Reached) : lattice.SubtypeOrder ∧
    ∀ (call : Call kind) (error : HierarchyError) (later : Lattice kind),
      call.perform lattice = .error error later → later = lattice :=
  ⟨reached.ordered.subtypeOrder, fun _ _ _ refused => Call.eq_of_refused refused⟩

/-- A type that should come below the bottom one has been refused; a link from a type up to one
below it is refused next. -/
theorem order_of_reached_cycles_refused :
    let animal : ConceptType := ⟨2⟩
    let cat : ConceptType := ⟨3⟩
    let first := Call.after (withExtremes "Universal" "Absurd") (.create "Animal" [] [])
    let second := Call.after first (.create "Cat" [animal] [])
    let lattice := Call.after second (.create "Chimera" [bottom] [])
    lattice.Reached ∧ lattice.isSubtype cat animal = true ∧
      lattice.isSubtype animal cat = false ∧ lattice.isSubtype bottom animal = true ∧
      (Call.addSupertype animal cat).edit lattice = .error (.cycle "Cat" "Animal") ∧
      ∀ error later, (Call.addSupertype animal cat).perform lattice = .error error later →
        later = lattice := by
  intro animal cat first second lattice
  have reached : lattice.Reached :=
    .call (.create "Chimera" [bottom] []) (by decide +kernel) <|
      .call (.create "Cat" [animal] []) (by decide +kernel) <|
        .call (.create "Animal" [] []) (by decide +kernel) <| .start "Universal" "Absurd"
  obtain ⟨order, unchanged⟩ := order_of_reached reached
  have below : lattice.isSubtype cat animal = true := by decide +kernel
  refine ⟨reached, below, ?_, order.bottom animal (by decide +kernel), by decide +kernel,
    unchanged _⟩
  by_contra above
  exact absurd (order.antisymm animal cat (by simpa using above) below) (by decide)

end ConceptualGraph.Lattice
