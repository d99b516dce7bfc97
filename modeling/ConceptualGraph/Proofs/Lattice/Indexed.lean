/-
Module: ConceptualGraph.Proofs.Lattice.Indexed
Purpose: A lattice that is edited in place together with an index of its labels: whatever calls
  edit it, the index says which type has a label, and a link is listed equally often at both of
  its ends.
Main exports: Lattice.Indexed, Lattice.Indexed.perform, Lattice.Indexed.Reached, Lattice.Kept,
  Lattice.Balanced, Lattice.Indexed.bookkeeping_of_reached, Lattice.Indexed.label_of_both_extremes
-/
import ConceptualGraph.Proofs.Lattice.Declared
import Mathlib.Logic.Function.Basic

namespace ConceptualGraph.Lattice

variable {kind : TypeKind} {lattice later : Lattice kind} {type other parent child : TypeRef kind}
  {label word : String}

/-! ## Labels and links -/

/-- No two types have the same label, but that the extremes may: nothing compares theirs. -/
def Distinct (lattice : Lattice kind) : Prop :=
  ∀ type other label, lattice.label? type = some label → lattice.label? other = some label →
    type.index < other.index → type = top ∧ other = bottom

/-- A type lists another as a parent as often as it is listed by it as a child. -/
def Balanced (lattice : Lattice kind) : Prop :=
  ∀ parent child, (lattice.node child).parents.count parent =
    (lattice.node parent).children.count child

/-- A label names the type that has it; one that both extremes have names the lower. -/
theorem Distinct.find?_eq_some_iff (distinct : lattice.Distinct) :
    lattice.find? label = some type ↔
      lattice.label? type = some label ∧ (type = top → lattice.label? bottom ≠ some label) := by
  rw [Lattice.find?_eq_some_iff]
  refine and_congr_right fun named => ⟨fun last extreme => ?_, fun other later after same => ?_⟩
  · subst extreme
    exact last bottom Nat.zero_lt_one
  · obtain ⟨highest, rfl⟩ := distinct type later label named same after
    exact other highest same

/-- Where the extremes are told apart by their labels, all types are. -/
theorem Distinct.type_eq (distinct : lattice.Distinct)
    (apart : lattice.label? top ≠ lattice.label? bottom)
    (named : lattice.label? type = some label) (same : lattice.label? other = some label) :
    type = other := by
  have never {low high : TypeRef kind} (first : lattice.label? low = some label)
      (second : lattice.label? high = some label) : ¬ low.index < high.index := by
    intro before
    obtain ⟨rfl, rfl⟩ := distinct low high label first second before
    exact apart (first.trans second.symm)
  obtain ⟨place⟩ := type
  obtain ⟨spot⟩ := other
  exact congrArg TypeRef.mk
    (Nat.le_antisymm (Nat.le_of_not_lt (never same named)) (Nat.le_of_not_lt (never named same)))

theorem label?_link : (lattice.link parent child).label? other = lattice.label? other :=
  node_link_of_keeps TypeNode.label (fun _ _ => rfl) fun _ _ => rfl

/-! ## What every call keeps -/

/-- A property of lattices that is kept where a type is added, a link is added, and where data of a
type other than its label and links are changed. -/
structure Kept (property : Lattice kind → Prop) : Prop where
  push : ∀ {lattice : Lattice kind} {label : Option String},
    (∀ word, label = some word → lattice.find? word = none) →
    property lattice → property (lattice.push label).2
  link : ∀ {lattice : Lattice kind} {parent child : TypeRef kind},
    parent.index < lattice.size → child.index < lattice.size →
    property lattice → property (lattice.link parent child)
  modify : ∀ {lattice : Lattice kind} {type : TypeRef kind}
    {change : TypeNode kind → TypeNode kind}, (∀ data, (change data).label = data.label) →
    (∀ data, (change data).parents = data.parents) →
    (∀ data, (change data).children = data.children) →
    property lattice → property (lattice.modify type change)

namespace Kept

variable {property : Lattice kind → Prop} (kept : Kept property)
  {parents children : List (TypeRef kind)}

include kept

/-- A type is linked to its parents one after the other. -/
theorem foldl_parents (inside : type.index < lattice.size)
    (above : ∀ parent ∈ parents, parent.index < lattice.size) (holds : property lattice) :
    property (parents.foldl (fun lattice parent => lattice.link parent type) lattice) := by
  induction parents generalizing lattice with
  | nil => exact holds
  | cons parent parents ih =>
      obtain ⟨here, others⟩ := List.forall_mem_cons.mp above
      exact ih (by simpa using inside) (by simpa using others) (kept.link here inside holds)

/-- A type is linked to its children one after the other. -/
theorem foldl_children (inside : type.index < lattice.size)
    (below : ∀ child ∈ children, child.index < lattice.size) (holds : property lattice) :
    property (children.foldl (fun lattice child => lattice.link type child) lattice) := by
  induction children generalizing lattice with
  | nil => exact holds
  | cons child children ih =>
      obtain ⟨here, others⟩ := List.forall_mem_cons.mp below
      exact ih (by simpa using inside) (by simpa using others) (kept.link inside here holds)

/-- A new type is added and linked, one link after the other. -/
theorem insert {new : Option String} (missing : ∀ word, new = some word → lattice.find? word = none)
    (above : ∀ parent ∈ parents, parent.index < lattice.size)
    (below : ∀ child ∈ children, child.index < lattice.size) (holds : property lattice) :
    property (lattice.insert new parents children) := by
  refine kept.foldl_children (by simp) (fun child member => ?_) <|
    kept.foldl_parents (by simp) (fun parent member => ?_) (kept.push missing holds)
  · simpa using Nat.lt_succ_of_lt (below child member)
  · simpa using Nat.lt_succ_of_lt (above parent member)

/-- A type that is created is added and linked, each of which keeps the property. -/
theorem create (ordered : lattice.Ordered)
    (known : ∀ type ∈ parents ++ children, type.index < lattice.size)
    (created : lattice.create label parents children = .ok (type, later))
    (holds : property lattice) : property later := by
  have missing : ∀ word, some label = some word → lattice.find? word = none := by
    rintro _ ⟨⟩
    by_contra found
    rw [Lattice.create, if_pos (Option.isSome_iff_ne_none.mpr found)] at created
    cases created
  obtain ⟨-, rfl⟩ := create_ok created
  obtain ⟨above, below⟩ := List.forall_mem_append.mp known
  refine kept.insert missing ?_ ?_ holds
  · split
    · simpa using ordered.top_lt
    · exact above
  · split
    · simpa using ordered.bottom_lt
    · exact below

/-- A call that is carried out keeps such a property, given that it refers to types of the
lattice. -/
theorem edit (ordered : lattice.Ordered) {call : Call kind}
    (known : ∀ type ∈ call.mentioned, type.index < lattice.size) {added : Option (TypeRef kind)}
    (edited : call.edit lattice = .ok (added, later)) (holds : property lattice) :
    property later := by
  have created {label : String} {parents children : List (TypeRef kind)}
      (known : ∀ type ∈ parents ++ children, type.index < lattice.size)
      (edited : (lattice.create label parents children).map
        (fun created => (some created.1, created.2)) = .ok (added, later)) : property later := by
    cases result : lattice.create label parents children with
    | error error =>
        rw [result] at edited
        cases edited
    | ok created =>
        rw [result] at edited
        cases edited
        exact kept.create ordered known result holds
  cases call with
  | create label parents children => exact created known edited
  | createOnDemand label =>
      exact created (by simpa using ⟨ordered.top_lt, ordered.bottom_lt⟩) edited
  | createDefined definition =>
      cases edited
      have inserted : property (lattice.insert none [top] [bottom]) :=
        kept.insert nofun (by simpa using ordered.top_lt) (by simpa using ordered.bottom_lt) holds
      exact kept.modify (fun _ => rfl) (fun _ => rfl) (fun _ => rfl) inserted
  | addSupertype child parent =>
      have below := known child (by simp [Call.mentioned])
      have above := known parent (by simp [Call.mentioned])
      simp only [Call.edit, Lattice.addSupertype] at edited
      split at edited
      · cases edited
      split at edited
      · cases edited
        exact holds
      · cases edited
        exact kept.link above below holds
  | setValence type valence =>
      cases edited
      exact kept.modify (fun _ => rfl) (fun _ => rfl) (fun _ => rfl) holds

/-- A call that is refused changes nothing, and one that is carried out keeps the property. -/
theorem after (ordered : lattice.Ordered) {call : Call kind}
    (known : ∀ type ∈ call.mentioned, type.index < lattice.size) (holds : property lattice) :
    property (call.after lattice) := by
  unfold Call.after
  rw [Call.perform_eq]
  cases result : call.edit lattice with
  | error error => exact holds
  | ok edited => exact kept.edit ordered known result holds

end Kept

/-- A label that is registered is new, so that only the extremes can have one in common. -/
theorem kept_distinct : Kept fun lattice : Lattice kind => lattice.Distinct where
  push {lattice label} missing distinct := by
    intro type other word first second before
    rw [label?_push] at first second
    split at second
    · next there =>
      -- The label of the new type is one that no other type has.
      have notNew : type ≠ ⟨lattice.size⟩ := by
        rintro rfl
        exact Nat.ne_of_lt before (congrArg TypeRef.index there).symm
      rw [if_neg notNew] at first
      exact absurd first (find?_eq_none_iff.mp (missing word second) type)
    · split at first
      · next here =>
        subst here
        exact absurd (label?_of_lt second) (Nat.lt_asymm before)
      · exact distinct type other word first second before
  link _ _ distinct type other word first second := by
    rw [label?_link] at first second
    exact distinct type other word first second
  modify label _ _ distinct type other word first second := by
    rw [label?, node_modify_of_keeps TypeNode.label _ label] at first second
    exact distinct type other word first second

/-- Each link is put down once at both of its ends. -/
theorem kept_balanced : Kept fun lattice : Lattice kind => lattice.Balanced where
  push {lattice label} _ balanced parent child := by
    rw [node_push_eq, node_push_eq]
    -- No type lists the new one yet.
    have bare : lattice.node ⟨lattice.size⟩ = {} := node_eq_of_le (Nat.le_refl _)
    split <;> split
    · rfl
    · next here _ =>
      subst here
      rw [← balanced, bare]
    · next here =>
      subst here
      rw [balanced, bare]
    · exact balanced parent child
  link {lattice upper lower} above below balanced parent child := by
    rw [parents_link below, children_link above]
    have before := balanced parent child
    split <;> split
    · next low high =>
      subst low high
      simp [before]
    · next low apart => simp [before, Ne.symm apart]
    · next apart high => simp [before, Ne.symm apart]
    · exact before
  modify _ parents children balanced parent child := by
    rw [node_modify_of_keeps TypeNode.parents _ parents,
      node_modify_of_keeps TypeNode.children _ children]
    exact balanced parent child

/-- There are only the two extremes, whatever their labels. -/
theorem distinct_withExtremes (topLabel bottomLabel : String) :
    (withExtremes topLabel bottomLabel : Lattice kind).Distinct := by
  intro type other word first second before
  have inside : other.index < 2 := label?_of_lt second
  obtain ⟨place⟩ := type
  obtain ⟨spot⟩ := other
  obtain ⟨rfl, rfl⟩ : place = 0 ∧ spot = 1 := by
    simp only at before inside
    omega
  exact ⟨rfl, rfl⟩

/-- The two extremes list each other once. -/
theorem balanced_withExtremes (topLabel bottomLabel : String) :
    (withExtremes topLabel bottomLabel : Lattice kind).Balanced := by
  refine kept_balanced.link (by decide : 0 < 2) (by decide : 1 < 2) ?_
  rintro ⟨_ | _ | _⟩ ⟨_ | _ | _⟩ <;> rfl

/-! ## An index of labels

What names the types is kept apart from the lattice and filled where a type is added; nothing else
touches it. -/

/-- A lattice and an index of its labels. -/
structure Indexed (kind : TypeKind) where
  lattice : Lattice kind
  index : String → Option (TypeRef kind)

namespace Indexed

variable {indexed : Indexed kind}

/-- Steps on a lattice with its index. -/
abbrev Edit (kind : TypeKind) := EStateM HierarchyError (Indexed kind)

/-- A step that does not touch the index. -/
def onLattice {α : Type} (step : InPlace kind α) : Edit kind α := fun indexed =>
  match step indexed.lattice with
  | .ok value lattice => .ok value { indexed with lattice }
  | .error error lattice => .error error { indexed with lattice }

/-- Adds a type without links, and registers its label if it has one. -/
def push (label : Option String) : Edit kind (TypeRef kind) := fun indexed =>
  let (type, lattice) := indexed.lattice.push label
  let index := match label with
    | some label => Function.update indexed.index label (some type)
    | none => indexed.index
  .ok type { lattice, index }

/-- Adds a labelled type, whose label must not be registered, and links it. -/
def create (label : String) (parents children : List (TypeRef kind)) :
    Edit kind (TypeRef kind) := do
  if ((← get).index label).isSome then
    throw (.duplicateLabel label)
  let parents := if parents.isEmpty then [top] else parents
  let children := if children.isEmpty then [bottom] else children
  onLattice (parents.forM fun parent => children.forM fun child => InPlace.refuse parent child)
  let type ← push (some label)
  onLattice (parents.forM fun parent => InPlace.connect parent type)
  onLattice (children.forM fun child => InPlace.connect type child)
  return type

/-- Adds a type given by its definition, and links it. -/
def createDefined (definition : Definition) : Edit kind (TypeRef kind) := do
  let type ← push none
  onLattice (InPlace.connect top type)
  onLattice (InPlace.connect type bottom)
  onLattice (modifyThe (Lattice kind)
    (·.modify type fun node => { node with definition := some definition }))
  return type

/-- A call, with the type that it adds. -/
def perform : Call kind → Edit kind (Option (TypeRef kind))
  | .create label parents children => some <$> create label parents children
  | .createOnDemand label => some <$> create label [top] [bottom]
  | .createDefined definition => some <$> createDefined definition
  | .addSupertype child parent => do
      onLattice (InPlace.addSupertype child parent)
      return none
  | .setValence type valence => do
      onLattice (modifyThe (Lattice kind) (·.setValence type valence))
      return none

/-- The lattice and its index after a call, whether it has been refused or not. -/
def after (indexed : Indexed kind) (call : Call kind) : Indexed kind :=
  match perform call indexed with
  | .ok _ later | .error _ later => later

/-- Two types, the one above the other, with their labels registered one after the other. -/
def begin (topLabel bottomLabel : String) : Indexed kind where
  lattice := withExtremes topLabel bottomLabel
  index := Function.update (Function.update (fun _ => none) topLabel (some top)) bottomLabel
    (some bottom)

/-! ### What the index says -/

/-- A lattice with the index that says what its labels name. -/
def ofLattice (lattice : Lattice kind) : Indexed kind := ⟨lattice, lattice.find?⟩

/-- What steps come to that are an edit of the lattice. -/
def outcome {α : Type} (lattice : Lattice kind) :
    Except HierarchyError (α × Lattice kind) → EStateM.Result HierarchyError (Indexed kind) α
  | .ok (value, later) => .ok value (ofLattice later)
  | .error error => .error error (ofLattice lattice)

/-- A step on the lattice leaves the index alone. -/
theorem onLattice_of_ok {α : Type} {step : InPlace kind α} {value : α}
    (ran : step indexed.lattice = .ok value later) :
    onLattice step indexed = .ok value { indexed with lattice := later } := by
  rw [onLattice, ran]

/-- A step on the lattice that fails leaves the index alone. -/
theorem onLattice_of_error {α : Type} {step : InPlace kind α} {error : HierarchyError}
    (failed : step indexed.lattice = .error error later) :
    onLattice step indexed = .error error { indexed with lattice := later } := by
  rw [onLattice, failed]

/-- An edit that leaves the labels leaves what the index has to say. -/
theorem ofLattice_of_labels (same : ∀ other, later.label? other = lattice.label? other) :
    { ofLattice lattice with lattice := later } = ofLattice later :=
  congrArg (Indexed.mk later) (funext fun _ => (find?_congr same).symm)

/-- A label is registered for the type that gets it. -/
theorem find?_insert_eq (parents children : List (TypeRef kind)) :
    (lattice.insert (some label) parents children).find? =
      Function.update lattice.find? label (some ⟨lattice.size⟩) := by
  funext word
  rw [find?_insert, Function.update_apply]
  simp only [Option.some.injEq]

/-- The index answers whether a label is taken just as searching the types does, and is told of the
new one. -/
theorem create_eq (label : String) (parents children : List (TypeRef kind)) :
    create label parents children (ofLattice lattice) =
      outcome lattice (lattice.create label parents children) := by
  unfold Indexed.create Lattice.create
  rw [bind_of_ok (rfl : (get : Edit kind _) (ofLattice lattice) = .ok (ofLattice lattice) _)]
  change (if (lattice.find? label).isSome then _ else _ : Edit kind _) _ = _
  split
  · rfl
  generalize (if parents.isEmpty then [top] else parents) = parents
  generalize (if children.isEmpty then [bottom] else children) = children
  have tried := InPlace.forM_refuse_pairs lattice parents children
  dsimp only
  cases found : lattice.obstruction? parents children with
  | some pair =>
      rw [found] at tried
      exact bind_of_error (onLattice_of_error tried)
  | none =>
      rw [found] at tried
      refine (bind_of_ok (onLattice_of_ok tried)).trans ?_
      refine (bind_of_ok (rfl : push (some label) (ofLattice lattice) = _)).trans ?_
      refine (bind_of_ok (onLattice_of_ok (InPlace.forM_connect_parents _ _))).trans ?_
      refine (bind_of_ok (onLattice_of_ok (InPlace.forM_connect_children _ _))).trans ?_
      show EStateM.Result.ok _ (Indexed.mk (lattice.insert (some label) parents children)
        (Function.update lattice.find? label (some ⟨lattice.size⟩))) = _
      rw [← find?_insert_eq]
      rfl

/-- A defined type has no label and is not entered into the index. -/
theorem createDefined_eq (definition : Definition) :
    createDefined definition (ofLattice lattice) =
      outcome lattice (.ok (lattice.createDefined definition)) := by
  show EStateM.Result.ok _ (Indexed.mk (lattice.createDefined definition).2 lattice.find?) = _
  exact congrArg (fun index => EStateM.Result.ok _ (Indexed.mk _ index))
    (funext fun _ => (find?_createDefined definition).symm)

/-- A link does not touch the labels, so that the index stays what it was. -/
theorem addSupertype_eq (lattice : Lattice kind) (child parent : TypeRef kind) :
    onLattice (InPlace.addSupertype child parent) (ofLattice lattice) =
      outcome lattice ((lattice.addSupertype child parent).map ((), ·)) := by
  have linked := InPlace.addSupertype_eq lattice child parent
  cases result : lattice.addSupertype child parent with
  | error error =>
      rw [result] at linked
      exact onLattice_of_error linked
  | ok later =>
      rw [result] at linked
      have same (other : TypeRef kind) : later.label? other = lattice.label? other := by
        unfold Lattice.addSupertype at result
        split at result
        · cases result
        split at result
        · cases result
          rfl
        · cases result
          exact label?_link
      exact (onLattice_of_ok linked).trans
        (congrArg (EStateM.Result.ok ()) (ofLattice_of_labels same))

/-- With the index a call does what it does without, and the index still says what labels name. -/
theorem perform_eq (call : Call kind) :
    perform call (ofLattice lattice) = outcome lattice (call.edit lattice) := by
  have created (label : String) (parents children : List (TypeRef kind)) :
      (some <$> create label parents children : Edit kind _) (ofLattice lattice) =
        outcome lattice ((lattice.create label parents children).map
          fun (type, later) => (some type, later)) := by
    show EStateM.map some (create label parents children) (ofLattice lattice) = _
    rw [EStateM.map, create_eq]
    cases lattice.create label parents children <;> rfl
  cases call with
  | create label parents children => exact created label parents children
  | createOnDemand label => exact created label [top] [bottom]
  | createDefined definition =>
      show EStateM.map some (createDefined definition) (ofLattice lattice) = _
      rw [EStateM.map, createDefined_eq]
      rfl
  | addSupertype child parent =>
      have linked := addSupertype_eq lattice child parent
      show (onLattice (InPlace.addSupertype child parent) >>= fun _ => pure none : Edit kind _)
        (ofLattice lattice) = outcome lattice ((lattice.addSupertype child parent).map (none, ·))
      cases result : lattice.addSupertype child parent with
      | ok later =>
          rw [result] at linked
          exact bind_of_ok linked
      | error error =>
          rw [result] at linked
          exact bind_of_error linked
  | setValence type valence =>
      show EStateM.Result.ok _ (Indexed.mk (lattice.setValence type valence) lattice.find?) = _
      exact congrArg (EStateM.Result.ok _)
        (ofLattice_of_labels fun _ => node_modify_of_keeps TypeNode.label _ fun _ => rfl)

/-- A call on an indexed lattice is the call on the lattice, and the index follows. -/
theorem after_ofLattice (call : Call kind) :
    (ofLattice lattice).after call = ofLattice (call.after lattice) := by
  unfold Indexed.after Call.after
  rw [perform_eq, Call.perform_eq]
  cases call.edit lattice <;> rfl

/-- The labels of the extremes are registered one after the other, so that of one label the later
counts. -/
theorem begin_eq (topLabel bottomLabel : String) :
    (begin topLabel bottomLabel : Indexed kind) =
      ofLattice (withExtremes topLabel bottomLabel) := by
  let empty : Lattice kind := ⟨#[]⟩
  let unlinked := ((empty.push (some topLabel)).2.push (some bottomLabel)).2
  refine congrArg (Indexed.mk _) (funext fun word => ?_)
  have named : (withExtremes topLabel bottomLabel).find? word = unlinked.find? word :=
    find?_congr fun other => (label?_link : (unlinked.link top bottom).label? other = _)
  rw [named, find?_push, find?_push, Function.update_apply, Function.update_apply]
  simp only [Option.some.injEq]
  rfl

/-! ## Reached lattices -/

/-- A lattice with its index to which calls lead from two types with any labels, some of the calls
refused.  A call refers to types that are there. -/
inductive Reached : Indexed kind → Prop
  | start (topLabel bottomLabel : String) : Reached (begin topLabel bottomLabel)
  | call {indexed : Indexed kind} (call : Call kind)
      (known : ∀ type ∈ call.mentioned, type.index < indexed.lattice.size) :
      Reached indexed → Reached (indexed.after call)

/-- What is always true of a lattice with its index. -/
theorem Reached.exists_lattice (reached : indexed.Reached) :
    ∃ lattice : Lattice kind, indexed = ofLattice lattice ∧ lattice.Ordered ∧ lattice.Distinct ∧
      lattice.Balanced := by
  induction reached with
  | start topLabel bottomLabel =>
      exact ⟨_, begin_eq topLabel bottomLabel, .withExtremes topLabel bottomLabel,
        distinct_withExtremes topLabel bottomLabel, balanced_withExtremes topLabel bottomLabel⟩
  | call call known _ ih =>
      obtain ⟨lattice, rfl, ordered, distinct, balanced⟩ := ih
      exact ⟨_, after_ofLattice call, ordered.after known,
        kept_distinct.after ordered known distinct, kept_balanced.after ordered known balanced⟩

/-- The books of a lattice agree, whatever calls it has been edited by and whichever of them have
been refused.  Where the two extremes have different labels, a label is registered for a type
exactly if the type has it, so no label is had by two types.  Otherwise the label that both of them
have is registered for the lower one, and this is the only exception.  One type is listed among the
parents of another as often as this one among its children.  And a call that is refused leaves no
trace. -/
theorem bookkeeping_of_reached (reached : indexed.Reached) :
    (indexed.lattice.label? top ≠ indexed.lattice.label? bottom →
      (∀ label type, indexed.index label = some type ↔ indexed.lattice.label? type = some label) ∧
      ∀ type other label, indexed.lattice.label? type = some label →
        indexed.lattice.label? other = some label → type = other) ∧
      (∀ label type, indexed.index label = some type ↔
        indexed.lattice.label? type = some label ∧
          (type = top → indexed.lattice.label? bottom ≠ some label)) ∧
      (∀ label, indexed.lattice.find? label = indexed.index label) ∧
      (∀ parent child, (indexed.lattice.node child).parents.count parent =
        (indexed.lattice.node parent).children.count child) ∧
      ∀ (call : Call kind) (error : HierarchyError) (later : Indexed kind),
        perform call indexed = .error error later → later = indexed := by
  obtain ⟨lattice, rfl, -, distinct, balanced⟩ := reached.exists_lattice
  refine ⟨fun apart => ⟨fun label type => ?_, fun _ _ _ => distinct.type_eq apart⟩,
    fun _ _ => distinct.find?_eq_some_iff, fun _ => rfl, balanced,
    fun call error later refused => ?_⟩
  · refine distinct.find?_eq_some_iff.trans (and_iff_left_of_imp fun named highest lower => ?_)
    subst highest
    exact apart (named.trans lower.symm)
  · rw [perform_eq] at refused
    cases result : call.edit lattice with
    | ok edited =>
        rw [result] at refused
        cases refused
    | error cause =>
        rw [result] at refused
        cases refused
        rfl

/-- A type is put twice under the same parent and twice above the same child; then the same label
and a link that would close a cycle are refused. -/
theorem bookkeeping_of_reached_repeated :
    let animal : ConceptType := ⟨2⟩
    let cat : ConceptType := ⟨3⟩
    let first := (begin "Universal" "Absurd").after (.create "Animal" [] [])
    let second := first.after (.create "Cat" [animal, animal] [bottom, top, bottom])
    let third := second.after (.create "Cat" [animal, animal] [bottom, bottom])
    let fourth := third.after (.create "Cat" [] [])
    let indexed := fourth.after (.addSupertype animal cat)
    indexed.Reached ∧ indexed.lattice.label? top ≠ indexed.lattice.label? bottom ∧
      indexed.index "Cat" = some cat ∧ indexed.lattice.label? cat = some "Cat" ∧
      (indexed.lattice.node cat).parents.count animal = 2 ∧
      (indexed.lattice.node animal).children.count cat = 2 ∧ indexed.lattice.size = 4 := by
  intro animal cat first second third fourth indexed
  have reached : indexed.Reached :=
    .call (.addSupertype animal cat) (by decide +kernel) <|
      .call (.create "Cat" [] []) (by decide +kernel) <|
        .call (.create "Cat" [animal, animal] [bottom, bottom]) (by decide +kernel) <|
          .call (.create "Cat" [animal, animal] [bottom, top, bottom]) (by decide +kernel) <|
            .call (.create "Animal" [] []) (by decide +kernel) <| .start "Universal" "Absurd"
  obtain ⟨agrees, -, -, balanced, -⟩ := bookkeeping_of_reached reached
  have apart : indexed.lattice.label? top ≠ indexed.lattice.label? bottom := by decide +kernel
  have named : indexed.lattice.label? cat = some "Cat" := by decide +kernel
  have twice : (indexed.lattice.node cat).parents.count animal = 2 := by decide +kernel
  exact ⟨reached, apart, ((agrees apart).1 "Cat" cat).mpr named, named, twice,
    (balanced animal cat).symm.trans twice, by decide +kernel⟩

/-- Extremes that have one label between them: a type is added, and the label stays registered for
the lower of the two only. -/
theorem label_of_both_extremes :
    let indexed : Indexed .concept := (begin "Thing" "Thing").after (.create "Cat" [] [])
    indexed.Reached ∧ indexed.index "Thing" = some bottom ∧
      indexed.lattice.label? top = some "Thing" ∧
      ¬ ((∀ label type,
          indexed.index label = some type ↔ indexed.lattice.label? type = some label) ∧
        ∀ parent child, (indexed.lattice.node child).parents.count parent =
          (indexed.lattice.node parent).children.count child) ∧
      ¬ ∀ type other label, indexed.lattice.label? type = some label →
        indexed.lattice.label? other = some label → type = other := by
  intro indexed
  have lower : indexed.index "Thing" = some bottom := by decide +kernel
  have upper : indexed.lattice.label? top = some "Thing" := by decide +kernel
  have both : indexed.lattice.label? bottom = some "Thing" := by decide +kernel
  have apart : (top : ConceptType) ≠ bottom := nofun
  refine ⟨.call (.create "Cat" [] []) (by decide +kernel) (.start "Thing" "Thing"), lower, upper,
    fun ⟨agrees, _⟩ => ?_, fun unique => apart (unique top bottom "Thing" upper both)⟩
  exact apart (Option.some.inj (((agrees "Thing" top).mpr upper).symm.trans lower))

end Indexed

end ConceptualGraph.Lattice
