/-
Module: ConceptualGraph.Proofs.Lattice.Search
Purpose: The search for a supertype as a loop over a queue and the types it has seen: whatever the
  parent links are, it comes to an end, and says whether they lead from the one type to the other.
Main exports: Lattice.Search, Lattice.Search.next, Lattice.Search.work, Lattice.Search.Right,
  Lattice.isSubtype_of_search
-/
import ConceptualGraph.Proofs.Lattice.Subtype
import Mathlib.Data.List.Nodup
import Mathlib.Logic.Function.Iterate

namespace ConceptualGraph.Lattice

variable {kind : TypeKind} {lattice : Lattice kind} {type parent start goal : TypeRef kind}

/-! ## The loop

The parents of a type are looked at one by one.  One that is the goal ends the search; one that has
not been seen is marked and put into the queue.  The type from which the search starts is queued,
but not marked. -/

/-- A search on its way, or its answer. -/
inductive Search (kind : TypeKind) where
  /-- What is left of the parents of the type last taken from the queue, the types that have been
  marked, and the queue. -/
  | running (pending seen queue : List (TypeRef kind))
  | ended (answer : Bool)
  deriving DecidableEq

namespace Search

/-- A search before its first step. -/
def begin (start goal : TypeRef kind) : Search kind :=
  if start = goal then .ended true else .running [] [] [start]

/-- One step: the next parent is looked at, or the next type taken from the queue. -/
def next (lattice : Lattice kind) (goal : TypeRef kind) : Search kind → Search kind
  | .running (parent :: pending) seen queue =>
      if parent = goal then .ended true
      else if seen.contains parent then .running pending seen queue
      else .running pending (parent :: seen) (queue ++ [parent])
  | .running [] seen (type :: queue) => .running (lattice.node type).parents seen queue
  | .running [] _ [] => .ended false
  | .ended answer => .ended answer

/-! ## Termination -/

/-- The steps that types take when they are in the queue: one to take them from it, and one for
each of their parents. -/
def cost (lattice : Lattice kind) : List (TypeRef kind) → Nat
  | [] => 0
  | type :: types => (lattice.node type).parents.length + 1 + cost lattice types

/-- The types that have not been marked. -/
def unseen (lattice : Lattice kind) (seen : List (TypeRef kind)) : List (TypeRef kind) :=
  lattice.types.filter (!seen.contains ·)

/-- The steps that are left at most: for the parents that are pending, for the types in the queue
and those that may still enter it, and one to find the queue empty. -/
def work (lattice : Lattice kind) : Search kind → Nat
  | .running pending seen queue =>
      pending.length + cost lattice queue + cost lattice (unseen lattice seen) + 1
  | .ended _ => 0

/-- The cost of types is that of one part and of the other. -/
theorem cost_append (front back : List (TypeRef kind)) :
    cost lattice (front ++ back) = cost lattice front + cost lattice back := by
  induction front with
  | nil => exact (Nat.zero_add _).symm
  | cons type front ih =>
      rw [List.cons_append, cost, cost, ih]
      omega

theorem cost_eq_of_perm {types others : List (TypeRef kind)} (same : types.Perm others) :
    cost lattice types = cost lattice others := by
  induction same with
  | nil => rfl
  | cons type _ ih => rw [cost, cost, ih]
  | swap first second types => simp only [cost, Nat.add_left_comm]
  | trans _ _ first second => exact first.trans second

theorem nodup_types (lattice : Lattice kind) : lattice.types.Nodup :=
  List.Nodup.map (fun _ _ => TypeRef.mk.inj) List.nodup_range

/-- A type that is marked is no longer among the others, which stay. -/
theorem cost_unseen_cons {seen : List (TypeRef kind)} (inside : parent.index < lattice.size)
    (new : parent ∉ seen) :
    cost lattice [parent] + cost lattice (unseen lattice (parent :: seen)) =
      cost lattice (unseen lattice seen) := by
  have member : parent ∈ unseen lattice seen :=
    List.mem_filter.mpr ⟨mem_types.mpr inside, by simpa using new⟩
  have distinct : (unseen lattice seen).Nodup := (nodup_types lattice).filter _
  have fewer : unseen lattice (parent :: seen) = (unseen lattice seen).erase parent := by
    rw [distinct.erase_eq_filter, unseen, unseen, List.filter_filter]
    refine List.filter_congr fun other _ => ?_
    by_cases same : other = parent <;> simp [same]
  have parted : (unseen lattice seen).Perm (parent :: unseen lattice (parent :: seen)) :=
    fewer ▸ List.perm_cons_erase member
  rw [← cost_append, List.singleton_append]
  exact (cost_eq_of_perm parted).symm

/-- The parents that a search has yet to look at are types of the lattice. -/
def Inside (lattice : Lattice kind) : Search kind → Prop
  | .running pending _ _ => ∀ type ∈ pending, type.index < lattice.size
  | .ended _ => True

/-- A round of the search stays among the types of the lattice. -/
theorem Inside.next {search : Search kind} (closed : lattice.Closed)
    (inside : search.Inside lattice) : (search.next lattice goal).Inside lattice := by
  cases search with
  | ended answer => trivial
  | running pending seen queue =>
      cases pending with
      | nil =>
          cases queue with
          | nil => trivial
          | cons type queue => exact fun parent link => closed type parent link
      | cons parent pending =>
          have others : ∀ type ∈ pending, type.index < lattice.size :=
            fun type member => inside type (List.mem_cons_of_mem _ member)
          simp only [Search.next]
          split
          · trivial
          split <;> exact others

/-- Every step leaves less to do, until the search has ended. -/
theorem work_next {search : Search kind} (goal : TypeRef kind) (inside : search.Inside lattice)
    (going : search.work lattice ≠ 0) :
    (search.next lattice goal).work lattice < search.work lattice := by
  cases search with
  | ended answer => exact absurd rfl going
  | running pending seen queue =>
      cases pending with
      | nil =>
          cases queue with
          | nil => simp [Search.next, work]
          | cons type queue =>
              simp only [Search.next, work, cost, List.length_nil]
              omega
      | cons parent pending =>
          simp only [Search.next]
          split
          · simp [work]
          split
          · simp [work]
          · next new =>
            have marked := cost_unseen_cons (inside parent List.mem_cons_self)
              (mt List.contains_iff_mem.mpr new)
            simp only [work, cost_append, List.length_cons]
            omega

/-- A search without any work left has ended. -/
theorem eq_ended_of_work {search : Search kind} (done : search.work lattice = 0) :
    ∃ answer, search = .ended answer := by
  cases search with
  | running pending seen queue => simp [work] at done
  | ended answer => exact ⟨answer, rfl⟩

/-- A search ends, at the latest when it has done the work that it had to do. -/
theorem exists_iterate_eq_ended (closed : lattice.Closed) (goal : TypeRef kind)
    {search : Search kind} (inside : search.Inside lattice) {steps : Nat}
    (enough : search.work lattice ≤ steps) :
    ∃ answer, (next lattice goal)^[steps] search = .ended answer := by
  induction steps generalizing search with
  | zero => exact eq_ended_of_work (Nat.le_zero.mp enough)
  | succ steps ih =>
      by_cases done : search.work lattice = 0
      · obtain ⟨answer, rfl⟩ := eq_ended_of_work done
        exact ⟨answer, Function.iterate_fixed rfl _⟩
      · have less := work_next goal inside done
        exact ih (inside.next closed) (by omega)

/-! ## The answer -/

/-- How far a search has come that has not met its goal: what it has reached is above its start,
and a type that is reached is queued, or else its parents are marked or about to be looked at. -/
structure Underway (lattice : Lattice kind) (start goal : TypeRef kind)
    (pending seen queue : List (TypeRef kind)) : Prop where
  apart : start ≠ goal
  unmet : goal ∉ seen
  above : ∀ type ∈ pending ++ queue, lattice.Below start type
  followed : ∀ type ∈ start :: seen, type ∈ queue ∨
    ∀ parent, lattice.IsParent type parent → parent ∈ pending ++ seen

/-- Whether a search is on the right way, or has come to the right answer. -/
def Right (lattice : Lattice kind) (start goal : TypeRef kind) : Search kind → Prop
  | .running pending seen queue => Underway lattice start goal pending seen queue
  | .ended answer => answer = true ↔ lattice.Below start goal

namespace Underway

variable {pending seen queue : List (TypeRef kind)}

/-- A search begins with the type alone. -/
theorem begin (apart : start ≠ goal) : Underway lattice start goal [] [] [start] where
  apart := apart
  unmet := List.not_mem_nil
  above type member := by
    obtain rfl := List.mem_singleton.mp member
    exact .refl
  followed type member := .inl member

/-- A parent that has been seen is passed over. -/
theorem skip (underway : Underway lattice start goal (parent :: pending) seen queue)
    (known : parent ∈ seen) : Underway lattice start goal pending seen queue where
  apart := underway.apart
  unmet := underway.unmet
  above type member := underway.above type (List.mem_cons_of_mem _ member)
  followed type member := by
    refine (underway.followed type member).imp_right fun followed other link => ?_
    rcases List.mem_cons.mp (followed other link) with rfl | there
    · exact List.mem_append_right _ known
    · exact there

/-- A parent that has not been seen is marked and queued. -/
theorem mark (underway : Underway lattice start goal (parent :: pending) seen queue)
    (missed : parent ≠ goal) :
    Underway lattice start goal pending (parent :: seen) (queue ++ [parent]) where
  apart := underway.apart
  unmet := by
    rw [List.mem_cons, not_or]
    exact ⟨missed.symm, underway.unmet⟩
  above type member := by
    refine underway.above type ?_
    simp only [List.mem_append, List.mem_cons] at member ⊢
    tauto
  followed type member := by
    simp only [List.mem_append, List.mem_cons] at member ⊢
    by_cases new : type = parent
    · exact .inl (.inr (.inl new))
    · have former : type ∈ start :: seen := by
        rw [List.mem_cons]
        tauto
      refine (underway.followed type former).imp .inl fun followed other link => ?_
      have there := followed other link
      simp only [List.cons_append, List.mem_cons, List.mem_append] at there
      tauto

/-- The next type of the queue is taken from it. -/
theorem take (underway : Underway lattice start goal [] seen (type :: queue)) :
    Underway lattice start goal (lattice.node type).parents seen queue where
  apart := underway.apart
  unmet := underway.unmet
  above other member := by
    rcases List.mem_append.mp member with parent | queued
    · exact (underway.above type List.mem_cons_self).tail parent
    · exact underway.above other (List.mem_cons_of_mem _ queued)
  followed other member := by
    by_cases taken : other = type
    · subst taken
      exact .inr fun parent link => List.mem_append_left _ link
    · refine (underway.followed other member).imp (fun queued => ?_) fun followed parent link => ?_
      · exact (List.mem_cons.mp queued).resolve_left taken
      · exact List.mem_append_right _ (followed parent link)

/-- Where the queue is empty, all that is above the start has been marked, and the goal has not. -/
theorem not_below (underway : Underway lattice start goal [] seen []) :
    ¬ lattice.Below start goal := by
  have everywhere : ∀ {type}, lattice.Below start type → type ∈ start :: seen := by
    intro type path
    induction path with
    | refl => exact List.mem_cons_self
    | tail _ link ih =>
        have followed := (underway.followed _ ih).resolve_left List.not_mem_nil
        exact List.mem_cons_of_mem _ (followed _ link)
  intro path
  rcases List.mem_cons.mp (everywhere path) with same | marked
  · exact underway.apart same.symm
  · exact underway.unmet marked

end Underway

/-- At the start only the type itself has been reached. -/
theorem right_begin (lattice : Lattice kind) (start goal : TypeRef kind) :
    Right lattice start goal (begin start goal) := by
  unfold begin
  split
  · next same =>
    subst same
    exact iff_of_true rfl .refl
  · next apart => exact Underway.begin apart

/-- A round of the search keeps what has been reached apart from what has not. -/
theorem Right.next {search : Search kind} (right : Right lattice start goal search) :
    Right lattice start goal (search.next lattice goal) := by
  cases search with
  | ended answer => exact right
  | running pending seen queue =>
      cases pending with
      | nil =>
          cases queue with
          | nil => exact iff_of_false Bool.false_ne_true (Underway.not_below right)
          | cons type queue => exact Underway.take right
      | cons parent pending =>
          simp only [Search.next]
          split
          · next met =>
            subst met
            exact iff_of_true rfl (Underway.above right parent List.mem_cons_self)
          split
          · next known => exact Underway.skip right (List.contains_iff_mem.mp known)
          · next missed new => exact Underway.mark right missed

/-- Any number of steps leaves a search right. -/
theorem Right.iterate {search : Search kind} (right : Right lattice start goal search)
    (steps : Nat) : Right lattice start goal ((Search.next lattice goal)^[steps] search) := by
  induction steps generalizing search with
  | zero => exact right
  | succ steps ih => exact ih right.next

end Search

/-! ## Reachability -/

/-- Parents are types of the lattice if those listed by its nodes are. -/
theorem closed_of_nodes
    (known : ∀ data ∈ lattice.nodes.toList, ∀ parent ∈ data.parents, parent.index < lattice.size) :
    lattice.Closed := by
  intro type parent link
  by_cases inside : type.index < lattice.nodes.size
  · have listed : lattice.node type ∈ lattice.nodes.toList := by
      simp [node, inside]
    exact known _ listed parent link
  · rw [IsParent, node, Array.getElem?_eq_none (Nat.le_of_not_lt inside)] at link
    cases link

/-- Whatever the parent links of a lattice are, as long as they lead to types of it, the search for
a supertype ends, at the latest when it has taken every type from the queue once, and its start once
more, and has looked at the parents of each; and its answer is whether parent links, none or some of
them, lead from the one type to the other. -/
theorem isSubtype_of_search (closed : lattice.Closed) (type other : TypeRef kind) :
    (∀ steps, Search.cost lattice [type] + Search.cost lattice lattice.types + 1 ≤ steps →
      (Search.next lattice other)^[steps] (.begin type other) =
        .ended (lattice.isSubtype type other)) ∧
      (lattice.isSubtype type other = true ↔
        Relation.ReflTransGen lattice.IsParent type other) := by
  refine ⟨fun steps enough => ?_, isSubtype_iff closed⟩
  have inside : (Search.begin type other).Inside lattice := by
    unfold Search.begin
    split
    · trivial
    · exact fun _ member => absurd member List.not_mem_nil
  -- A type is expanded once, so that the work is at most the cost of the start and of all types.
  have within : (Search.begin type other).work lattice ≤ steps := by
    unfold Search.begin
    split
    · exact Nat.zero_le _
    · have all : Search.unseen lattice [] = lattice.types := by simp [Search.unseen]
      simp only [Search.work, all, List.length_nil]
      omega
  obtain ⟨answer, ended⟩ := Search.exists_iterate_eq_ended closed other inside within
  have right := (Search.right_begin lattice type other).iterate steps
  rw [ended] at right ⊢
  have same : answer = lattice.isSubtype type other :=
    Bool.eq_iff_iff.mpr (right.trans (isSubtype_iff closed).symm)
  rw [same]

/-- Two types below each other, one of them linked twice, and a third beside them. -/
theorem isSubtype_of_search_cycle :
    let lattice : Lattice .concept :=
      ⟨#[{ parents := [⟨1⟩, ⟨1⟩] }, { parents := [⟨0⟩, ⟨2⟩] }, { parents := [⟨2⟩] }, {}]⟩
    lattice.Closed ∧ lattice.isSubtype ⟨0⟩ ⟨2⟩ = true ∧ lattice.isSubtype ⟨2⟩ ⟨0⟩ = false ∧
      (Search.next lattice ⟨3⟩)^[13] (.begin ⟨0⟩ ⟨3⟩) = .ended (lattice.isSubtype ⟨0⟩ ⟨3⟩) ∧
      Relation.ReflTransGen lattice.IsParent ⟨0⟩ ⟨2⟩ := by
  intro lattice
  have closed : lattice.Closed := closed_of_nodes (by decide)
  have found : lattice.isSubtype ⟨0⟩ ⟨2⟩ = true := by decide
  exact ⟨closed, found, by decide, (isSubtype_of_search closed ⟨0⟩ ⟨3⟩).1 13 (by decide),
    (isSubtype_of_search closed ⟨0⟩ ⟨2⟩).2.mp found⟩

end ConceptualGraph.Lattice
