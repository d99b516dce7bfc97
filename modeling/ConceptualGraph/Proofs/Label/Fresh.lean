/-
Module: ConceptualGraph.Proofs.Label.Fresh
Purpose: The labels that a table gives out: the search for one comes to an end, at the least
  number not counted before whose label is unbound, and no label is given out twice.
Main exports: LabelTable.Trial, LabelTable.givenOut, LabelTable.isBound_freshLabel,
  LabelTable.isLeast_freshLabel, LabelTable.fresh_of_run
-/
import ConceptualGraph.Proofs.Label.Context
import ConceptualGraph.Proofs.Token.Numeral
import Mathlib.Data.List.Nodup
import Mathlib.Data.List.Perm.Subperm
import Mathlib.Logic.Function.Iterate
import Mathlib.Order.Bounds.Defs

namespace ConceptualGraph.LabelTable

variable {table : LabelTable} {label : String} {target : Target} {bound counter number : Nat}
  {operations : List Operation}

/-! ## Numbers -/

/-- Numbered labels differ where their numbers do. -/
theorem numbered_injective {first second : Nat} (same : numbered first = numbered second) :
    first = second := by
  have digits : first.repr = second.repr := by
    have lists := congrArg String.toList same
    simp only [numbered, String.toList_append] at lists
    exact String.toList_injective (List.append_cancel_left lists)
  exact Text.repr_injective digits

/-- A fresh number has not been counted. -/
theorem lt_nextNumber (bound counter : Nat) : counter < table.nextNumber bound counter := by
  induction bound generalizing counter with
  | zero => exact Nat.lt_succ_self counter
  | succ bound ih =>
      rw [nextNumber]
      split
      · exact Nat.lt_trans (Nat.lt_succ_self counter) (ih (counter + 1))
      · exact Nat.lt_succ_self counter

/-- A fresh label has a number that has not been counted before. -/
theorem freshLabel_eq : ∃ number, table.counter < number ∧
    table.freshLabel = (numbered number, { table with counter := number }) :=
  ⟨_, lt_nextNumber _ _, rfl⟩

/-- Labels among which are those of all numbers of a stretch are as many as these numbers. -/
theorem le_length_of_numbered {labels : List String} {count : Nat}
    (all : ∀ number, counter < number → number ≤ counter + count → numbered number ∈ labels) :
    count ≤ labels.length := by
  have distinct : ((List.range' (counter + 1) count).map numbered).Nodup :=
    List.Nodup.map (fun _ _ => numbered_injective) List.nodup_range'
  have among : (List.range' (counter + 1) count).map numbered ⊆ labels := by
    intro label member
    obtain ⟨number, inside, rfl⟩ := List.mem_map.mp member
    rw [List.mem_range'_1] at inside
    apply all <;> omega
  simpa using (List.Nodup.subperm distinct among).length_le

/-- A table does not bind the labels of more numbers than it has entries. -/
theorem le_length_scope {count : Nat}
    (all : ∀ number, counter < number → number ≤ counter + count →
      table.isBound (numbered number) = true) : count ≤ table.scope.length := by
  have many := le_length_of_numbered fun number further within =>
    isBound_iff.mp (all number further within)
  exact Nat.le_trans many (List.length_filterMap_le ScopeEntry.label? table.scope)

/-! ## The number of a fresh label -/

/-- Every number that is passed over has a label that is bound. -/
theorem isBound_of_lt_nextNumber (further : counter < number)
    (before : number < table.nextNumber bound counter) :
    table.isBound (numbered number) = true := by
  induction bound generalizing counter with
  | zero =>
      rw [nextNumber] at before
      omega
  | succ bound ih =>
      rw [nextNumber] at before
      split at before
      · next taken =>
        rcases Nat.eq_or_lt_of_le further with rfl | further
        · exact taken
        · exact ih further before
      · omega

/-- A number whose label is bound is taken only where the tries have been used up. -/
theorem nextNumber_eq_of_isBound
    (taken : table.isBound (numbered (table.nextNumber bound counter)) = true) :
    table.nextNumber bound counter = counter + bound + 1 := by
  induction bound generalizing counter with
  | zero => rfl
  | succ bound ih =>
      rw [nextNumber] at taken ⊢
      split at taken
      · next here =>
        rw [if_pos here, ih taken]
        omega
      · next free => exact absurd taken free

/-- A table has as many tries as it has entries, which cannot bind the labels of all the numbers
that are tried. -/
theorem isBound_freshLabel (table : LabelTable) : table.isBound table.freshLabel.1 = false := by
  rw [← Bool.not_eq_true]
  intro taken
  have last := nextNumber_eq_of_isBound taken
  have all : ∀ number, table.counter < number →
      number ≤ table.counter + (table.scope.length + 1) →
      table.isBound (numbered number) = true := by
    intro number further within
    rcases Nat.eq_or_lt_of_le within with rfl | before
    · rw [← Nat.add_assoc, ← last]
      exact taken
    · exact isBound_of_lt_nextNumber further (by rwa [last])
  exact Nat.not_succ_le_self _ (le_length_scope all)

/-- A fresh label has the least number that has not been counted and is free. -/
theorem isLeast_freshLabel (table : LabelTable) :
    IsLeast {number | table.counter < number ∧ table.isBound (numbered number) = false}
      table.freshLabel.2.counter := by
  constructor
  · exact ⟨lt_nextNumber _ _, isBound_freshLabel table⟩
  · rintro number ⟨further, free⟩
    by_contra before
    have taken := isBound_of_lt_nextNumber further (Nat.lt_of_not_le before)
    rw [free] at taken
    cases taken

/-! ## The search as a loop

Without a limit to the tries nothing in the loop itself says that it ends: the counter only grows.
It ends because few labels are bound. -/

/-- The search for a fresh label: the number that has been tried last, or the one found. -/
inductive Trial where
  | trying (number : Nat)
  | found (number : Nat)
  deriving DecidableEq, Repr

namespace Trial

/-- One round: the next number is tried. -/
def next (table : LabelTable) : Trial → Trial
  | .trying number =>
      if table.isBound (numbered (number + 1)) then .trying (number + 1) else .found (number + 1)
  | .found number => .found number

/-- The loop passes over labels that are bound, and ends at one that is not. -/
theorem iterate_next_trying {taken : Nat}
    (passed : ∀ number, counter < number → number ≤ counter + taken →
      table.isBound (numbered number) = true)
    (free : table.isBound (numbered (counter + taken + 1)) = false) :
    (next table)^[taken + 1] (.trying counter) = .found (counter + taken + 1) := by
  induction taken generalizing counter with
  | zero => simpa [next] using free
  | succ taken ih =>
      have here : next table (.trying counter) = .trying (counter + 1) :=
        if_pos (passed (counter + 1) (by omega) (by omega))
      have shift : counter + (taken + 1) + 1 = counter + 1 + taken + 1 := by omega
      rw [Function.iterate_succ_apply, here, shift]
      apply ih
      · intro number further within
        apply passed <;> omega
      · rwa [← shift]

/-- The loop ends, at the number of the fresh label, after a round for every entry of the table
at most and one more. -/
theorem exists_rounds (table : LabelTable) : ∃ rounds, rounds ≤ table.scope.length + 1 ∧
    (next table)^[rounds] (.trying table.counter) = .found table.freshLabel.2.counter := by
  obtain ⟨⟨further, free⟩, -⟩ := isLeast_freshLabel table
  obtain ⟨taken, ends⟩ := Nat.exists_eq_add_of_lt further
  have passed : ∀ number, table.counter < number → number ≤ table.counter + taken →
      table.isBound (numbered number) = true := by
    intro number further within
    exact isBound_of_lt_nextNumber further (by
      show number < table.freshLabel.2.counter
      omega)
  refine ⟨taken + 1, Nat.succ_le_succ (le_length_scope passed), ?_⟩
  rw [ends] at free ⊢
  exact iterate_next_trying passed free

end Trial

/-! ## Labels given out along a run -/

/-- The label that an operation gives out. -/
def Operation.givenOut? : Operation → LabelTable → Option String
  | .freshLabel, table => some table.freshLabel.1
  | _, _ => none

/-- The labels that operations give out, the first one first. -/
def givenOut : List Operation → LabelTable → List String
  | [], _ => []
  | operation :: operations, table =>
      (operation.givenOut? table).toList ++ givenOut operations (operation.apply table)

/-- Only a reset turns the counter back. -/
theorem counter_le_apply {operation : Operation} (kept : operation ≠ .reset) :
    table.counter ≤ (operation.apply table).counter := by
  cases operation with
  | push | pop => exact Nat.le_refl _
  | bind label target => exact Nat.le_of_eq counter_bind.symm
  | freshLabel => exact Nat.le_of_lt (lt_nextNumber _ _)
  | reset => exact absurd rfl kept

/-- A label that is given out has a number that had not been counted when the run began. -/
theorem exists_number_of_mem_givenOut (kept : .reset ∉ operations)
    (member : label ∈ givenOut operations table) :
    ∃ number, table.counter < number ∧ label = numbered number := by
  induction operations generalizing table with
  | nil => cases member
  | cons operation operations ih =>
      obtain ⟨first, others⟩ := not_or.mp (mt List.mem_cons.mpr kept)
      rcases List.mem_append.mp member with here | later
      · cases operation with
        | freshLabel => exact ⟨_, lt_nextNumber _ _, List.mem_singleton.mp here⟩
        | _ => cases here
      · obtain ⟨number, further, same⟩ := ih others later
        exact ⟨number, Nat.lt_of_le_of_lt (counter_le_apply (Ne.symm first)) further, same⟩

/-- No label is given out twice, as long as the table is never emptied. -/
theorem nodup_givenOut (kept : .reset ∉ operations) (table : LabelTable) :
    (givenOut operations table).Nodup := by
  induction operations generalizing table with
  | nil => exact List.nodup_nil
  | cons operation operations ih =>
      have others := fun member => kept (List.mem_cons_of_mem operation member)
      have rest := ih others (operation.apply table)
      cases operation with
      | freshLabel =>
          refine List.nodup_cons.mpr ⟨fun again => ?_, rest⟩
          obtain ⟨number, further, same⟩ := exists_number_of_mem_givenOut others again
          exact Nat.ne_of_lt further (numbered_injective same)
      | _ => exact rest

/-! ## How far the counter gets -/

/-- Only binding a label makes it bound. -/
theorem isBound_of_apply {operation : Operation}
    (bound : (operation.apply table).isBound label = true) :
    table.isBound label = true ∨ ∃ target, operation = .bind label target := by
  cases operation with
  | push => exact .inl (by simpa [Operation.apply, isBound, LabelTable.push, ScopeEntry.binds]
      using bound)
  | pop =>
      rw [isBound_iff] at bound ⊢
      exact .inl (((unwind_suffix _ _).sublist.filterMap _).subset bound)
  | bind other target =>
      simp only [Operation.apply, isBound_eq_seek, ← target?_eq, target?_bind] at bound ⊢
      split at bound
      · next same => exact .inr ⟨target, same ▸ rfl⟩
      · exact .inl bound
  | freshLabel => exact .inl bound
  | reset => cases bound

/-- A number that has been counted is that of a label that was bound or given out. -/
theorem numbered_mem_of_le_counter (counted : number ≤ (run operations table).counter) :
    number ≤ table.counter ∨ table.isBound (numbered number) = true ∨
      numbered number ∈ labelsBound operations ++ givenOut operations table := by
  induction operations generalizing table with
  | nil => exact .inl counted
  | cons operation operations ih =>
      have mem_cons : numbered number ∈ labelsBound operations ++
            givenOut operations (operation.apply table) →
          numbered number ∈ labelsBound (operation :: operations) ++
            givenOut (operation :: operations) table := by
        intro later
        rcases List.mem_append.mp later with later | later
        · exact List.mem_append_left _ (((List.sublist_cons_self ..).filterMap _).subset later)
        · exact List.mem_append_right _ (List.mem_append_right _ later)
      rcases ih counted with early | bound | later
      · cases operation with
        | push | pop => exact .inl early
        | bind label target => exact .inl (counter_bind ▸ early)
        | reset => exact .inl (Nat.le_trans early (Nat.zero_le _))
        | freshLabel =>
            rcases Nat.eq_or_lt_of_le early with rfl | before
            · exact .inr (.inr (List.mem_append_right _ List.mem_cons_self))
            by_cases former : number ≤ table.counter
            · exact .inl former
            · exact .inr (.inl (isBound_of_lt_nextNumber (Nat.lt_of_not_le former) before))
      · rcases isBound_of_apply bound with bound | ⟨target, rfl⟩
        · exact .inr (.inl bound)
        · exact .inr (.inr (List.mem_append_left _ List.mem_cons_self))
      · exact .inr (.inr (mem_cons later))

/-- Every label that has been bound or given out has taken an operation. -/
theorem length_labelsBound_add_le (operations : List Operation) (table : LabelTable) :
    (labelsBound operations ++ givenOut operations table).length ≤ operations.length := by
  induction operations generalizing table with
  | nil => exact Nat.le_refl _
  | cons operation operations ih =>
      have rest := ih (operation.apply table)
      rw [List.length_append] at rest ⊢
      cases operation <;>
        simp only [labelsBound, givenOut, Operation.givenOut?, List.filterMap_cons,
          Option.toList_some, Option.toList_none, List.length_append, List.length_cons,
          List.length_nil] at rest ⊢ <;> omega

/-- A counter counts no further than there are operations, so that a machine word holds it. -/
theorem counter_run_le (operations : List Operation) :
    (run operations {}).counter ≤ operations.length := by
  have all : ∀ number, 0 < number → number ≤ 0 + (run operations {}).counter →
      numbered number ∈ labelsBound operations ++ givenOut operations {} := by
    intro number positive counted
    rw [Nat.zero_add] at counted
    rcases numbered_mem_of_le_counter counted with none | bound | member
    · exact absurd positive (Nat.not_lt.mpr none)
    · cases bound
    · exact member
  exact Nat.le_trans (le_length_of_numbered all) (length_labelsBound_add_le operations {})

/-! ## Fresh labels of a session -/

/-- In a session that never forgets all labels at once, every search for a fresh label ends.  It
ends at the least number that has not been counted and whose label is unbound; and it never gives
out a label that has been given out before, were it unbound since.  The counter stays within the
number of operations. -/
theorem fresh_of_run (kept : .reset ∉ operations) :
    (∀ before after, operations = before ++ .freshLabel :: after →
      let table := run before {}
      ∃ number rounds, rounds ≤ table.scope.length + 1 ∧
        (Trial.next table)^[rounds] (.trying table.counter) = .found number ∧
        table.freshLabel = (numbered number, { table with counter := number }) ∧
        table.isBound (numbered number) = false ∧
        IsLeast {candidate | table.counter < candidate ∧
          table.isBound (numbered candidate) = false} number) ∧
      (givenOut operations {}).Nodup ∧ (run operations {}).counter ≤ operations.length := by
  constructor
  · intro before after _ table
    obtain ⟨rounds, few, ends⟩ := Trial.exists_rounds table
    exact ⟨table.freshLabel.2.counter, rounds, few, ends, rfl, isBound_freshLabel table,
      isLeast_freshLabel table⟩
  · exact ⟨nodup_givenOut kept {}, counter_run_le operations⟩

/-- The first label is unbound with its context; the third number is passed over, its label having
been bound by itself. -/
theorem fresh_of_run_popped :
    let before : List Operation := [.push, .freshLabel, .bind "x1" (.concept ⟨0⟩), .pop,
      .bind "x3" (.concept ⟨1⟩), .freshLabel]
    let operations := before ++ [.freshLabel]
    .reset ∉ operations ∧ givenOut operations {} = ["x1", "x2", "x4"] ∧
      (givenOut operations {}).Nodup ∧ (run operations {}).isBound "x1" = false ∧
      IsLeast {candidate | (run before {}).counter < candidate ∧
        (run before {}).isBound (numbered candidate) = false} 4 := by
  intro before operations
  have kept : .reset ∉ operations := by decide
  obtain ⟨searches, distinct, -⟩ := fresh_of_run kept
  obtain ⟨number, rounds, -, -, fresh, -, least⟩ := searches before [] rfl
  have counted : (run before {}).freshLabel.2.counter = 4 := by decide
  have fourth : number = 4 := by rwa [fresh] at counted
  exact ⟨kept, by decide, distinct, by decide, fourth ▸ least⟩

end ConceptualGraph.LabelTable
