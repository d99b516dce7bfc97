/-
Module: ConceptualGraph.Proofs.Marker.Table
Purpose: No identifier and no marker is paired twice in a table of markers, whatever is done to
  it, so each of the two look-ups undoes the other one.
Main exports: MarkerTable.Distinct, MarkerTable.Distinct.pair, MarkerTable.Operation,
  MarkerTable.run, MarkerTable.Distinct.run
-/
import ConceptualGraph.MarkerTable
import Mathlib.Data.List.Nodup
import Mathlib.Tactic.Common

namespace ConceptualGraph.MarkerTable

variable {table : MarkerTable} {foreign : String} {marker : MarkerId}

/-! ## Looking up -/

/-- No identifier and no marker is paired twice. -/
structure Distinct (table : MarkerTable) : Prop where
  foreign : (table.pairs.map Prod.fst).Nodup
  marker : (table.pairs.map Prod.snd).Nodup

theorem Distinct.empty : Distinct {} := ⟨List.nodup_nil, List.nodup_nil⟩

theorem marker?_eq_none_iff :
    table.marker? foreign = none ↔ ∀ pair ∈ table.pairs, pair.1 ≠ foreign := by
  simp [marker?]

theorem foreignId?_eq_none_iff :
    table.foreignId? marker = none ↔ ∀ pair ∈ table.pairs, pair.2 ≠ marker := by
  simp [foreignId?]

theorem mem_of_marker? (found : table.marker? foreign = some marker) :
    (foreign, marker) ∈ table.pairs := by
  obtain ⟨pair, here, rfl⟩ := Option.map_eq_some_iff.mp found
  have named := List.find?_some here
  simp only [beq_iff_eq] at named
  subst named
  exact List.mem_of_find?_eq_some here

theorem mem_of_foreignId? (found : table.foreignId? marker = some foreign) :
    (foreign, marker) ∈ table.pairs := by
  obtain ⟨pair, here, rfl⟩ := Option.map_eq_some_iff.mp found
  have named := List.find?_some here
  simp only [beq_iff_eq] at named
  subst named
  exact List.mem_of_find?_eq_some here

namespace Distinct

variable (distinct : table.Distinct)

include distinct

/-- An identifier is looked up exactly if it is paired. -/
theorem marker?_eq_some_iff :
    table.marker? foreign = some marker ↔ (foreign, marker) ∈ table.pairs := by
  refine ⟨mem_of_marker?, fun member => ?_⟩
  cases found : table.marker? foreign with
  | none => exact absurd rfl (marker?_eq_none_iff.mp found _ member)
  | some other =>
      have same := List.inj_on_of_nodup_map distinct.foreign (mem_of_marker? found) member rfl
      exact congrArg (some ∘ Prod.snd) same

/-- A marker is looked up exactly if it is paired. -/
theorem foreignId?_eq_some_iff :
    table.foreignId? marker = some foreign ↔ (foreign, marker) ∈ table.pairs := by
  refine ⟨mem_of_foreignId?, fun member => ?_⟩
  cases found : table.foreignId? marker with
  | none => exact absurd rfl (foreignId?_eq_none_iff.mp found _ member)
  | some other =>
      have same := List.inj_on_of_nodup_map distinct.marker (mem_of_foreignId? found) member rfl
      exact congrArg (some ∘ Prod.fst) same

/-- An identifier stands for a marker exactly if it is the identifier of the marker. -/
theorem marker?_iff_foreignId? :
    table.marker? foreign = some marker ↔ table.foreignId? marker = some foreign :=
  distinct.marker?_eq_some_iff.trans distinct.foreignId?_eq_some_iff.symm

end Distinct

/-! ## Pairing -/

/-- What is paired is a new pair, and the former ones that it has nothing in common with. -/
theorem mem_pairs_pair {other : String × MarkerId} :
    other ∈ (table.pair foreign marker).pairs ↔
      other = (foreign, marker) ∨
        other ∈ table.pairs ∧ other.1 ≠ foreign ∧ other.2 ≠ marker := by
  simp [pair]

/-- Pairing replaces what either side was paired with. -/
theorem Distinct.pair (distinct : table.Distinct) (foreign : String) (marker : MarkerId) :
    (table.pair foreign marker).Distinct := by
  constructor
  · refine List.nodup_cons.mpr ⟨fun member => ?_, distinct.foreign.sublist ?_⟩
    · obtain ⟨former, kept, same⟩ := List.mem_map.mp member
      exact (of_decide_eq_true (List.mem_filter.mp kept).2).1 same
    · exact (List.filter_sublist).map _
  · refine List.nodup_cons.mpr ⟨fun member => ?_, distinct.marker.sublist ?_⟩
    · obtain ⟨former, kept, same⟩ := List.mem_map.mp member
      exact (of_decide_eq_true (List.mem_filter.mp kept).2).2 same
    · exact (List.filter_sublist).map _

/-- An identifier that had the marker stands for none afterwards. -/
theorem Distinct.marker?_pair (distinct : table.Distinct) (other : String) :
    (table.pair foreign marker).marker? other =
      if other = foreign then some marker
      else if table.marker? other = some marker then none else table.marker? other := by
  refine Option.ext fun found => ?_
  rw [(distinct.pair foreign marker).marker?_eq_some_iff, mem_pairs_pair]
  split
  · next same => simp [same, eq_comm]
  · next apart =>
    simp only [← distinct.marker?_eq_some_iff, Prod.mk.injEq, apart, false_and, false_or, ne_eq,
      not_false_eq_true, true_and]
    split
    · next held =>
      rw [held]
      exact iff_of_false (fun ⟨same, free⟩ => free (Option.some.inj same).symm) nofun
    · next free => exact and_iff_left_of_imp fun stands same => free (same ▸ stands)

/-- A marker that had the identifier has none afterwards. -/
theorem Distinct.foreignId?_pair (distinct : table.Distinct) (other : MarkerId) :
    (table.pair foreign marker).foreignId? other =
      if other = marker then some foreign
      else if table.foreignId? other = some foreign then none else table.foreignId? other := by
  refine Option.ext fun found => ?_
  rw [(distinct.pair foreign marker).foreignId?_eq_some_iff, mem_pairs_pair]
  split
  · next same => simp [same, eq_comm]
  · next apart =>
    simp only [← distinct.foreignId?_eq_some_iff, Prod.mk.injEq, apart, and_false, false_or, ne_eq,
      not_false_eq_true, and_true]
    split
    · next held =>
      rw [held]
      exact iff_of_false (fun ⟨same, free⟩ => free (Option.some.inj same).symm) nofun
    · next free => exact and_iff_left_of_imp fun stands same => free (same ▸ stands)

/-- Reading an identifier keeps a table distinct. -/
theorem Distinct.markerFor (distinct : table.Distinct) (foreign : String) (model : Model) :
    (table.markerFor foreign model).2.1.Distinct := by
  unfold MarkerTable.markerFor
  split
  · exact distinct
  · exact distinct.pair _ _

/-- Asking for an identifier pairs no marker twice. -/
theorem Distinct.foreignIdFor (distinct : table.Distinct) (marker : MarkerId) :
    (table.foreignIdFor marker).2.Distinct := by
  unfold MarkerTable.foreignIdFor
  split
  · exact distinct
  · -- The counter that goes on has no part in what is paired.
    have counted : ({ table with
        counter := table.nextNumber table.pairs.length table.counter } : MarkerTable).Distinct :=
      ⟨distinct.foreign, distinct.marker⟩
    exact counted.pair _ _

/-! ## Any sequence of operations -/

/-- What may be done to a table.  An identifier may be looked up for any model. -/
inductive Operation where
  | markerFor (foreign : String) (model : Model)
  | pair (foreign : String) (marker : MarkerId)
  | foreignIdFor (marker : MarkerId)
  | reset

/-- A table after an operation. -/
def Operation.apply : Operation → MarkerTable → MarkerTable
  | .markerFor foreign model, table => (table.markerFor foreign model).2.1
  | .pair foreign marker, table => table.pair foreign marker
  | .foreignIdFor marker, table => (table.foreignIdFor marker).2
  | .reset, _ => {}

/-- A table after operations, the first one first. -/
def run (operations : List Operation) (table : MarkerTable) : MarkerTable :=
  operations.foldl (fun table operation => operation.apply table) table

/-- Every operation keeps a table distinct. -/
theorem Distinct.apply (distinct : table.Distinct) (operation : Operation) :
    (operation.apply table).Distinct := by
  cases operation with
  | markerFor foreign model => exact distinct.markerFor foreign model
  | pair foreign marker => exact distinct.pair foreign marker
  | foreignIdFor marker => exact distinct.foreignIdFor marker
  | reset => exact .empty

/-- Operations keep a table distinct. -/
theorem Distinct.run (distinct : table.Distinct) (operations : List Operation) :
    (run operations table).Distinct := by
  induction operations generalizing table with
  | nil => exact distinct
  | cons operation operations ih => exact ih (distinct.apply operation)

end ConceptualGraph.MarkerTable
