/-
Module: ConceptualGraph.Proofs.Marker.Minted
Purpose: An identifier that is counted out for a marker is new and comes after all numerals that are
  paired, up to the largest word, after which the count begins again at zero.
Main exports: MarkerTable.Fresh, MarkerTable.Ahead, MarkerTable.Counted,
  MarkerTable.fresh_of_counted, MarkerTable.count_begins_again
-/
import ConceptualGraph.Proofs.Copy.Markers
import ConceptualGraph.Proofs.Marker.Table

namespace ConceptualGraph.MarkerTable

variable {table : MarkerTable} {foreign : String} {marker : MarkerId} {operation : Operation}

/-! ## Identifiers that may be given out -/

/-- What an identifier is to be that is given to a marker without one: the numeral of a word, which
is not paired and comes after all words whose numerals are paired, however these are written. -/
structure Fresh (table : MarkerTable) (foreign : String) : Prop where
  unpaired : table.marker? foreign = none
  above : ∃ number : UInt64, foreign = number.toNat.repr ∧
    ∀ other paired least, table.marker? other = some paired → numeral? other = some least →
      least < number

/-! ## Counting -/

/-- The counter has not been passed by any numeral that is paired, and can still be raised. -/
structure Ahead (table : MarkerTable) : Prop where
  reached : ∀ pair ∈ table.pairs, ∀ number, numeral? pair.1 = some number →
    number ≤ table.counter
  room : table.counter.toNat < Text.largestUnsigned

theorem numeral?_repr_word (number : UInt64) : numeral? number.toNat.repr = some number := by
  rw [numeral?_repr (UInt64.toNat_lt_size number), UInt64.ofNat_toNat]

/-- Pairing raises the counter to a word whose numeral is paired. -/
theorem counter_pair (table : MarkerTable) (foreign : String) (marker : MarkerId) :
    (table.pair foreign marker).counter =
      match numeral? foreign with
      | none => table.counter
      | some number => if table.counter ≤ number then number else table.counter := by
  unfold pair
  cases numeral? foreign <;> rfl

/-- Pairing never turns the counter back. -/
theorem counter_le_pair : table.counter ≤ (table.pair foreign marker).counter := by
  rw [counter_pair]
  split
  · exact UInt64.le_refl _
  · split
    · assumption
    · exact UInt64.le_refl _

/-- The counter is not behind a numeral that has been paired. -/
theorem le_counter_pair {number : UInt64} (numeral : numeral? foreign = some number) :
    number ≤ (table.pair foreign marker).counter := by
  rw [counter_pair, numeral]
  dsimp only
  split
  · exact UInt64.le_refl _
  · next greater => exact UInt64.le_of_lt (UInt64.not_le.mp greater)

/-- A pair keeps the counter below a bound if its identifier is. -/
theorem counter_pair_lt {bound : Nat} (low : table.counter.toNat < bound)
    (small : ∀ number, numeral? foreign = some number → number.toNat < bound) :
    (table.pair foreign marker).counter.toNat < bound := by
  rw [counter_pair]
  split
  · exact low
  · next number numeral =>
    split
    · exact small number numeral
    · exact low

namespace Ahead

theorem empty : Ahead {} := ⟨nofun, by decide⟩

variable (ahead : table.Ahead)

include ahead

/-- Counting on does not go past the largest word. -/
theorem toNat_next : (table.counter + 1).toNat = table.counter.toNat + 1 := by
  have room := ahead.room
  have size : Text.largestUnsigned + 1 = 2 ^ 64 := rfl
  rw [UInt64.toNat_add, UInt64.toNat_one]
  exact Nat.mod_eq_of_lt (by omega)

theorem counter_lt_next : table.counter < table.counter + 1 := by
  rw [UInt64.lt_iff_toNat_lt, ahead.toNat_next]
  exact Nat.lt_succ_self _

/-- The first number that is tried is free. -/
theorem marker?_next : table.marker? (table.counter + 1).toNat.repr = none := by
  rw [marker?_eq_none_iff]
  intro pair member same
  have least := ahead.reached pair member (table.counter + 1) (by rw [same, numeral?_repr_word])
  exact absurd ahead.counter_lt_next (UInt64.not_lt.mpr least)

/-- A counter that is ahead of all numerals is followed by the next number. -/
theorem nextNumber_eq (tries : Nat) :
    table.nextNumber tries table.counter = table.counter + 1 := by
  cases tries with
  | zero => rfl
  | succ tries => rw [nextNumber, ahead.marker?_next]; rfl

theorem fst_foreignIdFor (unpaired : table.foreignId? marker = none) :
    (table.foreignIdFor marker).1 = (table.counter + 1).toNat.repr := by
  simp only [foreignIdFor, unpaired, ahead.nextNumber_eq]

/-- An identifier that is minted has not been seen before. -/
theorem fresh (unpaired : table.foreignId? marker = none) :
    table.Fresh (table.foreignIdFor marker).1 := by
  rw [ahead.fst_foreignIdFor unpaired]
  refine ⟨ahead.marker?_next, table.counter + 1, rfl, ?_⟩
  intro other paired least found numeral
  have before := ahead.reached _ (mem_of_marker? found) least numeral
  exact UInt64.lt_of_le_of_lt before ahead.counter_lt_next

/-- A numeral that is paired is not ahead of the counter afterwards. -/
theorem pair (marker : MarkerId) (small : ∀ number, numeral? foreign = some number →
    number.toNat < Text.largestUnsigned) : (table.pair foreign marker).Ahead where
  reached other member number numeral := by
    rcases mem_pairs_pair.mp member with rfl | ⟨former, -⟩
    · exact le_counter_pair numeral
    · exact UInt64.le_trans (ahead.reached other former number numeral) counter_le_pair
  room := counter_pair_lt ahead.room small

/-- A counter that is ahead stays so as a small numeral is read. -/
theorem markerFor (model : Model) (small : ∀ number, numeral? foreign = some number →
    number.toNat < Text.largestUnsigned) : (table.markerFor foreign model).2.1.Ahead := by
  unfold MarkerTable.markerFor
  split
  · exact ahead
  · exact ahead.pair _ small

/-- What is counted out raises the counter by one. -/
theorem counter_foreignIdFor (unpaired : table.foreignId? marker = none) :
    (table.foreignIdFor marker).2.counter = table.counter + 1 := by
  simp only [foreignIdFor, unpaired, ahead.nextNumber_eq, counter_pair, numeral?_repr_word]
  exact if_pos (UInt64.le_refl _)

/-- The counter stays ahead of all identifiers as long as the one that is minted is not the greatest
number. -/
theorem foreignIdFor (small : ∀ number,
    numeral? (table.foreignIdFor marker).1 = some number → number.toNat < Text.largestUnsigned) :
    (table.foreignIdFor marker).2.Ahead := by
  cases unpaired : table.foreignId? marker with
  | some foreign =>
      simp only [MarkerTable.foreignIdFor, unpaired]
      exact ahead
  | none =>
      rw [ahead.fst_foreignIdFor unpaired] at small
      simp only [MarkerTable.foreignIdFor, unpaired, ahead.nextNumber_eq]
      have counted : Ahead { table with counter := table.counter + 1 } := by
        refine ⟨fun pair member number numeral => ?_, small _ (numeral?_repr_word _)⟩
        exact UInt64.le_trans (ahead.reached pair member number numeral)
          (UInt64.le_of_lt ahead.counter_lt_next)
      exact counted.pair marker small

end Ahead

/-! ## Any sequence of operations -/

/-- The identifier that an operation reads, pairs or gives out. -/
def Operation.shown? : Operation → MarkerTable → Option String
  | .markerFor foreign _, _ => some foreign
  | .pair foreign _, _ => some foreign
  | .foreignIdFor marker, table => some (table.foreignIdFor marker).1
  | .reset, _ => none

/-- A table to which operations lead that have not shown the largest word since the table was
empty. -/
inductive Counted : MarkerTable → Prop
  | start : Counted {}
  | operate {table : MarkerTable} (operation : Operation)
      (small : ∀ foreign number, operation.shown? table = some foreign →
        numeral? foreign = some number → number.toNat < Text.largestUnsigned)
      (counted : Counted table) : Counted (operation.apply table)

/-- The counter stays ahead under every operation that shows no identifier as great as the greatest
number. -/
theorem Ahead.apply (ahead : table.Ahead) (small : ∀ foreign number,
    operation.shown? table = some foreign → numeral? foreign = some number →
      number.toNat < Text.largestUnsigned) : (operation.apply table).Ahead := by
  cases operation with
  | markerFor foreign model => exact ahead.markerFor model fun number => small foreign number rfl
  | pair foreign marker => exact ahead.pair marker fun number => small foreign number rfl
  | foreignIdFor marker => exact ahead.foreignIdFor fun number => small _ number rfl
  | reset => exact .empty

/-- A table that has not been shown the largest word is ahead of all that it has seen. -/
theorem Counted.ahead (counted : table.Counted) : table.Ahead := by
  induction counted with
  | start => exact .empty
  | operate operation small _ ih => exact ih.apply small

/-- However a table has been filled, as long as the largest word has not been read or given out, a
marker without an identifier is given one that is not paired and comes after all numerals that are;
and to find it the count goes on by one, to a word that there is. -/
theorem fresh_of_counted (counted : table.Counted) (unpaired : table.foreignId? marker = none) :
    table.Fresh (table.foreignIdFor marker).1 ∧
      (table.foreignIdFor marker).2.counter.toNat = table.counter.toNat + 1 ∧
      table.counter.toNat + 1 ≤ Text.largestUnsigned := by
  have ahead := counted.ahead
  refine ⟨ahead.fresh unpaired, ?_, ahead.room⟩
  rw [ahead.counter_foreignIdFor unpaired, ahead.toNat_next]

/-- The word before the largest one has been read, with zeros before it: the largest one is given
out next. -/
theorem fresh_of_counted_last :
    let table := run [.markerFor "7" {}, .markerFor "0018446744073709551614" { markers := 1 }] {}
    table.Counted ∧ table.foreignId? ⟨2⟩ = none ∧
      (table.foreignIdFor ⟨2⟩).1 = "18446744073709551615" ∧
      table.Fresh "18446744073709551615" := by
  intro table
  have seven : numeral? "7" = some 7 := by decide +kernel
  have large : numeral? "0018446744073709551614" = some 18446744073709551614 := by
    decide +kernel
  have counted : table.Counted := by
    refine .operate (.markerFor "0018446744073709551614" { markers := 1 }) ?_
      (.operate (.markerFor "7" {}) ?_ .start)
    · rintro _ number ⟨⟩ numeral
      obtain rfl := Option.some.inj (large.symm.trans numeral)
      decide
    · rintro _ number ⟨⟩ numeral
      obtain rfl := Option.some.inj (seven.symm.trans numeral)
      decide
  have unpaired : table.foreignId? ⟨2⟩ = none := by decide +kernel
  have given : (table.foreignIdFor ⟨2⟩).1 = "18446744073709551615" := by decide +kernel
  exact ⟨counted, unpaired, given, given ▸ (fresh_of_counted counted unpaired).1⟩

/-- What is not above a numeral that is paired is not fresh. -/
theorem not_fresh_of_le {other : String} {number least : UInt64}
    (found : table.marker? other = some marker) (below : numeral? other = some least)
    (numeral : numeral? foreign = some number) (le : number ≤ least) : ¬table.Fresh foreign := by
  intro fresh
  obtain ⟨given, rfl, above⟩ := fresh.above
  obtain rfl := Option.some.inj ((numeral?_repr_word given).symm.trans numeral)
  exact absurd (above other marker least found below) (UInt64.not_lt.mpr le)

/-- After the largest word has been read the count begins again at zero, though there is no word
that comes after it; and also where the numeral of that word has since lost its marker, so that an
identifier could be given out that comes after all that are paired. -/
theorem count_begins_again :
    let table := run [.markerFor "18446744073709551615" {}] {}
    let later := run [.markerFor "18446744073709551615" {}, .markerFor "5" {}] {}
    table.foreignId? ⟨1⟩ = none ∧ Text.largestUnsigned < table.counter.toNat + 1 ∧
      (table.foreignIdFor ⟨1⟩).1 = "0" ∧ ¬table.Fresh "0" ∧
      later.foreignId? ⟨1⟩ = none ∧ (later.foreignIdFor ⟨1⟩).1 = "0" ∧ ¬later.Fresh "0" ∧
      later.Fresh "6" := by
  intro table later
  have zero : numeral? "0" = some 0 := by decide +kernel
  have five : numeral? "5" = some 5 := by decide +kernel
  have largest : numeral? "18446744073709551615" = some 18446744073709551615 := by decide +kernel
  have paired : table.marker? "18446744073709551615" = some ⟨0⟩ := by decide +kernel
  have other : later.marker? "5" = some ⟨0⟩ := by decide +kernel
  have pairs : later.pairs = [("5", ⟨0⟩)] := by decide +kernel
  refine ⟨by decide +kernel, by decide +kernel, by decide +kernel, ?_, by decide +kernel,
    by decide +kernel, ?_, ⟨by decide +kernel, 6, rfl, ?_⟩⟩
  · exact not_fresh_of_le paired largest zero (by decide)
  · exact not_fresh_of_le other five zero (by decide)
  · intro foreign marker least found numeral
    obtain ⟨rfl, rfl⟩ : foreign = "5" ∧ marker = ⟨0⟩ := by
      simpa [pairs] using mem_of_marker? found
    obtain rfl := Option.some.inj (five.symm.trans numeral)
    decide

end ConceptualGraph.MarkerTable
