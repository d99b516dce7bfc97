/-
Module: ConceptualGraph.Proofs.Copy.Markers
Purpose: The identifiers with which markers are written are read back as copies of the
  markers.
Main exports: MarkerTable.Paired, MarkerTable.Paired.step
-/
import ConceptualGraph.MarkerTable
import ConceptualGraph.Proofs.Token.Numeral
import Mathlib.Data.List.Nodup
import Mathlib.Data.List.Perm.Subperm

namespace ConceptualGraph.MarkerTable

/-- The identifiers that a writer has counted out, from one on, have been read back as
markers counted out from zero on. -/
structure Paired (markers : Nat) (writer reader : MarkerTable) (copies : Nat) : Prop where
  counted : writer.counter.toNat = writer.pairs.length
  numerals : ∀ place pair, writer.pairs.reverse[place]? = some pair →
    pair.1 = (place + 1).repr
  known : ∀ pair ∈ writer.pairs, pair.2.index < markers
  distinct : (writer.pairs.map Prod.snd).Nodup
  length : reader.pairs.length = writer.pairs.length
  read : ∀ place pair, reader.pairs.reverse[place]? = some pair →
    pair = ((place + 1).repr, ⟨place⟩)
  made : copies = writer.pairs.length

theorem paired_empty (markers : Nat) : Paired markers {} {} 0 :=
  ⟨rfl, nofun, nofun, List.nodup_nil, rfl, nofun, rfl⟩

/-- A numeral is read as the number that it writes. -/
theorem numeral?_repr {number : Nat} (fits : number < UInt64.size) :
    numeral? number.repr = some (UInt64.ofNat number) := by
  have digits : number.repr.toList = Nat.toDigits 10 number := by simp [Nat.repr]
  have all : (Nat.toDigits 10 number).all Char.isDigit = true :=
    List.all_eq_true.mpr (Scan.all_isDigit_toDigits number)
  have small : number ≤ Text.largestUnsigned := by
    unfold Text.largestUnsigned
    omega
  have unsigned : ∀ rest, Nat.toDigits 10 number ≠ '+' :: rest := by
    intro rest found
    have first := Scan.all_isDigit_toDigits number '+' (by simp [found])
    exact absurd first (by decide)
  unfold numeral?
  extract_lets source
  have same : source = Nat.toDigits 10 number := by
    simp only [source, digits]
  rw [same, if_pos all, Text.natural?_toDigits]
  exact if_pos small

namespace Paired

variable {markers copies : Nat} {writer reader : MarkerTable} {marker : MarkerId}

/-- There are no more identifiers than markers. -/
theorem length_lt (paired : Paired markers writer reader copies) (inside : marker.index < markers)
    (new : marker ∉ writer.pairs.map Prod.snd) : writer.pairs.length < markers := by
  have distinct : ((marker :: writer.pairs.map Prod.snd).map MarkerId.index).Nodup := by
    refine List.Nodup.map (fun first second same => ?_)
      (List.nodup_cons.mpr ⟨new, paired.distinct⟩)
    cases first
    cases second
    exact congrArg MarkerId.mk same
  have among : (marker :: writer.pairs.map Prod.snd).map MarkerId.index ⊆ List.range markers := by
    intro index member
    rw [List.mem_range]
    obtain ⟨id, here, rfl⟩ := List.mem_map.mp member
    rcases List.mem_cons.mp here with rfl | here
    · exact inside
    · obtain ⟨pair, there, rfl⟩ := List.mem_map.mp here
      exact paired.known pair there
  have fewer := (List.Nodup.subperm distinct among).length_le
  simp only [List.map_cons, List.length_cons, List.length_map, List.length_range] at fewer
  omega

/-- An identifier of the writer is one more than the place at which it was given. -/
theorem fst_of_mem (paired : Paired markers writer reader copies) {pair : String × MarkerId}
    (member : pair ∈ writer.pairs) : ∃ place, place < writer.pairs.length ∧
      writer.pairs.reverse[place]? = some pair ∧ pair.1 = (place + 1).repr := by
  obtain ⟨place, here⟩ := List.mem_iff_getElem?.mp (List.mem_reverse.mpr member)
  exact ⟨place, by simpa using (List.getElem?_eq_some_iff.mp here).1, here,
    paired.numerals place pair here⟩

/-- An identifier that has been counted out denotes the marker in its place. -/
theorem marker?_repr (paired : Paired markers writer reader copies) {place : Nat}
    (inside : place < writer.pairs.length) :
    reader.marker? (place + 1).repr = some ⟨place⟩ := by
  have within : place < reader.pairs.reverse.length := by
    rw [List.length_reverse, paired.length]
    exact inside
  have here : reader.pairs.reverse[place]? = some ((place + 1).repr, ⟨place⟩) := by
    rw [List.getElem?_eq_getElem within]
    exact congrArg some (paired.read place _ (List.getElem?_eq_getElem within))
  have member : ((place + 1).repr, (⟨place⟩ : MarkerId)) ∈ reader.pairs :=
    List.mem_reverse.mp (List.mem_of_getElem? here)
  unfold marker?
  cases found : reader.pairs.find? (·.1 == (place + 1).repr) with
  | none =>
      have missing := List.find?_eq_none.mp found _ member
      simp at missing
  | some pair =>
      have named := List.find?_some found
      obtain ⟨other, there⟩ := List.mem_iff_getElem?.mp
        (List.mem_reverse.mpr (List.mem_of_find?_eq_some found))
      obtain rfl := paired.read other pair there
      have same : other + 1 = place + 1 := Text.repr_injective (by simpa using named)
      obtain rfl : other = place := by omega
      rfl

/-- Identifiers that are counted out anew are added to a table. -/
theorem pairs_pair {table : MarkerTable} (foreign : String) (marker : MarkerId)
    (unread : ∀ pair ∈ table.pairs, pair.1 ≠ foreign ∧ pair.2 ≠ marker) :
    (table.pair foreign marker).pairs = (foreign, marker) :: table.pairs := by
  unfold pair
  simp only [List.cons.injEq, true_and, List.filter_eq_self, decide_eq_true_eq]
  exact unread

/-- Where markers have been numbered in the order in which they came, the next number is free. -/
theorem marker?_next {table : MarkerTable}
    (pairs : ∀ pair ∈ table.pairs, ∃ place, place < writer.pairs.length ∧
      pair.1 = (place + 1).repr) :
    table.marker? (writer.pairs.length + 1).repr = none := by
  unfold marker?
  rw [Option.map_eq_none_iff, List.find?_eq_none]
  intro pair member
  obtain ⟨place, inside, same⟩ := pairs pair member
  rw [same]
  intro equal
  have := Text.repr_injective (eq_of_beq equal)
  omega

/-- A marker that has been written is one of the numbers in the order in which markers came. -/
theorem foreignId?_eq (paired : Paired markers writer reader copies) {foreign : String}
    (found : writer.foreignId? marker = some foreign) :
    ∃ place, place < writer.pairs.length ∧ foreign = (place + 1).repr ∧
      (writer.pairs.map Prod.snd).reverse[place]? = some marker := by
  simp only [foreignId?, Option.map_eq_some_iff] at found
  obtain ⟨pair, here, rfl⟩ := found
  have named := List.find?_some here
  obtain ⟨place, inside, there, numeral⟩ := paired.fst_of_mem (List.mem_of_find?_eq_some here)
  refine ⟨place, inside, numeral, ?_⟩
  rw [← List.map_reverse, List.getElem?_map, there]
  simpa using named

/-- A marker without an identifier is not paired. -/
theorem not_mem_of_foreignId? (missing : writer.foreignId? marker = none) :
    marker ∉ writer.pairs.map Prod.snd := by
  intro member
  obtain ⟨pair, here, same⟩ := List.mem_map.mp member
  simp only [foreignId?, Option.map_eq_none_iff, List.find?_eq_none] at missing
  exact missing pair here (by simpa using same)

/-- The identifier that is counted out next. -/
theorem nextNumber_toNat (paired : Paired markers writer reader copies)
    (fits : writer.pairs.length + 1 < UInt64.size) :
    (writer.nextNumber writer.pairs.length writer.counter).toNat = writer.pairs.length + 1 := by
  have next : (writer.counter + 1).toNat = writer.pairs.length + 1 := by
    rw [UInt64.toNat_add, paired.counted]
    exact Nat.mod_eq_of_lt fits
  have free : writer.marker? (writer.counter + 1).toNat.repr = none := by
    rw [next]
    refine marker?_next fun pair member => ?_
    obtain ⟨place, inside, -, same⟩ := paired.fst_of_mem member
    exact ⟨place, inside, same⟩
  have first : ∀ count, writer.nextNumber count writer.counter = writer.counter + 1 := by
    intro count
    cases count with
    | zero => rfl
    | succ count => rw [nextNumber, free, Option.isSome_none, if_neg Bool.false_ne_true]
  rw [first, next]

/-- An element of a reversed list stands where it stood before a first one was put on, and that one
comes last. -/
theorem getElem?_reverse_cons {α : Type} {first : α} {others : List α} {place : Nat} {element : α}
    (here : (first :: others).reverse[place]? = some element) :
    others.reverse[place]? = some element ∨ place = others.length ∧ element = first := by
  rw [List.reverse_cons, List.getElem?_append] at here
  split at here
  · exact .inl here
  · rw [List.getElem?_singleton] at here
    split at here
    · next outside last =>
      cases here
      exact .inr ⟨by rw [List.length_reverse] at outside last; omega, rfl⟩
    · cases here

/-- A new identifier is counted out on both sides. -/
theorem push (paired : Paired markers writer reader copies) {wrote read : MarkerTable}
    (inside : marker.index < markers) (new : marker ∉ writer.pairs.map Prod.snd)
    (counter : wrote.counter.toNat = writer.pairs.length + 1)
    (written : wrote.pairs = ((writer.pairs.length + 1).repr, marker) :: writer.pairs)
    (taken : read.pairs =
      ((writer.pairs.length + 1).repr, ⟨writer.pairs.length⟩) :: reader.pairs) :
    Paired markers wrote read (writer.pairs.length + 1) where
  counted := by rw [counter, written, List.length_cons]
  numerals place pair here := by
    rw [written] at here
    rcases getElem?_reverse_cons here with former | ⟨rfl, rfl⟩
    · exact paired.numerals place pair former
    · rfl
  known pair member := by
    rw [written] at member
    rcases List.mem_cons.mp member with rfl | member
    · exact inside
    · exact paired.known pair member
  distinct := by
    rw [written]
    exact List.nodup_cons.mpr ⟨new, paired.distinct⟩
  length := by rw [written, taken, List.length_cons, List.length_cons, paired.length]
  read place pair here := by
    rw [taken] at here
    rcases getElem?_reverse_cons here with former | ⟨rfl, rfl⟩
    · exact paired.read place pair former
    · rw [paired.length]
  made := by rw [written, List.length_cons]

/-- A marker is written with an identifier that reads back as its copy. -/
theorem step (paired : Paired markers writer reader copies) (inside : marker.index < markers)
    (few : markers < UInt64.size) {model : Model} (made : model.markers = copies) :
    ∃ place count later, reader.markerFor (writer.foreignIdFor marker).1 model =
        (⟨place⟩, later, { model with markers := count }) ∧
      Paired markers (writer.foreignIdFor marker).2 later count ∧ copies ≤ count ∧
      writer.pairs <:+ (writer.foreignIdFor marker).2.pairs ∧
      ((writer.foreignIdFor marker).2.pairs.map Prod.snd).reverse[place]? = some marker ∧
      ∃ number, (writer.foreignIdFor marker).1 = Nat.repr number := by
  unfold foreignIdFor
  -- A marker that has an identifier is found again; another one gets the next number on both sides.
  cases known : writer.foreignId? marker with
  | some foreign =>
      obtain ⟨place, within, rfl, there⟩ := paired.foreignId?_eq known
      refine ⟨place, copies, reader, ?_, paired, Nat.le_refl _, List.suffix_rfl, there, _, rfl⟩
      simp only [markerFor, paired.marker?_repr within, ← made]
  | none =>
      have new := not_mem_of_foreignId? known
      have more := paired.length_lt inside new
      have fits : writer.pairs.length + 1 < UInt64.size := by omega
      have number := paired.nextNumber_toNat fits
      have counted : ∀ pair ∈ reader.pairs, ∃ place, place < writer.pairs.length ∧
          pair = ((place + 1).repr, ⟨place⟩) := by
        intro pair member
        obtain ⟨place, here⟩ := List.mem_iff_getElem?.mp (List.mem_reverse.mpr member)
        refine ⟨place, ?_, paired.read place pair here⟩
        rw [← paired.length]
        simpa using (List.getElem?_eq_some_iff.mp here).1
      -- The next number is not known to the reader, which has only seen smaller ones.
      have unread : reader.marker? (writer.pairs.length + 1).repr = none := by
        refine marker?_next fun pair member => ?_
        obtain ⟨place, within, rfl⟩ := counted pair member
        exact ⟨place, within, rfl⟩
      have apart : ∀ place, place < writer.pairs.length →
          (place + 1).repr ≠ (writer.pairs.length + 1).repr := by
        intro place within same
        have := Text.repr_injective same
        omega
      have read : (reader.pair (writer.pairs.length + 1).repr ⟨writer.pairs.length⟩).pairs = _ :=
        pairs_pair _ _ fun pair member => by
          obtain ⟨place, within, rfl⟩ := counted pair member
          refine ⟨apart place within, fun same => ?_⟩
          cases same
          exact Nat.lt_irrefl _ within
      have unpaired : ∀ pair ∈ writer.pairs,
          pair.1 ≠ (writer.pairs.length + 1).repr ∧ pair.2 ≠ marker := fun pair member => by
        obtain ⟨place, within, -, same⟩ := paired.fst_of_mem member
        exact ⟨same ▸ apart place within, fun same => new (same ▸ List.mem_map_of_mem member)⟩
      have written : (({ writer with
          counter := writer.nextNumber writer.pairs.length writer.counter } : MarkerTable).pair
            (writer.pairs.length + 1).repr marker).pairs = _ := pairs_pair _ _ unpaired
      have counter : ({ writer with
          counter := writer.nextNumber writer.pairs.length writer.counter }.pair
            (writer.pairs.length + 1).repr marker).counter.toNat = writer.pairs.length + 1 := by
        have same : UInt64.ofNat (writer.pairs.length + 1) =
            writer.nextNumber writer.pairs.length writer.counter := by
          rw [← number, UInt64.ofNat_toNat]
        have twice : ∀ word : UInt64, max word word = word := fun word => ite_self word
        simp only [pair, numeral?_repr fits, Option.elim_some, same, twice, number]
      simp only [number]
      refine ⟨writer.pairs.length, writer.pairs.length + 1,
        reader.pair (writer.pairs.length + 1).repr ⟨writer.pairs.length⟩, ?_,
        paired.push inside new counter written read, ?_, ?_, ?_, _, rfl⟩
      · simp only [markerFor, unread, Model.newMarker, made, paired.made]
      · rw [paired.made]
        exact Nat.le_succ _
      · rw [written]
        exact List.suffix_cons _ _
      · rw [written]
        simp

end Paired

end ConceptualGraph.MarkerTable
