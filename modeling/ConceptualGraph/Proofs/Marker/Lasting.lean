/-
Module: ConceptualGraph.Proofs.Marker.Lasting
Purpose: Neither reading nor writing a marker unpairs anything: what is read is paired with a marker
  that is new, and what is counted out was not paired, as long as there are numbers to count out.
Main exports: MarkerTable.Sound, MarkerTable.Vacant, MarkerTable.Keeps, MarkerTable.read,
  MarkerTable.Sound.read, MarkerTable.keeps_foreignIdFor
-/
import ConceptualGraph.Proofs.Copy.Markers
import ConceptualGraph.Proofs.Marker.Table

namespace ConceptualGraph.MarkerTable

variable {table later last : MarkerTable} {foreign : String} {marker : MarkerId} {markers : Nat}
  {model : Model}

/-! ## Reading -/

/-- A table that pairs no identifier and no marker twice, and only markers of an arena. -/
structure Sound (markers : Nat) (table : MarkerTable) : Prop extends table.Distinct where
  known : ∀ pair ∈ table.pairs, pair.2.index < markers

theorem Sound.empty : Sound markers {} := ⟨.empty, nofun⟩

theorem Sound.mono {more : Nat} (sound : table.Sound markers) (grown : markers ≤ more) :
    table.Sound more :=
  ⟨sound.toDistinct, fun pair member => Nat.lt_of_lt_of_le (sound.known pair member) grown⟩

/-- A table stays sound as one more marker of the model is paired. -/
theorem Sound.pair (sound : table.Sound markers) (foreign : String)
    (inside : marker.index < markers) : (table.pair foreign marker).Sound markers := by
  refine ⟨sound.toDistinct.pair foreign marker, fun other member => ?_⟩
  rcases mem_pairs_pair.mp member with rfl | ⟨former, -⟩
  · exact inside
  · exact sound.known other former

/-- What the digits of a marker token stand for.  Without digits it is a new marker. -/
def read (table : MarkerTable) (digits : Option String) (model : Model) :
    MarkerId × MarkerTable × Model :=
  match digits with
  | none => (model.newMarker.1, table, model.newMarker.2)
  | some foreign => table.markerFor foreign model

/-- Reading a marker leaves the concepts and their coreference sets alone. -/
theorem model_read (table : MarkerTable) (digits : Option String) (model : Model) :
    (table.read digits model).2.2 = model ∨ (table.read digits model).2.2 = model.newMarker.2 := by
  cases digits with
  | none => exact .inr rfl
  | some foreign =>
      change (table.markerFor foreign model).2.2 = _ ∨ (table.markerFor foreign model).2.2 = _
      unfold markerFor
      split
      · exact .inl rfl
      · exact .inr rfl

/-- What reading a marker does to a table and an arena. -/
structure Reads (table : MarkerTable) (digits : Option String) (model : Model)
    (marker : MarkerId) (later : MarkerTable) (grown : Model) : Prop where
  sound : later.Sound grown.markers
  pairs : table.pairs <:+ later.pairs
  paired : ∀ foreign, digits = some foreign → (foreign, marker) ∈ later.pairs
  markers : model.markers ≤ grown.markers
  inside : marker.index < grown.markers

/-- The marker that digits are paired with when they are read is new, so nothing is unpaired. -/
theorem Sound.read (sound : table.Sound model.markers) (digits : Option String) :
    table.Reads digits model (table.read digits model).1 (table.read digits model).2.1
      (table.read digits model).2.2 := by
  have grown : model.markers ≤ model.newMarker.2.markers := Nat.le_succ _
  cases digits with
  | none => exact ⟨sound.mono grown, List.suffix_rfl, nofun, grown, Nat.lt_succ_self _⟩
  | some foreign =>
      change table.Reads _ model (table.markerFor foreign model).1
        (table.markerFor foreign model).2.1 (table.markerFor foreign model).2.2
      unfold markerFor
      cases found : table.marker? foreign with
      | some marker =>
          have member := mem_of_marker? found
          refine ⟨sound, List.suffix_rfl, ?_, Nat.le_refl _, sound.known _ member⟩
          rintro _ ⟨⟩
          exact member
      | none =>
          have unread : ∀ pair ∈ table.pairs, pair.1 ≠ foreign ∧ pair.2 ≠ model.newMarker.1 :=
            fun pair member => ⟨marker?_eq_none_iff.mp found pair member, fun same =>
              Nat.ne_of_lt (sound.known pair member) (congrArg MarkerId.index same)⟩
          have pairs := Paired.pairs_pair foreign model.newMarker.1 unread
          refine ⟨(sound.mono grown).pair foreign (Nat.lt_succ_self _), ?_, ?_, grown,
            Nat.lt_succ_self _⟩
          · rw [pairs]
            exact List.suffix_cons _ _
          · rintro _ ⟨⟩
            rw [pairs]
            exact List.mem_cons_self

/-! ## Writing -/

/-- Whether some number may still be counted out, since its numeral is not paired. -/
def Vacant (table : MarkerTable) : Prop :=
  ∃ number : UInt64, table.marker? number.toNat.repr = none

/-- A table goes on as another one in which all pairs are kept, unless no number could be counted
out there any more. -/
def Keeps (table later : MarkerTable) : Prop :=
  later.Vacant → table.Vacant ∧ table.pairs <:+ later.pairs

theorem Keeps.refl (table : MarkerTable) : table.Keeps table := fun vacant =>
  ⟨vacant, List.suffix_rfl⟩

theorem Keeps.trans (first : table.Keeps later) (second : later.Keeps last) :
    table.Keeps last := fun vacant =>
  have ⟨between, further⟩ := second vacant
  have ⟨before, near⟩ := first between
  ⟨before, near.trans further⟩

/-- A table that stays vacant was so before. -/
theorem Vacant.of_suffix (vacant : later.Vacant) (pairs : table.pairs <:+ later.pairs) :
    table.Vacant := by
  obtain ⟨number, free⟩ := vacant
  exact ⟨number, marker?_eq_none_iff.mpr fun pair member =>
    marker?_eq_none_iff.mp free pair (pairs.subset member)⟩

theorem Keeps.of_suffix (pairs : table.pairs <:+ later.pairs) : table.Keeps later :=
  fun vacant => ⟨vacant.of_suffix pairs, pairs⟩

/-- The number that is counted out is free, unless all those that have been tried are paired. -/
theorem nextNumber_spec (count : Nat) (counter : UInt64) :
    table.marker? (table.nextNumber count counter).toNat.repr = none ∨
      ∀ place ≤ count,
        table.marker? (counter + 1 + UInt64.ofNat place).toNat.repr ≠ none := by
  induction count generalizing counter with
  | zero =>
      by_cases free : table.marker? (counter + 1).toNat.repr = none
      · exact .inl free
      · refine .inr fun place least => ?_
        obtain rfl := Nat.le_zero.mp least
        simpa using free
  | succ count ih =>
      rw [nextNumber]
      split
      · next taken =>
        refine (ih (counter + 1)).imp_right fun all place least => ?_
        cases place with
        | zero => simpa [Option.isSome_iff_ne_none] using taken
        | succ place =>
            have next := all place (Nat.le_of_succ_le_succ least)
            rwa [show counter + 1 + UInt64.ofNat (place + 1) =
              counter + 1 + 1 + UInt64.ofNat place by
                rw [UInt64.ofNat_add]; ac_rfl]
      · next free => exact .inl (by simpa using free)

/-- Where there are fewer pairs than numbers, one of those that are tried is free, as none is tried
twice. -/
theorem marker?_nextNumber_of_length (few : table.pairs.length < UInt64.size) :
    table.marker? (table.nextNumber table.pairs.length table.counter).toNat.repr = none := by
  refine (nextNumber_spec _ _).resolve_right fun taken => ?_
  let numeral (place : Nat) : String :=
    (table.counter + 1 + UInt64.ofNat place).toNat.repr
  have distinct : ((List.range (table.pairs.length + 1)).map numeral).Nodup := by
    refine List.Nodup.map_on (fun first one second two same => ?_) List.nodup_range
    rw [List.mem_range] at one two
    have equal := (UInt64.add_right_inj _).mp (UInt64.toNat_inj.mp (Text.repr_injective same))
    rw [← UInt64.toNat_ofNat_of_lt' (show first < UInt64.size by omega), equal,
      UInt64.toNat_ofNat_of_lt' (show second < UInt64.size by omega)]
  have among : (List.range (table.pairs.length + 1)).map numeral ⊆ table.pairs.map Prod.fst := by
    intro word member
    obtain ⟨place, here, rfl⟩ := List.mem_map.mp member
    have least := Nat.le_of_lt_succ (List.mem_range.mp here)
    obtain ⟨marker, found⟩ := Option.ne_none_iff_exists'.mp (taken place least)
    exact List.mem_map.mpr ⟨_, mem_of_marker? found, rfl⟩
  have fewer := (distinct.subperm among).length_le
  simp only [List.length_map, List.length_range] at fewer
  exact Nat.not_succ_le_self _ fewer

theorem Vacant.of_length (few : table.pairs.length < UInt64.size) : table.Vacant :=
  ⟨_, marker?_nextNumber_of_length few⟩

/-- Where any number is free, one that is tried is: else all numbers are. -/
theorem Vacant.marker?_nextNumber (vacant : table.Vacant) :
    table.marker? (table.nextNumber table.pairs.length table.counter).toNat.repr = none := by
  by_cases few : table.pairs.length < UInt64.size
  · exact marker?_nextNumber_of_length few
  refine (nextNumber_spec _ _).resolve_right fun taken => ?_
  obtain ⟨number, free⟩ := vacant
  have reached := taken (number - (table.counter + 1)).toNat
    (Nat.le_trans (Nat.le_of_lt (UInt64.toNat_lt_size _)) (Nat.le_of_not_lt few))
  have back : table.counter + 1 + (number - (table.counter + 1)) = number := by grind
  rw [UInt64.ofNat_toNat, back] at reached
  exact reached free

/-- Counting out an identifier unpairs nothing, as long as a number is free. -/
theorem keeps_foreignIdFor (marker : MarkerId) : table.Keeps (table.foreignIdFor marker).2 := by
  unfold foreignIdFor
  cases known : table.foreignId? marker with
  | some foreign => exact .refl _
  | none =>
      have unpaired := foreignId?_eq_none_iff.mp known
      let number := table.nextNumber table.pairs.length table.counter
      let counted : MarkerTable := { table with counter := number }
      rintro ⟨other, free⟩
      -- What was paired still is, if only with another marker.
      have vacant : table.Vacant := by
        refine ⟨other, marker?_eq_none_iff.mpr fun pair member same => ?_⟩
        have free := marker?_eq_none_iff.mp free
        by_cases taken : pair.1 = number.toNat.repr
        · exact free _ (mem_pairs_pair.mpr (.inl rfl)) (taken.symm.trans same)
        · exact free pair (mem_pairs_pair.mpr (.inr ⟨member, taken, unpaired pair member⟩)) same
      have unread := marker?_eq_none_iff.mp vacant.marker?_nextNumber
      refine ⟨vacant, ?_⟩
      have pairs : (counted.pair number.toNat.repr marker).pairs = _ :=
        Paired.pairs_pair _ _ fun pair member => ⟨unread pair member, unpaired pair member⟩
      change table.pairs <:+ (counted.pair number.toNat.repr marker).pairs
      rw [pairs]
      exact List.suffix_cons _ _

/-- The identifier with which a marker is written is paired with it. -/
theorem mem_foreignIdFor (marker : MarkerId) :
    ((table.foreignIdFor marker).1, marker) ∈ (table.foreignIdFor marker).2.pairs := by
  unfold foreignIdFor
  cases known : table.foreignId? marker with
  | some foreign => exact mem_of_foreignId? known
  | none => exact mem_pairs_pair.mpr (.inl rfl)

/-- An identifier is given to a marker that is there. -/
theorem Sound.foreignIdFor (sound : table.Sound markers) (inside : marker.index < markers) :
    (table.foreignIdFor marker).2.Sound markers := by
  refine ⟨sound.toDistinct.foreignIdFor marker, fun pair member => ?_⟩
  unfold MarkerTable.foreignIdFor at member
  split at member
  · exact sound.known pair member
  · rcases mem_pairs_pair.mp member with rfl | ⟨former, -⟩
    · exact inside
    · exact sound.known pair former

end ConceptualGraph.MarkerTable
