/-
Module: ConceptualGraph.Proofs.Marker.Maps
Purpose: Markers that are kept in a map for each direction: however the two maps are overwritten
  one after the other, each of them stays the inverse of the other one.
Main exports: MarkerMaps, MarkerMaps.pair, MarkerMaps.run, MarkerMaps.Represents,
  MarkerMaps.inverse_run
-/
import ConceptualGraph.Proofs.Marker.Table

namespace ConceptualGraph

instance : Hashable MarkerId := ⟨fun marker => hash marker.index⟩

/-! ## Maps -/

/-- The markers of a session by their identifiers, and the identifiers by their markers. -/
structure MarkerMaps where
  byForeign : Std.HashMap String MarkerId := {}
  byMarker : Std.HashMap MarkerId String := {}
  counter : UInt64 := 0

namespace MarkerMaps

/-- A map without a key, if one is given. -/
def release {α β : Type} [BEq α] [Hashable α] (map : Std.HashMap α β) :
    Option α → Std.HashMap α β
  | none => map
  | some key => map.erase key

/-- Pairs an identifier with a marker.  Each map is overwritten in turn, and what it gave up for
that is removed from the other one. -/
def pair (maps : MarkerMaps) (foreign : String) (marker : MarkerId) : MarkerMaps :=
  let formerMarker := maps.byForeign[foreign]?
  let byForeign := maps.byForeign.insert foreign marker
  let byMarker := release maps.byMarker formerMarker
  let formerForeign := byMarker[marker]?
  let byMarker := byMarker.insert marker foreign
  let byForeign := release byForeign formerForeign
  { byForeign, byMarker
    counter := (MarkerTable.numeral? foreign).elim maps.counter (max maps.counter) }

/-- The marker that an identifier stands for, made and paired if there is none. -/
def markerFor (maps : MarkerMaps) (foreign : String) (model : Model) :
    MarkerId × MarkerMaps × Model :=
  match maps.byForeign[foreign]? with
  | some marker => (marker, maps, model)
  | none =>
      let (marker, model) := model.newMarker
      (marker, maps.pair foreign marker, model)

/-- The first number after `counter` whose numeral is not paired, provided that at most `paired`
numerals are. -/
def nextNumber (maps : MarkerMaps) : (paired : Nat) → (counter : UInt64) → UInt64
  | 0, counter => counter + 1
  | paired + 1, counter =>
      if maps.byForeign.contains (counter + 1).toNat.repr then
        maps.nextNumber paired (counter + 1)
      else counter + 1

/-- The identifier of a marker, counted out and paired if there is none. -/
def foreignIdFor (maps : MarkerMaps) (marker : MarkerId) : String × MarkerMaps :=
  match maps.byMarker[marker]? with
  | some foreign => (foreign, maps)
  | none =>
      let number := maps.nextNumber maps.byForeign.size maps.counter
      let foreign := number.toNat.repr
      (foreign, { maps with counter := number }.pair foreign marker)

/-- Maps after an operation. -/
def apply : MarkerTable.Operation → MarkerMaps → MarkerMaps
  | .markerFor foreign model, maps => (maps.markerFor foreign model).2.1
  | .pair foreign marker, maps => maps.pair foreign marker
  | .foreignIdFor marker, maps => (maps.foreignIdFor marker).2
  | .reset, _ => {}

/-- Maps after operations, the first one first. -/
def run (operations : List MarkerTable.Operation) (maps : MarkerMaps) : MarkerMaps :=
  operations.foldl (fun maps operation => apply operation maps) maps

/-! ## Maps and tables -/

/-- Only the key that is released is lost. -/
theorem getElem?_release {α β : Type} [BEq α] [LawfulBEq α] [Hashable α] [DecidableEq α]
    (map : Std.HashMap α β) (former : Option α) (key : α) :
    (release map former)[key]? = if former = some key then none else map[key]? := by
  cases former with
  | none => simp [release]
  | some other => simp [release, Std.HashMap.getElem?_erase]

/-- Whether maps say what a table says. -/
structure Represents (maps : MarkerMaps) (table : MarkerTable) : Prop where
  markers : ∀ foreign : String, maps.byForeign[foreign]? = table.marker? foreign
  foreignIds : ∀ marker : MarkerId, maps.byMarker[marker]? = table.foreignId? marker
  counter : maps.counter = table.counter

theorem Represents.empty : Represents {} {} :=
  ⟨fun _ => Std.HashMap.getElem?_empty, fun _ => Std.HashMap.getElem?_empty, rfl⟩

namespace Represents

variable {maps : MarkerMaps} {table : MarkerTable} (represents : maps.Represents table)
  (distinct : table.Distinct)

include represents distinct

/-- There are as many identifiers in the map as there are pairs in the table. -/
theorem size : maps.byForeign.size = table.pairs.length := by
  have keys : maps.byForeign.toList.Nodup :=
    Std.HashMap.distinct_keys_toList.imp fun apart same => by simp [same] at apart
  have pairs : table.pairs.Nodup := List.Nodup.of_map _ distinct.foreign
  have same : maps.byForeign.toList.Perm table.pairs := by
    refine (List.perm_ext_iff_of_nodup keys pairs).mpr fun pair => ?_
    rw [Std.HashMap.mem_toList_iff_getElem?_eq_some, represents.markers,
      distinct.marker?_eq_some_iff]
  rw [← Std.HashMap.length_toList, same.length_eq]

/-- The other identifier that the marker had, if it had one, is given up. -/
theorem formerForeign_iff {foreign other : String} {marker : MarkerId} :
    (release maps.byMarker (table.marker? foreign))[marker]? = some other ↔
      other ≠ foreign ∧ table.marker? other = some marker := by
  rw [getElem?_release, represents.foreignIds]
  simp only [distinct.marker?_iff_foreignId?]
  split
  · next here => simp [here, eq_comm]
  · next apart =>
    exact (and_iff_right_of_imp fun found same => apart (by rw [found, same])).symm

/-- Pairing does the same to two maps as to the one list of pairs. -/
theorem pair (foreign : String) (marker : MarkerId) :
    (maps.pair foreign marker).Represents (table.pair foreign marker) where
  markers other := by
    rw [distinct.marker?_pair]
    change (release (maps.byForeign.insert foreign marker)
      (release maps.byMarker maps.byForeign[foreign]?)[marker]?)[other]? = _
    rw [getElem?_release, represents.markers]
    simp only [represents.formerForeign_iff distinct, Std.HashMap.getElem?_insert,
      represents.markers]
    by_cases same : other = foreign
    · simp [same]
    · simp [same, Ne.symm same]
  foreignIds other := by
    rw [distinct.foreignId?_pair]
    change ((release maps.byMarker maps.byForeign[foreign]?).insert marker foreign)[other]? = _
    rw [Std.HashMap.getElem?_insert, getElem?_release, represents.markers, represents.foreignIds]
    by_cases same : other = marker
    · simp [same]
    · simp [same, Ne.symm same, distinct.marker?_iff_foreignId?]
  counter := congrArg (fun counter => (MarkerTable.numeral? foreign).elim counter (max counter))
    represents.counter

/-- The same marker is found or made. -/
theorem markerFor (foreign : String) (model : Model) :
    (maps.markerFor foreign model).1 = (table.markerFor foreign model).1 ∧
      (maps.markerFor foreign model).2.1.Represents (table.markerFor foreign model).2.1 := by
  unfold MarkerMaps.markerFor MarkerTable.markerFor
  rw [represents.markers]
  cases table.marker? foreign with
  | some marker => exact ⟨rfl, represents⟩
  | none => exact ⟨rfl, represents.pair distinct _ _⟩

omit distinct in
/-- The maps come to the same next number as the table. -/
theorem nextNumber_eq (paired : Nat) (counter : UInt64) :
    maps.nextNumber paired counter = table.nextNumber paired counter := by
  induction paired generalizing counter with
  | zero => rfl
  | succ paired ih =>
      rw [MarkerMaps.nextNumber, MarkerTable.nextNumber, ih,
        Std.HashMap.contains_eq_isSome_getElem?, represents.markers]

/-- The same identifier is found or counted out. -/
theorem foreignIdFor (marker : MarkerId) :
    (maps.foreignIdFor marker).1 = (table.foreignIdFor marker).1 ∧
      (maps.foreignIdFor marker).2.Represents (table.foreignIdFor marker).2 := by
  unfold MarkerMaps.foreignIdFor MarkerTable.foreignIdFor
  rw [represents.foreignIds]
  cases table.foreignId? marker with
  | some foreign => exact ⟨rfl, represents⟩
  | none =>
      have number := represents.nextNumber_eq table.pairs.length table.counter
      rw [represents.size distinct, represents.counter, number]
      have counted : ({ maps with
          counter := table.nextNumber table.pairs.length table.counter } : MarkerMaps).Represents
            { table with counter := table.nextNumber table.pairs.length table.counter } :=
        ⟨represents.markers, represents.foreignIds, rfl⟩
      exact ⟨rfl, counted.pair ⟨distinct.foreign, distinct.marker⟩ _ _⟩

/-- Every operation does the same to the maps as to the table. -/
theorem apply (operation : MarkerTable.Operation) :
    (MarkerMaps.apply operation maps).Represents (operation.apply table) := by
  cases operation with
  | markerFor foreign model => exact (represents.markerFor distinct foreign model).2
  | pair foreign marker => exact represents.pair distinct foreign marker
  | foreignIdFor marker => exact (represents.foreignIdFor distinct marker).2
  | reset => exact .empty

end Represents

/-- Whatever is done to maps and to a table, the maps say what the table says. -/
theorem Represents.run {maps : MarkerMaps} {table : MarkerTable}
    (represents : maps.Represents table) (distinct : table.Distinct)
    (operations : List MarkerTable.Operation) :
    (run operations maps).Represents (MarkerTable.run operations table) := by
  induction operations generalizing maps table with
  | nil => exact represents
  | cons operation operations ih =>
      exact ih (represents.apply distinct operation) (distinct.apply operation)

/-- However the operations follow each other, an identifier is mapped to a marker exactly if the
marker is mapped to the identifier, and the maps say what the table of markers says. -/
theorem inverse_run (operations : List MarkerTable.Operation) :
    (∀ (foreign : String) (marker : MarkerId),
      (run operations {}).byForeign[foreign]? = some marker ↔
        (run operations {}).byMarker[marker]? = some foreign) ∧
    (run operations {}).Represents (MarkerTable.run operations {}) ∧
    ∀ foreign marker, (MarkerTable.run operations {}).marker? foreign = some marker ↔
      (MarkerTable.run operations {}).foreignId? marker = some foreign := by
  have distinct := MarkerTable.Distinct.empty.run operations
  have represents := Represents.empty.run .empty operations
  refine ⟨fun foreign marker => ?_, represents, fun _ _ => distinct.marker?_iff_foreignId?⟩
  rw [represents.markers, represents.foreignIds]
  exact distinct.marker?_iff_foreignId?

/-- An identifier goes to the marker of another one: the marker that it had is left without an
identifier, and the other identifier without a marker. -/
example :
    let table := MarkerTable.run [.pair "1" ⟨0⟩, .pair "2" ⟨1⟩, .pair "1" ⟨1⟩] {}
    table.marker? "1" = some ⟨1⟩ ∧ table.foreignId? ⟨1⟩ = some "1" ∧
      table.foreignId? ⟨0⟩ = none ∧ table.marker? "2" = none := by decide

end MarkerMaps

end ConceptualGraph
