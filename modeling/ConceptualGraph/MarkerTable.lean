/-
Module: ConceptualGraph.MarkerTable
Purpose: The markers of a session by the digits with which they are written.
Main exports: MarkerTable, MarkerTable.pair, MarkerTable.markerFor,
  MarkerTable.foreignIdFor
-/
import ConceptualGraph.Model
import ConceptualGraph.Text.Numeral

namespace ConceptualGraph

/-- The identifiers that markers have in written graphs.  No identifier and no
marker is paired twice.  The counter is a word of 64 bits: it is raised to every
numeral that is read, and fresh identifiers are counted on from it. -/
structure MarkerTable where
  pairs : List (String × MarkerId) := []
  counter : UInt64 := 0
  deriving DecidableEq, Repr, Inhabited

namespace MarkerTable

/-- The number that an identifier writes, if it writes an unsigned word: decimal
digits, after a plus sign or without one. -/
def numeral? (foreign : String) : Option UInt64 :=
  let digits :=
    match foreign.toList with
    | '+' :: digits => digits
    | digits => digits
  if digits.all Char.isDigit then
    match Text.natural? 10 digits with
    | some number => if number ≤ Text.largestUnsigned then some (UInt64.ofNat number) else none
    | none => none
  else none

/-- The marker that an identifier stands for. -/
def marker? (table : MarkerTable) (foreign : String) : Option MarkerId :=
  (table.pairs.find? (·.1 == foreign)).map Prod.snd

/-- The identifier of a marker. -/
def foreignId? (table : MarkerTable) (marker : MarkerId) : Option String :=
  (table.pairs.find? (·.2 == marker)).map Prod.fst

/-- Pairs an identifier with a marker; what either was paired with before is
unpaired. -/
def pair (table : MarkerTable) (foreign : String) (marker : MarkerId) : MarkerTable where
  pairs := (foreign, marker) :: table.pairs.filter fun former =>
    former.1 ≠ foreign ∧ former.2 ≠ marker
  counter := (numeral? foreign).elim table.counter (max table.counter)

/-- The marker that an identifier stands for, made and paired if there is none. -/
def markerFor (table : MarkerTable) (foreign : String) (model : Model) :
    MarkerId × MarkerTable × Model :=
  match table.marker? foreign with
  | some marker => (marker, table, model)
  | none =>
      let (marker, model) := model.newMarker
      (marker, table.pair foreign marker, model)

/-- The first number after `counter` whose numeral is not paired, provided that at
most `paired` numerals are. -/
def nextNumber (table : MarkerTable) : (paired : Nat) → (counter : UInt64) → UInt64
  | 0, counter => counter + 1
  | paired + 1, counter =>
      if (table.marker? (counter + 1).toNat.repr).isSome then
        table.nextNumber paired (counter + 1)
      else counter + 1

/-- The identifier of a marker, counted out and paired if there is none. -/
def foreignIdFor (table : MarkerTable) (marker : MarkerId) : String × MarkerTable :=
  match table.foreignId? marker with
  | some foreign => (foreign, table)
  | none =>
      let number := table.nextNumber table.pairs.length table.counter
      let foreign := number.toNat.repr
      (foreign, { table with counter := number }.pair foreign marker)

end MarkerTable

end ConceptualGraph
