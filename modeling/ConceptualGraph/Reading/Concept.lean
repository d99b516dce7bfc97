/-
Module: ConceptualGraph.Reading.Concept
Purpose: Concepts in brackets: a type, labels, a referent and a comment.
Main exports: Read.descriptor, Read.referent, Read.concept
-/
import ConceptualGraph.Reading.Type

namespace ConceptualGraph.Read

variable (setting : Setting)

/-! ## Referents -/

/-- The quantifier that a word names, if the word is reserved for one. -/
def quantifierOfWord (word : String) : Quantifier :=
  let folded := String.ofList (word.toList.map Char.toLower)
  if folded = "every" then .every
  else if folded = "some" then .some
  else .named word

/-- A quantifier, if one is given. -/
def quantifier : Read (Option Quantifier) := do
  if ← eat (.punct .atSign) then
    match ← peek with
    | .ident word =>
        advance
        return some (quantifierOfWord word)
    | .int (.ofNat number) =>
        advance
        return some (.count number)
    | _ => fail (.expected .quantifier)
  else return none

/-- An encoded literal after its sign. -/
def encodedLiteral : Read Literal := do
  match ← peek with
  | .ident encoding =>
      advance
      match ← peek with
      | .str payload =>
          advance
          return .encoded encoding payload
      | _ => fail (.expected (.payload encoding))
  | _ => fail (.expected .encodingName)

/-- The marker that the digits of a marker token stand for.  Without digits it is a
new one. -/
def markerOf (digits : Option String) : Read MarkerId := do
  match digits with
  | none => make (·.newMarker)
  | some foreign =>
      let reader ← get
      let (marker, markers, model) := reader.markers.markerFor foreign reader.model
      set { reader with markers, model }
      return marker

/-- The designator that a token gives by itself, if it gives one. -/
def designatorOf (found : Located) : Read (Option Designator) := do
  match found.token with
  | .int value => return some (.literal (.number (.int value)))
  | .float text => return some (.literal (.number (.float (.ofDecimal text))))
  | .str text => return some (.literal (.string text))
  | .name text | .ident text => return some (.name text)
  | .marker digits => return some (.marker (← markerOf digits))
  | .boundLabel label =>
      match ← definingConcept? label with
      | some concept => return some (.defined concept)
      | none => failAt found (.unboundDesignator label)
  | _ => return none

/-- A designator, if one is given. -/
def designator : Read (Option Designator) := do
  if ← eat (.punct .percent) then
    return some (.literal (← encodedLiteral))
  else
    let designator ← designatorOf (← located 0)
    if designator.isSome then advance
    return designator

/-- The nested graph that describes a concept, if one is given. -/
def descriptor (inside : Inside) (owner : ConceptId) : Read (Option GraphId) := do
  if startsItem (← peek) then
    let graph ← make (·.newGraph (some owner))
    inContext (inside.items graph)
    return some graph
  else return none

/-- The referent of a concept; one that says nothing is left away. -/
def referent (inside : Inside) (concept : ConceptId) : Read Unit := do
  let quantifier ← quantifier
  let designator ← designator
  let descriptor ← descriptor inside concept
  let referent : Referent := { quantifier, designator, descriptor }
  unless referent.isEmpty do edit (·.setReferent concept referent)

/-! ## Labels -/

/-- Bound labels, each of which puts the concept into a coreference set; at most as
many as there are tokens. -/
def boundLabels (concept : ConceptId) : (tokens : Nat) → Read Unit
  | 0 => return
  | tokens + 1 => do
      match ← peek with
      | .boundLabel label =>
          let found ← located 0
          advance
          join found label concept
          boundLabels concept tokens
      | _ => return

/-- The labels of a concept: one defining label, or any number of bound ones. -/
def conceptLabels (concept : ConceptId) : Read Unit := do
  match ← peek with
  | .defLabel label =>
      if (← labels).isBound label then fail (.duplicateLabel label)
      else
        advance
        bindLabel label (.concept concept)
  | _ => boundLabels concept (← get).rest.length

/-! ## Concepts -/

/-- A comment inside a node of a kind, if one is given. -/
def nodeComment (node : NodeKind) : Read (Option String) := do
  match ← peek with
  | .nodeComment kind text =>
      if kind = node then
        advance
        return some text
      else return none
  | _ => return none

/-- A concept after its opening bracket. -/
def conceptBody (inside : Inside) (graph : Option GraphId) : Read ConceptId := do
  let type ← conceptType setting inside.lambda
  let concept ← make (·.newConcept type)
  if let some graph := graph then edit (·.addConcept graph concept)
  let _ ← eat (.punct .colon)
  conceptLabels concept
  referent inside concept
  if let some comment ← nodeComment .concept then
    edit (·.modifyConcept concept fun data => { data with comment := some comment })
  expect (.punct .rightBracket) .conceptClosing
  return concept

/-- A concept, put into a graph if there is one.  A bracket with a context label is
not a concept. -/
def concept (room : Room) (graph : Option GraphId) : Read (Option ConceptId) := do
  match ← peek, ← ahead 1 with
  | .punct .leftBracket, .keyword (.context _) => return none
  | .punct .leftBracket, .keyword .scope =>
      failAt (← located 1) (.reservedMarker .scope)
  | .punct .leftBracket, .keyword .typeMacro =>
      failAt (← located 1) (.reservedMarker .typeMacro)
  | .punct .leftBracket, _ =>
      let inside ← descend setting room
      advance
      let concept ← conceptBody setting inside graph
      ascend room
      return some concept
  | _, _ => return none

end ConceptualGraph.Read
