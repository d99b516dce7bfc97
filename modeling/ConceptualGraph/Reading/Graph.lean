/-
Module: ConceptualGraph.Reading.Graph
Purpose: The items of a graph in the interchange form, and the two kinds of context
  that both forms share: contexts under a label, and negations.
Main exports: Read.specialContext, Read.negation, Read.bracketItems
-/
import ConceptualGraph.Reading.Relation

namespace ConceptualGraph.Read

variable (setting : Setting)

/-! ## Contexts -/

/-- A context after its opening bracket and its label. -/
def contextBody (inside : Inside) (graph : GraphId) (label : ContextLabel) :
    Read ConceptId := do
  let _ ← eat (.punct .colon)
  let concept ← make (·.newConcept none)
  edit (·.addConcept graph concept)
  edit (·.modifyConcept concept fun data => { data with special := some label.spelling })
  if let some body ← descriptor inside concept then
    edit (·.setReferent concept { descriptor := some body })
  expect (.punct .rightBracket) .contextClosing
  return concept

/-- A context under a label, `[If …]`.  The label of an alternative is reserved and
has no meaning. -/
def specialContext (room : Room) (graph : GraphId) : Read (Option ConceptId) := do
  match ← peek, ← ahead 1 with
  | .punct .leftBracket, .keyword (.context .elseLabel) => failAt (← located 1) .reservedElse
  | .punct .leftBracket, .keyword (.context label) =>
      let inside ← descend setting room
      advance
      advance
      let context ← contextBody inside graph label
      ascend room
      return some context
  | _, _ => return none

/-- The label of the type of negations. -/
def negationLabel : String := "Neg"

/-- The type of negations, made with one argument if the hierarchy has none. -/
def negationType : Read RelationType := do
  let hierarchy := (← model).hierarchy
  match hierarchy.relations.find? negationLabel with
  | some type => return type
  | none =>
      match hierarchy.relations.createOnDemand negationLabel with
      | .ok (type, relations) =>
          let relations := relations.setValence type 1
          edit fun model => { model with hierarchy := { hierarchy with relations } }
          return type
      | .error error => throw (.hierarchy error)

/-- A negation after its tilde and opening bracket. -/
def negationBody (inside : Inside) (graph : GraphId) : Read RelationId := do
  let concept ← make (·.newConcept none)
  edit (·.modifyConcept concept fun data => { data with hidden := true })
  edit (·.addConcept graph concept)
  let body ←
    match ← descriptor inside concept with
    | some body => pure body
    | none => make (·.newGraph (some concept))
  edit (·.setReferent concept { descriptor := some body })
  expect (.punct .rightBracket) .negationClosing
  let type ← negationType
  make (·.newRelation (some type) [concept] .relation)

/-- A negation, `~[…]`: a relation, not yet put into the graph, on a hidden concept
that the negated graph describes. -/
def negation (room : Room) (graph : GraphId) : Read (Option RelationId) := do
  match ← peek, ← ahead 1 with
  | .punct .tilde, .punct .leftBracket =>
      let inside ← descend setting room
      advance
      advance
      let negation ← negationBody inside graph
      ascend room
      return some negation
  | .punct .tilde, _ => failAt (← located 1) .bareTilde
  | _, _ => return none

/-! ## Items -/

/-- Reads a relation or actor into a graph, and says whether there was one. -/
def relationInto (graph : GraphId) (production : Read (Option RelationId)) : Read Bool := do
  match ← production with
  | some relation =>
      edit (·.addRelation graph relation)
      return true
  | none => return false

/-- Reads a comment into a graph, and says whether there was one. -/
def graphComment (graph : GraphId) : Read Bool := do
  match ← peek with
  | .formalComment text =>
      advance
      edit (·.addComment graph text)
      return true
  | _ => return false

/-- The first of several productions that finds something to read, and whether one
did. -/
def firstOf : List (Read Bool) → Read Bool
  | [] => return false
  | production :: others => do
      if ← production then return true else firstOf others

/-- The productions of which a graph in the interchange form is made. -/
def bracketProductions (room : Room) (graph : GraphId) : List (Read Bool) :=
  [ return (← concept setting room (some graph)).isSome,
    return (← specialContext setting room graph).isSome,
    relationInto graph (negation setting room graph),
    relationInto graph (relation setting room (some graph)),
    relationInto graph (actor setting room (some graph)),
    graphComment graph ]

/-- Items as long as there are any, at most as many as there are tokens. -/
def bracketItems (room : Room) (graph : GraphId) : (tokens : Nat) → Read Unit
  | 0 => return
  | tokens + 1 => do
      if ← firstOf (bracketProductions setting room graph) then
        bracketItems room graph tokens

end ConceptualGraph.Read
