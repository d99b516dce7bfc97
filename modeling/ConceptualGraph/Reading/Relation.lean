/-
Module: ConceptualGraph.Reading.Relation
Purpose: Relations in parentheses and actors in angle brackets.
Main exports: Read.arc, Read.checkValence, Read.relation, Read.actor
-/
import ConceptualGraph.Reading.Concept

namespace ConceptualGraph.Read

variable (setting : Setting)

/-- An argument, if one follows: a bound label, or a concept written in place as
`concept` reads it. -/
def arc (concept : Option GraphId → Read (Option ConceptId)) (graph : Option GraphId) :
    Read (Option ConceptId) := do
  match ← peek with
  | .boundLabel label =>
      let found ← located 0
      advance
      return some (← resolve found label graph)
  | .punct .leftBracket => concept graph
  | _ => return none

/-- The arguments that follow, at most as many as there are tokens. -/
def arcs (concept : Option GraphId → Read (Option ConceptId)) (graph : Option GraphId) :
    (tokens : Nat) → Read (List ConceptId)
  | 0 => return []
  | tokens + 1 => do
      match ← arc concept graph with
      | some argument => return argument :: (← arcs concept graph tokens)
      | none => return []

/-- Fails at a token unless a type takes a number of arguments. -/
def checkValence (found : Located) (type : RelationType) (count : Nat) : Read Unit := do
  let relations := (← model).hierarchy.relations
  match relations.valence? type with
  | some valence =>
      if valence ≠ count then
        failAt found (.valenceMismatch ((relations.label? type).getD "lambda") valence count)
  | none => return

/-- Makes a relation or actor after checking its valence. -/
def makeRelation (found : Located) (type : RelationType) (args : List ConceptId)
    (role : RelationRole) (comment : Option String) : Read RelationId := do
  checkValence found type args.length
  let relation ← make (·.newRelation (some type) args role)
  edit (·.modifyRelation relation fun data => { data with comment })
  return relation

/-- A relation, `(type argument …)`, not yet put into a graph. -/
def relation (room : Room) (graph : Option GraphId) : Read (Option RelationId) := do
  if (← peek) = .punct .leftParen && (← relationTypeAhead 1) then
    let inside ← descend setting room
    let found ← located 0
    advance
    let type ← relationType setting inside.lambda
    let args ← arcs inside.concept graph (← get).rest.length
    let comment ← nodeComment .relation
    expect (.punct .rightParen) .relationClosing
    let relation ← makeRelation found type args .relation comment
    ascend room
    return some relation
  else return none

/-- An actor after its opening bracket, `type input … | output …>`. -/
def actorBody (inside : Inside) (found : Located) (graph : Option GraphId) :
    Read RelationId := do
  unless ← relationTypeAhead 0 do fail (.expected .actorType)
  let type ← relationType setting inside.lambda
  let inputs ← arcs inside.concept graph (← get).rest.length
  expect (.punct .bar) .actorBar
  let outputs ← arcs inside.concept graph (← get).rest.length
  let comment ← nodeComment .actor
  expect (.punct .rightAngle) .actorClosing
  makeRelation found type (inputs ++ outputs) (.actor inputs.length) comment

/-- An actor, not yet put into a graph. -/
def actor (room : Room) (graph : Option GraphId) : Read (Option RelationId) := do
  if (← peek) = .punct .leftAngle then
    let inside ← descend setting room
    let found ← located 0
    advance
    let actor ← actorBody setting inside found graph
    ascend room
    return some actor
  else return none

end ConceptualGraph.Read
