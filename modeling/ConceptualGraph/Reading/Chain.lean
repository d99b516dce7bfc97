/-
Module: ConceptualGraph.Reading.Chain
Purpose: The statements of the linear form: chains of concepts and relations with
  arrows between them, and fans of branches that share their first concept.
Main exports: Read.chainTail, Read.fan, Read.statements
-/
import ConceptualGraph.Reading.Graph

namespace ConceptualGraph.Read

variable (setting : Setting)

/-! ## Arrows -/

/-- Which way an arrow points. -/
inductive Direction where
  | right
  | left
  deriving DecidableEq, Repr

/-- The way in which a token points, if it is an arrow. -/
def Direction.ofToken? : Token → Option Direction
  | .punct .rightArrow => some .right
  | .punct .leftArrow => some .left
  | _ => none

/-- The arguments of a relation between two concepts of a chain. -/
def Direction.order (direction : Direction) (before after : ConceptId) : List ConceptId :=
  match direction with
  | .right => [before, after]
  | .left => [after, before]

/-- The way in which the next token points, if it is an arrow. -/
def arrowAhead : Read (Option Direction) := do
  return Direction.ofToken? (← peek)

/-- Whether three tokens begin an arrow with a number. -/
def isNumberedArc : Token → Token → Token → Bool
  | .punct .hyphen, .int _, _ => true
  | .punct .leftArrow, .int _, _ => true
  | .punct .hyphen, .punct .hyphen, .int _ => true
  | .punct .hyphen, .punct .leftArrow, .int _ => true
  | _, _, _ => false

/-- Fails if an arrow with a number follows. -/
def refuseNumberedArc : Read Unit := do
  if isNumberedArc (← ahead 0) (← ahead 1) (← ahead 2) then fail .numberedArc

/-! ## Nodes of a chain -/

/-- A concept or bound label that has to follow. -/
def target (room : Room) (graph : GraphId) : Read ConceptId := do
  match ← arc (concept setting room) (some graph) with
  | some concept => return concept
  | none => fail (.expected .target)

/-- A relation as it stands in a chain: the token where it begins, its type and its
comment.  Its arguments stand around it. -/
structure RelationNode where
  found : Located
  type : RelationType
  comment : Option String

/-- Whether a relation of a chain follows. -/
def relationNodeAhead : Read Bool := do
  return (← peek) = .punct .leftParen && (← relationTypeAhead 1)

/-- A relation of a chain that has to follow, without its arguments.  It opens no
bracket of its own, so a definition in it has all the room there is. -/
def relationNode (room : Room) : Read RelationNode := do
  if ← relationNodeAhead then
    let found ← located 0
    advance
    let type ← relationType setting (lambda setting room)
    let comment ← nodeComment .relation
    expect (.punct .rightParen) .relationClosing
    return { found, type, comment }
  else fail (.expected .relation)

/-- Makes the relation of a node and puts it into a graph. -/
def connect (graph : GraphId) (node : RelationNode) (args : List ConceptId) : Read Unit := do
  let relation ← makeRelation node.found node.type args .relation node.comment
  edit (·.addRelation graph relation)

/-! ## Chains and fans

A chain goes on from its last concept.  Where it ends in a hyphen, a fan of branches
follows, each of which may be a chain of its own; a comma closes the innermost fan.
Every step consumes a token, so one step more than there are tokens is never used
up. -/

mutual

/-- What follows a concept in a chain. -/
def chainTail (room : Room) (graph : GraphId) : (steps : Nat) → ConceptId → Read Unit
  | 0, _ => return
  | steps + 1, head => do
      refuseNumberedArc
      match ← arrowAhead with
      | some into =>
          advance
          let node ← relationNode setting room
          refuseNumberedArc
          match ← arrowAhead with
          | none => connect graph node [head]
          | some out =>
              let found ← located 0
              advance
              if into ≠ out then failAt found .opposedArrows
              let next ← target setting room graph
              connect graph node (into.order head next)
              chainTail room graph steps next
      | none =>
          if ← eat (.punct .hyphen) then fan room graph steps head true

/-- The branches that follow a hyphen, with the arguments that `head` gives them.  The
first branch may not be missing. -/
def fan (room : Room) (graph : GraphId) :
    (steps : Nat) → (head : ConceptId) → (first : Bool) → Read Unit
  | 0, _, _ => return
  | steps + 1, head, first => do
      refuseNumberedArc
      if ← relationNodeAhead then
        let node ← relationNode setting room
        refuseNumberedArc
        match ← arrowAhead with
        | some direction =>
            advance
            let next ← target setting room graph
            connect graph node (direction.order head next)
            chainTail room graph steps next
        | none => connect graph node [head]
        fan room graph steps head false
      else if first then fail (.expected .branch)
      else
        let _ ← eat (.punct .comma)

end

/-- What follows a concept in a chain, to the end of the chain. -/
def tail (room : Room) (graph : GraphId) (head : ConceptId) : Read Unit := do
  chainTail setting room graph ((← get).rest.length + 1) head

/-- A chain that begins with a concept. -/
def chain (room : Room) (graph : GraphId) : Read Unit := do
  let head ← target setting room graph
  tail setting room graph head

/-- A chain that begins with a relation, which then has at most one argument. -/
def relationChain (room : Room) (graph : GraphId) : Read Unit := do
  let node ← relationNode setting room
  refuseNumberedArc
  match ← arrowAhead with
  | none => connect graph node []
  | some _ =>
      advance
      let head ← target setting room graph
      connect graph node [head]
      tail setting room graph head

/-! ## Statements -/

/-- The end of a statement: a full stop or question mark, unless the bracket around
the graph is about to close. -/
def statementEnd : Read Unit := do
  match ← peek with
  | .punct .dot | .punct .question => advance
  | .punct .rightBracket | .punct .rightParen => return
  | _ => fail (.expected .statementEnd)

/-- A statement without its end, if one follows. -/
def statement (room : Room) (graph : GraphId) : Read Bool := do
  match ← peek with
  | .punct .leftBracket | .boundLabel _ =>
      chain setting room graph
      return true
  | .punct .tilde => relationInto graph (negation setting room graph)
  | .punct .leftParen =>
      if ← relationNodeAhead then
        relationChain setting room graph
        return true
      else return false
  | .punct .leftAngle => relationInto graph (actor setting room (some graph))
  | _ => return false

/-- Statements and comments as long as there are any, at most as many as there are
tokens. -/
def statements (room : Room) (graph : GraphId) : (tokens : Nat) → Read Unit
  | 0 => return
  | tokens + 1 => do
      if ← graphComment graph then
        statements room graph tokens
      else if ← statement setting room graph then
        statementEnd
        statements room graph tokens

end ConceptualGraph.Read
