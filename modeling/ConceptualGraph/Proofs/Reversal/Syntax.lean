/-
Module: ConceptualGraph.Proofs.Reversal.Syntax
Purpose: Chains of the linear form whose concepts are written in place, without labels and nested
  graphs; and such a chain read from its other end, with every arrow turned round.
Main exports: InlineConcept, InlineConcept.tokens, ChainArc, Chain, Chain.tokens, Chain.reverse,
  Chain.concepts_reverse, Chain.arcs_reverse
-/
import ConceptualGraph.Reading.Chain

namespace ConceptualGraph

open Read (Direction quantifierOfWord)

/-- The comment of a node, if it has one. -/
def commentTokens (node : NodeKind) (comment : Option String) : List Token :=
  (comment.map (Token.nodeComment node)).toList

/-! ## Concepts in place -/

/-- A quantifier as it stands after its sign. -/
inductive InlineQuantifier where
  | word (text : String)
  | count (number : Nat)
  deriving DecidableEq, Repr

namespace InlineQuantifier

def tokens : InlineQuantifier → List Token
  | .word text => [.punct .atSign, .ident text]
  | .count number => [.punct .atSign, .int number]

/-- What a quantifier says. -/
def value : InlineQuantifier → Quantifier
  | .word text => quantifierOfWord text
  | .count number => .count number

end InlineQuantifier

/-- A designator that is not given by a label: a literal, a name or a marker. -/
inductive InlineDesignator where
  | int (value : Int)
  | float (text : String)
  | string (text : String)
  | encoded (encoding payload : String)
  /-- A name between quotes. -/
  | name (text : String)
  /-- A name that is a word. -/
  | word (text : String)
  | marker (digits : Option String)
  deriving DecidableEq, Repr

namespace InlineDesignator

def tokens : InlineDesignator → List Token
  | .int value => [.int value]
  | .float text => [.float text]
  | .string text => [.str text]
  | .encoded encoding payload => [.punct .percent, .ident encoding, .str payload]
  | .name text => [.name text]
  | .word text => [.ident text]
  | .marker digits => [.marker digits]

/-- What a designator stands for, if its digits stand for a marker of the model. -/
def value (marker : MarkerId) : InlineDesignator → Designator
  | .int value => .literal (.number (.int value))
  | .float text => .literal (.number (.float (.ofDecimal text)))
  | .string text => .literal (.string text)
  | .encoded encoding payload => .literal (.encoded encoding payload)
  | .name text | .word text => .name text
  | .marker _ => .marker marker

/-- The digits of a marker, which may have none. -/
def digits? : InlineDesignator → Option (Option String)
  | .marker digits => some digits
  | _ => none

end InlineDesignator

/-- A concept with the label of its type, written in place. -/
structure InlineConcept where
  type : String
  /-- Whether there is a colon after the type. -/
  colon : Bool := true
  quantifier : Option InlineQuantifier := none
  designator : Option InlineDesignator := none
  comment : Option String := none
  deriving DecidableEq, Repr

namespace InlineConcept

variable (concept : InlineConcept)

/-- The tokens of a concept from its colon on. -/
def bodyTokens : List Token :=
  (if concept.colon then [.punct .colon] else []) ++
    (concept.quantifier.elim [] InlineQuantifier.tokens ++
      (concept.designator.elim [] InlineDesignator.tokens ++
        (commentTokens .concept concept.comment ++ [.punct .rightBracket])))

def tokens : List Token :=
  .punct .leftBracket :: .ident concept.type :: concept.bodyTokens

/-- The digits of the marker that designates a concept, if one does. -/
def digits? : Option (Option String) :=
  concept.designator.bind InlineDesignator.digits?

/-- What a concept refers to, if the digits in it stand for a marker of the model. -/
def referent (marker : MarkerId) : Option Referent :=
  let referent : Referent :=
    { quantifier := concept.quantifier.map InlineQuantifier.value
      designator := concept.designator.map (InlineDesignator.value marker) }
  if referent.isEmpty then none else some referent

end InlineConcept

/-! ## Arcs -/

/-- The arrow that points in a direction. -/
def Read.Direction.mark : Direction → Punct
  | .right => .rightArrow
  | .left => .leftArrow

/-- The other direction. -/
def Read.Direction.flip : Direction → Direction
  | .right => .left
  | .left => .right

@[simp] theorem Read.Direction.ofToken?_mark (direction : Direction) :
    Direction.ofToken? (.punct direction.mark) = some direction := by
  cases direction <;> rfl

/-- Two concepts are arguments in one order, whichever of them comes first in a chain. -/
@[simp] theorem Read.Direction.order_flip (direction : Direction) (before after : ConceptId) :
    direction.flip.order after before = direction.order before after := by
  cases direction <;> rfl

/-- A handle keeps the order of the arguments. -/
theorem Read.Direction.map_order (direction : Direction) (before after : ConceptId)
    (handle : ConceptId → ConceptId) :
    (direction.order before after).map handle = direction.order (handle before) (handle after) := by
  cases direction <;> rfl

/-- A relation between two concepts of a chain, with an arrow on each side of it. -/
structure ChainArc where
  direction : Direction
  type : String
  comment : Option String := none
  deriving DecidableEq, Repr

namespace ChainArc

variable (arc : ChainArc)

def tokens : List Token :=
  .punct arc.direction.mark :: .punct .leftParen :: .ident arc.type ::
    (commentTokens .relation arc.comment ++ [.punct .rightParen, .punct arc.direction.mark])

/-- The relation with its arrows turned round. -/
def flip : ChainArc :=
  { arc with direction := arc.direction.flip }

end ChainArc

/-! ## Chains -/

/-- A chain: a concept, and relations each with the concept at its other end. -/
structure Chain where
  head : InlineConcept
  links : List (ChainArc × InlineConcept) := []
  deriving DecidableEq, Repr

namespace Chain

variable (chain : Chain)

/-- The concepts of a chain from its beginning to its end. -/
def concepts : List InlineConcept :=
  chain.head :: chain.links.map Prod.snd

/-- The relations of a chain from its beginning to its end. -/
def arcs : List ChainArc :=
  chain.links.map Prod.fst

def linkTokens (links : List (ChainArc × InlineConcept)) : List Token :=
  links.flatMap fun link => link.1.tokens ++ link.2.tokens

/-- A chain as a statement. -/
def tokens : List Token :=
  chain.head.tokens ++ (linkTokens chain.links ++ [.punct .dot])

@[simp] theorem length_concepts : chain.concepts.length = chain.arcs.length + 1 := by
  simp [concepts, arcs]

/-! ### The other way round -/

/-- What is left of a chain is turned round and put in front of what has been turned round. -/
def turn : InlineConcept → (links done : List (ChainArc × InlineConcept)) → Chain
  | head, [], done => { head, links := done }
  | head, (arc, next) :: links, done => turn next links ((arc.flip, head) :: done)

/-- A chain from its end to its beginning. -/
def reverse : Chain :=
  turn chain.head chain.links []

/-- Turning a chain reverses its concepts. -/
theorem concepts_turn (head : InlineConcept) (links done : List (ChainArc × InlineConcept)) :
    (turn head links done).concepts =
      (head :: links.map Prod.snd).reverse ++ done.map Prod.snd := by
  induction links generalizing head done with
  | nil => rfl
  | cons link links ih => simp [turn, ih]

/-- Turning a chain reverses and flips its arcs. -/
theorem arcs_turn (head : InlineConcept) (links done : List (ChainArc × InlineConcept)) :
    (turn head links done).arcs =
      (links.map fun link => link.1.flip).reverse ++ done.map Prod.fst := by
  induction links generalizing head done with
  | nil => rfl
  | cons link links ih => simp [turn, ih]

@[simp] theorem concepts_reverse : chain.reverse.concepts = chain.concepts.reverse := by
  rw [reverse, concepts_turn, List.map_nil, List.append_nil, concepts]

@[simp] theorem arcs_reverse : chain.reverse.arcs = (chain.arcs.map ChainArc.flip).reverse := by
  rw [reverse, arcs_turn, List.map_nil, List.append_nil, arcs, List.map_map]
  rfl

end Chain

end ConceptualGraph
