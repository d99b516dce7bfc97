/-
Module: ConceptualGraph.Proofs.Spread.Syntax
Purpose: Fans of the linear form, which share their first concept; and such a fan spread out, with a
  chain of its own for every branch, which begins with the label of the concept.
Main exports: RelationText, TargetText, TailText, BranchText, FanText, FanText.tokens,
  FanText.statements, Fan, Fan.tokens, Fan.spread
-/
import ConceptualGraph.Proofs.Reversal.Syntax
import ConceptualGraph.Proofs.Spread.Beside

namespace ConceptualGraph

open Read (Direction)

/-! ## Nodes -/

/-- Whether tokens begin with the type of a relation: its label, or a definition. -/
def Token.beginsType : List Token → Bool
  | .ident _ :: _ => true
  | .punct .leftParen :: .keyword .lambda :: _ => true
  | _ => false

/-- A relation of a chain, by the tokens after its opening parenthesis. -/
structure RelationText where
  inner : List Token
  closes : Token.Closes inner 1
  typed : Token.beginsType inner = true

def RelationText.tokens (relation : RelationText) : List Token :=
  .punct .leftParen :: relation.inner

/-- A concept of a chain, by the tokens after its opening bracket, or a bound label in its place. -/
inductive TargetText where
  | concept (inner : List Token) (closes : Token.Closes inner 1)
  | label (name : String)

def TargetText.tokens : TargetText → List Token
  | .concept inner _ => .punct .leftBracket :: inner
  | .label name => [.boundLabel name]

/-! ## Branches -/

mutual

/-- What follows a concept in a chain. -/
inductive TailText where
  | stop
  /-- An arrow, with the relation to which it points or from which it comes. -/
  | arm (arrow : Direction) (branch : BranchText)
  /-- A hyphen, with the branches that follow it. -/
  | fan (branches : FanText)

/-- A relation beside a concept, alone or with the concept at its other end. -/
inductive BranchText where
  | single (relation : RelationText)
  | link (relation : RelationText) (arrow : Direction) (target : TargetText) (tail : TailText)

/-- Branches, of which there is at least one. -/
inductive FanText where
  | last (branch : BranchText)
  | more (branch : BranchText) (others : FanText)

end

mutual

def TailText.tokens : TailText → List Token
  | .stop => []
  | .arm arrow branch => .punct arrow.mark :: branch.tokens
  | .fan branches => .punct .hyphen :: (branches.tokens ++ [.punct .comma])

def BranchText.tokens : BranchText → List Token
  | .single relation => relation.tokens
  | .link relation arrow target tail =>
      relation.tokens ++ .punct arrow.mark :: (target.tokens ++ tail.tokens)

/-- Branches one after another, as they stand in a fan. -/
def FanText.tokens : FanText → List Token
  | .last branch => branch.tokens
  | .more branch others => branch.tokens ++ others.tokens

end

/-- The arrow of a branch.  One that has none gets an arrow to its relation. -/
def BranchText.arrow : BranchText → Direction
  | .single _ => .right
  | .link _ arrow _ _ => arrow

/-- A branch as a statement: a chain that begins with a label. -/
def BranchText.statement (branch : BranchText) (label : String) : List Token :=
  .boundLabel label :: ((TailText.arm branch.arrow branch).tokens ++ [.punct .dot])

/-- Branches as statements of their own. -/
def FanText.statements (label : String) : FanText → List Token
  | .last branch => branch.statement label
  | .more branch others => branch.statement label ++ others.statements label

/-! ## Fans -/

/-- The type of a concept: its label, or a definition by the tokens after its first word. -/
inductive TypeText where
  | label (name : String)
  | lambda (inner : List Token) (closes : Token.Closes inner 1)

def TypeText.tokens : TypeText → List Token
  | .label name => [.ident name]
  | .lambda inner _ => .punct .leftParen :: .keyword .lambda :: inner

/-- A concept that defines a label, with branches that share it. -/
structure Fan where
  type : TypeText
  label : String
  branches : FanText

namespace Fan

variable (fan : Fan)

/-- The tokens of the concept after its opening bracket. -/
def head : List Token :=
  fan.type.tokens ++ [.punct .colon, .defLabel fan.label, .punct .rightBracket]

/-- The head of a fan closes its bracket. -/
theorem closes_head : Token.Closes fan.head 1 := by
  obtain ⟨type, label, branches⟩ := fan
  cases type with
  | label name => rfl
  | lambda inner closes => exact closes.append rfl

/-- A fan as a statement. -/
def tokens : List Token :=
  .punct .leftBracket :: (fan.head ++ .punct .hyphen :: (fan.branches.tokens ++ [.punct .dot]))

/-- A fan as several statements: the concept, and the branches with its label. -/
def spread : List Token :=
  .punct .leftBracket :: (fan.head ++ .punct .dot :: fan.branches.statements fan.label)

end Fan

end ConceptualGraph
