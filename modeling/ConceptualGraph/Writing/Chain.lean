/-
Module: ConceptualGraph.Writing.Chain
Purpose: Graphs in the linear form: from each concept a chain as long as it leads to
  concepts not yet written, and a fan where it branches.
Main exports: Write.chainLinks, Write.chainTarget, Write.linearGraph
-/
import ConceptualGraph.Writing.Node

namespace ConceptualGraph.Write

open Phrase (mark ofToken space)

variable (model : Model) (inner : Inner) (plan : Plan)

/-- Where a phrase stands in a statement: how far branches are indented, and whether
a fan that begins here must be closed because another branch may follow. -/
structure Place where
  depth : Nat := 0
  inFan : Bool := false

/-- The place of a branch of a fan. -/
def Place.branch (place : Place) : Place :=
  { depth := place.depth + 1, inFan := true }

/-- The beginning of the line of a branch. -/
def Place.line (place : Place) : Phrase :=
  [.blank ("\n" ++ String.join (List.replicate place.depth "    "))]

/-- The mark that closes a fan. -/
def Place.closing (place : Place) : Phrase :=
  if place.inFan then mark .comma else []

/-- How the target of a link is written. -/
abbrev ToTarget := Place → ConceptId → Write Phrase

/-- A relation without its arguments, in parentheses. -/
def relationNode (relation : RelationId) : Write Phrase := do
  let type ← relationType model inner relation
  return mark .leftParen ++ type ++ comment .relation (model.relation relation).comment
    ++ mark .rightParen

/-- The arguments of a relation after the first one, with their numbers, each on a
line of its own. -/
def numberedArgs (target : ToTarget) (place : Place) : (number : Nat) → List ConceptId →
    Write Phrase
  | _, [] => return []
  | number, concept :: others => do
      let phrase ← target place concept
      let line := place.line ++ mark .hyphen ++ ofToken (.int number)
        ++ mark .rightArrow ++ space ++ phrase
      return line ++ (← numberedArgs target place (number + 1) others)

/-- What follows a relation whose first argument stands before it. -/
def laterArgs (target : ToTarget) (place : Place) (args : List ConceptId) : Write Phrase := do
  match args with
  | [] | [_] => return []
  | [_, concept] =>
      return space ++ mark .rightArrow ++ space ++ (← target place concept)
  | _ :: others =>
      let lines ← numberedArgs target place.branch 1 others
      return mark .hyphen ++ lines ++ place.closing

/-- A relation with what follows it. -/
def relationWithArgs (target : ToTarget) (place : Place) (relation : RelationId) :
    Write Phrase := do
  markWritten relation
  let node ← relationNode model inner relation
  return node ++ (← laterArgs target place (model.relation relation).args)

/-- A relation that goes on from the concept before it. -/
def link (target : ToTarget) (place : Place) (relation : RelationId) : Write Phrase := do
  let phrase ← relationWithArgs model inner target place relation
  return space ++ mark .rightArrow ++ space ++ phrase

/-- A branch of a fan. -/
def branch (target : ToTarget) (place : Place) (relation : RelationId) : Write Phrase := do
  let phrase ← relationWithArgs model inner target place relation
  return place.line ++ phrase

/-- The relations that begin with a concept just written: a link if there is one, a
fan if there are several. -/
def chainLinks (target : ToTarget) (place : Place) (head : ConceptId) : Write Phrase := do
  match ← unwritten (plan.primary head) with
  | [] => return []
  | [only] => link model inner target place only
  | relations =>
      let branches ← concat (branch model inner target place.branch) relations
      return mark .hyphen ++ branches ++ place.closing

/-- The target of a link: a reference if it has been written, else the concept and the
chain that goes on from it.  Every step writes another concept, so one step more than
there are concepts is never used up. -/
def chainTarget : (steps : Nat) → ToTarget
  | 0, _, concept => reference model concept
  | steps + 1, place, concept => do
      if ← isEmitted concept then reference model concept
      else
        let phrase ← firstEmission model inner plan concept
        return phrase ++ (← chainLinks model inner plan (chainTarget steps) place concept)

/-- A target with enough steps for every chain of the model. -/
def anyTarget : ToTarget :=
  chainTarget model inner plan (model.concepts.size + 1)

/-- A phrase as a statement. -/
def statement (phrase : Phrase) : Phrase := phrase ++ mark .dot

/-- The statement of a concept, unless it has been written. -/
def conceptStatement (concept : ConceptId) : Write (List Phrase) := do
  if ← isEmitted concept then return []
  else
    let head ← firstEmission model inner plan concept
    let links ← chainLinks model inner plan (anyTarget model inner plan) {} concept
    return [statement (head ++ links)]

/-- A relation with its first argument, which may have been written. -/
def relationFrom (relation : RelationId) : Write Phrase := do
  match (model.relation relation).args with
  | [] =>
      markWritten relation
      relationNode model inner relation
  | head :: _ =>
      let first ←
        if ← isEmitted head then reference model head
        else firstEmission model inner plan head
      return first ++ (← link model inner (anyTarget model inner plan) {} relation)

/-- The statement of a relation or actor, unless it has been written. -/
def remainingStatement (relation : RelationId) : Write (List Phrase) := do
  if (← get).written.contains relation then return []
  else if model.isNegation relation then return [statement (← negation model inner relation)]
  else if (model.relation relation).isActor then
    return [statement (← actor model inner relation)]
  else return [statement (← relationFrom model inner plan relation)]

/-- The items of a graph in the linear form. -/
def linearGraph (graph : GraphId) : Write (List Phrase) := do
  let plan := Plan.ofGraph model graph
  let concepts ← concat (conceptStatement model inner plan) plan.order
  let relations ← concat (remainingStatement model inner plan) (model.graph graph).relations
  return comments model graph ++ concepts ++ relations

end ConceptualGraph.Write
