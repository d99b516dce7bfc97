/-
Module: ConceptualGraph.Writing.Bracket
Purpose: Graphs in the interchange form: each concept once, in brackets of its own
  or inside the first relation that needs it.
Main exports: Write.relationItems, Write.bracketGraph
-/
import ConceptualGraph.Writing.Node

namespace ConceptualGraph.Write

open Phrase (mark space)

variable (model : Model) (inner : Inner) (plan : Plan)

/-- Arguments as they are written: a text, and whether it introduces the concept. -/
structure Argument where
  concept : ConceptId
  phrase : Phrase
  fresh : Bool

/-- An argument of a relation, a reference if it has been written. -/
def argument (concept : ConceptId) : Write Argument := do
  if ← isEmitted concept then
    return { concept, phrase := ← reference model concept, fresh := false }
  else
    return { concept, phrase := ← firstEmission model inner plan concept, fresh := true }

/-- The arguments of a relation.  The concept `inlined`, if it comes first, is written
in place without a label. -/
def arguments (inlined : Option ConceptId) : List ConceptId → Write (List Argument)
  | [] => return []
  | first :: others => do
      let written ←
        if inlined = some first then
          pure [{ concept := first, phrase := ← emitConcept model inner first none,
                  fresh := false }]
        else concat (fun concept => return [← argument model inner plan concept]) [first]
      let rest ← concat (fun concept => return [← argument model inner plan concept]) others
      return written ++ rest

/-- A relation with its arguments. -/
def relationPhrase (relation : RelationId) (type : Phrase) (args : List Argument) : Phrase :=
  mark .leftParen ++ type ++ args.flatMap (fun argument => space ++ argument.phrase)
    ++ comment .relation (model.relation relation).comment ++ mark .rightParen

/-- A relation, unless it has been written, followed by the relations that begin with
concepts that it introduces.  Every relation is written once, so one step more than
there are relations is never used up. -/
def relationItems : (steps : Nat) → (inlined : Option ConceptId) → RelationId →
    Write (List Phrase)
  | 0, _, _ => return []
  | steps + 1, inlined, relation => do
      if (← get).written.contains relation then return []
      else
        markWritten relation
        let type ← relationType model inner relation
        let args ← arguments model inner plan inlined (model.relation relation).args
        let introduced := (args.filter (·.fresh)).map (·.concept)
        let following ← concat (fun concept => do
          concat (relationItems steps none) (← unwritten (plan.primary concept))) introduced
        return relationPhrase model relation type args :: following

/-- The steps that a relation and those that follow it take at most. -/
def relationSteps : Nat := model.relations.size + 1

/-- A concept, unless it has been written, with the relations that begin with it.  A
concept without a label that begins exactly one relation is written inside it. -/
def conceptItems (concept : ConceptId) : Write (List Phrase) := do
  if ← isEmitted concept then return []
  else
    let label ← openLabel model concept (needsLabel model plan concept)
    let primaries ← unwritten (plan.primary concept)
    match label, primaries with
    | none, [only] => relationItems model inner plan (relationSteps model) (some concept) only
    | _, _ =>
        let item ← emitConcept model inner concept label
        return item :: (← concat (relationItems model inner plan (relationSteps model) none)
          primaries)

/-- A relation or actor, unless it has been written. -/
def remainingItems (relation : RelationId) : Write (List Phrase) := do
  if (← get).written.contains relation then return []
  else if model.isNegation relation then return [← negation model inner relation]
  else if (model.relation relation).isActor then return [← actor model inner relation]
  else relationItems model inner plan (relationSteps model) none relation

/-- The items of a graph in the interchange form. -/
def bracketGraph (graph : GraphId) : Write (List Phrase) := do
  let plan := Plan.ofGraph model graph
  let concepts ← concat (conceptItems model inner plan) plan.order
  let relations ← concat (remainingItems model inner plan) (model.graph graph).relations
  return comments model graph ++ concepts ++ relations

end ConceptualGraph.Write
