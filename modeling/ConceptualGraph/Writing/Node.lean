/-
Module: ConceptualGraph.Writing.Node
Purpose: Concepts, types, actors and negations as both forms write them.
Main exports: Write.lambda, Write.emitConcept, Write.firstEmission, Write.actor,
  Write.negation
-/
import ConceptualGraph.Binary64.Decimal
import ConceptualGraph.Writing.Basic

namespace ConceptualGraph.Write

open Phrase (join mark ofToken space)

variable (model : Model) (inner : Inner)

/-! ## Parts -/

/-- The comment of a node before its closing bracket. -/
def comment (node : NodeKind) (text : Option String) : Phrase :=
  match text with
  | some text => [.blank " ", .token (.nodeComment node text)]
  | none => []

/-- A nested graph on one line, in a context of its own. -/
def nestedGraph (graph : GraphId) : Write Phrase :=
  inContext do return join " " (← inner graph)

/-- The token of a number. -/
def numberToken : Number → Token
  | .int value => .int value
  | .float value => .float value.text

/-- A quantifier. -/
def quantifier : Quantifier → Phrase
  | .every => mark .atSign ++ ofToken (.ident "every")
  | .some => mark .atSign ++ ofToken (.ident "some")
  | .count number => mark .atSign ++ ofToken (.int number)
  | .named word => mark .atSign ++ ofToken (.ident word)

/-- A literal. -/
def literal : Literal → Phrase
  | .number value => ofToken (numberToken value)
  | .string value => ofToken (.str value)
  | .encoded encoding payload =>
      mark .percent ++ ofToken (.ident encoding) ++ space ++ ofToken (.str payload)

/-- The identifier of a marker, a fresh one if it has none. -/
def markerId (marker : MarkerId) : Write String := do
  let (foreign, markers) := (← get).markers.foreignIdFor marker
  modify fun writer => { writer with markers }
  return foreign

/-- A designator. -/
def designator : Designator → Write Phrase
  | .literal value => return literal value
  | .name name => return ofToken (.name name)
  | .marker marker => return ofToken (.marker (some (← markerId marker)))
  | .defined concept => reference model concept

/-- The parts of a referent. -/
def referentParts (referent : Referent) : Write (List Phrase) := do
  let designators ← concat (fun value => return [← designator model value])
    referent.designator.toList
  let descriptors ← concat (fun graph => return [← nestedGraph inner graph])
    referent.descriptor.toList
  return (referent.quantifier.map quantifier).toList ++ designators ++ descriptors

/-! ## Types -/

/-- A parameter of a definition. -/
def parameter (parameter : Parameter) : Phrase :=
  ofToken (.ident ((model.hierarchy.concepts.label? parameter.type).getD ""))
    ++ space ++ ofToken (.defLabel parameter.label)

/-- Binds the labels of parameters to the concepts for which they stand. -/
def bindParameters (parameters : List Parameter) : Write Unit :=
  modify fun writer =>
    { writer with
      labels := parameters.foldl (fun labels parameter =>
        match parameter.concept with
        | some concept => labels.bind parameter.label (.concept concept)
        | none => labels) writer.labels }

/-- The body of a definition, in a context in which its parameters are bound. -/
def definitionBody (definition : Definition) : Write Phrase :=
  apart (inContext do
    bindParameters definition.parameters
    match definition.body with
    | some graph => return space ++ join " " (← inner graph)
    | none => return [])

/-- A definition. -/
def lambda (definition : Definition) : Write Phrase := do
  let signature := (definition.parameters.map (parameter model)).intersperse
    (mark .comma ++ space)
  let body ← definitionBody inner definition
  return mark .leftParen ++ ofToken (.keyword .lambda) ++ space
    ++ mark .leftParen ++ signature.flatten ++ mark .rightParen
    ++ body ++ mark .rightParen

/-- The type of a concept: its label, else its definition, else the top type. -/
def conceptType (type : ConceptType) : Write Phrase := do
  let concepts := model.hierarchy.concepts
  match concepts.label? type, (concepts.node type).definition with
  | some label, _ => return ofToken (.ident label)
  | none, some definition => lambda model inner definition
  | none, none => return ofToken (.ident ((concepts.label? Lattice.top).getD ""))

/-- The type of a relation or actor. -/
def relationType (relation : RelationId) : Write Phrase := do
  match (model.relation relation).type with
  | none => throw (.untypedRelation relation)
  | some type =>
      let relations := model.hierarchy.relations
      match relations.label? type, (relations.node type).definition with
      | some label, _ => return ofToken (.ident label)
      | none, some definition => lambda model inner definition
      | none, none => throw (.undefinedType relation)

/-! ## Nodes -/

/-- A context under a label. -/
def specialContext (label : String) (descriptor : Option GraphId) : Write Phrase := do
  let body ←
    match descriptor with
    | some graph => pure (space ++ (← nestedGraph inner graph))
    | none => pure []
  return mark .leftBracket ++ ofToken (.ident label) ++ body ++ mark .rightBracket

/-- A concept that is not a context, under the given label.  A designator that refers
to another concept needs a defining label beside it: after a bound label it would
read as one more coreference link. -/
def plainConcept (concept : ConceptId) (label : Option LabelUse) : Write Phrase := do
  let data := model.concept concept
  if (model.designates? concept).isSome && !label.any LabelUse.isDefining then
    throw (.designatorConflict concept)
  let type ← concat (conceptType model inner) data.type.toList
  let referent ← concat (referentParts model inner) data.referent.toList
  let parts := (label.map fun use => ofToken use.token).toList ++ referent
  let colon := if data.type.isSome && !parts.isEmpty then mark .colon ++ space else []
  return mark .leftBracket ++ type ++ colon ++ join " " parts
    ++ comment .concept data.comment ++ mark .rightBracket

/-- A concept, written out under the given label. -/
def emitConcept (concept : ConceptId) (label : Option LabelUse) : Write Phrase := do
  emit concept (label.map LabelUse.label)
  match (model.concept concept).special with
  | some special => specialContext inner special (model.descriptor? concept)
  | none => plainConcept model inner concept label

/-- Whether a concept is written with a label: the plan asks for one, or its own
designator does. -/
def needsLabel (plan : Plan) (concept : ConceptId) : Bool :=
  plan.needsLabel concept || (model.designates? concept).isSome

/-- A concept, written out for the first time. -/
def firstEmission (plan : Plan) (concept : ConceptId) : Write Phrase := do
  let label ← openLabel model concept (needsLabel model plan concept)
  emitConcept model inner concept label

/-- Arguments of an actor, each after a blank. -/
def actorArgs (args : List ConceptId) : Write Phrase :=
  concat (fun argument => return space ++ (← reference model argument)) args

/-- An actor. -/
def actor (actor : RelationId) : Write Phrase := do
  markWritten actor
  let data := model.relation actor
  let type ← relationType model inner actor
  let inputs ← actorArgs model data.inputs
  let outputs ← actorArgs model data.outputs
  return mark .leftAngle ++ type ++ inputs ++ space ++ mark .bar ++ outputs
    ++ comment .actor data.comment ++ mark .rightAngle

/-- A negation, given by its relation. -/
def negation (relation : RelationId) : Write Phrase := do
  markWritten relation
  let wrappers := (model.relation relation).args.take 1
  let body ← concat (fun wrapper => do
    emit wrapper none
    concat (nestedGraph inner) (model.descriptor? wrapper).toList) wrappers
  return mark .tilde ++ mark .leftBracket ++ body ++ mark .rightBracket

/-- The comments of a graph, each an item of its own. -/
def comments (graph : GraphId) : List Phrase :=
  (model.graph graph).comments.map fun text => ofToken (.formalComment text)

end ConceptualGraph.Write
