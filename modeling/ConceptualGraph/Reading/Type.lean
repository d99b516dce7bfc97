/-
Module: ConceptualGraph.Reading.Type
Purpose: Types in a text: labels looked up in the hierarchy, and definitions that
  stand in the place of a label.
Main exports: Read.conceptType, Read.relationType, Read.lambda
-/
import ConceptualGraph.Reading.Coreference

namespace ConceptualGraph.Read

variable (setting : Setting)

/-! ## Labels -/

/-- The concept type that the label at a token names. -/
def conceptTypeNamed (found : Located) (label : String) : Read ConceptType := do
  let hierarchy := (← model).hierarchy
  match hierarchy.concepts.find? label with
  | some type => return type
  | none =>
      if setting.options.createTypesOnDemand then
        match hierarchy.concepts.createOnDemand label with
        | .ok (type, concepts) =>
            edit fun model => { model with hierarchy := { hierarchy with concepts } }
            return type
        | .error error => throw (.hierarchy error)
      else failAt found (.unknownType .concept label)

/-- The relation type that the label at a token names. -/
def relationTypeNamed (found : Located) (label : String) : Read RelationType := do
  let hierarchy := (← model).hierarchy
  match hierarchy.relations.find? label with
  | some type => return type
  | none =>
      if setting.options.createTypesOnDemand then
        match hierarchy.relations.createOnDemand label with
        | .ok (type, relations) =>
            edit fun model => { model with hierarchy := { hierarchy with relations } }
            return type
        | .error error => throw (.hierarchy error)
      else failAt found (.unknownType .relation label)

/-! ## Definitions

A definition declares its parameters by type and label.  Its body, if it has one, is
a graph in which each label is defined by a concept of the declared type. -/

/-- A declared parameter with the token of its label. -/
structure Declared where
  found : Located
  type : ConceptType
  label : String

/-- One parameter, a type label and a defining label. -/
def parameter : Read Declared := do
  match ← peek with
  | .ident label =>
      let found ← located 0
      advance
      let type ← conceptTypeNamed setting found label
      match ← peek with
      | .defLabel label =>
          let found ← located 0
          advance
          return { found, type, label }
      | _ => fail (.expected .parameterLabel)
  | _ => fail (.expected .parameterType)

/-- Parameters separated by commas, at most as many as there are tokens. -/
def parameters : (tokens : Nat) → Read (List Declared)
  | 0 => return [← parameter setting]
  | tokens + 1 => do
      let first ← parameter setting
      if ← eat (.punct .comma) then
        return first :: (← parameters tokens)
      else
        return [first]

/-- The concept of the body that a parameter stands for. -/
def parameterConcept (body : GraphId) (parameter : Declared) : Read ConceptId := do
  match ← definingConcept? parameter.label with
  | none => failAt parameter.found (.parameterUndefined parameter.label)
  | some concept =>
      let model ← model
      if !model.encloses body concept then
        failAt parameter.found (.parameterOutside parameter.label)
      else if (model.concept concept).type ≠ some parameter.type then
        let declared := (model.hierarchy.concepts.label? parameter.type).getD "lambda"
        failAt parameter.found (.parameterMistyped parameter.label declared)
      else
        return concept

/-- A parameter together with what it stands for in the body. -/
def linkParameter (body : Option GraphId) (parameter : Declared) : Read Parameter := do
  match body with
  | none => return { type := parameter.type, label := parameter.label, concept := none }
  | some graph =>
      let concept ← parameterConcept graph parameter
      return { type := parameter.type, label := parameter.label, concept := some concept }

/-- Whether a token begins an item of a graph. -/
def startsItem : Token → Bool
  | .punct .leftBracket | .punct .leftParen | .punct .leftAngle | .punct .tilde => true
  | .formalComment _ => true
  | _ => false

/-- The body of a definition, if a graph follows, and the concepts in it that the
parameters stand for. -/
def definitionBody (inside : Inside) (declared : List Declared) : Read Definition := do
  if startsItem (← peek) then
    let graph ← make (·.newGraph none)
    inside.items graph
    return { parameters := ← declared.mapM (linkParameter (some graph)), body := some graph }
  else
    return { parameters := ← declared.mapM (linkParameter none), body := none }

/-- A definition, `(lambda (T *x, …) body)`. -/
def lambda (room : Room) : Read Definition := do
  let inside ← descend setting room
  expect (.punct .leftParen) .lambdaOpening
  expect (.keyword .lambda) .lambdaWord
  expect (.punct .leftParen) .parametersOpening
  let declared ← parameters setting (← get).rest.length
  expect (.punct .rightParen) .parametersClosing
  let definition ← inContext (definitionBody inside declared)
  expect (.punct .rightParen) .lambdaClosing
  ascend room
  return definition

/-! ## Types in their places -/

/-- Whether the tokens from a place on begin a definition. -/
def lambdaAhead (places : Nat) : Read Bool := do
  return (← ahead places) = .punct .leftParen && (← ahead (places + 1)) = .keyword .lambda

/-- The type of a concept, if one is given.  A definition, which `lambda` reads, must
have exactly one parameter. -/
def conceptType (lambda : Read Definition) : Read (Option ConceptType) := do
  match ← peek with
  | .ident label =>
      let found ← located 0
      advance
      return some (← conceptTypeNamed setting found label)
  | _ =>
      if ← lambdaAhead 0 then
        let found ← located 0
        let definition ← lambda
        if definition.parameters.length ≠ 1 then
          failAt found (.parameterCount definition.parameters.length)
        else
          let type ← make fun model =>
            let (type, concepts) := model.hierarchy.concepts.createDefined definition
            (type, { model with hierarchy := { model.hierarchy with concepts } })
          return some type
      else return none

/-- The type of a relation or actor.  A definition, which `lambda` reads, fixes the
valence to the number of its parameters. -/
def relationType (lambda : Read Definition) : Read RelationType := do
  match ← peek with
  | .ident label =>
      let found ← located 0
      advance
      relationTypeNamed setting found label
  | _ =>
      let definition ← lambda
      make fun model =>
        let (type, relations) := model.hierarchy.relations.createDefined definition
        let relations := relations.setValence type definition.parameters.length
        (type, { model with hierarchy := { model.hierarchy with relations } })

/-- Whether the tokens from a place on begin the type of a relation. -/
def relationTypeAhead (places : Nat) : Read Bool := do
  match ← ahead places with
  | .ident _ => return true
  | _ => lambdaAhead places

end ConceptualGraph.Read
