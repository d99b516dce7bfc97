/-
Module: ConceptualGraph.Reading.Coreference
Purpose: What a label stands for in a text.  A label denotes a concept until a
  second concept is found to be the same individual; from then on it denotes the
  coreference set of both.
Main exports: Read.definingConcept?, Read.join, Read.resolve
-/
import ConceptualGraph.Reading.Basic

namespace ConceptualGraph.Read

/-- The concept that defines a label: the one it denotes, or the defining member of
the set that it denotes. -/
def definingConcept? (label : String) : Read (Option ConceptId) := do
  match (← labels).target? label with
  | some (.concept concept) => return some concept
  | some (.set set) => return some ((← model).corefSet set).defining
  | none => return none

/-- The coreference set of the label at a token, begun with the concept that the
label denotes if there is none. -/
def setFor (found : Located) (label : String) : Read CorefSetId := do
  match (← labels).target? label with
  | some (.set set) => return set
  | some (.concept defining) =>
      let set ← make (·.newCorefSet defining)
      bindLabel label (.set set)
      return set
  | none => failAt found (.unboundLabel label)

/-- Adds a concept to the coreference set of the label at a token. -/
def join (found : Located) (label : String) (concept : ConceptId) : Read Unit := do
  let set ← setFor found label
  match (← model).addToCorefSet set concept with
  | .ok model => edit fun _ => model
  | .error cause => failAt found (.outsideCoreference label cause)

/-- The concept that already stands in a graph for a label. -/
def representative? (label : String) (defining : ConceptId) (graph : GraphId) :
    Read (Option ConceptId) := do
  let model ← model
  if model.encloses graph defining then return some defining
  else
    match (← labels).set? label with
    | some set => return model.corefMemberIn? set graph
    | none => return none

/-- The concept that the label at a token stands for as an argument in a graph.  If
no concept of the graph denotes the individual, one of the type of the defining
concept is added to the graph and to the coreference set. -/
def resolve (found : Located) (label : String) (graph : Option GraphId) :
    Read ConceptId := do
  match ← definingConcept? label, graph with
  | none, _ => failAt found (.unboundLabel label)
  | some defining, none => return defining
  | some defining, some graph =>
      match ← representative? label defining graph with
      | some concept => return concept
      | none =>
          let type := ((← model).concept defining).type
          let concept ← make (·.newConcept type)
          edit (·.addConcept graph concept)
          join found label concept
          return concept

end ConceptualGraph.Read
