/-
Module: ConceptualGraph.Error
Purpose: Everything that can go wrong in a session, as causes, with the wording
  and the structured report of each.
Main exports: Expected, ParseFault, ParseError, GenerateError, IoError, Error,
  Error.message, Error.report
-/
import ConceptualGraph.Model
import ConceptualGraph.Token.Scan
import ConceptualGraph.Value

namespace ConceptualGraph

/-! ## Reading -/

/-- What a text should have gone on with. -/
inductive Expected where
  | concept
  | relation
  | actor
  | actorType
  | lambdaOpening
  | lambdaWord
  | parametersOpening
  | parameterType
  | parameterLabel
  | parametersClosing
  | lambdaClosing
  | conceptClosing
  | contextClosing
  | negationClosing
  | relationClosing
  | actorBar
  | actorClosing
  | quantifier
  | encodingName
  | payload (encoding : String)
  | statementEnd
  | target
  | branch
  | arrow
  deriving DecidableEq, Repr

/-- How a message names what was expected. -/
def Expected.text : Expected → String
  | .concept => "concept"
  | .relation => "relation"
  | .actor => "actor"
  | .actorType => "actor type"
  | .lambdaOpening => "'(' opening lambda"
  | .lambdaWord => "'lambda'"
  | .parametersOpening => "'(' opening lambda parameters"
  | .parameterType => "parameter type"
  | .parameterLabel => "parameter label '*name'"
  | .parametersClosing => "')' closing lambda parameters"
  | .lambdaClosing => "')' closing lambda"
  | .conceptClosing => "']' closing concept"
  | .contextClosing => "']' closing special context"
  | .negationClosing => "']' closing negation"
  | .relationClosing => "')' closing relation"
  | .actorBar => "'|' between actor inputs and outputs"
  | .actorClosing => "'>' closing actor"
  | .quantifier => "quantifier after '@'"
  | .encodingName => "encoding name after '%'"
  | .payload encoding => "quoted payload for '%" ++ encoding ++ "'"
  | .statementEnd => "'.' ending statement"
  | .target => "concept or bound label"
  | .branch => "relation after '-'"
  | .arrow => "arrow"

/-- The kinds of fault that a report distinguishes. -/
inductive ParseKind where
  | syntactic
  | duplicateLabel
  | unboundLabel
  | reservedContext
  | lambdaParameter
  | typeMismatch
  | valenceMismatch
  | unsupportedArc
  | unknownType
  | nestingTooDeep
  | coreference
  deriving DecidableEq, Repr

/-- The name of a kind of fault in a report. -/
def ParseKind.name : ParseKind → String
  | .syntactic => "syntax"
  | .duplicateLabel => "duplicate_label"
  | .unboundLabel => "unbound_label"
  | .reservedContext => "reserved_context"
  | .lambdaParameter => "lambda_parameter"
  | .typeMismatch => "type_mismatch"
  | .valenceMismatch => "valence_mismatch"
  | .unsupportedArc => "unsupported_arc"
  | .unknownType => "unknown_type"
  | .nestingTooDeep => "nesting_too_deep"
  | .coreference => "coreference"

/-- Why a sequence of tokens cannot be read. -/
inductive ParseFault where
  /-- The token is not what has to follow. -/
  | expected (what : Expected)
  /-- The token follows a complete text. -/
  | unexpected
  /-- A tilde stands before something other than a bracket. -/
  | bareTilde
  /-- The definition of a concept type has not exactly one parameter. -/
  | parameterCount (found : Nat)
  | duplicateLabel (label : String)
  /-- An argument or a coreference link names an unbound label. -/
  | unboundLabel (label : String)
  /-- A designator names an unbound label. -/
  | unboundDesignator (label : String)
  | reservedElse
  | reservedMarker (word : Keyword)
  /-- The body of a definition does not define the label of a parameter. -/
  | parameterUndefined (label : String)
  /-- The label of a parameter denotes a concept that is not directly in the body. -/
  | parameterOutside (label : String)
  /-- The concept of a parameter has not the declared type. -/
  | parameterMistyped (label declared : String)
  | valenceMismatch (label : String) (valence found : Nat)
  | numberedArc
  /-- The arrows on the two sides of a relation point against each other. -/
  | opposedArrows
  | unknownType (kind : TypeKind) (label : String)
  | nestingTooDeep (limit : Nat)
  /-- A concept stands outside the scope of the set that it should join. -/
  | outsideCoreference (label : String) (cause : ModelError)
  deriving DecidableEq, Repr

/-- The kind of a fault. -/
def ParseFault.kind : ParseFault → ParseKind
  | .expected _ | .unexpected | .bareTilde | .parameterCount _ => .syntactic
  | .duplicateLabel _ => .duplicateLabel
  | .unboundLabel _ | .unboundDesignator _ => .unboundLabel
  | .reservedElse | .reservedMarker _ => .reservedContext
  | .parameterUndefined _ | .parameterOutside _ => .lambdaParameter
  | .parameterMistyped _ _ => .typeMismatch
  | .valenceMismatch _ _ _ => .valenceMismatch
  | .numberedArc | .opposedArrows => .unsupportedArc
  | .unknownType _ _ => .unknownType
  | .nestingTooDeep _ => .nestingTooDeep
  | .outsideCoreference _ _ => .coreference

/-- A fault at a token. -/
structure ParseError where
  fault : ParseFault
  found : Located
  deriving DecidableEq, Repr

/-- The word for a kind of type. -/
def TypeKind.word : TypeKind → String
  | .concept => "concept"
  | .relation => "relation"

/-- The wording of a fault, without its place. -/
def ParseError.wording (error : ParseError) : String :=
  match error.fault with
  | .expected what => "expected " ++ what.text ++ ", got '" ++ error.found.token.shown ++ "'"
  | .unexpected => "unexpected '" ++ error.found.token.shown ++ "'"
  | .bareTilde => "expected '[' after '~'"
  | .parameterCount found =>
      "concept type lambda takes exactly one parameter, found " ++ found.repr
  | .duplicateLabel label => "label '" ++ label ++ "' is already defined in this scope"
  | .unboundLabel label => "label '?" ++ label ++ "' is not bound to any concept"
  | .unboundDesignator label => "designator '?" ++ label ++ "' refers to no defined concept"
  | .reservedElse => "special context 'else' is reserved but not supported"
  | .reservedMarker word =>
      "'" ++ word.spelling ++ "' marker is reserved but not supported"
  | .parameterUndefined label =>
      "lambda parameter '*" ++ label ++ "' is not defined in the body"
  | .parameterOutside label =>
      "lambda parameter '*" ++ label ++ "' is not enclosed by the body"
  | .parameterMistyped label declared =>
      "lambda parameter '*" ++ label ++ "' is declared '" ++ declared
        ++ "' but bound to a concept of another type"
  | .valenceMismatch label valence found =>
      "relation '" ++ label ++ "' takes " ++ valence.repr ++ " argument(s), found "
        ++ found.repr
  | .numberedArc => "numbered arcs are not supported"
  | .opposedArrows => "arrows on both sides of a relation must point the same way"
  | .unknownType kind label => "unknown " ++ kind.word ++ " type '" ++ label ++ "'"
  | .nestingTooDeep limit => "nesting deeper than " ++ limit.repr
  | .outsideCoreference label _ =>
      "concept cannot join the coreference set of '" ++ label ++ "'"

/-! ## Writing -/

/-- The kinds of writing error that a report distinguishes. -/
inductive GenerateKind where
  | missingType
  | noCoreferenceSet
  | unlabelledCoreferenceSet
  | designatorConflict
  deriving DecidableEq, Repr

/-- The name of a kind of writing error in a report. -/
def GenerateKind.name : GenerateKind → String
  | .missingType => "missing_type"
  | .noCoreferenceSet => "no_coreference_set"
  | .unlabelledCoreferenceSet => "unlabelled_coreference_set"
  | .designatorConflict => "designator_conflict"

/-- Why a graph cannot be written. -/
inductive GenerateError where
  | untypedRelation (relation : RelationId)
  /-- The type of the relation has neither label nor definition. -/
  | undefinedType (relation : RelationId)
  /-- The concept is referred to after it was written without a label. -/
  | unlabelledConcept (concept : ConceptId)
  /-- The concept is referred to before it is written and has no label. -/
  | unreachableConcept (concept : ConceptId)
  | unlabelledSet (set : CorefSetId) (concept : ConceptId)
  /-- A designator would read back as a coreference link. -/
  | designatorConflict (concept : ConceptId)
  deriving DecidableEq, Repr

/-- The kind of a writing error. -/
def GenerateError.kind : GenerateError → GenerateKind
  | .untypedRelation _ | .undefinedType _ => .missingType
  | .unlabelledConcept _ | .unreachableConcept _ => .noCoreferenceSet
  | .unlabelledSet _ _ => .unlabelledCoreferenceSet
  | .designatorConflict _ => .designatorConflict

/-- The wording of a writing error. -/
def GenerateError.wording : GenerateError → String
  | .untypedRelation relation => "relation " ++ relation.text ++ " has no type"
  | .undefinedType relation =>
      "relation " ++ relation.text ++ " has an anonymous type with no definition"
  | .unlabelledConcept concept => "concept " ++ concept.text ++ " was written without a label"
  | .unreachableConcept concept =>
      "reference to concept " ++ concept.text ++ " with no coreference set"
  | .unlabelledSet set concept =>
      "coreference set " ++ set.text ++ " of concept " ++ concept.text ++ " has no label"
  | .designatorConflict concept =>
      "concept " ++ concept.text
        ++ " has a defined designator but is not written with a defining label"

/-! ## All errors -/

/-- Why a source cannot be read from outside. -/
inductive IoError where
  | invalidUtf8
  | notFound
  | other (message : String)
  deriving DecidableEq, Repr

/-- The wording of an input error. -/
def IoError.message : IoError → String
  | .invalidUtf8 => "stream did not contain valid UTF-8"
  | .notFound => "No such file or directory (os error 2)"
  | .other message => message

/-- An error of any part of a session. -/
inductive Error where
  | lex (error : LexError)
  | parse (error : ParseError)
  | hierarchy (error : HierarchyError)
  | model (error : ModelError)
  | generate (error : GenerateError)
  | io (error : IoError)
  deriving DecidableEq, Repr

namespace Error

/-- The error behind an error. -/
def cause? : Error → Option Error
  | .parse error =>
      match error.fault with
      | .unknownType _ label => some (.hierarchy (.unknownLabel label))
      | .outsideCoreference _ cause => some (.model cause)
      | _ => none
  | _ => none

/-- The wording of an error, with its place. -/
def message : Error → String
  | .lex error => error.message
  | .parse error =>
      "parse error at " ++ error.found.span.start.text ++ ": " ++ error.wording
  | .hierarchy error => "type hierarchy error: " ++ error.message
  | .model error => "model error: " ++ error.message
  | .generate error => "generation error: " ++ error.wording
  | .io error => "i/o error: " ++ error.message

/-- The wording that an error takes over from the part in which it arose. -/
def inherited : Error → List String
  | .hierarchy error => [error.message]
  | .model error => [error.message]
  | .io error => [error.message]
  | _ => []

/-- The wordings behind an error, from the nearest to the farthest. -/
def causes (error : Error) : List String :=
  error.inherited ++ error.cause?.elim [] fun cause => cause.message :: cause.inherited

/-- The name of a kind of error, with its sort after a slash where it has one. -/
def kindName : Error → String
  | .lex _ => "lex"
  | .parse error => "parse/" ++ error.fault.kind.name
  | .hierarchy _ => "hierarchy"
  | .model _ => "model"
  | .generate error => "generate/" ++ error.kind.name
  | .io _ => "io"

/-- The report of an error apart from the error behind it. -/
def reportWith (cause : Value) : Error → Value
  | .lex error =>
      .table [("kind", .text "lex"), ("line", .int error.position.line),
        ("column", .int error.position.column),
        ("found", error.found.elim .null fun char => .text char.toString),
        ("message", .text error.fault.message), ("context", .text error.context)]
  | .parse error =>
      let span := error.found.span
      .table [("kind", .text "parse"), ("parse_kind", .text error.fault.kind.name),
        ("message", .text error.wording),
        ("span", .table [("line", .int span.start.line), ("column", .int span.start.column),
          ("end_line", .int span.stop.line), ("end_column", .int span.stop.column)]),
        ("token", .text error.found.token.shown), ("cause", cause)]
  | .hierarchy error =>
      .table [("kind", .text "hierarchy"), ("message", .text error.message)]
  | .model error => .table [("kind", .text "model"), ("message", .text error.message)]
  | .generate error =>
      .table [("kind", .text "generate"), ("generate_kind", .text error.kind.name),
        ("message", .text error.wording)]
  | .io error => .table [("kind", .text "io"), ("message", .text error.message)]

/-- The structured report of an error.  The error behind a parse error is one of the
hierarchy or of the model, and has no further one behind it. -/
def report (error : Error) : Value :=
  error.reportWith (error.cause?.elim .null (reportWith .null))

end Error

end ConceptualGraph
