/-
Module: ConceptualGraph.Proofs.Reading.Blind
Purpose: The steps that do not look at tokens: they look labels and types up, and change the model.
Main exports: Error.below, Read.Blind, Read.Blind.bind, Read.blind_resolve, Read.blind_makeRelation
-/
import ConceptualGraph.Proofs.Reading.Steps
import ConceptualGraph.Proofs.Token.Joined
import ConceptualGraph.Reading.Nesting

namespace ConceptualGraph

/-- The state of reading with other tokens. -/
def Reader.withTokens (reader : Reader) (rest : List Located) (stop : Position) : Reader :=
  { reader with rest, stop }

/-- The error where the text stands further down. -/
def Error.below (lines : UInt32) : Error → Error
  | .lex error => .lex (error.below lines)
  | .parse error => .parse { error with found := error.found.below lines }
  | other => other

/-! ## Other places -/

/-- Where the tokens of a text stand in another one. -/
structure Relocation where
  span : Span → Span
  lex : LexError → LexError

/-- The text stands further down. -/
def Relocation.below (lines : UInt32) : Relocation where
  span := Span.below lines
  lex := LexError.below lines

/-- The token in the other text. -/
def Located.moved (shift : Relocation) (located : Located) : Located :=
  ⟨located.token, shift.span located.span⟩

/-- The error in the other text. -/
def Error.moved (shift : Relocation) : Error → Error
  | .lex error => .lex (shift.lex error)
  | .parse error => .parse { error with found := error.found.moved shift }
  | other => other

theorem Error.moved_below (lines : UInt32) (error : Error) :
    error.moved (.below lines) = error.below lines := by
  cases error <;> rfl

namespace Read

variable {α β : Type} {shift : Relocation} {step step' other other' : Read α}
  {next next' : α → Read β}

/-! ## Steps that do not look at tokens -/

/-- A step has nothing to do with the tokens that are left, and the same step in another text
differs from it only in the place of an error. -/
def Blind (shift : Relocation) (step step' : Read α) : Prop :=
  ∀ reader, match step reader with
    | .ok value later => (later.rest = reader.rest ∧ later.stop = reader.stop) ∧
        ∀ rest stop, step' (reader.withTokens rest stop) = .ok value (later.withTokens rest stop)
    | .error error later => (later.rest = reader.rest ∧ later.stop = reader.stop) ∧
        ∀ rest stop, step' (reader.withTokens rest stop) =
          .error (error.moved shift) (later.withTokens rest stop)

namespace Blind

variable {reader later : Reader}

theorem of_ok (blind : Blind shift step step') {value : α} (ran : step reader = .ok value later) :
    (later.rest = reader.rest ∧ later.stop = reader.stop) ∧
      ∀ rest stop, step' (reader.withTokens rest stop) =
        .ok value (later.withTokens rest stop) := by
  simpa [ran] using blind reader

theorem of_error (blind : Blind shift step step') {error : Error}
    (ran : step reader = .error error later) :
    (later.rest = reader.rest ∧ later.stop = reader.stop) ∧
      ∀ rest stop, step' (reader.withTokens rest stop) =
        .error (error.moved shift) (later.withTokens rest stop) := by
  simpa [ran] using blind reader

/-- Two blind steps in a row are one. -/
theorem bind (first : Blind shift step step')
    (others : ∀ value, Blind shift (next value) (next' value)) :
    Blind shift (step >>= next) (step' >>= next') := by
  intro reader
  cases ran : step reader with
  | error error later =>
      obtain ⟨kept, same⟩ := first.of_error ran
      rw [bind_of_error ran]
      exact ⟨kept, fun rest stop => bind_of_error (same rest stop)⟩
  | ok value later =>
      obtain ⟨kept, same⟩ := first.of_ok ran
      rw [bind_of_ok ran]
      cases went : next value later with
      | error error last =>
          obtain ⟨still, same'⟩ := (others value).of_error went
          exact ⟨⟨still.1.trans kept.1, still.2.trans kept.2⟩, fun rest stop =>
            (bind_of_ok (same rest stop)).trans (same' rest stop)⟩
      | ok result last =>
          obtain ⟨still, same'⟩ := (others value).of_ok went
          exact ⟨⟨still.1.trans kept.1, still.2.trans kept.2⟩, fun rest stop =>
            (bind_of_ok (same rest stop)).trans (same' rest stop)⟩

theorem pure (value : α) : Blind shift (pure value) (Pure.pure value) :=
  fun _ => ⟨⟨rfl, rfl⟩, fun _ _ => rfl⟩

theorem failAt (found : Located) (fault : ParseFault) :
    Blind shift (failAt found fault : Read α) (Read.failAt (found.moved shift) fault) :=
  fun _ => ⟨⟨rfl, rfl⟩, fun _ _ => rfl⟩

theorem throw {error : Error} (same : error.moved shift = error) :
    Blind shift (throw error : Read α) (MonadExcept.throw error) :=
  fun _ => ⟨⟨rfl, rfl⟩, fun _ _ => by rw [same]; rfl⟩

theorem ite {condition : Prop} [Decidable condition] (yes : Blind shift step step')
    (no : Blind shift other other') :
    Blind shift (if condition then step else other) (if condition then step' else other') := by
  split
  · exact yes
  · exact no

theorem model : Blind shift model model := fun _ => ⟨⟨rfl, rfl⟩, fun _ _ => rfl⟩

theorem labels : Blind shift labels labels := fun _ => ⟨⟨rfl, rfl⟩, fun _ _ => rfl⟩

theorem edit (change : Model → Model) : Blind shift (edit change) (Read.edit change) :=
  fun _ => ⟨⟨rfl, rfl⟩, fun _ _ => rfl⟩

theorem make (change : Model → α × Model) : Blind shift (make change) (Read.make change) :=
  fun _ => ⟨⟨rfl, rfl⟩, fun _ _ => rfl⟩

theorem bindLabel (label : String) (target : Target) :
    Blind shift (bindLabel label target) (Read.bindLabel label target) :=
  fun _ => ⟨⟨rfl, rfl⟩, fun _ _ => rfl⟩

end Blind

/-! ## Productions -/

variable {setting : Setting} {graph : GraphId}

theorem blind_definingConcept? (label : String) :
    Blind shift (definingConcept? label) (definingConcept? label) := by
  refine Blind.labels.bind fun labels => ?_
  split
  · exact .pure _
  · exact Blind.model.bind fun _ => .pure _
  · exact .pure _

theorem blind_setFor (found : Located) (label : String) :
    Blind shift (setFor found label) (setFor (found.moved shift) label) := by
  refine Blind.labels.bind fun labels => ?_
  split
  · exact .pure _
  · exact (Blind.make _).bind fun _ => (Blind.bindLabel _ _).bind fun _ => .pure _
  · exact .failAt _ _

theorem blind_join (found : Located) (label : String) (concept : ConceptId) :
    Blind shift (join found label concept) (join (found.moved shift) label concept) := by
  refine (blind_setFor found label).bind fun set => Blind.model.bind fun model => ?_
  split
  · exact .edit _
  · exact .failAt _ _

theorem blind_representative? (label : String) (defining : ConceptId) :
    Blind shift (representative? label defining graph) (representative? label defining graph) := by
  refine Blind.model.bind fun model => .ite (.pure _) (Blind.labels.bind fun labels => ?_)
  split
  · exact .pure _
  · exact .pure _

/-- A label is resolved from the tables alone. -/
theorem blind_resolve (found : Located) (label : String) (home : Option GraphId) :
    Blind shift (resolve found label home) (resolve (found.moved shift) label home) := by
  refine (blind_definingConcept? label).bind fun defining => ?_
  split
  · exact .failAt _ _
  · exact .pure _
  · refine (blind_representative? label _).bind fun known => ?_
    split
    · exact .pure _
    · exact Blind.model.bind fun _ => (Blind.make _).bind fun _ => (Blind.edit _).bind fun _ =>
        (blind_join _ _ _).bind fun _ => .pure _

theorem blind_conceptTypeNamed (found : Located) (label : String) :
    Blind shift (conceptTypeNamed setting found label)
      (conceptTypeNamed setting (found.moved shift) label) := by
  refine Blind.model.bind fun model => ?_
  dsimp only
  split
  · exact .pure _
  · refine .ite ?_ (.failAt _ _)
    split
    · exact (Blind.edit _).bind fun _ => .pure _
    · exact .throw rfl

theorem blind_relationTypeNamed (found : Located) (label : String) :
    Blind shift (relationTypeNamed setting found label)
      (relationTypeNamed setting (found.moved shift) label) := by
  refine Blind.model.bind fun model => ?_
  dsimp only
  split
  · exact .pure _
  · refine .ite ?_ (.failAt _ _)
    split
    · exact (Blind.edit _).bind fun _ => .pure _
    · exact .throw rfl

/-- A declared parameter in the other text. -/
def Declared.moved (shift : Relocation) (declared : Declared) : Declared :=
  { declared with found := declared.found.moved shift }

theorem blind_linkParameter (body : Option GraphId) (parameter : Declared) :
    Blind shift (linkParameter body parameter) (linkParameter body (parameter.moved shift)) := by
  unfold linkParameter
  split
  · exact .pure _
  · refine Blind.bind ?_ fun _ => .pure _
    refine (blind_definingConcept? _).bind fun concept => ?_
    split
    · exact .failAt _ _
    · exact Blind.model.bind fun _ => .ite (.failAt _ _) (.ite (.failAt _ _) (.pure _))

/-- All parameters are linked from the tables alone. -/
theorem blind_linkParameters (body : Option GraphId) (declared : List Declared) :
    Blind shift (declared.mapM (linkParameter body))
      ((declared.map (Declared.moved shift)).mapM (linkParameter body)) := by
  induction declared with
  | nil =>
      rw [List.map_nil, List.mapM_nil]
      exact .pure _
  | cons parameter declared ih =>
      rw [List.map_cons, List.mapM_cons, List.mapM_cons]
      exact (blind_linkParameter body parameter).bind fun _ => ih.bind fun _ => .pure _

theorem blind_markerOf (digits : Option String) :
    Blind shift (markerOf digits) (markerOf digits) := by
  cases digits with
  | none => exact Blind.make Model.newMarker
  | some foreign => exact fun _ => ⟨⟨rfl, rfl⟩, fun _ _ => rfl⟩

/-- The part of a designator that its first token decides does not look at any other. -/
theorem blind_designatorOf (found : Located) :
    Blind shift (designatorOf found) (designatorOf (found.moved shift)) := by
  obtain ⟨token, span⟩ := found
  unfold designatorOf Located.moved
  dsimp only
  split
  · exact .pure _
  · exact .pure _
  · exact .pure _
  · exact .pure _
  · exact .pure _
  · exact (blind_markerOf _).bind fun _ => .pure _
  · refine (blind_definingConcept? _).bind fun concept => ?_
    split
    · exact .pure _
    · exact .failAt _ _
  · exact .pure _

theorem blind_checkValence (found : Located) (type : RelationType) (count : Nat) :
    Blind shift (checkValence found type count) (checkValence (found.moved shift) type count) := by
  refine Blind.model.bind fun model => ?_
  dsimp only
  split
  · exact .ite (.failAt _ _) (.pure _)
  · exact .pure _

theorem blind_makeRelation (found : Located) (type : RelationType) (args : List ConceptId)
    (role : RelationRole) (comment : Option String) :
    Blind shift (makeRelation found type args role comment)
      (makeRelation (found.moved shift) type args role comment) :=
  (blind_checkValence _ _ _).bind fun _ => (Blind.make _).bind fun _ => (Blind.edit _).bind fun _ =>
    .pure _

theorem blind_negationType : Blind shift negationType negationType := by
  refine Blind.model.bind fun model => ?_
  dsimp only
  split
  · exact .pure _
  · split
    · exact (Blind.edit _).bind fun _ => .pure _
    · exact .throw rfl

end Read

end ConceptualGraph
