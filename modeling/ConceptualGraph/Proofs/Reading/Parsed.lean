/-
Module: ConceptualGraph.Proofs.Reading.Parsed
Purpose: What every call that reads a text comes to: moves from the arena that it is given to the
  arena that it leaves, and an error from a juncture on the way if it fails.
Main exports: Session.Parsed, Session.Comes, Session.comes_of_parsed
-/
import ConceptualGraph.Proofs.Reading.Reached
import ConceptualGraph.Proofs.Reading.Traced

section

open Relation (ReflTransGen)

namespace ConceptualGraph.Session

/-! ## Calls -/

/-- The error of a reading that fails. -/
def Reading.failure? {α : Type} (reading : Reading α) : Option Error :=
  match reading.result with
  | .ok _ => none
  | .error error => some error

/-- The error of a call that fails. -/
def Call.failure? (call : Call) (session : Session) (model : Model) (form : Notation)
    (source : String) : Option Error :=
  match call with
  | .graph => (session.parseGraph model form source).failure?
  | .outermostGraph => (session.parseOutermostGraph model form source).failure?
  | .concept home => (session.parseConcept model form home source).failure?
  | .relation home => (session.parseRelation model form home source).failure?
  | .actor home => (session.parseActor model form home source).failure?

/-- What comes of one call, whatever text or bytes it reads: the arena after it, and the error if
it fails. -/
inductive Parsed (session : Session) (model : Model) (form : Notation) :
    Model → Option Error → Prop
  | text (call : Call) (source : String) :
      Parsed session model form (call.after session model form source).2
        (call.failure? session model form source)
  | bytes (bytes : ByteArray) :
      Parsed session model form (session.parseGraphBytes model form bytes).model
        (session.parseGraphBytes model form bytes).failure?

/-- Moves lead from one arena to another, from where only labels of the session are bound, and an
error of the hierarchy arises at a juncture on the way. -/
def Comes (session : Session) (form : Notation) (homes : List (Option GraphId))
    (model later : Model) (failure : Option Error) : Prop :=
  ∃ start last : Reader, start.model = model ∧ last.model = later ∧
    (∀ label target, .binding label target ∈ start.labels.scope →
      .binding label target ∈ session.labels.scope) ∧
    Juncture.Leads ⟨form, session.options⟩ True ⟨homes, start⟩ ⟨homes, last⟩ ∧
    ∀ cause, failure = some (.hierarchy cause) → ∃ stuck : Juncture,
      Juncture.Leads ⟨form, session.options⟩ True ⟨homes, start⟩ stuck ∧
        stuck.Refused ⟨form, session.options⟩ (.hierarchy cause)

/-! ## Readings -/

variable {α : Type} {session : Session} {model later : Model} {form : Notation} {source : String}
  {homes : List (Option GraphId)} {home : Option GraphId} {failure : Option Error}

/-- Nothing has been read. -/
theorem Comes.still (otherwise : ∀ cause, failure ≠ some (.hierarchy cause)) :
    session.Comes form homes model model failure :=
  let reader : Reader := { rest := [], stop := {}, model, labels := {}, markers := {} }
  ⟨reader, reader, rfl, rfl, nofun, .refl, fun cause failed => absurd failed (otherwise cause)⟩

/-- A graph has been made for what is read. -/
theorem Comes.newGraph
    (comes : session.Comes form [some (model.newGraph none).1] (model.newGraph none).2 later
      failure) : session.Comes form [] model later failure := by
  obtain ⟨start, last, same, rfl, bound, path, refused⟩ := comes
  have begun : Juncture.Moves ⟨form, session.options⟩ True ⟨[], start.withModel model⟩
      ⟨[some (model.newGraph none).1], start⟩ := by
    have body : Juncture.Moves ⟨form, session.options⟩ True ⟨[], start.withModel model⟩ _ :=
      .beginBody True.intro
    have back : (start.withModel model).withModel (model.newGraph none).2 = start := by
      rw [← same]
      rfl
    rwa [Reader.withModel_model, back] at body
  refine ⟨start.withModel model, last, rfl, rfl, bound,
    ((ReflTransGen.single begun).trans path).tail (.endBody True.intro), fun cause failed => ?_⟩
  obtain ⟨stuck, before, holds⟩ := refused cause failed
  exact ⟨stuck, (ReflTransGen.single begun).trans before, holds⟩

/-- A reading comes to its end, or to the juncture where it has been refused. -/
theorem comes_read {production : Setting → Read α} {post : α → Reader → Prop}
    (session : Session) (form : Notation) (source : String)
    (traced : ∀ setting reader, Read.Traced setting True homes (production setting) reader post) :
    session.Comes form homes model (session.read model form source production).model
      (session.read model form source production).failure? := by
  unfold Session.read
  dsimp only
  split
  · exact .still nofun
  · next stop scanned =>
    have moves := traced { form, options := session.options }
      { rest := (Scan.ofText form source).tokens, stop, model, labels := session.labels,
        markers := session.markers }
    split
    · next value last ran =>
      have path := (moves.of_ok (fun without => (without True.intro).elim) ran).1
      exact ⟨_, last, rfl, rfl, fun _ _ => id, path, nofun⟩
    · next error last ran =>
      obtain ⟨stuck, before, refused, after⟩ :=
        moves.of_error (fun without => (without True.intro).elim) ran
      refine ⟨_, last, rfl, rfl, fun _ _ => id, before.trans after, ?_⟩
      rintro cause ⟨⟩
      exact ⟨stuck, before, refused⟩

/-- A text of its own comes to its end, or to the juncture where it has been refused. -/
theorem comes_parseOutermostGraph (session : Session) (model : Model) (form : Notation)
    (source : String) :
    session.Comes form [] model (session.parseOutermostGraph model form source).model
      (session.parseOutermostGraph model form source).failure? := by
  have read : ∀ setting reader, Read.Traced setting True [some (model.newGraph none).1] (do
      Read.graphInto setting (model.newGraph none).1
      return (model.newGraph none).1) reader fun _ _ => True := fun _ _ =>
    (Read.traced_graphInto _).bind fun _ _ _ _ => .pure True.intro
  rw [parseOutermostGraph_scoped]
  exact .newGraph (comes_read session form source read)

/-- A text of its own comes to its model by moves from an empty graph. -/
theorem comes_parseGraph (session : Session) (model : Model) (form : Notation) (source : String) :
    session.Comes form [] model (session.parseGraph model form source).model
      (session.parseGraph model form source).failure? := by
  obtain ⟨start, last, same, ends, bound, path⟩ :=
    comes_parseOutermostGraph { session with labels := session.labels.push } model form source
  refine ⟨start, last, same, ends, fun label target member => ?_, path⟩
  exact (List.mem_cons.mp (bound label target member)).resolve_left nofun

/-- A relation or an actor that has been read goes into a graph. -/
theorem Comes.into {reading : Reading RelationId}
    (comes : session.Comes form [home] model reading.model reading.failure?)
    (graph : Option GraphId) :
    session.Comes form [home] model (reading.into graph).model
      (reading.into graph).failure? := by
  unfold Reading.into
  split
  · next relation graph result =>
    obtain ⟨start, last, same, ends, bound, path, -⟩ := comes
    refine ⟨start, last.withModel (reading.model.addRelation graph relation), same, rfl, bound,
      path.tail (.edit ?_), fun cause failed => ?_⟩
    · rw [ends]
      exact .insert _ _
    · simp [Reading.failure?, result] at failed
  · exact comes

/-- Whatever a call reads, and whether it fails or not, it is made of moves. -/
theorem comes_of_parsed (parsed : session.Parsed model form later failure) :
    ∃ homes, session.Comes form homes model later failure := by
  cases parsed with
  | text call source =>
      cases call with
      | graph => exact ⟨_, comes_parseGraph session model form source⟩
      | outermostGraph => exact ⟨_, comes_parseOutermostGraph session model form source⟩
      | concept home =>
          unfold Call.after Call.failure?
          dsimp only
          rw [parseConcept_scoped]
          exact ⟨[home], comes_read session form source fun _ _ =>
            Read.traced_single (Read.traced_concept (Read.roomTraced _))⟩
      | relation home =>
          unfold Call.after Call.failure?
          dsimp only
          rw [parseRelation_scoped]
          exact ⟨[home], .into (comes_read session form source fun _ _ =>
            Read.traced_single (Read.traced_relation (Read.roomTraced _))) home⟩
      | actor home =>
          unfold Call.after Call.failure?
          dsimp only
          rw [parseActor_scoped]
          exact ⟨[home], .into (comes_read session form source fun _ _ =>
            Read.traced_single (Read.traced_actor (Read.roomTraced _))) home⟩
  | bytes bytes =>
      unfold parseGraphBytes
      split
      · exact ⟨_, comes_parseGraph session model form _⟩
      · exact ⟨[], .still nofun⟩

end ConceptualGraph.Session

end
