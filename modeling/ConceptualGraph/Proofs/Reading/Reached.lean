/-
Module: ConceptualGraph.Proofs.Reading.Reached
Purpose: An arena stays well formed through any sequence of readings that share it, whatever
  forms and options they have and whether they succeed or fail.
Main exports: Session.Call, Session.Reached, Session.wellFormed_of_reached
-/
import ConceptualGraph.Proofs.Reading.WellFormed

section

open Relation (ReflTransGen TransGen)

namespace ConceptualGraph.Session

/-! ## Calls -/

/-- A call that reads a text: into a graph of its own, or as one node that may go into a graph
that is there. -/
inductive Call where
  | graph
  | outermostGraph
  | concept (home : Option GraphId)
  | relation (home : Option GraphId)
  | actor (home : Option GraphId)
  deriving DecidableEq, Repr

/-- The graph that a call is given. -/
def Call.home : Call → Option GraphId
  | .graph | .outermostGraph => none
  | .concept home | .relation home | .actor home => home

/-- The session and the arena after a call, whatever comes of it. -/
def Call.after (call : Call) (session : Session) (model : Model) (form : Notation)
    (source : String) : Session × Model :=
  match call with
  | .graph =>
      let reading := session.parseGraph model form source
      (reading.session, reading.model)
  | .outermostGraph =>
      let reading := session.parseOutermostGraph model form source
      (reading.session, reading.model)
  | .concept home =>
      let reading := session.parseConcept model form home source
      (reading.session, reading.model)
  | .relation home =>
      let reading := session.parseRelation model form home source
      (reading.session, reading.model)
  | .actor home =>
      let reading := session.parseActor model form home source
      (reading.session, reading.model)

/-- What a sequence of calls leads to from a new session and an empty arena.  The options may
change between calls, every call has its own form, and a graph that it is given exists. -/
inductive Reached : Session → Model → Prop where
  | start (options : Options) : Reached (.withOptions options) {}
  | configure {session : Session} {model : Model} (options : Options)
      (reached : Reached session model) : Reached { session with options } model
  | call {session : Session} {model : Model} (call : Call) (form : Notation) (source : String)
      (offers : model.Offers call.home) (reached : Reached session model) :
      Reached (call.after session model form source).1 (call.after session model form source).2

/-! ## One call -/

variable {α : Type} {session : Session} {model : Model} {form : Notation} {source : String}
  {home : Option GraphId}

/-- What the productions uphold is upheld by reading a whole text, also where it fails. -/
theorem upholds_read {production : Setting → Read α} {post : α → Model → Prop}
    (session : Session) (form : Notation) (source : String)
    (upholds : ∀ setting reader, reader.model = model →
      Read.Upholds (production setting) reader post) (wellFormed : model.WellFormed) :
    (session.read model form source production).model.WellFormed ∧
      model.Persists (session.read model form source production).model ∧
      ∀ value, (session.read model form source production).result = .ok value →
        post value (session.read model form source production).model := by
  unfold Session.read
  dsimp only
  split
  · exact ⟨wellFormed, .refl _, nofun⟩
  · next stop scanned =>
    have kept := upholds { form, options := session.options }
      { rest := (Scan.ofText form source).tokens, stop, model, labels := session.labels,
        markers := session.markers } rfl wellFormed
    split
    · next value later ran =>
      rw [Read.final_of_ok ran] at kept
      refine ⟨kept.1, kept.2.1, ?_⟩
      rintro _ ⟨⟩
      exact kept.2.2.of_ok ran
    · next error later ran =>
      rw [Read.final_of_error ran] at kept
      exact ⟨kept.1, kept.2.1, nofun⟩

/-- A text of its own leaves a well-formed arena. -/
theorem wellFormed_parseOutermostGraph (wellFormed : model.WellFormed) :
    (session.parseOutermostGraph model form source).model.WellFormed := by
  have made : (model.newGraph none).2.WellFormed := (wellFormed.newGraph fun _ none => nomatch none)
  have read : ∀ setting reader, reader.model = (model.newGraph none).2 →
      Read.Upholds (do
        Read.graphInto setting ⟨model.graphs.size⟩
        return (⟨model.graphs.size⟩ : GraphId)) reader fun _ _ => True := by
    intro setting reader same
    have within : (⟨model.graphs.size⟩ : GraphId).index < reader.model.graphs.size := by
      rw [same]
      simp
    exact (Read.upholds_graphInto within).bind fun _ _ _ _ => .pure True.intro
  rw [parseOutermostGraph_scoped]
  exact (upholds_read session form source read made).1

/-- Reading a concept keeps the model well-formed. -/
theorem wellFormed_parseConcept (wellFormed : model.WellFormed) (offers : model.Offers home) :
    (session.parseConcept model form home source).model.WellFormed := by
  rw [parseConcept_scoped]
  exact (upholds_read session form source (fun _ _ same => Read.upholds_single
    (Read.upholds_concept (Read.roomUpholds _) (same ▸ offers))) wellFormed).1

/-- A relation or an actor that has been read goes where it was read for. -/
theorem wellFormed_into {production : Setting → Read RelationId} (wellFormed : model.WellFormed)
    (offers : model.Offers home)
    (upholds : ∀ setting reader, reader.model = model →
      Read.Upholds (production setting) reader fun relation model =>
        Read.Pending home relation model) :
    ((session.read model form source production).into home).model.WellFormed := by
  have ⟨kept, persists, drafted⟩ := upholds_read session form source upholds wellFormed
  unfold Reading.into
  split
  · next relation graph result =>
    exact ((drafted _ result).added (Nat.lt_of_lt_of_le (offers _ rfl) persists.graphs)).1
  · exact kept

/-- A call leaves a well-formed arena so. -/
theorem Call.wellFormed_after (call : Call) (wellFormed : model.WellFormed)
    (offers : model.Offers call.home) :
    (call.after session model form source).2.WellFormed := by
  cases call with
  | graph => exact wellFormed_parseOutermostGraph wellFormed
  | outermostGraph => exact wellFormed_parseOutermostGraph wellFormed
  | concept home => exact wellFormed_parseConcept wellFormed offers
  | relation home =>
      unfold Call.after
      dsimp only
      rw [parseRelation_scoped]
      exact wellFormed_into wellFormed offers fun _ _ same => Read.upholds_single
        (Read.upholds_relation (Read.roomUpholds _) (same ▸ offers))
  | actor home =>
      unfold Call.after
      dsimp only
      rw [parseActor_scoped]
      exact wellFormed_into wellFormed offers fun _ _ same => Read.upholds_single
        (Read.upholds_actor (Read.roomUpholds _) (same ▸ offers))

/-! ## Any sequence of calls -/

/-- Whatever is read into an arena, in any order and with any outcome, it is well formed; no
graph then lies inside itself, the search outwards from a graph finds all graphs around it, and
the members of a set whose scope is checked stand inside the graph of the defining one. -/
theorem wellFormed_of_reached (reached : Reached session model) :
    model.WellFormed ∧ (∀ graph, ¬TransGen model.LiesIn graph graph) ∧
      (∀ graph ancestor, model.isNestedIn graph ancestor = true ↔
        ReflTransGen model.LiesIn graph ancestor) ∧
      ∀ set, (model.corefSet set).scopeChecked = true →
        ∀ member ∈ (model.corefSet set).members, ∃ inner outer,
          (model.concept member).graph = some inner ∧
          (model.concept (model.corefSet set).defining).graph = some outer ∧
          ReflTransGen model.LiesIn inner outer := by
  -- A failed call leaves what it had made so far, and this is well-formed too.
  have wellFormed : model.WellFormed := by
    induction reached with
    | start options => exact .empty
    | configure options reached ih => exact ih
    | call call form source offers reached ih => exact call.wellFormed_after ih offers
  refine ⟨wellFormed, wellFormed.acyclic, fun _ _ => wellFormed.isNestedIn_iff, ?_⟩
  intro set checked member belongs
  have within := wellFormed.scope set checked member belongs
  unfold Model.inScope at within
  split at within
  · next inner outer stands scope =>
    exact ⟨inner, outer, stands, scope, wellFormed.isNestedIn_iff.mp within⟩
  · cases within

/-- A reading that fails half way through a nested graph, and then an arc of the other form
that names a label which the failed reading has left bound. -/
theorem wellFormed_of_reached_after_failure :
    let failed := Call.outermostGraph.after (.withOptions {}) {} .cgif
      "[A: *x [B: ?x]] (R ?x [C: [D"
    let joined := Call.after (.relation (some ⟨0⟩)) failed.1 failed.2 .linear "(R ?x)"
    Reached joined.1 joined.2 ∧ joined.2.concepts.size = 4 ∧ joined.2.relations.size = 1 ∧
      joined.2.WellFormed := by
  have start : Reached (.withOptions {}) {} := .start {}
  have failed := start.call .outermostGraph .cgif "[A: *x [B: ?x]] (R ?x [C: [D" nofun
  have joined := failed.call (.relation (some ⟨0⟩)) .linear "(R ?x)" (by
    rintro _ ⟨⟩
    decide +kernel)
  exact ⟨joined, by decide +kernel, by decide +kernel, (wellFormed_of_reached joined).1⟩

end ConceptualGraph.Session

end
