/-
Module: ConceptualGraph.Proofs.Reading.Mutual
Purpose: Concepts and coreference sets list each other in every arena that edits and readings lead
  to, whichever of them fail, as labels denote only what the arena holds.
Main exports: Model.Holds, LabelTable.Known, Moment.Acts.onward, Session.Call.onward_after,
  Model.Reached, Model.mutual_of_reached
-/
import ConceptualGraph.Proofs.Reading.Enacted.Graphs
import ConceptualGraph.Proofs.Reading.Reached
import ConceptualGraph.Proofs.Reading.Sound.State

namespace ConceptualGraph

/-! ## Labels -/

/-- A target is in the arena. -/
def Model.Holds (model : Model) : Target → Prop
  | .concept concept => concept.index < model.concepts.size
  | .set set => set.index < model.corefSets.size

/-- What labels denote is in the arena. -/
def LabelTable.Known (model : Model) (table : LabelTable) : Prop :=
  ∀ label target, .binding label target ∈ table.scope → model.Holds target

/-- An arena has come from another one: nothing has been removed, membership is noted on both
sides, and labels denote what is there. -/
structure Model.Onward (model : Model) (labels : LabelTable) (later : Model) : Prop where
  concepts : model.concepts.size ≤ later.concepts.size
  sets : model.corefSets.size ≤ later.corefSets.size
  agree : later.Mutual
  known : labels.Known later

namespace LabelTable

variable {model later : Model} {table : LabelTable} {label : String} {target : Target}

theorem Known.empty : Known model {} := nofun

/-- What is there remains there. -/
theorem Known.mono (known : table.Known model)
    (concepts : model.concepts.size ≤ later.concepts.size)
    (sets : model.corefSets.size ≤ later.corefSets.size) : table.Known later := by
  intro label target bound
  have holds := known label target bound
  cases target with
  | concept concept => exact Nat.lt_of_lt_of_le holds concepts
  | set set => exact Nat.lt_of_lt_of_le holds sets

theorem Known.bind (known : table.Known model) (label : String) (holds : model.Holds target) :
    (table.bind label target).Known model := by
  intro bound other member
  rcases mem_scope_bind member with ⟨-, rfl⟩ | former
  · exact holds
  · exact known bound other former

/-- Opening a context keeps all labels known. -/
theorem Known.push (known : table.Known model) : table.push.Known model := by
  intro label target member
  rcases List.mem_cons.mp member with same | former
  · cases same
  · exact known label target former

theorem Known.pop (known : table.Known model) : table.pop.Known model :=
  fun label target member => known label target (scope_pop_subset table member)

theorem Known.holds (known : table.Known model) (denotes : table.target? label = some target) :
    model.Holds target :=
  known label target (mem_of_target? denotes)

end LabelTable

/-! ## One act -/

namespace Model.Onward

variable {model middle later : Model} {labels further : LabelTable}

theorem refl (agree : model.Mutual) (known : labels.Known model) : model.Onward labels model :=
  ⟨Nat.le_refl _, Nat.le_refl _, agree, known⟩

theorem trans (first : model.Onward labels middle) (second : middle.Onward further later) :
    model.Onward further later :=
  ⟨Nat.le_trans first.concepts second.concepts, Nat.le_trans first.sets second.sets,
    second.agree, second.known⟩

/-- Where sets stay as they are, the labels stay known. -/
theorem of_sameSets (agree : model.Mutual) (known : labels.Known model)
    (same : model.SameSets later) : model.Onward labels later :=
  have concepts := Nat.le_of_eq same.size.symm
  have sets := Nat.le_of_eq (congrArg Array.size same.sets.symm)
  ⟨concepts, sets, agree.of_sameSets same, known.mono concepts sets⟩

/-- A concept that is made belongs to no set. -/
theorem newConcept (agree : model.Mutual) (known : labels.Known model)
    (type : Option ConceptType) : model.Onward labels (model.newConcept type).2 :=
  have concepts : model.concepts.size ≤ (model.newConcept type).2.concepts.size := by simp
  ⟨concepts, Nat.le_refl _, agree.newConcept type, known.mono concepts (Nat.le_refl _)⟩

/-- A set that is made has its defining concept as its member. -/
theorem newCorefSet (agree : model.Mutual) (known : labels.Known model) {defining : ConceptId}
    (inside : defining.index < model.concepts.size) :
    model.Onward labels (model.newCorefSet defining).2 :=
  have concepts : model.concepts.size ≤ (model.newCorefSet defining).2.concepts.size :=
    Nat.le_of_eq size_modifyConcept.symm
  have sets : model.corefSets.size ≤ (model.newCorefSet defining).2.corefSets.size := by simp
  ⟨concepts, sets, agree.newCorefSet inside, known.mono concepts sets⟩

/-- A member that is added takes the arena on, with the labels that it is known by. -/
theorem addToCorefSet (agree : model.Mutual) (known : labels.Known model) {set : CorefSetId}
    {concept : ConceptId} (there : set.index < model.corefSets.size)
    (inside : concept.index < model.concepts.size)
    (added : model.addToCorefSet set concept = .ok later) : model.Onward labels later := by
  have concepts := Nat.le_of_eq (size_addToCorefSet added).symm
  have sets : model.corefSets.size ≤ later.corefSets.size := by
    rcases eq_of_addToCorefSet added with ⟨-, rfl⟩ | ⟨-, rfl⟩
    · exact Nat.le_refl _
    · simp [noteMembership, modifyCorefSet]
  exact ⟨concepts, sets, agree.addToCorefSet there inside added, known.mono concepts sets⟩

end Model.Onward

namespace Moment

variable {moment later : Moment}

/-- An act of reading keeps what concepts and sets say of each other, and binds labels to what is
there. -/
theorem Acts.onward (acts : Acts moment later) (agree : moment.reader.model.Mutual)
    (known : moment.reader.labels.Known moment.reader.model) :
    moment.reader.model.Onward later.reader.labels later.reader.model := by
  cases acts with
  | past | leave | count => exact .refl agree known
  | edit quiet => exact .of_sameSets agree known quiet.toSameSets
  | conceive type => exact .newConcept agree known type
  | @mark reader _ _ digits _ _ next marks last =>
      have read := reader.markers.model_read digits reader.model
      refine .of_sameSets agree known (.of_eq ?_ ?_)
      · exact read.elim (congrArg Model.concepts) (congrArg Model.concepts)
      · exact read.elim (congrArg Model.corefSets) (congrArg Model.corefSets)
  | refer same => exact .of_sameSets agree known .setReferent
  | define _ inside => exact .refl agree (known.bind _ inside)
  | promote denotes =>
      have onward := Model.Onward.newCorefSet agree known (known.holds denotes)
      refine { onward with known := onward.known.bind _ ?_ }
      simp [Model.Holds]
  | join denotes inside added => exact .addToCorefSet agree known (known.holds denotes) inside added
  | push => exact .refl agree known.push
  | pop => exact .refl agree known.pop

/-- So do any number of acts. -/
theorem Leads.onward (leads : Leads moment later) (agree : moment.reader.model.Mutual)
    (known : moment.reader.labels.Known moment.reader.model) :
    moment.reader.model.Onward later.reader.labels later.reader.model := by
  induction leads with
  | refl => exact .refl agree known
  | tail _ acts ih => exact ih.trans (acts.onward ih.agree ih.known)

end Moment

/-! ## One reading -/

namespace Session

variable {α : Type} {session : Session} {model : Model} {production : Setting → Read α}

/-- A reading that consists of acts goes on from the arena, whether it succeeds or fails. -/
theorem onward_read (form : Notation) (source : String) (agree : model.Mutual)
    (known : session.labels.Known model) (enacted : ∀ setting reader,
      Read.Enacted [] (production setting) reader (fun _ => []) fun _ _ => True) :
    let reading := session.read model form source production
    model.Onward reading.session.labels reading.model := by
  intro reading
  obtain ⟨stop, moment, path, arena, labels, -, -⟩ := session.exists_leads model form source enacted
  have onward := path.onward agree known
  rwa [arena, labels] at onward

/-- A text of its own takes the arena on. -/
theorem onward_parseOutermostGraph (form : Notation) (source : String) (agree : model.Mutual)
    (known : session.labels.Known model) :
    let reading := session.parseOutermostGraph model form source
    model.Onward reading.session.labels reading.model := by
  have made : model.Onward session.labels (model.newGraph none).2 :=
    .of_sameSets agree known (.of_eq rfl rfl)
  rw [parseOutermostGraph_scoped]
  exact made.trans <| onward_read form source made.agree made.known fun _ _ =>
    (Read.enacted_graphInto _).bind fun _ _ _ _ => .pure True.intro

/-- Putting a relation into a graph changes no set. -/
theorem onward_into {reading : Reading RelationId} (home : Option GraphId)
    (onward : model.Onward reading.session.labels reading.model) :
    model.Onward (reading.into home).session.labels (reading.into home).model := by
  unfold Reading.into
  split
  · exact onward.trans (.of_sameSets onward.agree onward.known (.of_eq rfl rfl))
  · exact onward

/-- A call that reads a text goes on from the arena, whatever comes of it. -/
theorem Call.onward_after (call : Call) (form : Notation) (source : String)
    (agree : model.Mutual) (known : session.labels.Known model) :
    model.Onward (call.after session model form source).1.labels
      (call.after session model form source).2 := by
  cases call with
  | graph =>
      let inside := { session with labels := session.labels.push }
      have onward : model.Onward (inside.parseOutermostGraph model form source).session.labels _ :=
        onward_parseOutermostGraph form source agree known.push
      exact { onward with known := onward.known.pop }
  | outermostGraph => exact onward_parseOutermostGraph form source agree known
  | concept home =>
      unfold Call.after
      dsimp only
      rw [parseConcept_scoped]
      exact onward_read form source agree known fun _ _ =>
        (Read.enacted_single (Read.enacted_concept (Read.roomEnacted _))).trivial
  | relation home =>
      unfold Call.after
      dsimp only
      rw [parseRelation_scoped]
      exact onward_into home <| onward_read form source agree known fun _ _ =>
        (Read.enacted_single (Read.enacted_relation (Read.roomEnacted _))).trivial
  | actor home =>
      unfold Call.after
      dsimp only
      rw [parseActor_scoped]
      exact onward_into home <| onward_read form source agree known fun _ _ =>
        (Read.enacted_single (Read.enacted_actor (Read.roomEnacted _))).trivial

end Session

/-! ## Any sequence of edits and readings -/

namespace Model

variable {sessions : Nat → Session} {model : Model}

/-- What edits and readings lead to from an arena in which there is nothing yet, with any number of
sessions.  Edits that are refused and readings that fail are among them.  A session may be replaced
by any other one whose labels denote what is in the arena. -/
inductive Reached : (Nat → Session) → Model → Prop
  | start (hierarchy : Hierarchy) : Reached (fun _ => {}) { hierarchy }
  | edit {sessions : Nat → Session} {model : Model} (call : Call) (allowed : call.Allowed model)
      (reached : Reached sessions model) : Reached sessions (call.after model)
  | read {sessions : Nat → Session} {model : Model} (number : Nat) (call : Session.Call)
      (form : Notation) (source : String) (reached : Reached sessions model) :
      Reached
        (Function.update sessions number (call.after (sessions number) model form source).1)
        (call.after (sessions number) model form source).2
  | replace {sessions : Nat → Session} {model : Model} (number : Nat) (session : Session)
      (known : session.labels.Known model) (reached : Reached sessions model) :
      Reached (Function.update sessions number session) model

/-- A call that edits an arena goes on from it, also where it is refused. -/
theorem Call.onward_after {call : Call} (agree : model.Mutual) {labels : LabelTable}
    (known : labels.Known model) (allowed : call.Allowed model) :
    model.Onward labels (call.after model) := by
  cases call with
  | newConcept type => exact .newConcept agree known type
  | newCorefSet defining =>
      rw [Call.after_newCorefSet]
      exact .newCorefSet agree known allowed
  | addToCorefSet set concept =>
      rw [Call.after_addToCorefSet]
      cases added : model.addToCorefSet set concept with
      | ok later => exact .addToCorefSet agree known allowed.1 allowed.2 added
      | error error => exact .refl agree known
  | editConcept concept change => exact .of_sameSets agree known (.modifyConcept allowed)
  | addConcept graph concept => exact .of_sameSets agree known .addConcept
  | setReferent concept referent => exact .of_sameSets agree known .setReferent
  | newGraph | addComment | newRelation | editRelation | addRelation | newMarker | editHierarchy =>
      exact .of_sameSets agree known (.of_eq rfl rfl)

/-- Whatever edits and readings lead to an arena, and whichever of them fail, a concept lists a
set exactly if the set lists the concept, neither lists the other twice, and a set lists its
defining member first; and a member that is refused next changes nothing. -/
theorem mutual_of_reached (reached : Reached sessions model) : model.Mutual ∧
    ∀ (set : CorefSetId) (concept : ConceptId) (error : ModelError) (later : Model),
      InPlace.addToCorefSet set concept model = .error error later → later = model := by
  refine ⟨?_, fun _ _ _ _ refused => InPlace.eq_of_addToCorefSet_error refused⟩
  -- Labels may be used after any call, so what all sessions denote is part of the invariant.
  suffices model.Mutual ∧ ∀ number, (sessions number).labels.Known model from this.1
  induction reached with
  | start hierarchy => exact ⟨.start hierarchy, fun _ => .empty⟩
  | edit call allowed _ ih =>
      have onward number := Call.onward_after ih.1 (ih.2 number) allowed
      exact ⟨(onward 0).agree, fun number => (onward number).known⟩
  | @read sessions model number call form source _ ih =>
      have onward := call.onward_after form source ih.1 (ih.2 number)
      refine ⟨onward.agree, fun other => ?_⟩
      by_cases same : other = number
      · subst same
        rw [Function.update_self]
        exact onward.known
      · rw [Function.update_of_ne same]
        exact (ih.2 other).mono onward.concepts onward.sets
  | @replace sessions model number session known _ ih =>
      refine ⟨ih.1, fun other => ?_⟩
      by_cases same : other = number
      · subst same
        rw [Function.update_self]
        exact known
      · rw [Function.update_of_ne same]
        exact ih.2 other

/-- A reading fails after it has begun a coreference set for a label; a concept that stands in no
graph is then refused as its member. -/
theorem mutual_of_reached_refused :
    let read := Session.Call.after .outermostGraph {} {} .cgif "[A: *x] [B: ?x] (R ?x [C: [D"
    let model := Call.after read.2 (.newConcept none)
    let outside : ConceptId := ⟨read.2.concepts.size⟩
    (∃ sessions, Reached sessions model) ∧ model.Mutual ∧
      (model.corefSet ⟨0⟩).members = [⟨0⟩, ⟨1⟩] ∧
      model.addToCorefSet ⟨0⟩ outside = .error (.coreferenceScope ⟨0⟩ ⟨0⟩ outside) ∧
      ∀ error later, InPlace.addToCorefSet ⟨0⟩ outside model = .error error later →
        later = model := by
  intro read model outside
  have parsed := Reached.read 0 .outermostGraph .cgif "[A: *x] [B: ?x] (R ?x [C: [D" (.start {})
  have reached := parsed.edit (.newConcept none) True.intro
  obtain ⟨agree, unchanged⟩ := mutual_of_reached reached
  exact ⟨⟨_, reached⟩, agree, by decide +kernel, by decide +kernel, unchanged _ _⟩

end Model

end ConceptualGraph
