/-
Module: ConceptualGraph.Proofs.Reading.WellFormed
Purpose: Reading keeps the arena well formed, whether it succeeds or fails, and moves nothing
  that is there.
Main exports: Read.Upholds, Read.upholds_items, Read.roomUpholds, Read.upholds_graphInto
-/
import ConceptualGraph.Proofs.Model.WellFormed
import ConceptualGraph.Proofs.Reading.Scope
import ConceptualGraph.Proofs.Reading.Sound.Contexts
import ConceptualGraph.Proofs.Reading.Spares
import ConceptualGraph.Session

section

open Relation (ReflTransGen TransGen)

namespace ConceptualGraph

/-! ## Places -/

namespace Model

/-- Whether the graph into which something is read exists, if there is one. -/
def Offers (model : Model) (home : Option GraphId) : Prop :=
  ∀ graph, home = some graph → graph.index < model.graphs.size

/-- Whether a concept stands in the graph into which it is read, if there is one. -/
def Seats (model : Model) (home : Option GraphId) (concept : ConceptId) : Prop :=
  ∀ graph, home = some graph → (model.concept concept).graph = some graph

variable {model later : Model} {home : Option GraphId} {concept : ConceptId}

theorem Offers.persists (offers : model.Offers home) (persists : model.Persists later) :
    later.Offers home :=
  fun graph same => Nat.lt_of_lt_of_le (offers graph same) persists.graphs

theorem Seats.persists (seats : model.Seats home concept) (persists : model.Persists later) :
    later.Seats home concept :=
  fun graph same => persists.stands _ _ (seats graph same)

end Model

namespace Read

variable {α β : Type} {step other : Read α} {next : α → Read β} {reader : Reader}
  {post weaker : α → Model → Prop} {final' : β → Model → Prop}

/-- A step keeps a well-formed arena so, and its nodes in their places, however it ends; if it
succeeds, its result has a property. -/
def Upholds (step : Read α) (reader : Reader) (post : α → Model → Prop) : Prop :=
  reader.model.WellFormed → (final step reader).model.WellFormed ∧
    reader.model.Persists (final step reader).model ∧
    Ensures step reader fun value later => post value later.model

namespace Upholds

theorem mono (upholds : Upholds step reader post)
    (weaken : ∀ value model, reader.model.Persists model → post value model → weaker value model) :
    Upholds step reader weaker := fun wellFormed =>
  have ⟨kept, persists, holds⟩ := upholds wellFormed
  ⟨kept, persists, .intro fun value later ran =>
    weaken value later.model (final_of_ok ran ▸ persists) (holds.of_ok ran)⟩

theorem trivial (upholds : Upholds step reader post) :
    Upholds step reader fun _ _ => True := upholds.mono fun _ _ _ _ => True.intro

/-- What is upheld twice is upheld. -/
theorem bind (first : Upholds step reader post)
    (others : ∀ value later, reader.model.Persists later.model → post value later.model →
      Upholds (next value) later final') :
    Upholds (step >>= next) reader final' := by
  intro wellFormed
  obtain ⟨kept, persists, holds⟩ := first wellFormed
  cases ran : step reader with
  | ok value later =>
      rw [final_of_ok ran] at kept persists
      obtain ⟨last, further, result⟩ := others value later persists (holds.of_ok ran) kept
      refine ⟨?_, ?_, ?_⟩
      · rwa [final_bind_of_ok ran]
      · rw [final_bind_of_ok ran]
        exact persists.trans further
      · simpa only [Ensures, Bind.bind, EStateM.bind, ran] using result
  | error error later =>
      rw [final_of_error ran] at kept persists
      refine ⟨?_, ?_, ?_⟩
      · rwa [final_bind_of_error ran]
      · rwa [final_bind_of_error ran]
      · simp only [Ensures, Bind.bind, EStateM.bind, ran]

/-- What spares the model upholds it. -/
theorem of_spares (spares : Spares step) :
    Upholds step reader fun _ model => model = reader.model := by
  intro wellFormed
  have same := (spares reader).1
  refine ⟨by rwa [same], by rw [same]; exact .refl _, .intro fun value later ran => ?_⟩
  rw [← final_of_ok ran, same]

/-- A step that leaves the model alone comes first. -/
theorem past (spares : Spares step)
    (others : ∀ value later, reader.model.Persists later.model →
      Upholds (next value) later final') :
    Upholds (step >>= next) reader final' :=
  (of_spares spares).bind fun value later persists _ => others value later persists

theorem pure {value : α} (holds : post value reader.model) :
    Upholds (pure value) reader post :=
  fun wellFormed => ⟨wellFormed, .refl _, holds⟩

theorem throw {error : Error} : Upholds (throw error) reader post :=
  fun wellFormed => ⟨wellFormed, .refl _, True.intro⟩

theorem failAt {found : Located} {fault : ParseFault} :
    Upholds (failAt found fault) reader post := throw

theorem fail {fault : ParseFault} : Upholds (fail fault) reader post :=
  fun wellFormed => ⟨wellFormed, .refl _, True.intro⟩

theorem ite {condition : Prop} [Decidable condition] (yes : Upholds step reader post)
    (no : Upholds other reader post) :
    Upholds (if condition then step else other) reader post := by
  split
  · exact yes
  · exact no

/-- Whatever is only known of a well-formed arena. -/
theorem assuming (upholds : reader.model.WellFormed → Upholds step reader post) :
    Upholds step reader post := fun wellFormed => upholds wellFormed wellFormed

/-- A step goes on as another one from a state to which edits lead. -/
theorem after (middle : Reader) (same : step reader = other middle)
    (kept : reader.model.WellFormed →
      middle.model.WellFormed ∧ reader.model.Persists middle.model)
    (upholds : Upholds other middle post) : Upholds step reader post := by
  intro wellFormed
  obtain ⟨still, persists⟩ := kept wellFormed
  have ends : final step reader = final other middle := by
    unfold final
    rw [same]
  rw [ends]
  obtain ⟨last, further, holds⟩ := upholds still
  exact ⟨last, persists.trans further, by simpa only [Ensures, same] using holds⟩

theorem model {next : Model → Read β} (upholds : Upholds (next reader.model) reader final') :
    Upholds (Read.model >>= next) reader final' := upholds

theorem labels {next : LabelTable → Read β}
    (upholds : Upholds (next reader.labels) reader final') :
    Upholds (Read.labels >>= next) reader final' := upholds

theorem edit {change : Model → Model}
    (kept : reader.model.WellFormed →
      (change reader.model).WellFormed ∧ reader.model.Persists (change reader.model)) :
    Upholds (edit change) reader fun _ model => model = change reader.model :=
  fun wellFormed => ⟨(kept wellFormed).1, (kept wellFormed).2, rfl⟩

theorem make {change : Model → α × Model}
    (kept : reader.model.WellFormed →
      (change reader.model).2.WellFormed ∧ reader.model.Persists (change reader.model).2) :
    Upholds (make change) reader fun value model =>
      value = (change reader.model).1 ∧ model = (change reader.model).2 :=
  fun wellFormed => ⟨(kept wellFormed).1, (kept wellFormed).2, rfl, rfl⟩

/-- Labels that are bound and unbound around a step are no part of the arena. -/
theorem inContext (upholds : Upholds step (reader.withLabels reader.labels.push) post) :
    Upholds (inContext step) reader post := by
  intro wellFormed
  have kept := upholds wellFormed
  unfold final Ensures Read.inContext at *
  unfold Reader.withLabels at kept
  cases ran : step { reader with labels := reader.labels.push } <;> simp only [ran] at kept ⊢ <;>
    exact kept

/-- What a bracket encloses upholds the model with the bracket. -/
theorem descend {setting : Setting} {room : Option Inside} {next : Inside → Read β}
    (others : ∀ inside, room = some inside → Upholds (next inside) reader final') :
    Upholds (descend setting room >>= next) reader final' := by
  cases room with
  | none => exact fail
  | some inside => exact others inside rfl

end Upholds

/-! ## Coreference -/

variable {setting : Setting} {room : Option Inside} {graph : GraphId} {home : Option GraphId}

theorem upholds_setFor (found : Located) (label : String) :
    Upholds (setFor found label) reader fun _ _ => True := by
  refine .labels ?_
  split
  · exact .pure True.intro
  · exact (Upholds.make fun wellFormed => wellFormed.newCorefSet).bind fun _ _ _ _ =>
      .past (.bindLabel _ _) fun _ _ _ => .pure True.intro
  · exact .failAt

theorem upholds_join (found : Located) (label : String) (concept : ConceptId) :
    Upholds (join found label concept) reader fun _ _ => True := by
  refine (upholds_setFor found label).bind fun set later _ _ => ?_
  refine .model ?_
  split
  · next added => exact (Upholds.edit fun wellFormed => wellFormed.addToCorefSet added).trivial
  · exact .failAt

/-- A concept is made, changed in data that are nobody else's, and put into a graph. -/
theorem Upholds.place {next : ConceptId → Read β} {type : Option ConceptType}
    (within : graph.index < reader.model.graphs.size)
    (others : ∀ later, later.model = reader.model.placed { type } graph →
      reader.model.Persists later.model →
        Upholds (next ⟨reader.model.concepts.size⟩) later final') :
    Upholds (do
      let concept ← Read.make (·.newConcept type)
      Read.edit (·.addConcept graph concept)
      next concept) reader final' := by
  refine .assuming fun wellFormed => ?_
  have same := Model.addConcept_newConcept wellFormed.listed graph type
  refine .after (reader.withModel (reader.model.placed { type } graph)) ?_
    (fun _ => ⟨wellFormed.placed within rfl, .placed within⟩) (others _ rfl (.placed within))
  rw [← same]
  rfl

/-- A member of a set that is found stands in the graph where it was looked for. -/
theorem upholds_representative? (label : String) (defining : ConceptId) :
    Upholds (representative? label defining graph) reader fun found model =>
      ∀ concept, found = some concept → (model.concept concept).graph = some graph := by
  have encloses : ∀ {model : Model} {concept : ConceptId}, model.encloses graph concept = true →
      (model.concept concept).graph = some graph := fun found => by
    simpa [Model.encloses] using found
  refine .model ?_
  split
  · next here =>
    refine .pure ?_
    rintro concept ⟨⟩
    exact encloses here
  · refine .labels ?_
    split
    · exact .pure fun concept found => encloses (List.find?_some found)
    · exact .pure (by rintro _ ⟨⟩)

/-- A label is resolved to a concept that is seated in the graph where it was met. -/
theorem upholds_resolve (found : Located) (label : String) (offers : reader.model.Offers home) :
    Upholds (resolve found label home) reader fun concept model => model.Seats home concept := by
  have seated : ∀ {model : Model} {concept : ConceptId} {graph : GraphId},
      (model.concept concept).graph = some graph → model.Seats (some graph) concept := by
    rintro model concept graph stands _ ⟨⟩
    exact stands
  refine .past (passes_definingConcept? label).spares fun defining later persists => ?_
  have within := offers.persists persists
  split
  · exact .failAt
  · exact .pure nofun
  · next defining graph =>
    refine (upholds_representative? label defining).bind fun known after further stands => ?_
    split
    · exact .pure (seated (stands _ rfl))
    · refine .model (.place (Nat.lt_of_lt_of_le (within graph rfl) further.graphs)
        fun joined same _ => ?_)
      refine (upholds_join found label _).bind fun _ last onward _ => .pure (seated ?_)
      refine onward.stands _ _ ?_
      rw [same, Model.concept_placed, if_pos rfl]

/-! ## Types -/

/-- An edit of the types. -/
theorem Upholds.retype {change : Model → Model} (hierarchy : Hierarchy)
    (same : change reader.model = { reader.model with hierarchy }) :
    Upholds (Read.edit change) reader fun _ _ => True := by
  refine (Upholds.edit fun wellFormed => ?_).trivial
  rw [same]
  exact ⟨wellFormed.elsewhere _ _, (Model.SameShape.elsewhere _ _).persists⟩

theorem upholds_conceptTypeNamed (found : Located) (label : String) :
    Upholds (conceptTypeNamed setting found label) reader fun _ _ => True := by
  refine .model ?_
  dsimp only
  split
  · exact .pure True.intro
  · refine .ite ?_ .failAt
    split
    · exact (Upholds.retype _ rfl).bind fun _ _ _ _ => .pure True.intro
    · exact .throw

theorem upholds_relationTypeNamed (found : Located) (label : String) :
    Upholds (relationTypeNamed setting found label) reader fun _ _ => True := by
  refine .model ?_
  dsimp only
  split
  · exact .pure True.intro
  · refine .ite ?_ .failAt
    split
    · exact (Upholds.retype _ rfl).bind fun _ _ _ _ => .pure True.intro
    · exact .throw

theorem upholds_parameter : Upholds (parameter setting) reader fun _ _ => True := by
  refine .past .peek fun token _ _ => ?_
  split
  · refine .past (.located 0) fun _ _ _ => .past .advance fun _ _ _ =>
      (upholds_conceptTypeNamed _ _).bind fun _ _ _ _ => .past .peek fun token _ _ => ?_
    split
    · exact .past (.located 0) fun _ _ _ => .past .advance fun _ _ _ => .pure True.intro
    · exact .fail
  · exact .fail

theorem upholds_parameters (tokens : Nat) :
    Upholds (parameters setting tokens) reader fun _ _ => True := by
  induction tokens generalizing reader with
  | zero => exact upholds_parameter.bind fun _ _ _ _ => .pure True.intro
  | succ tokens ih =>
      exact upholds_parameter.bind fun _ _ _ _ => .past (.eat _) fun _ _ _ =>
        .ite (ih.bind fun _ _ _ _ => .pure True.intro) (.pure True.intro)

/-- What is read inside a bracket keeps the arena well formed. -/
structure InsideUpholds (inside : Inside) : Prop where
  concept : ∀ home reader, reader.model.Offers home →
    Upholds (inside.concept home) reader fun found model =>
      ∀ concept, found = some concept → model.Seats home concept
  lambda : ∀ reader, Upholds inside.lambda reader fun _ _ => True
  items : ∀ graph reader, graph.index < reader.model.graphs.size →
    Upholds (inside.items graph) reader fun _ _ => True

/-- What is read where there is room keeps the arena well formed. -/
def RoomUpholds (room : Option Inside) : Prop :=
  ∀ inside, room = some inside → InsideUpholds inside

/-- A graph is made. -/
theorem Upholds.newGraph (owner : Option ConceptId)
    (inside : ∀ concept, owner = some concept → concept.index < reader.model.concepts.size) :
    Upholds (Read.make (·.newGraph owner)) reader fun graph model =>
      graph.index < model.graphs.size ∧ (model.graph graph).owner = owner := by
  refine (Upholds.make fun wellFormed => ⟨wellFormed.newGraph inside, .newGraph⟩).mono
    fun graph model _ made => ?_
  obtain ⟨rfl, rfl⟩ := made
  exact ⟨by simp, by rw [Model.newGraph_fst, Model.graph_newGraph]⟩

theorem upholds_definitionBody {inside : Inside} (upholds : InsideUpholds inside)
    (declared : List Declared) :
    Upholds (definitionBody inside declared) reader fun _ _ => True := by
  refine .past .peek fun _ _ _ => .ite ?_ ?_
  · exact (Upholds.newGraph none nofun).bind fun graph _ _ made =>
      (upholds.items graph _ made.1).bind fun _ _ _ _ =>
        .past (Passes.mapM _ fun _ => passes_linkParameter _ _).spares fun _ _ _ => .pure True.intro
  · exact .past (Passes.mapM _ fun _ => passes_linkParameter _ _).spares
      fun _ _ _ => .pure True.intro

theorem upholds_lambda (upholds : RoomUpholds room) :
    Upholds (lambda setting room) reader fun _ _ => True :=
  .descend fun inside entered => .past (.expect _ _) fun _ _ _ => .past (.expect _ _) fun _ _ _ =>
    .past (.expect _ _) fun _ _ _ => .past .get fun _ _ _ =>
      (upholds_parameters _).bind fun _ _ _ _ => .past (.expect _ _) fun _ _ _ =>
        (Upholds.inContext (upholds_definitionBody (upholds inside entered) _)).bind
          fun _ _ _ _ => .past (.expect _ _) fun _ _ _ => .pure True.intro

theorem upholds_conceptType {lambda : Read Definition}
    (upholds : ∀ reader, Upholds lambda reader fun _ _ => True) :
    Upholds (conceptType setting lambda) reader fun _ _ => True := by
  refine .past .peek fun token _ _ => ?_
  split
  · exact .past (.located 0) fun _ _ _ => .past .advance fun _ _ _ =>
      (upholds_conceptTypeNamed _ _).bind fun _ _ _ _ => .pure True.intro
  · refine .past (passes_lambdaAhead 0).spares fun _ _ _ => .ite ?_ (.pure True.intro)
    refine .past (.located 0) fun _ _ _ => (upholds _).bind fun _ _ _ _ => .ite .failAt ?_
    refine (Upholds.make fun wellFormed => ?_).bind fun _ _ _ _ => .pure True.intro
    exact ⟨wellFormed.elsewhere _ _, (Model.SameShape.elsewhere _ _).persists⟩

theorem upholds_relationType {lambda : Read Definition}
    (upholds : ∀ reader, Upholds lambda reader fun _ _ => True) :
    Upholds (relationType setting lambda) reader fun _ _ => True := by
  refine .past .peek fun token _ _ => ?_
  split
  · exact .past (.located 0) fun _ _ _ => .past .advance fun _ _ _ =>
      upholds_relationTypeNamed _ _
  · refine (upholds _).bind fun _ _ _ _ => (Upholds.make fun wellFormed => ?_).trivial
    exact ⟨wellFormed.elsewhere _ _, (Model.SameShape.elsewhere _ _).persists⟩

/-! ## Concepts -/

/-- Taking a marker touches no node. -/
theorem upholds_markerOf (digits : Option String) :
    Upholds (markerOf digits) reader fun _ _ => True := by
  cases digits with
  | none =>
      have made : Upholds (Read.make Model.newMarker) reader fun _ _ => True :=
        (Upholds.make fun wellFormed => ⟨wellFormed.elsewhere _ _,
          (Model.SameShape.elsewhere _ _).persists⟩).trivial
      exact made
  | some foreign =>
      have kept : ∀ {model : Model}, model.WellFormed →
          (reader.markers.markerFor foreign model).2.2.WellFormed ∧
            model.Persists (reader.markers.markerFor foreign model).2.2 := by
        intro model wellFormed
        unfold MarkerTable.markerFor
        split
        · exact ⟨wellFormed, .refl _⟩
        · exact ⟨wellFormed.elsewhere _ _, (Model.SameShape.elsewhere _ _).persists⟩
      exact fun wellFormed => ⟨(kept wellFormed).1, (kept wellFormed).2, True.intro⟩

/-- What a designator is taken from touches no node. -/
theorem upholds_designatorOf (found : Located) :
    Upholds (designatorOf found) reader fun _ _ => True := by
  unfold designatorOf
  split
  · exact .pure True.intro
  · exact .pure True.intro
  · exact .pure True.intro
  · exact .pure True.intro
  · exact .pure True.intro
  · exact (upholds_markerOf _).bind fun _ _ _ _ => .pure True.intro
  · refine .past (passes_definingConcept? _).spares fun concept _ _ => ?_
    split
    · exact .pure True.intro
    · exact .failAt
  · exact .pure True.intro

theorem upholds_designator : Upholds designator reader fun _ _ => True :=
  .past (.eat _) fun _ _ _ => .ite
    (.past passes_encodedLiteral.spares fun _ _ _ => .pure True.intro)
    (.past (.located 0) fun _ _ _ => (upholds_designatorOf _).bind fun _ _ _ _ =>
      .ite (.past .advance fun _ _ _ => .pure True.intro) (.pure True.intro))

/-- The graph that is read for a concept belongs to it. -/
theorem upholds_descriptor {inside : Inside} (upholds : InsideUpholds inside) {owner : ConceptId}
    (known : owner.index < reader.model.concepts.size) :
    Upholds (descriptor inside owner) reader fun found model =>
      ∀ graph, found = some graph → (model.graph graph).owner = some owner := by
  refine .past .peek fun _ _ persists => .ite ?_ (.pure nofun)
  refine (Upholds.newGraph (some owner) ?_).bind fun graph middle _ made => ?_
  · rintro _ ⟨⟩
    exact Nat.lt_of_lt_of_le known persists.concepts
  · refine (Upholds.inContext (upholds.items graph _ made.1)).bind fun _ later further _ =>
      .pure ?_
    rintro _ ⟨⟩
    exact further.owner _ _ made.2

theorem upholds_referent {inside : Inside} (upholds : InsideUpholds inside) {concept : ConceptId}
    (known : concept.index < reader.model.concepts.size) :
    Upholds (referent inside concept) reader fun _ _ => True := by
  refine .past passes_quantifier.spares fun _ _ first =>
    upholds_designator.bind fun _ _ second _ => ?_
  refine (upholds_descriptor upholds (Nat.lt_of_lt_of_le known
    (first.trans second).concepts)).bind fun _ _ _ owned => .ite (.pure True.intro) ?_
  exact (Upholds.edit fun wellFormed => wellFormed.setReferent owned).trivial

theorem upholds_boundLabels (concept : ConceptId) (tokens : Nat) :
    Upholds (boundLabels concept tokens) reader fun _ _ => True := by
  induction tokens generalizing reader with
  | zero => exact .pure True.intro
  | succ tokens ih =>
      refine .past .peek fun token _ _ => ?_
      split
      · exact .past (.located 0) fun _ _ _ => .past .advance fun _ _ _ =>
          (upholds_join _ _ _).bind fun _ _ _ _ => ih
      · exact .pure True.intro

theorem upholds_conceptLabels (concept : ConceptId) :
    Upholds (conceptLabels concept) reader fun _ _ => True := by
  refine .past .peek fun token _ _ => ?_
  split
  · exact .past .labels fun _ _ _ => .ite .fail
      (.past .advance fun _ _ _ => (Upholds.of_spares (.bindLabel _ _)).trivial)
  · exact .past .get fun _ _ _ => upholds_boundLabels _ _

/-- Data of a node that are no part of the shape are changed. -/
theorem Upholds.touch {concept : ConceptId} {change : Concept → Concept}
    (graph : ∀ data, (change data).graph = data.graph)
    (descriptor : ∀ data, (change data).referent.bind Referent.descriptor =
      data.referent.bind Referent.descriptor) :
    Upholds (Read.edit (·.modifyConcept concept change)) reader fun _ _ => True :=
  (Upholds.edit fun wellFormed => ⟨wellFormed.modifyConcept graph descriptor,
    (Model.SameShape.modifyConcept graph descriptor).persists⟩).trivial

/-- A concept after its type, which has been made and stands where it is read. -/
theorem upholds_closes {inside : Inside} (upholds : InsideUpholds inside) {concept : ConceptId}
    (known : concept.index < reader.model.concepts.size)
    (seated : reader.model.Seats home concept) :
    Upholds (do
      let _ ← eat (.punct .colon)
      conceptLabels concept
      referent inside concept
      if let some comment ← nodeComment .concept then
        edit (·.modifyConcept concept fun data => { data with comment := some comment })
      expect (.punct .rightBracket) .conceptClosing
      return concept) reader fun concept model => model.Seats home concept := by
  refine .past (.eat _) fun _ _ first => (upholds_conceptLabels concept).bind
    fun _ _ second _ => ?_
  have known := Nat.lt_of_lt_of_le known (first.trans second).concepts
  refine (upholds_referent upholds known).bind fun _ _ third _ =>
    .past (passes_nodeComment _).spares fun comment _ fourth => ?_
  have seated := seated.persists ((first.trans second).trans (third.trans fourth))
  split
  · refine .bind (.touch (fun _ => rfl) fun _ => rfl) fun _ _ fifth _ =>
      .past (.expect _ _) fun _ _ sixth => ?_
    exact .pure (seated.persists (fifth.trans sixth))
  · exact .past (.expect _ _) fun _ _ fifth => .pure (seated.persists fifth)

/-- A concept that has been read is seated. -/
theorem upholds_conceptBody {inside : Inside} (upholds : InsideUpholds inside)
    (offers : reader.model.Offers home) :
    Upholds (conceptBody setting inside home) reader fun concept model =>
      model.Seats home concept := by
  refine (upholds_conceptType upholds.lambda).bind fun type later persists _ => ?_
  have within := offers.persists persists
  cases home with
  | none =>
      refine (Upholds.make fun wellFormed => ⟨wellFormed.newConcept, .newConcept⟩).bind
        fun concept _ _ made => ?_
      obtain ⟨rfl, same⟩ := made
      exact upholds_closes upholds (by rw [same]; simp) nofun
  | some graph =>
      refine .place (within graph rfl) fun _ same _ => upholds_closes upholds ?_ ?_
      · rw [same]
        simp
      · rintro _ ⟨⟩
        rw [same, Model.concept_placed, if_pos rfl]

theorem upholds_concept (upholds : RoomUpholds room) (offers : reader.model.Offers home) :
    Upholds (concept setting room home) reader fun found model =>
      ∀ concept, found = some concept → model.Seats home concept := by
  refine .past .peek fun token _ first => .past (.ahead 1) fun second _ further => ?_
  have offers := offers.persists (first.trans further)
  split
  · exact .pure nofun
  · exact .past (.located 1) fun _ _ _ => .failAt
  · exact .past (.located 1) fun _ _ _ => .failAt
  · refine .descend fun inside entered => .past .advance fun _ _ third => ?_
    refine (upholds_conceptBody (upholds inside entered) (offers.persists third)).bind
      fun concept _ _ seated => .pure ?_
    rintro _ ⟨⟩
    exact seated
  · exact .pure nofun

/-! ## Relations and actors -/

section Arguments

variable {concept : Option GraphId → Read (Option ConceptId)}

/-- An argument is seated like the relation that takes it. -/
theorem upholds_arc (upholds : ∀ reader : Reader, reader.model.Offers home →
      Upholds (concept home) reader fun found model =>
        ∀ concept, found = some concept → model.Seats home concept)
    (offers : reader.model.Offers home) :
    Upholds (arc concept home) reader fun found model =>
      ∀ argument, found = some argument → model.Seats home argument := by
  refine .past .peek fun token _ first => ?_
  have offers := offers.persists first
  split
  · refine .past (.located 0) fun _ _ second => .past .advance fun _ _ third => ?_
    refine (upholds_resolve _ _ (offers.persists (second.trans third))).bind
      fun argument _ _ seated => .pure ?_
    rintro _ ⟨⟩
    exact seated
  · exact upholds _ offers
  · exact .pure nofun

theorem upholds_arcs (upholds : ∀ reader : Reader, reader.model.Offers home →
      Upholds (concept home) reader fun found model =>
        ∀ concept, found = some concept → model.Seats home concept)
    (offers : reader.model.Offers home) (tokens : Nat) :
    Upholds (arcs concept home tokens) reader fun arguments model =>
      ∀ argument ∈ arguments, model.Seats home argument := by
  induction tokens generalizing reader with
  | zero => exact .pure (by simp)
  | succ tokens ih =>
      refine (upholds_arc upholds offers).bind fun argument _ first seated => ?_
      split
      · next argument =>
        refine (ih (offers.persists first)).bind fun others _ second rest => .pure ?_
        refine List.forall_mem_cons.mpr ⟨?_, rest⟩
        exact (seated argument rfl).persists second
      · exact .pure (by simp)

end Arguments

/-- A relation has been made that stands in no graph yet, and every argument of it stands
where it will. -/
def Pending (home : Option GraphId) (relation : RelationId) (model : Model) : Prop :=
  ∃ (earlier : Model) (data : Relation), earlier.WellFormed ∧ model = earlier.drafted data ∧
    relation = ⟨earlier.relations.size⟩ ∧ ∀ argument ∈ data.args, model.Seats home argument

/-- A relation that has been made can be put where its arguments stand. -/
theorem Pending.added {model : Model} {relation : RelationId}
    (drafted : Pending (some graph) relation model) (within : graph.index < model.graphs.size) :
    (model.addRelation graph relation).WellFormed ∧
      model.Persists (model.addRelation graph relation) := by
  obtain ⟨earlier, data, wellFormed, rfl, rfl, seated⟩ := drafted
  rw [Model.addRelation_drafted wellFormed.listed]
  have persists : earlier.Persists (earlier.related data graph) := .related within
  exact ⟨wellFormed.related within fun argument member => seated argument member graph rfl,
    ⟨persists.concepts, persists.graphs, persists.stands, persists.owner⟩⟩

/-- A relation is made. -/
theorem Upholds.draft {type : RelationType} {args : List ConceptId} {role : RelationRole}
    (seated : ∀ argument ∈ args, reader.model.Seats home argument) :
    Upholds (Read.make (·.newRelation (some type) args role)) reader
      fun relation model => Pending home relation model := by
  refine .assuming fun wellFormed => ?_
  refine (Upholds.make fun _ => ⟨?_, Model.Persists.drafted⟩).mono fun relation model _ made => ?_
  · exact wellFormed.drafted rfl
  · obtain ⟨rfl, rfl⟩ := made
    exact ⟨reader.model, _, wellFormed, rfl, rfl, seated⟩

/-- A relation that is made takes seated arguments, and waits to be added. -/
theorem upholds_makeRelation (found : Located) (type : RelationType) {args : List ConceptId}
    (role : RelationRole) (comment : Option String)
    (seated : ∀ argument ∈ args, reader.model.Seats home argument) :
    Upholds (makeRelation found type args role comment) reader
      fun relation model => Pending home relation model := by
  refine .past (passes_checkValence _ _ _).spares fun _ later first =>
    .assuming fun wellFormed => ?_
  have seated : ∀ argument ∈ args, later.model.Seats home argument :=
    fun argument member => (seated argument member).persists first
  refine .after
    (later.withModel (later.model.drafted { type := some type, args, comment, role })) ?_
    (fun _ => ⟨wellFormed.drafted rfl, .drafted⟩)
    (.pure ⟨later.model, _, wellFormed, rfl, rfl, seated⟩)
  rw [← Model.modifyRelation_newRelation]
  rfl

theorem upholds_relation (upholds : RoomUpholds room) (offers : reader.model.Offers home) :
    Upholds (relation setting room home) reader fun found model =>
      ∀ relation, found = some relation → Pending home relation model := by
  refine .past .peek fun token _ first =>
    .past (passes_relationTypeAhead 1).spares fun _ _ second => .ite ?_ (.pure nofun)
  refine .descend fun inside entered => .past (.located 0) fun _ _ third =>
    .past .advance fun _ _ fourth =>
      (upholds_relationType (upholds inside entered).lambda).bind fun type _ fifth _ =>
        .past .get fun _ _ sixth => ?_
  have offers := offers.persists ((first.trans second).trans ((third.trans fourth).trans
    (fifth.trans sixth)))
  refine (upholds_arcs ((upholds inside entered).concept home) offers _).bind
    fun args _ _ seated => .past (passes_nodeComment _).spares fun comment _ next =>
      .past (.expect _ _) fun _ _ last => ?_
  refine (upholds_makeRelation _ _ _ _ fun argument member =>
    (seated argument member).persists (next.trans last)).bind fun _ _ _ drafted => .pure ?_
  rintro _ ⟨⟩
  exact drafted

/-- An actor takes seated arguments, and waits to be added. -/
theorem upholds_actorBody {inside : Inside} (upholds : InsideUpholds inside) (found : Located)
    (offers : reader.model.Offers home) :
    Upholds (actorBody setting inside found home) reader
      fun relation model => Pending home relation model := by
  have body : ∀ later : Reader, reader.model.Persists later.model → Upholds (do
      let type ← relationType setting inside.lambda
      let inputs ← arcs inside.concept home (← get).rest.length
      expect (.punct .bar) .actorBar
      let outputs ← arcs inside.concept home (← get).rest.length
      let comment ← nodeComment .actor
      expect (.punct .rightAngle) .actorClosing
      makeRelation found type (inputs ++ outputs) (.actor inputs.length) comment) later
        fun relation model => Pending home relation model := by
    intro later persists
    refine (upholds_relationType upholds.lambda).bind fun type _ first _ =>
      .past .get fun _ _ second => ?_
    have offers := offers.persists ((persists.trans first).trans second)
    refine (upholds_arcs (upholds.concept home) offers _).bind fun inputs _ third before =>
      .past (.expect _ _) fun _ _ fourth => .past .get fun _ _ fifth => ?_
    have between := fourth.trans fifth
    refine (upholds_arcs (upholds.concept home) (offers.persists (third.trans between)) _).bind
      fun outputs _ sixth after => .past (passes_nodeComment _).spares fun comment _ seventh =>
        .past (.expect _ _) fun _ _ last => upholds_makeRelation _ _ _ _ fun argument member => ?_
    have closing := seventh.trans last
    rcases List.mem_append.mp member with input | output
    · exact (before argument input).persists (between.trans (sixth.trans closing))
    · exact (after argument output).persists closing
  exact .past (passes_relationTypeAhead 0).spares fun _ _ first =>
    .ite (body _ first) (.past (.fail _) fun _ _ second => body _ (first.trans second))

/-- An actor that is found waits to be added. -/
theorem upholds_actor (upholds : RoomUpholds room) (offers : reader.model.Offers home) :
    Upholds (actor setting room home) reader fun found model =>
      ∀ relation, found = some relation → Pending home relation model := by
  refine .past .peek fun token _ first => .ite ?_ (.pure nofun)
  refine .descend fun inside entered => .past (.located 0) fun _ _ second =>
    .past .advance fun _ _ third => ?_
  refine (upholds_actorBody (upholds inside entered) _
    (offers.persists (first.trans (second.trans third)))).bind fun _ _ _ drafted => .pure ?_
  rintro _ ⟨⟩
  exact drafted

/-! ## Items of the interchange form -/

section Items

variable (within : graph.index < reader.model.graphs.size)

include within

/-- A context is seated with the body that it describes. -/
theorem upholds_contextBody {inside : Inside} (upholds : InsideUpholds inside)
    (label : ContextLabel) :
    Upholds (contextBody inside graph label) reader fun _ _ => True := by
  refine .past (.eat _) fun _ _ first =>
    .place (Nat.lt_of_lt_of_le within first.graphs) fun _ same _ =>
      .bind (.touch (fun _ => rfl) fun _ => rfl) fun _ _ second _ => ?_
  refine (upholds_descriptor upholds (Nat.lt_of_lt_of_le ?_ second.concepts)).bind
    fun body _ _ owned => ?_
  · rw [same]
    simp
  · split
    · next body =>
      refine .bind (.edit fun wellFormed => wellFormed.setReferent ?_) fun _ _ _ _ =>
        .past (.expect _ _) fun _ _ _ => .pure True.intro
      rintro graph ⟨⟩
      exact owned _ rfl
    · exact .past (.expect _ _) fun _ _ _ => .pure True.intro

theorem upholds_specialContext (upholds : RoomUpholds room) :
    Upholds (specialContext setting room graph) reader fun _ _ => True := by
  refine .past .peek fun token _ first => .past (.ahead 1) fun second _ further => ?_
  have within := Nat.lt_of_lt_of_le within (first.trans further).graphs
  split
  · exact .past (.located 1) fun _ _ _ => .failAt
  · exact .descend fun inside entered => .past .advance fun _ _ third =>
      .past .advance fun _ _ fourth => (upholds_contextBody
        (Nat.lt_of_lt_of_le within (third.trans fourth).graphs) (upholds inside entered) _).bind
          fun _ _ _ _ => .pure True.intro
  · exact .pure True.intro

omit within in
theorem upholds_negationType : Upholds negationType reader fun _ _ => True := by
  refine .model ?_
  dsimp only
  split
  · exact .pure True.intro
  · split
    · exact (Upholds.retype _ rfl).bind fun _ _ _ _ => .pure True.intro
    · exact .throw

omit within in
/-- The end of a negation, from the time on when its graph is known. -/
theorem upholds_negating {concept : ConceptId} {body : GraphId}
    (seated : reader.model.Seats home concept)
    (owned : (reader.model.graph body).owner = some concept) :
    Upholds (do
      edit (·.setReferent concept { descriptor := some body })
      expect (.punct .rightBracket) .negationClosing
      let type ← negationType
      make (·.newRelation (some type) [concept] .relation)) reader
        fun relation model => Pending home relation model := by
  refine .bind (.edit fun wellFormed => wellFormed.setReferent ?_) fun _ _ first _ =>
    .past (.expect _ _) fun _ _ second => upholds_negationType.bind fun type _ third _ =>
      .draft fun argument member => ?_
  · rintro graph ⟨⟩
    exact owned
  · obtain rfl := List.mem_singleton.mp member
    exact seated.persists ((first.trans second).trans third)

omit within in
/-- A concept is made, hidden and put into a graph in three edits that nothing can see. -/
theorem Upholds.placeHidden {next : ConceptId → Read β}
    (within : graph.index < reader.model.graphs.size)
    (others : ∀ later, later.model = reader.model.placed { hidden := true } graph →
      Upholds (next ⟨reader.model.concepts.size⟩) later final') :
    Upholds (do
      let concept ← Read.make (·.newConcept none)
      Read.edit (·.modifyConcept concept fun data => { data with hidden := true })
      Read.edit (·.addConcept graph concept)
      next concept) reader final' := by
  refine .assuming fun wellFormed => ?_
  have same := @addConcept_hidden reader.model graph wellFormed.listed
  refine .after (reader.withModel (reader.model.placed { hidden := true } graph)) ?_
    (fun _ => ⟨wellFormed.placed within rfl, .placed within⟩) (others _ rfl)
  rw [← same]
  rfl

/-- A negation waits to be added, with the wrapper that it takes. -/
theorem upholds_negationBody {inside : Inside} (upholds : InsideUpholds inside) :
    Upholds (negationBody inside graph) reader
      fun relation model => Pending (some graph) relation model := by
  refine .placeHidden within fun later same => ?_
  have known : (⟨reader.model.concepts.size⟩ : ConceptId).index < later.model.concepts.size := by
    rw [same]
    simp
  have seated : later.model.Seats (some graph) ⟨reader.model.concepts.size⟩ := by
    rintro _ ⟨⟩
    rw [same, Model.concept_placed, if_pos rfl]
  refine (upholds_descriptor upholds known).bind fun body middle first owned => ?_
  split
  · next body => exact upholds_negating (seated.persists first) (owned body rfl)
  · refine (Upholds.newGraph _ ?_).bind fun body _ second made =>
      upholds_negating (seated.persists (first.trans second)) made.2
    rintro _ ⟨⟩
    exact Nat.lt_of_lt_of_le known first.concepts

theorem upholds_negation (upholds : RoomUpholds room) :
    Upholds (negation setting room graph) reader fun found model =>
      ∀ relation, found = some relation → Pending (some graph) relation model := by
  refine .past .peek fun token _ first => .past (.ahead 1) fun second _ further => ?_
  have within := Nat.lt_of_lt_of_le within (first.trans further).graphs
  split
  · refine .descend fun inside entered => .past .advance fun _ _ third =>
      .past .advance fun _ _ fourth => ?_
    refine (upholds_negationBody (Nat.lt_of_lt_of_le within (third.trans fourth).graphs)
      (upholds inside entered)).bind fun _ _ _ drafted => .pure ?_
    rintro _ ⟨⟩
    exact drafted
  · exact .past (.located 1) fun _ _ _ => .failAt
  · exact .pure nofun

/-- A relation that was waiting is added to its graph. -/
theorem upholds_relationInto {production : Read (Option RelationId)}
    (upholds : Upholds production reader fun found model =>
      ∀ relation, found = some relation → Pending (some graph) relation model) :
    Upholds (relationInto graph production) reader fun _ _ => True := by
  refine upholds.bind fun found _ persists drafted => ?_
  split
  · next relation =>
    exact .bind (.edit fun _ => (drafted relation rfl).added
      (Nat.lt_of_lt_of_le within persists.graphs)) fun _ _ _ _ => .pure True.intro
  · exact .pure True.intro

theorem upholds_graphComment : Upholds (graphComment graph) reader fun _ _ => True := by
  refine .past .peek fun token _ first => ?_
  split
  · refine .past .advance fun _ _ second => ?_
    have within := Nat.lt_of_lt_of_le within (first.trans second).graphs
    exact .bind (.edit fun wellFormed => ⟨wellFormed.addComment within _,
      (Model.SameShape.addComment within _).persists⟩) fun _ _ _ _ => .pure True.intro
  · exact .pure True.intro

omit within in
theorem upholds_firstOf {productions : List (Read Bool)}
    (within : graph.index < reader.model.graphs.size)
    (upholds : ∀ production ∈ productions, ∀ reader : Reader,
      graph.index < reader.model.graphs.size → Upholds production reader fun _ _ => True) :
    Upholds (firstOf productions) reader fun _ _ => True := by
  induction productions generalizing reader with
  | nil => exact .pure True.intro
  | cons production others ih =>
      refine (upholds _ List.mem_cons_self reader within).bind fun _ _ persists _ =>
        .ite (.pure True.intro) (ih (Nat.lt_of_lt_of_le within persists.graphs) ?_)
      exact fun other member => upholds other (List.mem_cons_of_mem _ member)

omit within in
/-- Item by item the arena stays well formed. -/
theorem upholds_bracketItems (upholds : RoomUpholds room) (tokens : Nat)
    (within : graph.index < reader.model.graphs.size) :
    Upholds (bracketItems setting room graph tokens) reader fun _ _ => True := by
  have productions : ∀ production ∈ bracketProductions setting room graph, ∀ reader : Reader,
      graph.index < reader.model.graphs.size → Upholds production reader fun _ _ => True := by
    simp only [bracketProductions, List.forall_mem_cons, List.not_mem_nil, false_implies,
      implies_true, and_true]
    refine ⟨fun reader within => ?_, fun reader within => ?_, fun reader within => ?_,
      fun reader within => ?_, fun reader within => ?_, fun reader within => ?_⟩
    · exact (upholds_concept upholds (by rintro _ ⟨⟩; exact within)).bind
        fun _ _ _ _ => .pure True.intro
    · exact (upholds_specialContext within upholds).bind fun _ _ _ _ => .pure True.intro
    · exact upholds_relationInto within (upholds_negation within upholds)
    · exact upholds_relationInto within (upholds_relation upholds (by rintro _ ⟨⟩; exact within))
    · exact upholds_relationInto within (upholds_actor upholds (by rintro _ ⟨⟩; exact within))
    · exact upholds_graphComment within
  induction tokens generalizing reader with
  | zero => exact .pure True.intro
  | succ tokens ih =>
      exact (upholds_firstOf within productions).bind fun _ _ persists _ =>
        .ite (ih (Nat.lt_of_lt_of_le within persists.graphs)) (.pure True.intro)

end Items

/-! ## Statements of the linear form -/

section Statements

variable (upholds : RoomUpholds room)

include upholds

theorem upholds_target (within : graph.index < reader.model.graphs.size) :
    Upholds (target setting room graph) reader fun concept model =>
      (model.concept concept).graph = some graph := by
  refine (upholds_arc (fun _ offers => upholds_concept upholds offers)
    (by rintro _ ⟨⟩; exact within)).bind fun found _ _ seated => ?_
  split
  · exact .pure (seated _ rfl graph rfl)
  · exact .fail

theorem upholds_relationNode :
    Upholds (relationNode setting room) reader fun _ _ => True :=
  .past passes_relationNodeAhead.spares fun _ _ _ => .ite
    (.past (.located 0) fun _ _ _ => .past .advance fun _ _ _ =>
      (upholds_relationType fun _ => upholds_lambda upholds).bind fun _ _ _ _ =>
        .past (passes_nodeComment _).spares fun _ _ _ => .past (.expect _ _) fun _ _ _ =>
          .pure True.intro)
    .fail

omit upholds in
/-- Two nodes of a chain are connected by a relation that takes seated arguments. -/
theorem upholds_connect (within : graph.index < reader.model.graphs.size) (node : RelationNode)
    {args : List ConceptId}
    (stands : ∀ argument ∈ args, (reader.model.concept argument).graph = some graph) :
    Upholds (connect graph node args) reader fun _ _ => True := by
  have drafts : Upholds (makeRelation node.found node.type args .relation node.comment) reader
      fun relation model => Pending (some graph) relation model := by
    refine upholds_makeRelation _ _ _ _ ?_
    rintro argument member _ ⟨⟩
    exact stands argument member
  exact drafts.bind fun relation _ persists drafted => (Upholds.edit fun _ =>
    drafted.added (Nat.lt_of_lt_of_le within persists.graphs)).trivial

omit upholds in
theorem graph_order (direction : Direction) {model : Model} {head next : ConceptId}
    (first : (model.concept head).graph = some graph)
    (second : (model.concept next).graph = some graph) :
    ∀ argument ∈ direction.order head next, (model.concept argument).graph = some graph := by
  cases direction <;> simp [Direction.order, first, second]

/-- Chains and fans, by the number of steps that are left. -/
theorem upholds_chains (steps : Nat) :
    (∀ {reader : Reader} {head : ConceptId}, graph.index < reader.model.graphs.size →
      (reader.model.concept head).graph = some graph →
      Upholds (chainTail setting room graph steps head) reader fun _ _ => True) ∧
    (∀ {reader : Reader} {head : ConceptId} {first : Bool},
      graph.index < reader.model.graphs.size →
      (reader.model.concept head).graph = some graph →
      Upholds (fan setting room graph steps head first) reader fun _ _ => True) := by
  -- The graph and the concept that a chain goes on with stay known from step to step.
  induction steps with
  | zero => exact ⟨fun _ _ => .pure True.intro, fun _ _ => .pure True.intro⟩
  | succ steps ih =>
      obtain ⟨tails, fans⟩ := ih
      constructor
      · intro reader head within stands
        refine .past passes_refuseNumberedArc.spares fun _ _ first =>
          .past passes_arrowAhead.spares fun into later second => ?_
        have before := first.trans second
        have within := Nat.lt_of_lt_of_le within before.graphs
        have stands := before.stands _ _ stands
        split
        · next into =>
          refine .past .advance fun _ _ third => (upholds_relationNode upholds).bind
            fun node _ fourth _ => .past passes_refuseNumberedArc.spares fun _ _ fifth =>
              .past passes_arrowAhead.spares fun out _ sixth => ?_
          have between := (third.trans fourth).trans (fifth.trans sixth)
          have within := Nat.lt_of_lt_of_le within between.graphs
          have stands := between.stands _ _ stands
          split
          · exact upholds_connect within node (by simpa using stands)
          · next out =>
            refine .past (.located 0) fun found _ seventh => .past .advance fun _ _ eighth =>
              .ite .failAt ?_
            have after := seventh.trans eighth
            have within := Nat.lt_of_lt_of_le within after.graphs
            refine (upholds_target upholds within).bind fun next _ ninth nextStands => ?_
            have within := Nat.lt_of_lt_of_le within ninth.graphs
            have ordered := graph_order into ((after.trans ninth).stands _ _ stands) nextStands
            refine (upholds_connect within node ordered).bind fun _ _ last _ => ?_
            exact tails (Nat.lt_of_lt_of_le within last.graphs) (last.stands _ _ nextStands)
        · refine .past (.eat _) fun _ _ third => .ite ?_ (.pure True.intro)
          exact fans (Nat.lt_of_lt_of_le within third.graphs) (third.stands _ _ stands)
      · intro reader head begins within stands
        refine .past passes_refuseNumberedArc.spares fun _ _ first =>
          .past passes_relationNodeAhead.spares fun _ _ second => .ite ?_ (.ite .fail
            (.past (.eat _) fun _ _ _ => .pure True.intro))
        refine (upholds_relationNode upholds).bind fun node _ third _ =>
          .past passes_refuseNumberedArc.spares fun _ _ fourth =>
            .past passes_arrowAhead.spares fun direction _ fifth => ?_
        have before := (first.trans second).trans (third.trans (fourth.trans fifth))
        have within := Nat.lt_of_lt_of_le within before.graphs
        have stands := before.stands _ _ stands
        split
        · next direction =>
          refine .past .advance fun _ _ sixth => ?_
          have within := Nat.lt_of_lt_of_le within sixth.graphs
          refine (upholds_target upholds within).bind fun next _ seventh nextStands => ?_
          have within := Nat.lt_of_lt_of_le within seventh.graphs
          have stands := (sixth.trans seventh).stands _ _ stands
          refine (upholds_connect within node (graph_order direction stands nextStands)).bind
            fun _ _ eighth _ => ?_
          have within := Nat.lt_of_lt_of_le within eighth.graphs
          refine (tails within (eighth.stands _ _ nextStands)).bind fun _ _ last _ => ?_
          exact fans (Nat.lt_of_lt_of_le within last.graphs)
            ((eighth.trans last).stands _ _ stands)
        · refine (upholds_connect within node (by simpa using stands)).bind fun _ _ last _ => ?_
          exact fans (Nat.lt_of_lt_of_le within last.graphs) (last.stands _ _ stands)

theorem upholds_tail (within : graph.index < reader.model.graphs.size) {head : ConceptId}
    (stands : (reader.model.concept head).graph = some graph) :
    Upholds (tail setting room graph head) reader fun _ _ => True :=
  .past .get fun _ _ first => (upholds_chains upholds _).1
    (Nat.lt_of_lt_of_le within first.graphs) (first.stands _ _ stands)

theorem upholds_chain (within : graph.index < reader.model.graphs.size) :
    Upholds (chain setting room graph) reader fun _ _ => True :=
  (upholds_target upholds within).bind fun _ _ first stands =>
    upholds_tail upholds (Nat.lt_of_lt_of_le within first.graphs) stands

theorem upholds_relationChain (within : graph.index < reader.model.graphs.size) :
    Upholds (relationChain setting room graph) reader fun _ _ => True := by
  refine (upholds_relationNode upholds).bind fun node _ first _ =>
    .past passes_refuseNumberedArc.spares fun _ _ second =>
      .past passes_arrowAhead.spares fun _ _ third => ?_
  have within := Nat.lt_of_lt_of_le within ((first.trans second).trans third).graphs
  split
  · exact upholds_connect within node (by simp)
  · refine .past .advance fun _ _ fourth => ?_
    have within := Nat.lt_of_lt_of_le within fourth.graphs
    refine (upholds_target upholds within).bind fun head _ fifth stands => ?_
    have within := Nat.lt_of_lt_of_le within fifth.graphs
    refine (upholds_connect within node (by simpa using stands)).bind fun _ _ last _ => ?_
    exact upholds_tail upholds (Nat.lt_of_lt_of_le within last.graphs) (last.stands _ _ stands)

theorem upholds_statement (within : graph.index < reader.model.graphs.size) :
    Upholds (statement setting room graph) reader fun _ _ => True := by
  refine .past .peek fun token _ first => ?_
  have within := Nat.lt_of_lt_of_le within first.graphs
  split
  · exact (upholds_chain upholds within).bind fun _ _ _ _ => .pure True.intro
  · exact (upholds_chain upholds within).bind fun _ _ _ _ => .pure True.intro
  · exact upholds_relationInto within (upholds_negation within upholds)
  · refine .past passes_relationNodeAhead.spares fun _ _ second => .ite ?_ (.pure True.intro)
    exact (upholds_relationChain upholds (Nat.lt_of_lt_of_le within second.graphs)).bind
      fun _ _ _ _ => .pure True.intro
  · exact upholds_relationInto within (upholds_actor upholds (by rintro _ ⟨⟩; exact within))
  · exact .pure True.intro

theorem upholds_statements (tokens : Nat) (within : graph.index < reader.model.graphs.size) :
    Upholds (statements setting room graph tokens) reader fun _ _ => True := by
  induction tokens generalizing reader with
  | zero => exact .pure True.intro
  | succ tokens ih =>
      refine (upholds_graphComment within).bind fun _ _ first _ => ?_
      have within := Nat.lt_of_lt_of_le within first.graphs
      refine .ite (ih within) ((upholds_statement upholds within).bind fun _ _ second _ =>
        .ite (.past passes_statementEnd.spares fun _ _ third => ?_) (.pure True.intro))
      exact ih (Nat.lt_of_lt_of_le within (second.trans third).graphs)

end Statements

/-! ## Nesting -/

theorem upholds_items (upholds : RoomUpholds room)
    (within : graph.index < reader.model.graphs.size) :
    Upholds (items setting room graph) reader fun _ _ => True := by
  refine .past .get fun _ _ first => ?_
  have within := Nat.lt_of_lt_of_le within first.graphs
  dsimp only
  split
  · exact upholds_bracketItems upholds _ within
  · exact upholds_statements upholds _ within

/-- Inside of any number of brackets reading upholds the model. -/
theorem roomUpholds (brackets : Nat) : RoomUpholds (roomFor setting brackets) := by
  induction brackets with
  | zero => exact nofun
  | succ brackets ih =>
      rintro inside ⟨⟩
      exact ⟨fun _ _ offers => upholds_concept ih offers, fun _ => upholds_lambda ih,
        fun _ _ within => upholds_items ih within⟩

theorem upholds_graphInto (within : graph.index < reader.model.graphs.size) :
    Upholds (graphInto setting graph) reader fun _ _ => True :=
  (upholds_items (roomUpholds _) within).bind fun _ _ _ _ =>
    (Upholds.of_spares passes_textEnd.spares).trivial

/-- A node by itself is read with nothing behind it. -/
theorem upholds_single {what : Expected} {production : Read (Option α)}
    (upholds : Upholds production reader fun found model =>
      ∀ node, found = some node → post node model) :
    Upholds (single setting what production) reader post := by
  refine upholds.bind fun found _ _ holds => ?_
  split
  · refine (Upholds.of_spares passes_textEnd.spares).bind fun _ _ _ same => .pure ?_
    rw [same]
    exact holds _ rfl
  · exact .fail

end Read

end ConceptualGraph

end
