/-
Module: ConceptualGraph.Proofs.Reading.Shallow
Purpose: A reading in the interchange form that succeeds puts nodes only into graphs that lie inside
  fewer concepts than brackets may be open.
Main exports: Read.Fits, Read.fits_graphInto, Session.shallow_parseGraph
-/
import ConceptualGraph.Proofs.Model.Depth
import ConceptualGraph.Proofs.Reading.Depth
import ConceptualGraph.Proofs.Reading.Sound.Graphs
import ConceptualGraph.Proofs.Reading.Spares

namespace ConceptualGraph

namespace Read

variable {α β : Type} {limit levels room fewer : Nat} {step other : Read α} {next : α → Read β}
  {reader : Reader} {post : α → Model → Prop} {last : β → Model → Prop} {setting : Setting}
  {inside : Inside} {entry : Option Inside} {graph : GraphId}

/-- A step, if it succeeds, moves nothing and puts new nodes only into graphs that lie inside fewer
concepts than a limit; its result has a property. -/
def Fits (limit : Nat) (step : Read α) (reader : Reader) (post : α → Model → Prop) : Prop :=
  Ensures step reader fun value later =>
    Model.Settles limit reader.model later.model ∧ post value later.model

namespace Fits

/-! ## Rules -/

theorem bind (first : Fits limit step reader post)
    (others : ∀ value later, Model.Settles limit reader.model later.model →
      post value later.model → Fits limit (next value) later last) :
    Fits limit (step >>= next) reader last :=
  Ensures.bind first fun value later ⟨settles, holds⟩ =>
    (others value later settles holds).mono fun _ _ ⟨further, ends⟩ => ⟨settles.trans further, ends⟩

theorem mono {weaker : α → Model → Prop} (fits : Fits limit step reader post)
    (weaken : ∀ value model, post value model → weaker value model) :
    Fits limit step reader weaker :=
  Ensures.mono fits fun value later ⟨settles, holds⟩ => ⟨settles, weaken value later.model holds⟩

theorem trivial (fits : Fits limit step reader post) : Fits limit step reader fun _ _ => True :=
  fits.mono fun _ _ _ => True.intro

theorem of_spares (spares : Spares step) : Fits limit step reader fun _ _ => True :=
  (spares.ensures reader).mono fun _ _ ⟨same, _⟩ => ⟨same ▸ .refl _, True.intro⟩

/-- A step that leaves the model alone comes first. -/
theorem past (spares : Spares step)
    (others : ∀ value later, later.model = reader.model → Fits limit (next value) later last) :
    Fits limit (step >>= next) reader last :=
  Ensures.bind (spares.ensures reader) fun value later ⟨same, _⟩ =>
    Ensures.mono (others value later same) fun _ _ ⟨settles, holds⟩ => ⟨same ▸ settles, holds⟩

theorem pure {value : α} (holds : post value reader.model) : Fits limit (pure value) reader post :=
  ⟨.refl _, holds⟩

theorem throw {error : Error} : Fits limit (throw error) reader post := True.intro

theorem failAt {found : Located} {fault : ParseFault} :
    Fits limit (failAt found fault) reader post := True.intro

theorem fail {fault : ParseFault} : Fits limit (fail fault) reader post := True.intro

theorem ite {condition : Prop} [Decidable condition] (yes : Fits limit step reader post)
    (no : Fits limit other reader post) :
    Fits limit (if condition then step else other) reader post := by
  split
  · exact yes
  · exact no

theorem edit {change : Model → Model}
    (settles : Model.Settles limit reader.model (change reader.model)) :
    Fits limit (edit change) reader fun _ model => model = change reader.model := ⟨settles, rfl⟩

theorem make {change : Model → α × Model}
    (settles : Model.Settles limit reader.model (change reader.model).2) :
    Fits limit (make change) reader fun value model =>
      value = (change reader.model).1 ∧ model = (change reader.model).2 := ⟨settles, rfl, rfl⟩

/-- An edit that neither moves nor makes anything. -/
theorem reshape {change : Model → Model} (same : reader.model.SameShape (change reader.model)) :
    Fits limit (Read.edit change) reader fun _ model => reader.model.SameShape model :=
  (edit (.of_sameShape same)).mono fun _ _ changed => changed ▸ same

theorem inContext (fits : Fits limit step (reader.withLabels reader.labels.push) post) :
    Fits limit (inContext step) reader post := (ensures_inContext ..).mpr fits

/-- What fits inside a bracket fits with the bracket. -/
theorem descend {next : Inside → Read β}
    (others : ∀ inside, entry = some inside → Fits limit (next inside) reader last) :
    Fits limit (descend setting entry >>= next) reader last := by
  cases entry with
  | none => exact fail
  | some inside => exact others inside rfl

/-- Data of a node that are no part of the shape are changed. -/
theorem touch {concept : ConceptId} {change : Concept → Concept}
    (graph : ∀ data, (change data).graph = data.graph)
    (descriptor : ∀ data, (change data).referent.bind Referent.descriptor =
      data.referent.bind Referent.descriptor) :
    Fits limit (Read.edit (·.modifyConcept concept change)) reader
      fun _ model => reader.model.SameShape model :=
  reshape (.modifyConcept graph descriptor)

/-- A concept is made, and stands nowhere yet. -/
theorem newConcept {type : Option ConceptType} :
    Fits limit (Read.make (·.newConcept type)) reader fun concept model =>
      model.Adrift concept := by
  refine (make (.newConcept type)).mono fun concept model made => ?_
  obtain ⟨rfl, rfl⟩ := made
  exact ⟨by simp, by rw [Model.newConcept_fst, Model.concept_newConcept]⟩

/-- A concept that stands nowhere is put into a graph. -/
theorem place {concept : ConceptId} (adrift : reader.model.Adrift concept)
    (deep : reader.model.Depth graph levels) (less : levels < limit) :
    Fits limit (Read.edit (·.addConcept graph concept)) reader
      fun _ model => (model.concept concept).graph = some graph := by
  refine (edit (.addConcept adrift.nowhere deep less)).mono fun _ model made => ?_
  have placed : (reader.model.addConcept graph concept).concept concept =
      { reader.model.concept concept with graph := some graph } :=
    Model.concept_modifyConcept adrift.known
  rw [made, placed]

/-- A graph is made for a concept in a graph. -/
theorem newGraph {owner : ConceptId} (deep : reader.model.Depth graph levels)
    (stands : (reader.model.concept owner).graph = some graph) :
    Fits limit (Read.make (·.newGraph (some owner))) reader fun inner model =>
      model.Depth inner (levels + 1) ∧ (model.graph inner).owner = some owner := by
  refine (make (.newGraph (some owner))).mono fun inner model made => ?_
  obtain ⟨rfl, rfl⟩ := made
  have owned : ((reader.model.newGraph (some owner)).2.graph
      (reader.model.newGraph (some owner)).1).owner = some owner := by
    rw [Model.newGraph_fst, Model.graph_newGraph]
  exact ⟨.inside owned stands ((Model.Settles.newGraph _ : Model.Settles limit _ _).depth deep),
    owned⟩

end Fits

/-! ## Coreference -/

theorem fits_setFor (found : Located) (label : String) :
    Fits limit (setFor found label) reader fun _ _ => True := by
  refine .past .labels fun labels _ _ => ?_
  split
  · exact .pure True.intro
  · exact (Fits.make (.of_sameShape (.noteMembership _))).bind fun _ _ _ _ =>
      .past (.bindLabel _ _) fun _ _ _ => .pure True.intro
  · exact .failAt

theorem fits_join (found : Located) (label : String) (concept : ConceptId) :
    Fits limit (join found label concept) reader fun _ _ => True := by
  refine (fits_setFor found label).bind fun set later _ _ => ?_
  unfold Fits
  rw [ensures_bind, ensures_model]
  split
  · next model added =>
    exact (Fits.edit (.addToCorefSet added)).trivial
  · exact True.intro

/-- A label that is resolved is no deeper than where it was met. -/
theorem fits_resolve (found : Located) (label : String) (deep : reader.model.Depth graph levels)
    (less : levels < limit) :
    Fits limit (resolve found label (some graph)) reader fun _ _ => True := by
  refine .past (passes_definingConcept? label).spares fun defining later same => ?_
  cases defining with
  | none => exact .failAt
  | some defining =>
      refine .past (passes_representative? _ _ _).spares fun known after same' => ?_
      have deep : after.model.Depth graph levels := same' ▸ same ▸ deep
      cases known with
      | some known => exact .pure True.intro
      | none =>
          exact .past .model fun _ _ same => Fits.newConcept.bind fun _ _ made adrift =>
            (Fits.place adrift (made.depth (same ▸ deep)) less).bind fun _ _ _ _ =>
              (fits_join found label _).bind fun _ _ _ _ => .pure True.intro

/-! ## Types -/

theorem fits_conceptTypeNamed (found : Located) (label : String) :
    Fits limit (conceptTypeNamed setting found label) reader fun _ _ => True := by
  refine .past .model fun model _ _ => ?_
  dsimp only
  split
  · exact .pure True.intro
  · refine .ite ?_ .failAt
    split
    · exact (Fits.reshape (.elsewhere _ _)).bind fun _ _ _ _ => .pure True.intro
    · exact .throw

theorem fits_relationTypeNamed (found : Located) (label : String) :
    Fits limit (relationTypeNamed setting found label) reader fun _ _ => True := by
  refine .past .model fun model _ _ => ?_
  dsimp only
  split
  · exact .pure True.intro
  · refine .ite ?_ .failAt
    split
    · exact (Fits.reshape (.elsewhere _ _)).bind fun _ _ _ _ => .pure True.intro
    · exact .throw

theorem fits_parameter : Fits limit (parameter setting) reader fun _ _ => True := by
  refine .past .peek fun token _ _ => ?_
  split
  · refine .past (.located 0) fun _ _ _ => .past .advance fun _ _ _ =>
      (fits_conceptTypeNamed _ _).bind fun _ _ _ _ => .past .peek fun token _ _ => ?_
    split
    · exact .past (.located 0) fun _ _ _ => .past .advance fun _ _ _ => .pure True.intro
    · exact .fail
  · exact .fail

theorem fits_parameters (tokens : Nat) :
    Fits limit (parameters setting tokens) reader fun _ _ => True := by
  induction tokens generalizing reader with
  | zero => exact fits_parameter.bind fun _ _ _ _ => .pure True.intro
  | succ tokens ih =>
      exact fits_parameter.bind fun _ _ _ _ => .past (.eat _) fun _ _ _ =>
        .ite (ih.bind fun _ _ _ _ => .pure True.intro) (.pure True.intro)

/-- What is read inside a bracket, where so many further brackets may be open, puts nodes only into
graphs that lie inside few concepts. -/
structure InsideFits (limit room : Nat) (inside : Inside) : Prop where
  concept : ∀ {graph levels} (reader : Reader), reader.model.Depth graph levels →
    levels + room ≤ limit → Fits limit (inside.concept (some graph)) reader fun _ _ => True
  lambda : room ≤ limit → ∀ reader, Fits limit inside.lambda reader fun _ _ => True
  items : ∀ {graph levels} (reader : Reader), reader.model.Depth graph levels →
    levels + room ≤ limit → Fits limit (inside.items graph) reader fun _ _ => True

/-- Where there is room there is room for a bracket. -/
def RoomFits (limit room : Nat) (entry : Option Inside) : Prop :=
  ∀ inside, entry = some inside → ∃ fewer, room = fewer + 1 ∧ InsideFits limit fewer inside

/-- The graph of a definition describes no concept, so it may hold as much as the outermost one. -/
theorem fits_definitionBody (fits : InsideFits limit fewer inside) (less : fewer ≤ limit)
    (declared : List Declared) :
    Fits limit (definitionBody inside declared) reader fun _ _ => True := by
  refine .past .peek fun _ _ _ => .ite ?_ ?_
  · refine (Fits.make (.newGraph none)).bind fun graph later _ made => ?_
    have outermost : later.model.Depth graph 0 := by
      rw [made.1, made.2]
      exact .outermost (by simp) (by rw [Model.newGraph_fst, Model.graph_newGraph])
    exact (fits.items later outermost (by omega)).bind fun _ _ _ _ =>
      .past (Passes.mapM _ fun _ => passes_linkParameter _ _).spares fun _ _ _ => .pure True.intro
  · exact .past (Passes.mapM _ fun _ => passes_linkParameter _ _).spares
      fun _ _ _ => .pure True.intro

theorem fits_lambda (fits : RoomFits limit room entry) (enough : room ≤ limit) :
    Fits limit (lambda setting entry) reader fun _ _ => True := by
  refine .descend fun inside entered => ?_
  obtain ⟨fewer, rfl, inner⟩ := fits inside entered
  exact .past (.expect _ _) fun _ _ _ => .past (.expect _ _) fun _ _ _ =>
    .past (.expect _ _) fun _ _ _ => .past .get fun _ _ _ =>
      (fits_parameters _).bind fun _ _ _ _ => .past (.expect _ _) fun _ _ _ =>
        (Fits.inContext (fits_definitionBody inner (by omega) _)).bind
          fun _ _ _ _ => .past (.expect _ _) fun _ _ _ => .pure True.intro

section Types

variable {lambda : Read Definition} (fits : ∀ reader, Fits limit lambda reader fun _ _ => True)

include fits

theorem fits_conceptType : Fits limit (conceptType setting lambda) reader fun _ _ => True := by
  refine .past .peek fun token _ _ => ?_
  split
  · exact .past (.located 0) fun _ _ _ => .past .advance fun _ _ _ =>
      (fits_conceptTypeNamed _ _).bind fun _ _ _ _ => .pure True.intro
  · exact .past (passes_lambdaAhead 0).spares fun _ _ _ => .ite
      (.past (.located 0) fun _ _ _ => (fits _).bind fun _ _ _ _ => .ite .failAt
        ((Fits.make (.of_sameShape (.elsewhere _ _))).bind fun _ _ _ _ => .pure True.intro))
      (.pure True.intro)

theorem fits_relationType : Fits limit (relationType setting lambda) reader fun _ _ => True := by
  refine .past .peek fun token _ _ => ?_
  split
  · exact .past (.located 0) fun _ _ _ => .past .advance fun _ _ _ => fits_relationTypeNamed _ _
  · exact (fits _).bind fun _ _ _ _ => (Fits.make (.of_sameShape (.elsewhere _ _))).trivial

end Types

/-! ## Concepts -/

theorem fits_markerOf (digits : Option String) :
    Fits limit (markerOf digits) reader fun _ _ => True := by
  cases digits with
  | none =>
      have made : Fits limit (Read.make Model.newMarker) reader fun _ _ => True :=
        (Fits.make (.of_sameShape (.elsewhere _ _))).trivial
      exact made
  | some foreign =>
      have settles : Model.Settles limit reader.model
          (reader.markers.markerFor foreign reader.model).2.2 := by
        unfold MarkerTable.markerFor
        split
        · exact .refl _
        · exact .of_sameShape (.elsewhere _ _)
      exact ⟨settles, True.intro⟩

theorem fits_designatorOf (found : Located) :
    Fits limit (designatorOf found) reader fun _ _ => True := by
  unfold designatorOf
  split
  case h_6 => exact (fits_markerOf _).bind fun _ _ _ _ => .pure True.intro
  case h_7 =>
    refine .past (passes_definingConcept? _).spares fun concept _ _ => ?_
    split
    · exact .pure True.intro
    · exact .failAt
  all_goals exact .pure True.intro

theorem fits_designator : Fits limit designator reader fun _ _ => True :=
  .past (.eat _) fun _ _ _ => .ite
    (.past passes_encodedLiteral.spares fun _ _ _ => .pure True.intro)
    (.past (.located 0) fun _ _ _ => (fits_designatorOf _).bind fun _ _ _ _ =>
      .ite (.past .advance fun _ _ _ => .pure True.intro) (.pure True.intro))

theorem fits_boundLabels (concept : ConceptId) (tokens : Nat) :
    Fits limit (boundLabels concept tokens) reader fun _ _ => True := by
  induction tokens generalizing reader with
  | zero => exact .pure True.intro
  | succ tokens ih =>
      refine .past .peek fun token _ _ => ?_
      split
      · exact .past (.located 0) fun _ _ _ => .past .advance fun _ _ _ =>
          (fits_join _ _ _).bind fun _ _ _ _ => ih
      · exact .pure True.intro

theorem fits_conceptLabels (concept : ConceptId) :
    Fits limit (conceptLabels concept) reader fun _ _ => True := by
  refine .past .peek fun token _ _ => ?_
  split
  · exact .past .labels fun _ _ _ => .ite .fail
      (.past .advance fun _ _ _ => .of_spares (.bindLabel _ _))
  · exact .past .get fun _ _ _ => fits_boundLabels _ _

theorem fits_negationType : Fits limit negationType reader fun _ _ => True := by
  refine .past .model fun model _ _ => ?_
  dsimp only
  split
  · exact .pure True.intro
  · split
    · exact (Fits.reshape (.elsewhere _ _)).bind fun _ _ _ _ => .pure True.intro
    · exact .throw

section Inner

variable (fits : InsideFits limit fewer inside) (enough : levels + fewer < limit)

include fits enough

/-- The graph that is read for a concept lies inside one concept more than the concept does. -/
theorem fits_descriptor {owner : ConceptId} (deep : reader.model.Depth graph levels)
    (stands : (reader.model.concept owner).graph = some graph) :
    Fits limit (descriptor inside owner) reader fun found model =>
      ∀ inner, found = some inner → (model.graph inner).owner = some owner := by
  refine .past .peek fun _ later same => .ite ?_ (.pure nofun)
  refine (Fits.newGraph (same ▸ deep) (same ▸ stands)).bind fun inner middle _ made => ?_
  refine (Fits.inContext (fits.items (middle.withLabels _) made.1 (by omega))).bind
    fun _ _ settles _ => .pure ?_
  rintro _ ⟨⟩
  exact (settles.owner _ made.1.index_lt).trans made.2

theorem fits_referent {concept : ConceptId} (deep : reader.model.Depth graph levels)
    (stands : (reader.model.concept concept).graph = some graph) :
    Fits limit (referent inside concept) reader fun _ _ => True := by
  refine .past passes_quantifier.spares fun _ _ same => fits_designator.bind fun _ _ settles _ => ?_
  refine (fits_descriptor fits enough (settles.depth (same ▸ deep))
    (settles.stands _ _ (same ▸ stands))).bind fun _ _ _ owned => .ite (.pure True.intro) ?_
  exact (Fits.edit (.setReferent owned)).trivial

theorem fits_conceptBody (deep : reader.model.Depth graph levels) :
    Fits limit (conceptBody setting inside (some graph)) reader fun _ _ => True := by
  refine (fits_conceptType (fits.lambda (by omega))).bind fun type _ typed _ =>
    Fits.newConcept.bind fun concept _ made adrift => ?_
  have deep := made.depth (typed.depth deep)
  refine (Fits.place adrift deep (by omega)).bind fun _ _ placed stands =>
    .past (.eat _) fun _ _ same => (fits_conceptLabels concept).bind fun _ _ labelled _ => ?_
  refine (fits_referent fits enough (labelled.depth (same ▸ placed.depth deep))
    (labelled.stands _ _ (same ▸ stands))).bind fun _ _ _ _ =>
      .past (passes_nodeComment _).spares fun comment _ _ => ?_
  split
  · exact .bind (.touch (fun _ => rfl) fun _ => rfl) fun _ _ _ _ =>
      .past (.expect _ _) fun _ _ _ => .pure True.intro
  · exact .past (.expect _ _) fun _ _ _ => .pure True.intro

theorem fits_contextBody (label : ContextLabel) (deep : reader.model.Depth graph levels) :
    Fits limit (contextBody inside graph label) reader fun _ _ => True := by
  refine .past (.eat _) fun _ _ same => Fits.newConcept.bind fun concept _ made adrift => ?_
  have deep := made.depth (same ▸ deep)
  refine (Fits.place adrift deep (by omega)).bind fun _ _ placed stands =>
    .bind (.touch (fun _ => rfl) fun _ => rfl) fun _ _ touched _ => ?_
  refine (fits_descriptor fits enough (touched.depth (placed.depth deep))
    (touched.stands _ _ stands)).bind fun body _ _ owned => ?_
  cases body with
  | some body =>
      refine .bind (.edit (.setReferent ?_)) fun _ _ _ _ =>
        .past (.expect _ _) fun _ _ _ => .pure True.intro
      rintro _ ⟨⟩
      exact owned _ rfl
  | none => exact .past (.expect _ _) fun _ _ _ => .pure True.intro

theorem fits_negationBody (deep : reader.model.Depth graph levels) :
    Fits limit (negationBody inside graph) reader fun _ _ => True := by
  have negated (concept : ConceptId) (body : GraphId) (later : Reader)
      (owned : (later.model.graph body).owner = some concept) : Fits limit (do
        edit (·.setReferent concept { descriptor := some body })
        expect (.punct .rightBracket) .negationClosing
        let type ← negationType
        make (·.newRelation (some type) [concept] .relation)) later fun _ _ => True := by
    refine .bind (.edit (.setReferent ?_)) fun _ _ _ _ => .past (.expect _ _) fun _ _ _ =>
      fits_negationType.bind fun _ _ _ _ => (Fits.make (.drafted rfl)).trivial
    rintro _ ⟨⟩
    exact owned
  refine Fits.newConcept.bind fun concept _ made adrift =>
    .bind (.touch (fun _ => rfl) fun _ => rfl) fun _ _ touched same => ?_
  have deep := touched.depth (made.depth deep)
  refine (Fits.place (adrift.of_sameShape same) deep (by omega)).bind fun _ _ placed stands => ?_
  refine (fits_descriptor fits enough (placed.depth deep) stands).bind
    fun body _ settles owned => ?_
  cases body with
  | some body => exact negated _ _ _ (owned _ rfl)
  | none =>
      exact (Fits.newGraph (settles.depth (placed.depth deep)) (settles.stands _ _ stands)).bind
        fun _ _ _ made => negated _ _ _ made.2

end Inner

section Room

variable (fits : RoomFits limit room entry) (deep : reader.model.Depth graph levels)
  (enough : levels + room ≤ limit)

include fits deep enough

theorem fits_concept :
    Fits limit (concept setting entry (some graph)) reader fun _ _ => True := by
  refine .past .peek fun token _ first => .past (.ahead 1) fun second _ further => ?_
  split
  · exact .pure True.intro
  · exact .past (.located 1) fun _ _ _ => .failAt
  · exact .past (.located 1) fun _ _ _ => .failAt
  · refine .descend fun inside entered => .past .advance fun _ _ last => ?_
    obtain ⟨fewer, rfl, inner⟩ := fits inside entered
    exact (fits_conceptBody inner (by omega) (last ▸ further ▸ first ▸ deep)).bind
      fun _ _ _ _ => .pure True.intro
  · exact .pure True.intro

theorem fits_specialContext :
    Fits limit (specialContext setting entry graph) reader fun _ _ => True := by
  refine .past .peek fun token _ first => .past (.ahead 1) fun second _ further => ?_
  split
  · exact .past (.located 1) fun _ _ _ => .failAt
  · refine .descend fun inside entered => .past .advance fun _ _ past =>
      .past .advance fun _ _ last => ?_
    obtain ⟨fewer, rfl, inner⟩ := fits inside entered
    exact (fits_contextBody inner (by omega) _ (last ▸ past ▸ further ▸ first ▸ deep)).bind
      fun _ _ _ _ => .pure True.intro
  · exact .pure True.intro

/-- A relation is read where there is room for its bracket. -/
theorem fits_negation :
    Fits limit (negation setting entry graph) reader fun found _ =>
      found.isSome = true → levels < limit := by
  refine .past .peek fun token _ first => .past (.ahead 1) fun second _ further => ?_
  split
  · refine .descend fun inside entered => .past .advance fun _ _ past =>
      .past .advance fun _ _ last => ?_
    obtain ⟨fewer, rfl, inner⟩ := fits inside entered
    exact (fits_negationBody inner (by omega) (last ▸ past ▸ further ▸ first ▸ deep)).bind
      fun _ _ _ _ => .pure fun _ => by omega
  · exact .past (.located 1) fun _ _ _ => .failAt
  · exact .pure nofun

end Room

/-! ## Relations and actors -/

section Arguments

variable {concept : Option GraphId → Read (Option ConceptId)}
  (fits : ∀ reader : Reader, reader.model.Depth graph levels →
    Fits limit (concept (some graph)) reader fun _ _ => True)
  (deep : reader.model.Depth graph levels) (less : levels < limit)

include fits deep less

theorem fits_arc : Fits limit (arc concept (some graph)) reader fun _ _ => True := by
  refine .past .peek fun token _ first => ?_
  split
  · exact .past (.located 0) fun _ _ second => .past .advance fun _ _ third =>
      (fits_resolve _ _ (third ▸ second ▸ first ▸ deep) less).bind fun _ _ _ _ => .pure True.intro
  · exact fits _ (first ▸ deep)
  · exact .pure True.intro

theorem fits_arcs (tokens : Nat) :
    Fits limit (arcs concept (some graph) tokens) reader fun _ _ => True := by
  induction tokens generalizing reader with
  | zero => exact .pure True.intro
  | succ tokens ih =>
      refine (fits_arc fits deep less).bind fun argument _ settles _ => ?_
      cases argument with
      | some argument => exact (ih (settles.depth deep)).bind fun _ _ _ _ => .pure True.intro
      | none => exact .pure True.intro

end Arguments

theorem fits_makeRelation (found : Located) (type : RelationType) (args : List ConceptId)
    (role : RelationRole) (comment : Option String) :
    Fits limit (makeRelation found type args role comment) reader fun _ _ => True := by
  refine .past (passes_checkValence _ _ _).spares fun _ later _ => ?_
  have drafted : Model.Settles limit later.model
      (later.model.drafted { type := some type, args, comment, role }) := .drafted rfl
  rw [← Model.modifyRelation_newRelation] at drafted
  exact ⟨drafted, True.intro⟩

/-- An actor fits below a graph at a depth, given that what its arguments hold does. -/
theorem fits_actorBody (fits : InsideFits limit fewer inside) (enough : levels + fewer < limit)
    (found : Located) (deep : reader.model.Depth graph levels) :
    Fits limit (actorBody setting inside found (some graph)) reader fun _ _ => True := by
  have arguments (later : Reader) (deep : later.model.Depth graph levels) (tokens : Nat) :
      Fits limit (arcs inside.concept (some graph) tokens) later fun _ _ => True :=
    fits_arcs (fun later deep => fits.concept later deep (by omega)) deep (by omega) tokens
  have body (later : Reader) (deep : later.model.Depth graph levels) : Fits limit (do
      let type ← relationType setting inside.lambda
      let inputs ← arcs inside.concept (some graph) (← get).rest.length
      expect (.punct .bar) .actorBar
      let outputs ← arcs inside.concept (some graph) (← get).rest.length
      let comment ← nodeComment .actor
      expect (.punct .rightAngle) .actorClosing
      makeRelation found type (inputs ++ outputs) (.actor inputs.length) comment) later
        fun _ _ => True :=
    (fits_relationType (fits.lambda (by omega))).bind fun _ _ typed _ => .past .get fun _ _ same =>
      (arguments _ (same ▸ typed.depth deep) _).bind fun _ _ settles _ =>
        .past (.expect _ _) fun _ _ same' => .past .get fun _ _ same'' =>
          (arguments _ (same'' ▸ same' ▸ settles.depth (same ▸ typed.depth deep)) _).bind
            fun _ _ _ _ => .past (passes_nodeComment _).spares fun _ _ _ => .past (.expect _ _)
              fun _ _ _ => fits_makeRelation _ _ _ _ _
  exact .past (passes_relationTypeAhead 0).spares fun _ _ last =>
    .ite (body _ (last ▸ deep)) (.past (.fail _) fun _ _ same => body _ (same ▸ last ▸ deep))

section Room

variable (fits : RoomFits limit room entry) (deep : reader.model.Depth graph levels)
  (enough : levels + room ≤ limit)

include fits deep enough

theorem fits_relation :
    Fits limit (relation setting entry (some graph)) reader fun found _ =>
      found.isSome = true → levels < limit := by
  refine .past .peek fun token _ first =>
    .past (passes_relationTypeAhead 1).spares fun _ _ second => .ite ?_ (.pure nofun)
  refine .descend fun inside entered => ?_
  obtain ⟨fewer, rfl, inner⟩ := fits inside entered
  refine .past (.located 0) fun _ _ third => .past .advance fun _ _ fourth =>
    (fits_relationType (inner.lambda (by omega))).bind fun _ _ typed _ =>
      .past .get fun _ _ fifth => ?_
  have deep := typed.depth (fourth ▸ third ▸ second ▸ first ▸ deep)
  exact (fits_arcs (fun later deep => inner.concept later deep (by omega)) (fifth ▸ deep)
    (by omega) _).bind fun _ _ _ _ => .past (passes_nodeComment _).spares fun _ _ _ =>
      .past (.expect _ _) fun _ _ _ => (fits_makeRelation _ _ _ _ _).bind
        fun _ _ _ _ => .pure fun _ => by omega

theorem fits_actor :
    Fits limit (actor setting entry (some graph)) reader fun found _ =>
      found.isSome = true → levels < limit := by
  refine .past .peek fun token _ first => .ite ?_ (.pure nofun)
  refine .descend fun inside entered => .past (.located 0) fun found _ second =>
    .past .advance fun _ _ third => ?_
  obtain ⟨fewer, rfl, inner⟩ := fits inside entered
  exact (fits_actorBody inner (by omega) found (third ▸ second ▸ first ▸ deep)).bind
    fun _ _ _ _ => .pure fun _ => by omega

/-! ## Items -/

omit fits enough in
theorem fits_relationInto {production : Read (Option RelationId)}
    (fits : Fits limit production reader fun found _ => found.isSome = true → levels < limit) :
    Fits limit (relationInto graph production) reader fun _ _ => True := by
  refine fits.bind fun found _ settles less => ?_
  cases found with
  | some relation =>
      exact (Fits.edit (.addRelation (settles.depth deep) (less rfl))).bind
        fun _ _ _ _ => .pure True.intro
  | none => exact .pure True.intro

omit fits enough in
theorem fits_graphComment : Fits limit (graphComment graph) reader fun _ _ => True := by
  refine .past .peek fun token _ same => ?_
  split
  · exact .past .advance fun _ _ same' => (Fits.reshape (.addComment
      (Model.Depth.index_lt (same' ▸ same ▸ deep)) _)).bind fun _ _ _ _ => .pure True.intro
  · exact .pure True.intro

end Room

theorem fits_firstOf {productions : List (Read Bool)}
    (fits : ∀ production ∈ productions, ∀ reader : Reader, reader.model.Depth graph levels →
      Fits limit production reader fun _ _ => True)
    (deep : reader.model.Depth graph levels) :
    Fits limit (firstOf productions) reader fun _ _ => True := by
  induction productions generalizing reader with
  | nil => exact .pure True.intro
  | cons production others ih =>
      have rest (reader : Reader) (deep : reader.model.Depth graph levels) :=
        ih (fun other member => fits other (List.mem_cons_of_mem _ member)) deep
      exact (fits _ List.mem_cons_self reader deep).bind fun _ _ settles _ =>
        .ite (.pure True.intro) (rest _ (settles.depth deep))

/-- Items fit below a graph at a depth, given that there is room for each. -/
theorem fits_bracketItems (fits : RoomFits limit room entry) (enough : levels + room ≤ limit)
    (deep : reader.model.Depth graph levels) (tokens : Nat) :
    Fits limit (bracketItems setting entry graph tokens) reader fun _ _ => True := by
  have productions : ∀ production ∈ bracketProductions setting entry graph, ∀ reader : Reader,
      reader.model.Depth graph levels → Fits limit production reader fun _ _ => True := by
    simp only [bracketProductions, List.forall_mem_cons, List.not_mem_nil, false_implies,
      implies_true, and_true]
    exact ⟨fun _ deep => (fits_concept fits deep enough).bind fun _ _ _ _ => .pure True.intro,
      fun _ deep => (fits_specialContext fits deep enough).bind fun _ _ _ _ => .pure True.intro,
      fun _ deep => fits_relationInto deep (fits_negation fits deep enough),
      fun _ deep => fits_relationInto deep (fits_relation fits deep enough),
      fun _ deep => fits_relationInto deep (fits_actor fits deep enough),
      fun _ deep => fits_graphComment deep⟩
  induction tokens generalizing reader with
  | zero => exact .pure True.intro
  | succ tokens ih =>
      exact (fits_firstOf productions deep).bind fun _ _ settles _ =>
        .ite (ih (settles.depth deep)) (.pure True.intro)

/-- With so many levels of room, brackets fit below the limit. -/
theorem roomFits (cgif : setting.form = .cgif) (limit room : Nat) :
    RoomFits limit room (roomFor setting room) := by
  induction room with
  | zero => exact nofun
  | succ room ih =>
      rintro inside ⟨⟩
      refine ⟨room, rfl, ⟨fun _ deep enough => fits_concept ih deep enough,
        fun enough _ => fits_lambda ih enough, fun _ deep enough => ?_⟩⟩
      show Fits limit (items setting (roomFor setting room) _) _ _
      rw [items_cgif cgif]
      exact .past .get fun _ _ same => fits_bracketItems ih enough (same ▸ deep) _

/-- A text of its own fits the limit on nesting. -/
theorem fits_graphInto (cgif : setting.form = .cgif) (deep : reader.model.Depth graph 0) :
    Fits setting.options.maxDepth (graphInto setting graph) reader fun _ _ => True := by
  have read : Fits setting.options.maxDepth (items setting (room setting) graph) reader
      fun _ _ => True := by
    rw [items_cgif cgif]
    exact .past .get fun _ _ same =>
      fits_bracketItems (roomFits cgif _ _) (Nat.le_of_eq (Nat.zero_add _)) (same ▸ deep) _
  exact read.bind fun _ _ _ _ => .of_spares passes_textEnd.spares

end Read

namespace Session

variable {options : Options} {source : String} {graph : GraphId}

/-- What is read into a new model stands in graphs that lie inside fewer concepts than brackets may
be open. -/
theorem shallow_parseGraph
    (parsed : ((withOptions options).parseGraph {} .cgif source).result = .ok graph) :
    ((withOptions options).parseGraph {} .cgif source).model.Depth ⟨0⟩ 0 ∧
      ((withOptions options).parseGraph {} .cgif source).model.Shallow options.maxDepth := by
  obtain ⟨stop, later, -, -, read, same⟩ := exists_of_parseGraph parsed
  have deep : (start .cgif source stop).model.Depth ⟨0⟩ 0 := .outermost Nat.zero_lt_one rfl
  have settles := ((Read.fits_graphInto rfl deep).of_ok read).1
  rw [same]
  exact ⟨settles.depth deep, settles.shallow ⟨nofun, nofun⟩⟩

end Session

end ConceptualGraph
