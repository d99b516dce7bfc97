/-
Module: ConceptualGraph.Proofs.Reversal.Mirror
Purpose: A chain that is turned round is read as the same graph: its concepts and relations in the
  opposite order, each relation with the same arguments in the same order.
Main exports: Chain.mirror, Model.Draws.mirror, Session.isomorphic_parseGraph_reverse
-/
import ConceptualGraph.Proofs.Reversal.Chain

namespace ConceptualGraph

/-! ## The parts of a chain that is turned round -/

/-- New handles for the parts of a chain with a number of relations: those of the chain when it is
turned round. -/
def Chain.mirror (links : Nat) (marker : MarkerId → MarkerId) : Renaming where
  concept id := ⟨links - id.index⟩
  relation id := ⟨links - 1 - id.index⟩
  graph := id
  marker := marker

/-- A change that takes itself back is one to one. -/
theorem bijOn_turned {α : Type} {turn : α → α} {old : α → Prop}
    (back : ∀ element, old element → old (turn element) ∧ turn (turn element) = element) :
    Set.BijOn turn {element | old element} {element | old element} := by
  have inverse : Set.InvOn turn turn {element | old element} {element | old element} :=
    ⟨fun element member => (back element member).2, fun element member => (back element member).2⟩
  exact inverse.bijOn (fun element member => (back element member).1) fun element member =>
    (back element member).1

/-- A referent depends on its marker only where there is one. -/
theorem InlineConcept.referent_rename {written : InlineConcept} {handles : Renaming}
    {marker copy : MarkerId} (same : written.digits? ≠ none → handles.marker marker = copy) :
    written.referent copy = (written.referent marker).map handles.referent := by
  obtain ⟨type, colon, quantifier, designator, comment⟩ := written
  cases designator with
  | none => cases quantifier <;> rfl
  | some designator =>
      cases designator with
      | marker digits =>
          obtain rfl := same nofun
          cases quantifier <;> rfl
      | _ => cases quantifier <;> rfl

namespace Model.Draws

variable {model other : Model} {table table' : MarkerTable}
  {drawn drawn' : List (InlineConcept × MarkerId)} {arcs : List ChainArc}

section

variable (draws : model.Draws table drawn arcs)

include draws

theorem shows_of_lt {id : ConceptId} (inside : id.index < drawn.length) :
    model.ShowsConcept drawn[id.index] id :=
  draws.concept id.index _ (List.getElem?_eq_getElem inside)

theorem showsArc_of_lt {id : RelationId} (inside : id.index < arcs.length) :
    model.ShowsArc arcs[id.index] id.index :=
  draws.relation id.index _ (List.getElem?_eq_getElem inside)

/-- The concepts of a drawing all stand in the outermost graph. -/
theorem graph_iff {id : ConceptId} {graph : GraphId} :
    (model.concept id).graph = some graph ↔ id.index < drawn.length ∧ graph = ⟨0⟩ := by
  by_cases inside : id.index < drawn.length
  · obtain ⟨type, -, data⟩ := draws.shows_of_lt inside
    rw [data]
    simp [inside, eq_comm]
  · rw [Model.concept_of_le (by rw [draws.concepts]; omega)]
    simp [inside, show (default : Concept).graph = none from rfl]

/-- The relations of a drawing all stand in the outermost graph. -/
theorem relation_graph_iff {id : RelationId} {graph : GraphId} :
    (model.relation id).graph = some graph ↔ id.index < arcs.length ∧ graph = ⟨0⟩ := by
  by_cases inside : id.index < arcs.length
  · obtain ⟨type, -, data⟩ := draws.showsArc_of_lt inside
    rw [data]
    simp [inside, eq_comm]
  · rw [Model.relation_of_le (by rw [draws.relations]; omega)]
    simp [inside, show (default : Relation).graph = none from rfl]

/-- No graph describes a concept. -/
theorem within_iff {graph : GraphId} : model.Within ⟨0⟩ graph ↔ graph = ⟨0⟩ := by
  constructor
  · intro within
    induction within with
    | root => rfl
    | @described outer inner id _ stands describes _ =>
        obtain ⟨inside, -⟩ := draws.graph_iff.mp stands
        obtain ⟨type, -, data⟩ := draws.shows_of_lt inside
        rw [Model.descriptor?, data] at describes
        simp only [InlineConcept.referent] at describes
        split at describes <;> cases describes
  · rintro rfl
    exact .root

theorem hasConcept_iff {id : ConceptId} : model.HasConcept ⟨0⟩ id ↔ id.index < drawn.length := by
  simp [HasConcept, draws.within_iff, draws.graph_iff]

theorem hasRelation_iff {id : RelationId} :
    model.HasRelation ⟨0⟩ id ↔ id.index < arcs.length := by
  simp [HasRelation, draws.within_iff, draws.relation_graph_iff]

/-- A marker designates a concept with digits, for which it stands. -/
theorem exists_of_hasMarker {marker : MarkerId} (has : model.HasMarker ⟨0⟩ marker) :
    ∃ (place : Nat) (entry : InlineConcept × MarkerId),
      drawn[place]? = some entry ∧ entry.1.digits? ≠ none ∧ entry.2 = marker := by
  obtain ⟨id, referent, here, refers, designated⟩ := has
  have inside := draws.hasConcept_iff.mp here
  obtain ⟨type, -, data⟩ := draws.shows_of_lt inside
  refine ⟨id.index, drawn[id.index], List.getElem?_eq_getElem inside, ?_⟩
  generalize drawn[id.index] = entry at data
  rw [data] at refers
  obtain ⟨⟨_, _, quantifier, designator, _⟩, known⟩ := entry
  simp only [InlineConcept.referent] at refers
  split at refers
  · cases refers
  · cases refers
    rcases designator with _ | _ | _ | _ | _ | _ | _ | digits <;> cases designated
    exact ⟨Option.some_ne_none _, rfl⟩

end

/-! ## The model of the chain that is turned round -/

section

variable {links : Nat} (draws : model.Draws table drawn arcs) (draws' : other.Draws table' drawn'
    (arcs.map ChainArc.flip).reverse)
  (concepts : drawn'.map Prod.fst = (drawn.map Prod.fst).reverse)
  (length : drawn.length = arcs.length + 1)

include concepts

theorem length_eq : drawn'.length = drawn.length := by
  simpa using congrArg List.length concepts

include length

/-- A concept stands in the mirror as far from the end as from the beginning before. -/
theorem exists_mirrored {place : Nat} {entry : InlineConcept × MarkerId}
    (here : drawn[place]? = some entry) :
    place ≤ arcs.length ∧ ∃ marker, drawn'[arcs.length - place]? = some (entry.1, marker) := by
  have inside := (List.getElem?_eq_some_iff.mp here).1
  have written : (drawn'.map Prod.fst)[arcs.length - place]? = some entry.1 := by
    rw [concepts, List.getElem?_reverse (by simp; omega), List.length_map,
      show drawn.length - 1 - (arcs.length - place) = place by omega, List.getElem?_map, here]
    rfl
  rw [List.getElem?_map, Option.map_eq_some_iff] at written
  obtain ⟨⟨_, marker⟩, there, rfl⟩ := written
  exact ⟨by omega, marker, there⟩

include draws draws'

/-- Two concepts share a marker exactly if they share one in the mirror. -/
theorem same_marker_iff {first second : Nat} {one two : InlineConcept × MarkerId}
    {marker marker' : MarkerId} (here : drawn[first]? = some one)
    (there : drawn[second]? = some two) (designated : one.1.digits? ≠ none)
    (designated' : two.1.digits? ≠ none)
    (mirrored : drawn'[arcs.length - first]? = some (one.1, marker))
    (mirrored' : drawn'[arcs.length - second]? = some (two.1, marker')) :
    one.2 = two.2 ↔ marker = marker' := by
  obtain ⟨digits, read⟩ := Option.ne_none_iff_exists'.mp designated
  obtain ⟨digits', read'⟩ := Option.ne_none_iff_exists'.mp designated'
  rw [draws.marked.same_iff here there read read',
    draws'.marked.same_iff mirrored mirrored' read read']
  have := (exists_mirrored concepts length here).1
  have := (exists_mirrored concepts length there).1
  rw [show arcs.length - first = arcs.length - second ↔ first = second by omega]

/-- The markers of a chain have markers in the mirror. -/
theorem exists_markers : ∃ handle : MarkerId → MarkerId, ∀ place entry marker,
    drawn[place]? = some entry → entry.1.digits? ≠ none →
      drawn'[arcs.length - place]? = some (entry.1, marker) → handle entry.2 = marker := by
  suffices each : ∀ known : MarkerId, ∃ copy, ∀ place entry marker, drawn[place]? = some entry →
      entry.1.digits? ≠ none → drawn'[arcs.length - place]? = some (entry.1, marker) →
        entry.2 = known → copy = marker by
    choose handle handled using each
    exact ⟨handle, fun place entry marker here given there =>
      handled entry.2 place entry marker here given there rfl⟩
  intro known
  by_cases used : ∃ (place : Nat) (entry : InlineConcept × MarkerId),
      drawn[place]? = some entry ∧ entry.1.digits? ≠ none ∧ entry.2 = known
  · obtain ⟨first, one, here, given, rfl⟩ := used
    obtain ⟨-, copy, mirrored⟩ := exists_mirrored concepts length here
    exact ⟨copy, fun second two marker there given' mirrored' same =>
      (same_marker_iff draws draws' concepts length here there given given' mirrored
        mirrored').mp same.symm⟩
  · exact ⟨known, fun place entry marker here given _ same =>
      absurd ⟨place, entry, here, given, same⟩ used⟩

/-- A concept keeps its data in the mirror. -/
theorem keepsConcept {handle : MarkerId → MarkerId}
    (marks : ∀ place entry marker, drawn[place]? = some entry → entry.1.digits? ≠ none →
      drawn'[arcs.length - place]? = some (entry.1, marker) → handle entry.2 = marker)
    {id : ConceptId} (inside : id.index < drawn.length) :
    model.KeepsConcept other (Chain.mirror arcs.length handle) id ⟨arcs.length - id.index⟩ := by
  have here := List.getElem?_eq_getElem inside
  obtain ⟨-, marker, there⟩ := exists_mirrored concepts length here
  obtain ⟨type, named, data⟩ := draws.concept _ _ here
  obtain ⟨image, named', data'⟩ := draws'.concept _ _ there
  have same (given : drawn[id.index].1.digits? ≠ none) :
      (Chain.mirror arcs.length handle).marker drawn[id.index].2 = marker :=
    marks _ _ _ here given there
  constructor
  · rw [data, data']
    exact congrArg some (named'.trans named.symm)
  · rw [data, data']
    exact InlineConcept.referent_rename same
  · rw [data, data']
  · rw [data, data']
  · rw [data, data']
  · rw [data, data']
    rfl

omit concepts length in
/-- A relation keeps its data in the mirror: its arrows are turned round, and so are the concepts
beside it. -/
theorem keepsRelation {handle : MarkerId → MarkerId} {id : RelationId}
    (inside : id.index < arcs.length) :
    model.KeepsRelation other (Chain.mirror arcs.length handle) id
      ⟨arcs.length - 1 - id.index⟩ := by
  have there : (arcs.map ChainArc.flip).reverse[arcs.length - 1 - id.index]? =
      some arcs[id.index].flip := by
    rw [List.getElem?_reverse (by simp; omega), List.length_map,
      show arcs.length - 1 - (arcs.length - 1 - id.index) = id.index by omega, List.getElem?_map,
      List.getElem?_eq_getElem inside]
    rfl
  obtain ⟨type, named, data⟩ := draws.showsArc_of_lt inside
  obtain ⟨image, named', data'⟩ := draws'.relation _ _ there
  constructor
  · rw [data, data']
    exact congrArg some (named'.trans named.symm)
  · rw [data, data', Read.Direction.map_order]
    have before : arcs.length - 1 - id.index = arcs.length - (id.index + 1) := by omega
    have after : arcs.length - 1 - id.index + 1 = arcs.length - id.index := by omega
    rw [after, before]
    exact Read.Direction.order_flip ..
  · rw [data, data']
    rfl
  · rw [data, data']
  · rw [data, data']
    rfl

/-- The model of a chain that is turned round is that of the chain, but for the handles. -/
theorem mirror : ∃ marker,
    model.Isomorphism other (Chain.mirror arcs.length marker) ⟨0⟩ ⟨0⟩ := by
  obtain ⟨handle, marks⟩ := exists_markers draws draws' concepts length
  have size := length_eq concepts
  refine ⟨handle, rfl, ?_, ?_, ?_, ?_, fun graph within => ?_, fun id has => ?_, fun id has => ?_⟩
  · simp only [draws.within_iff, draws'.within_iff]
    exact Set.bijOn_id _
  · simp only [draws.hasConcept_iff, draws'.hasConcept_iff, size]
    exact bijOn_turned fun ⟨index⟩ inside => by simp only [Chain.mirror] at inside ⊢; grind
  · simp only [draws.hasRelation_iff, draws'.hasRelation_iff, List.length_reverse, List.length_map]
    exact bijOn_turned fun ⟨index⟩ inside => by simp only [Chain.mirror] at inside ⊢; grind
  · intro known has known' has' same
    obtain ⟨first, one, here, given, rfl⟩ := draws.exists_of_hasMarker has
    obtain ⟨second, two, there, given', rfl⟩ := draws.exists_of_hasMarker has'
    obtain ⟨-, marker, mirrored⟩ := exists_mirrored concepts length here
    obtain ⟨-, marker', mirrored'⟩ := exists_mirrored concepts length there
    rw [same_marker_iff draws draws' concepts length here there given given' mirrored mirrored',
      ← marks first one marker here given mirrored,
      ← marks second two marker' there given' mirrored']
    exact same
  · obtain rfl := draws.within_iff.mp within
    exact draws'.comments.trans draws.comments.symm
  · exact keepsConcept draws draws' concepts length marks (draws.hasConcept_iff.mp has)
  · exact keepsRelation draws draws' (draws.hasRelation_iff.mp has)

end

end Model.Draws

/-! ## Whole texts -/

namespace Session

variable {options : Options} {chain : Chain} {text turned : String} {graph image : GraphId}

/-- Nothing has been drawn in a new graph of a new model. -/
theorem draws_start (stop : Position) :
    (start .linear text stop).model.Draws (start .linear text stop).markers [] [] where
  listed := (Model.sound_default : ({} : Model).Sound .linear []).newGraph.listed
  ready := Hierarchy.ready_default True
  graphs := rfl
  comments := rfl
  concepts := rfl
  relations := rfl
  concept := nofun
  relation := nofun
  marked := .empty

/-- A chain that is read into a new model is all that this holds. -/
theorem graphInto_start (onDemand : options.createTypesOnDemand = true)
    (roomy : 0 < options.maxDepth) (stop : Position)
    (tokens : (Scan.ofText .linear text).tokens.map Located.token = chain.tokens) :
    Achieves (Read.graphInto ⟨.linear, options⟩ ⟨0⟩) (start .linear text stop) fun _ later =>
      ∃ drawn, drawn.map Prod.fst = chain.concepts ∧
        later.model.Draws later.markers drawn chain.arcs :=
  Read.graphInto_draws rfl onDemand roomy (draws_start stop) tokens

/-- A chain is read as long as a bracket may be opened. -/
theorem exists_parseGraph_of_chain (onDemand : options.createTypesOnDemand = true)
    (roomy : 0 < options.maxDepth) (spells : Notation.linear.Spells text chain.tokens) :
    ∃ graph, ((withOptions options).parseGraph {} .linear text).result = .ok graph := by
  obtain ⟨stop, scanned, tokens⟩ := spells
  obtain ⟨_, later, ran, -⟩ := (graphInto_start onDemand roomy stop tokens).exists_ok
  exact ⟨_, (parseGraph_eq_ok scanned ran).1⟩

/-- The model of a chain that has been read. -/
theorem draws_of_parseGraph (onDemand : options.createTypesOnDemand = true)
    (spells : Notation.linear.Spells text chain.tokens)
    (read : ((withOptions options).parseGraph {} .linear text).result = .ok graph) :
    0 < options.maxDepth ∧ graph = ⟨0⟩ ∧ ∃ table drawn, drawn.map Prod.fst = chain.concepts ∧
      ((withOptions options).parseGraph {} .linear text).model.Draws table drawn chain.arcs := by
  obtain ⟨_, -, tokens⟩ := spells
  obtain ⟨stop, later, -, rfl, ran, model⟩ := exists_of_parseGraph read
  have roomy : 0 < options.maxDepth := by
    refine Nat.pos_of_ne_zero fun tight => ?_
    have starts : (start .linear text stop).tokens = chain.tokens := tokens
    exact (Read.graphInto_refuses rfl tight starts).of_ok ran
  obtain ⟨drawn, concepts, draws⟩ :=
    (graphInto_start onDemand roomy stop tokens).ensures.of_ok ran
  exact ⟨roomy, rfl, later.markers, drawn, concepts, model ▸ draws⟩

/-- A chain that is turned round, with every arrow the other way, is read exactly if the chain is;
and then as the same graph but for the handles.  The concepts and relations of the chain have
handles in the order in which they are written. -/
theorem isomorphic_parseGraph_reverse (onDemand : options.createTypesOnDemand = true)
    (spells : Notation.linear.Spells text chain.tokens)
    (reversed : Notation.linear.Spells turned chain.reverse.tokens) :
    let reading := (withOptions options).parseGraph {} .linear text
    let mirrored := (withOptions options).parseGraph {} .linear turned
    ((∃ graph, reading.result = .ok graph) ↔ ∃ image, mirrored.result = .ok image) ∧
      (0 < options.maxDepth → ∃ graph, reading.result = .ok graph) ∧
      ∀ graph image, reading.result = .ok graph → mirrored.result = .ok image →
        (∀ place concept, chain.concepts[place]? = some concept →
          ∃ marker, reading.model.ShowsConcept (concept, marker) ⟨place⟩) ∧
        (∀ place arc, chain.arcs[place]? = some arc → reading.model.ShowsArc arc place) ∧
        ∃ marker, reading.model.Isomorphism mirrored.model
          (Chain.mirror chain.arcs.length marker) graph image := by
  intro reading mirrored
  refine ⟨⟨fun ⟨graph, read⟩ => ?_, fun ⟨image, read⟩ => ?_⟩,
    fun roomy => exists_parseGraph_of_chain onDemand roomy spells, fun graph image read read' => ?_⟩
  -- A chain is read whenever one bracket may be opened, which either text tells of the other.
  · exact exists_parseGraph_of_chain onDemand (draws_of_parseGraph onDemand spells read).1 reversed
  · exact exists_parseGraph_of_chain onDemand (draws_of_parseGraph onDemand reversed read).1 spells
  · obtain ⟨-, rfl, table, drawn, concepts, draws⟩ := draws_of_parseGraph onDemand spells read
    obtain ⟨-, rfl, table', drawn', concepts', draws'⟩ :=
      draws_of_parseGraph onDemand reversed read'
    rw [Chain.arcs_reverse] at draws'
    rw [Chain.concepts_reverse, ← concepts] at concepts'
    have length : drawn.length = chain.arcs.length + 1 := by
      rw [← chain.length_concepts, ← concepts, List.length_map]
    refine ⟨fun place concept here => ?_, draws.relation, draws.mirror draws' concepts' length⟩
    rw [← concepts, List.getElem?_map, Option.map_eq_some_iff] at here
    obtain ⟨⟨_, marker⟩, here, rfl⟩ := here
    exact ⟨marker, draws.concept place _ here⟩

/-- A chain in both directions, with a type that its middle concept repeats. -/
theorem isomorphic_parseGraph_reverse_mixed :
    let chain : Chain :=
      { head := { type := "Cat", designator := some (.marker (some "1")) }
        links := [(⟨.right, "On", none⟩, { type := "Mat", quantifier := some (.word "every") }),
          (⟨.left, "Near", none⟩, { type := "Cat", designator := some (.marker (some "1")) })] }
    let text := "[Cat: #1] -> (On) -> [Mat: @every] <- (Near) <- [Cat: #1]."
    let turned := "[Cat: #1] -> (Near) -> [Mat: @every] <- (On) <- [Cat: #1]."
    let reading := (withOptions {}).parseGraph {} .linear text
    let mirrored := (withOptions {}).parseGraph {} .linear turned
    Notation.linear.Spells text chain.tokens ∧ Notation.linear.Spells turned chain.reverse.tokens ∧
      ∃ graph image marker, reading.result = .ok graph ∧ mirrored.result = .ok image ∧
        reading.model.Isomorphism mirrored.model (Chain.mirror 2 marker) graph image := by
  intro chain text turned reading mirrored
  have spells : Notation.linear.Spells text chain.tokens := by decide +kernel
  have reversed : Notation.linear.Spells turned chain.reverse.tokens := by decide +kernel
  have onDemand : ({} : Options).createTypesOnDemand = true := rfl
  obtain ⟨both, accepts, same⟩ := isomorphic_parseGraph_reverse onDemand spells reversed
  obtain ⟨graph, read⟩ := accepts (by decide)
  obtain ⟨image, read'⟩ := both.mp ⟨graph, read⟩
  obtain ⟨-, -, marker, isomorphism⟩ := same graph image read read'
  exact ⟨spells, reversed, graph, image, marker, read, read', isomorphism⟩

end Session

end ConceptualGraph
