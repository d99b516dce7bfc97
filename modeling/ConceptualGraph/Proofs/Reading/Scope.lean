/-
Module: ConceptualGraph.Proofs.Reading.Scope
Purpose: Reading binds labels only in the contexts that it opens.  Whether it succeeds or
  fails, a graph that is read in a context of its own leaves the labels as they were, but
  for labels of concepts that have come to denote coreference sets.
Main exports: Read.final, Read.Confined, Read.confined_items,
  Session.restored_parseGraph
-/
import ConceptualGraph.Proofs.Label.Scope
import ConceptualGraph.Proofs.Reading.Counted
import ConceptualGraph.Proofs.Reading.Passes

namespace ConceptualGraph

/-- A state of reading comes after another: the coreference sets are still there, and the
labels follow those that there were. -/
structure Reader.Follows (binding : Bool) (reader later : Reader) : Prop where
  sets : reader.model.RetainsSets later.model
  labels : LabelTable.Follows binding later.model reader.labels later.labels

theorem Reader.Follows.trans {binding : Bool} {reader later last : Reader}
    (first : reader.Follows binding later) (second : later.Follows binding last) :
    reader.Follows binding last :=
  ⟨first.sets.trans second.sets, first.labels.trans second.labels second.sets⟩

namespace Read

variable {α β : Type} {binding : Bool} {step : Read α} {next : α → Read β} {reader : Reader}

/-- The state in which a step ends, whether it succeeds or fails. -/
def final (step : Read α) (reader : Reader) : Reader :=
  match step reader with
  | .ok _ later | .error _ later => later

/-- A step, from a state in which no label is bound twice, ends in a state that follows. -/
def ConfinedAt (binding : Bool) (step : Read α) (reader : Reader) : Prop :=
  reader.labels.Distinct → reader.Follows binding (final step reader)

/-- A step confines what it binds to the innermost context, and binds nothing there
unless `binding` allows it. -/
def Confined (binding : Bool) (step : Read α) : Prop :=
  ∀ reader, ConfinedAt binding step reader

/-! ## Rules -/

/-- A step that leaves the labels and the coreference sets alone. -/
theorem ConfinedAt.of_same (labels : (final step reader).labels = reader.labels)
    (sets : (final step reader).model.corefSets = reader.model.corefSets) :
    ConfinedAt binding step reader := fun distinct =>
  ⟨.of_eq sets, by rw [labels]; exact .refl distinct⟩

/-- The second step runs only if the first one succeeds. -/
theorem ConfinedAt.bind (first : ConfinedAt binding step reader)
    (others : ∀ value later, step reader = .ok value later →
      ConfinedAt binding (next value) later) :
    ConfinedAt binding (step >>= next) reader := by
  intro distinct
  have follows := first distinct
  unfold final at follows ⊢
  simp only [Bind.bind, EStateM.bind]
  cases ran : step reader with
  | ok value later =>
      rw [ran] at follows
      exact follows.trans (others value later ran follows.labels.distinct)
  | error error later => rwa [ran] at follows

theorem confinedAt_model {next : Model → Read β} :
    ConfinedAt binding (model >>= next) reader ↔
      ConfinedAt binding (next reader.model) reader := Iff.rfl

theorem confinedAt_labels {next : LabelTable → Read β} :
    ConfinedAt binding (labels >>= next) reader ↔
      ConfinedAt binding (next reader.labels) reader := Iff.rfl

namespace Confined

theorem bind (first : Confined binding step) (others : ∀ value, Confined binding (next value)) :
    Confined binding (step >>= next) := fun reader =>
  (first reader).bind fun value later _ => others value later

theorem pure (value : α) : Confined binding (pure value : Read α) :=
  fun _ => .of_same rfl rfl

theorem throw (error : Error) : Confined binding (throw error : Read α) :=
  fun _ => .of_same rfl rfl

theorem failAt (found : Located) (fault : ParseFault) :
    Confined binding (failAt found fault : Read α) :=
  fun _ => .of_same rfl rfl

theorem fail (fault : ParseFault) : Confined binding (fail fault : Read α) :=
  fun _ => .of_same rfl rfl

theorem ite {condition : Prop} [Decidable condition] {other : Read α}
    (yes : Confined binding step) (no : Confined binding other) :
    Confined binding (if condition then step else other) := by
  split
  · exact yes
  · exact no

theorem get : Confined binding (get : Read Reader) := fun _ => .of_same rfl rfl

theorem located (places : Nat) : Confined binding (located places) := fun _ => .of_same rfl rfl

theorem ahead (places : Nat) : Confined binding (ahead places) := fun _ => .of_same rfl rfl

theorem peek : Confined binding peek := fun _ => .of_same rfl rfl

theorem model : Confined binding model := fun _ => .of_same rfl rfl

theorem advance : Confined binding advance := fun _ => .of_same rfl rfl

theorem eat (token : Token) : Confined binding (eat token) :=
  peek.bind fun _ => ite (advance.bind fun _ => .pure _) (.pure _)

theorem expect (token : Token) (what : Expected) : Confined binding (expect token what) :=
  (eat token).bind fun _ => ite (.pure _) (.fail _)

/-- An edit that leaves the coreference sets alone. -/
theorem edit {change : Model → Model}
    (sets : ∀ model, (change model).corefSets = model.corefSets) :
    Confined binding (edit change) :=
  fun reader => .of_same rfl (sets reader.model)

theorem make {change : Model → α × Model}
    (sets : ∀ model, (change model).2.corefSets = model.corefSets) :
    Confined binding (make change) :=
  fun reader => .of_same rfl (sets reader.model)

/-- What is bound in a context of its own is unbound when the context is closed. -/
theorem inContext (inner : Confined true step) : Confined binding (inContext step) := by
  intro reader distinct
  have follows := inner (reader.withLabels reader.labels.push) distinct
  have closed : final (Read.inContext step) reader =
      (final step (reader.withLabels reader.labels.push)).withLabels
        (final step (reader.withLabels reader.labels.push)).labels.pop := by
    unfold final Read.inContext Reader.withLabels
    cases step { reader with labels := reader.labels.push } <;> rfl
  rw [closed]
  exact ⟨follows.sets, follows.labels.pop⟩

end Confined

/-- A step that passes only takes tokens away. -/
theorem Passes.final_eq (passes : Passes step) (reader : Reader) :
    ∃ rest, rest <:+ reader.rest ∧ final step reader = reader.withRest rest := by
  unfold final
  cases ran : step reader with
  | ok value later => exact passes.of_ok ran
  | error error later => exact (passes.of_error ran).1

/-- What only passes tokens is confined. -/
theorem Passes.confined (passes : Passes step) : Confined binding step := by
  intro reader
  obtain ⟨rest, -, same⟩ := passes.final_eq reader
  exact .of_same (by rw [same]; rfl) (by rw [same]; rfl)

/-! ## Coreference

The one place where a label that is bound comes to denote something else. -/

variable {setting : Setting} {room : Option Inside} {graph : GraphId}

/-- The set that begins with a concept is the last one of the model, and the concept
defines it. -/
theorem newCorefSet_defines (model : Model) (concept : ConceptId) :
    (model.newCorefSet concept).1.index < (model.newCorefSet concept).2.corefSets.size ∧
      ((model.newCorefSet concept).2.corefSet (model.newCorefSet concept).1).defining =
        concept := by
  simp [Model.newCorefSet, Model.noteMembership, Model.modifyConcept, Model.corefSet]

/-- The set of a label takes the place of the concept that the label denoted. -/
theorem confined_setFor (found : Located) (label : String) :
    Confined binding (setFor found label) := by
  intro reader
  refine confinedAt_labels.mpr ?_
  split
  · exact .of_same rfl rfl
  · next concept denotes =>
    intro distinct
    obtain ⟨within, defines⟩ := newCorefSet_defines reader.model concept
    exact ⟨.newCorefSet _ _, .bind_promoted distinct denotes within defines⟩
  · exact .of_same rfl rfl

theorem confined_join (found : Located) (label : String) (concept : ConceptId) :
    Confined binding (join found label concept) := by
  refine (confined_setFor found label).bind fun set reader => confinedAt_model.mpr ?_
  split
  · next model added => exact fun distinct => ⟨.addToCorefSet added, .refl distinct⟩
  · exact .of_same rfl rfl

/-- Resolving a label binds none. -/
theorem confined_resolve (found : Located) (label : String) (graph : Option GraphId) :
    Confined binding (resolve found label graph) := by
  refine (passes_definingConcept? label).confined.bind fun defining => ?_
  split
  · exact .failAt _ _
  · exact .pure _
  · refine (passes_representative? _ _ _).confined.bind fun known => ?_
    split
    · exact .pure _
    · exact Confined.model.bind fun _ => .bind (.make fun _ => rfl) fun _ =>
        .bind (.edit fun _ => rfl) fun _ => (confined_join _ _ _).bind fun _ => .pure _

/-! ## Types -/

theorem confined_conceptTypeNamed (found : Located) (label : String) :
    Confined binding (conceptTypeNamed setting found label) := by
  refine Confined.model.bind fun model => ?_
  dsimp only
  split
  · exact .pure _
  · refine .ite ?_ (.failAt _ _)
    split
    · exact .bind (.edit fun _ => rfl) fun _ => .pure _
    · exact .throw _

theorem confined_relationTypeNamed (found : Located) (label : String) :
    Confined binding (relationTypeNamed setting found label) := by
  refine Confined.model.bind fun model => ?_
  dsimp only
  split
  · exact .pure _
  · refine .ite ?_ (.failAt _ _)
    split
    · exact .bind (.edit fun _ => rfl) fun _ => .pure _
    · exact .throw _

theorem confined_parameter : Confined binding (parameter setting) := by
  refine Confined.peek.bind fun token => ?_
  split
  · refine (Confined.located 0).bind fun _ => Confined.advance.bind fun _ =>
      (confined_conceptTypeNamed _ _).bind fun _ => Confined.peek.bind fun token => ?_
    split
    · exact (Confined.located 0).bind fun _ => Confined.advance.bind fun _ => .pure _
    · exact .fail _
  · exact .fail _

theorem confined_parameters (tokens : Nat) : Confined binding (parameters setting tokens) := by
  induction tokens with
  | zero => exact confined_parameter.bind fun _ => .pure _
  | succ tokens ih =>
      exact confined_parameter.bind fun _ => (Confined.eat _).bind fun _ =>
        .ite (ih.bind fun _ => .pure _) (.pure _)

/-- What is read inside a bracket is confined. -/
structure InsideConfined (inside : Inside) : Prop where
  concept : ∀ graph, Confined true (inside.concept graph)
  lambda : ∀ binding, Confined binding inside.lambda
  items : ∀ graph, Confined true (inside.items graph)

/-- What is read where there is room is confined. -/
def RoomConfined (room : Option Inside) : Prop :=
  ∀ inside, room = some inside → InsideConfined inside

/-- Entering a bracket changes nothing. -/
theorem Confined.descend {next : Inside → Read β}
    (others : ∀ inside, room = some inside → Confined binding (next inside)) :
    Confined binding (descend setting room >>= next) := by
  cases room with
  | none => exact fun _ => .of_same rfl rfl
  | some inside => exact others inside rfl

theorem confined_definitionBody {inside : Inside} (confined : InsideConfined inside)
    (declared : List Declared) : Confined true (definitionBody inside declared) := by
  refine Confined.peek.bind fun token => .ite ?_ ?_
  · exact .bind (.make fun _ => rfl) fun graph => (confined.items graph).bind fun _ =>
      (Passes.mapM _ fun _ => passes_linkParameter _ _).confined.bind fun _ => .pure _
  · exact (Passes.mapM _ fun _ => passes_linkParameter _ _).confined.bind fun _ => .pure _

theorem confined_lambda (confined : RoomConfined room) :
    Confined binding (lambda setting room) :=
  .descend fun inside entered => (Confined.expect _ _).bind fun _ =>
    (Confined.expect _ _).bind fun _ => (Confined.expect _ _).bind fun _ =>
      Confined.get.bind fun _ => (confined_parameters _).bind fun _ =>
        (Confined.expect _ _).bind fun _ =>
          (Confined.inContext (confined_definitionBody (confined inside entered) _)).bind fun _ =>
            (Confined.expect _ _).bind fun _ => .pure _

theorem confined_conceptType {lambda : Read Definition} (confined : Confined binding lambda) :
    Confined binding (conceptType setting lambda) := by
  refine Confined.peek.bind fun token => ?_
  split
  · exact (Confined.located 0).bind fun _ => Confined.advance.bind fun _ =>
      (confined_conceptTypeNamed _ _).bind fun _ => .pure _
  · refine (passes_lambdaAhead 0).confined.bind fun _ => .ite ?_ (.pure _)
    exact (Confined.located 0).bind fun _ => confined.bind fun _ =>
      .ite (.failAt _ _) (.bind (.make fun _ => rfl) fun _ => .pure _)

theorem confined_relationType {lambda : Read Definition} (confined : Confined binding lambda) :
    Confined binding (relationType setting lambda) := by
  refine Confined.peek.bind fun token => ?_
  split
  · exact (Confined.located 0).bind fun _ => Confined.advance.bind fun _ =>
      confined_relationTypeNamed _ _
  · exact confined.bind fun _ => .make fun _ => rfl

/-! ## Concepts -/

theorem confined_markerOf (digits : Option String) : Confined binding (markerOf digits) := by
  cases digits with
  | none =>
      have fresh : Confined binding (make Model.newMarker) := .make fun _ => rfl
      exact fresh
  | some foreign =>
      intro reader
      refine .of_same rfl ?_
      change (reader.markers.markerFor foreign reader.model).2.2.corefSets = _
      unfold MarkerTable.markerFor
      split <;> rfl

/-- What a designator is taken from binds no label. -/
theorem confined_designatorOf (found : Located) : Confined binding (designatorOf found) := by
  unfold designatorOf
  split
  · exact .pure _
  · exact .pure _
  · exact .pure _
  · exact .pure _
  · exact .pure _
  · exact (confined_markerOf _).bind fun _ => .pure _
  · refine (passes_definingConcept? _).confined.bind fun concept => ?_
    split
    · exact .pure _
    · exact .failAt _ _
  · exact .pure _

theorem confined_designator : Confined binding designator :=
  (Confined.eat _).bind fun _ => .ite (passes_encodedLiteral.confined.bind fun _ => .pure _)
    ((Confined.located 0).bind fun _ => (confined_designatorOf _).bind fun _ =>
      .ite (Confined.advance.bind fun _ => .pure _) (.pure _))

theorem confined_descriptor {inside : Inside} (confined : InsideConfined inside)
    (owner : ConceptId) : Confined binding (descriptor inside owner) :=
  Confined.peek.bind fun _ => .ite
    (.bind (.make fun _ => rfl) fun graph =>
      (Confined.inContext (confined.items graph)).bind fun _ => .pure _)
    (.pure _)

/-- A referent changes no set. -/
theorem setReferent_corefSets (model : Model) (concept : ConceptId) (referent : Referent) :
    (model.setReferent concept referent).corefSets = model.corefSets := by
  unfold Model.setReferent
  cases referent.descriptor <;> rfl

theorem confined_referent {inside : Inside} (confined : InsideConfined inside)
    (concept : ConceptId) : Confined binding (referent inside concept) :=
  passes_quantifier.confined.bind fun _ => confined_designator.bind fun _ =>
    (confined_descriptor confined concept).bind fun _ =>
      .ite (.pure _) (.edit fun _ => setReferent_corefSets _ _ _)

theorem confined_boundLabels (concept : ConceptId) (tokens : Nat) :
    Confined binding (boundLabels concept tokens) := by
  induction tokens with
  | zero => exact .pure _
  | succ tokens ih =>
      refine Confined.peek.bind fun token => ?_
      split
      · exact (Confined.located 0).bind fun _ => Confined.advance.bind fun _ =>
          (confined_join _ _ _).bind fun _ => ih
      · exact .pure _

/-- A defining label is bound in the innermost context, and only if it is not bound. -/
theorem confined_conceptLabels (concept : ConceptId) : Confined true (conceptLabels concept) := by
  refine Confined.peek.bind fun token => ?_
  split
  · intro reader
    refine confinedAt_labels.mpr ?_
    split
    · exact .of_same rfl rfl
    · next unbound =>
      refine (Confined.advance reader).bind fun _ later advanced => ?_
      have same : later.labels = reader.labels := by cases advanced; rfl
      intro distinct
      exact ⟨.refl _, .bind_unbound distinct _ (by simpa [same] using unbound)⟩
  · exact Confined.get.bind fun _ => confined_boundLabels _ _

/-- The body of a concept binds labels of its own context only. -/
theorem confined_conceptBody {inside : Inside} (confined : InsideConfined inside)
    (graph : Option GraphId) : Confined true (conceptBody setting inside graph) := by
  refine (confined_conceptType (confined.lambda true)).bind fun type =>
    .bind (.make fun _ => rfl) fun concept => ?_
  cases graph
  case' some graph => refine .bind (.edit fun _ => rfl) fun _ => ?_
  all_goals
    refine (Confined.eat _).bind fun _ => (confined_conceptLabels _).bind fun _ =>
      (confined_referent confined _).bind fun _ =>
        (passes_nodeComment _).confined.bind fun comment => ?_
    split
    · exact .bind (.edit fun _ => rfl) fun _ => (Confined.expect _ _).bind fun _ => .pure _
    · exact (Confined.expect _ _).bind fun _ => .pure _

theorem confined_concept (confined : RoomConfined room) (graph : Option GraphId) :
    Confined true (concept setting room graph) := by
  refine Confined.peek.bind fun token => (Confined.ahead 1).bind fun second => ?_
  split
  · exact .pure _
  · exact (Confined.located 1).bind fun _ => .failAt _ _
  · exact (Confined.located 1).bind fun _ => .failAt _ _
  · exact .descend fun inside entered => Confined.advance.bind fun _ =>
      (confined_conceptBody (confined inside entered) _).bind fun _ => .pure _
  · exact .pure _

/-! ## Relations and actors -/

section Arguments

variable {concept : Option GraphId → Read (Option ConceptId)}

theorem confined_arc (confined : ∀ graph, Confined true (concept graph))
    (graph : Option GraphId) : Confined true (arc concept graph) := by
  refine Confined.peek.bind fun token => ?_
  split
  · exact (Confined.located 0).bind fun _ => Confined.advance.bind fun _ =>
      (confined_resolve _ _ _).bind fun _ => .pure _
  · exact confined graph
  · exact .pure _

theorem confined_arcs (confined : ∀ graph, Confined true (concept graph))
    (graph : Option GraphId) (tokens : Nat) : Confined true (arcs concept graph tokens) := by
  induction tokens with
  | zero => exact .pure _
  | succ tokens ih =>
      refine (confined_arc confined graph).bind fun argument => ?_
      split
      · exact ih.bind fun _ => .pure _
      · exact .pure _

end Arguments

theorem confined_makeRelation (found : Located) (type : RelationType) (args : List ConceptId)
    (role : RelationRole) (comment : Option String) :
    Confined binding (makeRelation found type args role comment) :=
  (passes_checkValence _ _ _).confined.bind fun _ => .bind (.make fun _ => rfl) fun _ =>
    .bind (.edit fun _ => rfl) fun _ => .pure _

/-- A relation binds labels of its own context only. -/
theorem confined_relation (confined : RoomConfined room) (graph : Option GraphId) :
    Confined true (relation setting room graph) := by
  refine Confined.peek.bind fun token => ?_
  have opened : Confined true (do
      let inside ← descend setting room
      let found ← located 0
      advance
      let type ← relationType setting inside.lambda
      let args ← arcs inside.concept graph (← get).rest.length
      let comment ← nodeComment .relation
      expect (.punct .rightParen) .relationClosing
      return some (← makeRelation found type args .relation comment)) :=
    .descend fun inside entered => (Confined.located 0).bind fun _ => Confined.advance.bind fun _ =>
      (confined_relationType ((confined inside entered).lambda true)).bind fun _ =>
        Confined.get.bind fun _ =>
          (confined_arcs (confined inside entered).concept _ _).bind fun _ =>
            (passes_nodeComment _).confined.bind fun _ => (Confined.expect _ _).bind fun _ =>
              (confined_makeRelation _ _ _ _ _).bind fun _ => .pure _
  exact (passes_relationTypeAhead 1).confined.bind fun _ => .ite opened (.pure _)

/-- The inside of an actor binds labels of its own context only. -/
theorem confined_actorBody {inside : Inside} (confined : InsideConfined inside) (found : Located)
    (graph : Option GraphId) : Confined true (actorBody setting inside found graph) := by
  have body : Confined true (do
      let type ← relationType setting inside.lambda
      let inputs ← arcs inside.concept graph (← get).rest.length
      expect (.punct .bar) .actorBar
      let outputs ← arcs inside.concept graph (← get).rest.length
      let comment ← nodeComment .actor
      expect (.punct .rightAngle) .actorClosing
      makeRelation found type (inputs ++ outputs) (.actor inputs.length) comment) :=
    (confined_relationType (confined.lambda true)).bind fun _ => Confined.get.bind fun _ =>
      (confined_arcs confined.concept _ _).bind fun _ => (Confined.expect _ _).bind fun _ =>
        Confined.get.bind fun _ => (confined_arcs confined.concept _ _).bind fun _ =>
          (passes_nodeComment _).confined.bind fun _ => (Confined.expect _ _).bind fun _ =>
            confined_makeRelation _ _ _ _ _
  exact (passes_relationTypeAhead 0).confined.bind fun _ =>
    .ite body ((Confined.fail _).bind fun _ => body)

theorem confined_actor (confined : RoomConfined room) (graph : Option GraphId) :
    Confined true (actor setting room graph) :=
  Confined.peek.bind fun _ => .ite
    (.descend fun inside entered => (Confined.located 0).bind fun _ =>
      Confined.advance.bind fun _ =>
        (confined_actorBody (confined inside entered) _ _).bind fun _ => .pure _)
    (.pure _)

/-! ## Items of the interchange form -/

theorem confined_contextBody {inside : Inside} (confined : InsideConfined inside)
    (graph : GraphId) (label : ContextLabel) :
    Confined binding (contextBody inside graph label) := by
  refine (Confined.eat _).bind fun _ => .bind (.make fun _ => rfl) fun concept =>
    .bind (.edit fun _ => rfl) fun _ => .bind (.edit fun _ => rfl) fun _ =>
      (confined_descriptor confined _).bind fun body => ?_
  split
  · exact .bind (.edit fun _ => setReferent_corefSets _ _ _) fun _ =>
      (Confined.expect _ _).bind fun _ => .pure _
  · exact (Confined.expect _ _).bind fun _ => .pure _

theorem confined_specialContext (confined : RoomConfined room) (graph : GraphId) :
    Confined true (specialContext setting room graph) := by
  refine Confined.peek.bind fun token => (Confined.ahead 1).bind fun second => ?_
  split
  · exact (Confined.located 1).bind fun _ => .failAt _ _
  · exact .descend fun inside entered => Confined.advance.bind fun _ =>
      Confined.advance.bind fun _ =>
        (confined_contextBody (confined inside entered) _ _).bind fun _ => .pure _
  · exact .pure _

theorem confined_negationType : Confined binding negationType := by
  refine Confined.model.bind fun model => ?_
  dsimp only
  split
  · exact .pure _
  · split
    · exact .bind (.edit fun _ => rfl) fun _ => .pure _
    · exact .throw _

theorem confined_negationBody {inside : Inside} (confined : InsideConfined inside)
    (graph : GraphId) : Confined binding (negationBody inside graph) := by
  refine .bind (.make fun _ => rfl) fun concept => .bind (.edit fun _ => rfl) fun _ =>
    .bind (.edit fun _ => rfl) fun _ => (confined_descriptor confined _).bind fun body => ?_
  have rest : ∀ body : GraphId, Confined binding (do
      edit (·.setReferent concept { descriptor := some body })
      expect (.punct .rightBracket) .negationClosing
      let type ← negationType
      make (·.newRelation (some type) [concept] .relation)) := fun body =>
    .bind (.edit fun _ => setReferent_corefSets _ _ _) fun _ => (Confined.expect _ _).bind fun _ =>
      confined_negationType.bind fun _ => .make fun _ => rfl
  split
  · exact rest _
  · exact .bind (.make fun _ => rfl) fun _ => rest _

theorem confined_negation (confined : RoomConfined room) (graph : GraphId) :
    Confined true (negation setting room graph) := by
  refine Confined.peek.bind fun token => (Confined.ahead 1).bind fun second => ?_
  split
  · exact .descend fun inside entered => Confined.advance.bind fun _ =>
      Confined.advance.bind fun _ =>
        (confined_negationBody (confined inside entered) _).bind fun _ => .pure _
  · exact (Confined.located 1).bind fun _ => .failAt _ _
  · exact .pure _

theorem confined_relationInto {production : Read (Option RelationId)}
    (confined : Confined binding production) (graph : GraphId) :
    Confined binding (relationInto graph production) := by
  refine confined.bind fun relation => ?_
  split
  · exact .bind (.edit fun _ => rfl) fun _ => .pure _
  · exact .pure _

theorem confined_graphComment (graph : GraphId) : Confined binding (graphComment graph) := by
  refine Confined.peek.bind fun token => ?_
  split
  · exact Confined.advance.bind fun _ => .bind (.edit fun _ => rfl) fun _ => .pure _
  · exact .pure _

theorem confined_firstOf {productions : List (Read Bool)}
    (confined : ∀ production ∈ productions, Confined binding production) :
    Confined binding (firstOf productions) := by
  induction productions with
  | nil => exact .pure _
  | cons production others ih =>
      exact (confined _ List.mem_cons_self).bind fun _ =>
        .ite (.pure _) (ih fun other member => confined other (List.mem_cons_of_mem _ member))

theorem confined_bracketItems (confined : RoomConfined room) (graph : GraphId) (tokens : Nat) :
    Confined true (bracketItems setting room graph tokens) := by
  have productions : ∀ production ∈ bracketProductions setting room graph,
      Confined true production := by
    simp only [bracketProductions, List.forall_mem_cons, List.not_mem_nil, false_implies,
      implies_true, and_true]
    exact ⟨(confined_concept confined _).bind fun _ => .pure _,
      (confined_specialContext confined _).bind fun _ => .pure _,
      confined_relationInto (confined_negation confined _) _,
      confined_relationInto (confined_relation confined _) _,
      confined_relationInto (confined_actor confined _) _, confined_graphComment _⟩
  induction tokens with
  | zero => exact .pure _
  | succ tokens ih => exact (confined_firstOf productions).bind fun _ => .ite ih (.pure _)

/-! ## Statements of the linear form -/

theorem confined_target (confined : RoomConfined room) (graph : GraphId) :
    Confined true (target setting room graph) := by
  refine (confined_arc (confined_concept confined) _).bind fun concept => ?_
  split
  · exact .pure _
  · exact .fail _

theorem confined_relationNode (confined : RoomConfined room) :
    Confined binding (relationNode setting room) :=
  passes_relationNodeAhead.confined.bind fun _ => .ite
    ((Confined.located 0).bind fun _ => Confined.advance.bind fun _ =>
      (confined_relationType (confined_lambda confined)).bind fun _ =>
        (passes_nodeComment _).confined.bind fun _ => (Confined.expect _ _).bind fun _ => .pure _)
    (.fail _)

theorem confined_connect (graph : GraphId) (node : RelationNode) (args : List ConceptId) :
    Confined binding (connect graph node args) :=
  (confined_makeRelation _ _ _ _ _).bind fun _ => .edit fun _ => rfl

/-- Chains and the fans in them are confined together, since each goes on with the other. -/
theorem confined_chains (confined : RoomConfined room) (graph : GraphId) (steps : Nat) :
    (∀ head, Confined true (chainTail setting room graph steps head)) ∧
      ∀ head first, Confined true (fan setting room graph steps head first) := by
  -- The fuel is that of chains and fans together, since either may go on with the other.
  induction steps with
  | zero =>
      constructor
      · intro head
        unfold chainTail
        exact .pure _
      · intro head first
        unfold fan
        exact .pure _
  | succ steps ih =>
      obtain ⟨tails, fans⟩ := ih
      constructor
      · intro head
        unfold chainTail
        refine passes_refuseNumberedArc.confined.bind fun _ =>
          passes_arrowAhead.confined.bind fun arrow => ?_
        split
        · refine Confined.advance.bind fun _ => (confined_relationNode confined).bind fun _ =>
            passes_refuseNumberedArc.confined.bind fun _ =>
              passes_arrowAhead.confined.bind fun arrow => ?_
          split
          · exact confined_connect _ _ _
          · next into _ node _ _ _ =>
            have goesOn : Confined true (do
                let next ← target setting room graph
                connect graph node (into.order head next)
                chainTail setting room graph steps next) :=
              (confined_target confined _).bind fun next =>
                (confined_connect _ _ _).bind fun _ => tails next
            exact (Confined.located 0).bind fun _ => Confined.advance.bind fun _ =>
              .ite ((Confined.failAt _ _).bind fun _ => goesOn) goesOn
        · exact (Confined.eat _).bind fun _ => .ite (fans _ _) (.pure _)
      · intro head first
        unfold fan
        refine passes_refuseNumberedArc.confined.bind fun _ =>
          passes_relationNodeAhead.confined.bind fun _ =>
            .ite ((confined_relationNode confined).bind fun node =>
              passes_refuseNumberedArc.confined.bind fun _ =>
                passes_arrowAhead.confined.bind fun arrow => ?_)
            (.ite (.fail _) ((Confined.eat _).bind fun _ => .pure _))
        split
        · exact Confined.advance.bind fun _ => (confined_target confined _).bind fun next =>
            (confined_connect _ _ _).bind fun _ => (tails next).bind fun _ => fans _ _
        · exact (confined_connect _ _ _).bind fun _ => fans _ _

theorem confined_tail (confined : RoomConfined room) (graph : GraphId) (head : ConceptId) :
    Confined true (tail setting room graph head) :=
  Confined.get.bind fun _ => (confined_chains confined graph _).1 head

theorem confined_chain (confined : RoomConfined room) (graph : GraphId) :
    Confined true (chain setting room graph) :=
  (confined_target confined graph).bind fun _ => confined_tail confined _ _

theorem confined_relationChain (confined : RoomConfined room) (graph : GraphId) :
    Confined true (relationChain setting room graph) := by
  refine (confined_relationNode confined).bind fun node =>
    passes_refuseNumberedArc.confined.bind fun _ => passes_arrowAhead.confined.bind fun arrow => ?_
  split
  · exact confined_connect _ _ _
  · exact Confined.advance.bind fun _ => (confined_target confined _).bind fun _ =>
      (confined_connect _ _ _).bind fun _ => confined_tail confined _ _

theorem confined_statement (confined : RoomConfined room) (graph : GraphId) :
    Confined true (statement setting room graph) := by
  refine Confined.peek.bind fun token => ?_
  split
  · exact (confined_chain confined _).bind fun _ => .pure _
  · exact (confined_chain confined _).bind fun _ => .pure _
  · exact confined_relationInto (confined_negation confined _) _
  · exact passes_relationNodeAhead.confined.bind fun _ =>
      .ite ((confined_relationChain confined _).bind fun _ => .pure _) (.pure _)
  · exact confined_relationInto (confined_actor confined _) _
  · exact .pure _

theorem confined_statements (confined : RoomConfined room) (graph : GraphId) (tokens : Nat) :
    Confined true (statements setting room graph tokens) := by
  induction tokens with
  | zero => exact .pure _
  | succ tokens ih =>
      exact (confined_graphComment _).bind fun _ => .ite ih
        ((confined_statement confined _).bind fun _ =>
          .ite (passes_statementEnd.confined.bind fun _ => ih) (.pure _))

/-! ## Nesting -/

theorem confined_items (confined : RoomConfined room) (graph : GraphId) :
    Confined true (items setting room graph) := by
  refine Confined.get.bind fun reader => ?_
  dsimp only
  split
  · exact confined_bracketItems confined _ _
  · exact confined_statements confined _ _

theorem roomConfined (brackets : Nat) : RoomConfined (roomFor setting brackets) := by
  induction brackets with
  | zero => exact nofun
  | succ brackets ih =>
      rintro inside ⟨⟩
      exact ⟨confined_concept ih, fun _ => confined_lambda ih, confined_items ih⟩

theorem confined_graphInto (graph : GraphId) : Confined true (graphInto setting graph) :=
  (confined_items (roomConfined _) graph).bind fun _ => passes_textEnd.confined

/-! ## Contexts

A context that has been read leaves the labels as they were before it. -/

/-- What is confined restores the labels with which it began. -/
theorem ConfinedAt.restored (confined : ConfinedAt false step reader)
    (reachable : reader.labels.Reachable) :
    LabelTable.Restored (final step reader).model reader.labels (final step reader).labels :=
  (confined reachable.distinct).labels.restored reachable.distinct

/-- A step that counts brackets leads where the one leads that it follows, but for the count. -/
theorem Simulates.exists_final {before after : Nat} {step' : Read α}
    (same : Simulates before after step step') (reader : Reader) :
    ∃ last, final step' (reader.atDepth before) = (final step reader).atDepth last := by
  unfold final
  cases ran : step reader with
  | ok value later => exact ⟨after, by rw [same.of_ok ran]⟩
  | error error later =>
      obtain ⟨last, failed⟩ := same.of_error ran
      exact ⟨last, by rw [failed]⟩

/-- A step that counts brackets binds labels where the one does that it follows. -/
theorem ConfinedAt.counted {binding : Bool} {after : Nat} {step' : Read α}
    (confined : ConfinedAt binding step reader)
    (same : Simulates reader.depth after step step') : ConfinedAt binding step' reader := by
  intro distinct
  have follows := confined distinct
  obtain ⟨last, counts⟩ := same.exists_final reader
  have ends : final step' reader = (final step reader).atDepth last := counts
  rw [ends]
  exact ⟨follows.sets, follows.labels⟩

/-- A nested graph is read in a context of its own, at every level. -/
theorem confined_descriptor_level {levels : Nat} {inside : Inside}
    (entered : level setting .counted levels = some inside) (owner : ConceptId) (reader : Reader) :
    ConfinedAt false (descriptor inside owner) reader := by
  cases levels with
  | zero => cases entered
  | succ levels =>
      cases entered
      have confined : RoomConfined
          (roomFor setting (min levels (setting.options.maxDepth - reader.depth) + 1)) :=
        roomConfined _
      exact (confined_descriptor (confined _ (roomFor_succ _)) owner reader).counted
        (simulates_descriptor (admits_level setting levels reader.depth).matches owner)

/-- A definition is read in a context of its own, at every level. -/
theorem confined_lambda_level (setting : Setting) (levels : Nat) (reader : Reader) :
    ConfinedAt false (lambda setting (.counted (level setting .counted levels))) reader :=
  (confined_lambda (roomConfined _) reader).counted
    (simulates_lambda (admits_level setting levels reader.depth))

end Read

/-! ## Whole texts -/

namespace Session

variable (session : Session) (model : Model) (form : Notation) (source : String)

/-- Reading a text binds labels and promotes some, and loses no set. -/
theorem follows_read {α : Type} {production : Setting → Read α}
    (confined : ∀ setting, Read.Confined true (production setting))
    (distinct : session.labels.Distinct) :
    model.RetainsSets (session.read model form source production).model ∧
      LabelTable.Follows true (session.read model form source production).model session.labels
        (session.read model form source production).session.labels := by
  unfold Session.read
  dsimp only
  cases (Scan.ofText form source).stop with
  | error error => exact ⟨.refl _, .refl distinct⟩
  | ok stop =>
      have follows := confined { form, options := session.options }
        { rest := (Scan.ofText form source).tokens, stop, model, labels := session.labels,
          markers := session.markers } distinct
      unfold Read.final at follows
      dsimp only
      cases ran : production { form, options := session.options }
        { rest := (Scan.ofText form source).tokens, stop, model, labels := session.labels,
          markers := session.markers } <;>
        rw [ran] at follows <;> exact ⟨follows.sets, follows.labels⟩

/-- Reading a graph on its own restores the labels of the session, whether it succeeds or
fails; and so does, at every depth, the reading of a nested graph and of a definition. -/
theorem restored_parseGraph (reachable : session.labels.Reachable) :
    LabelTable.Restored (session.parseGraph model form source).model session.labels
        (session.parseGraph model form source).session.labels ∧
      ∀ (setting : Setting) (levels : Nat) (reader : Reader), reader.labels.Reachable →
        let level := Read.level setting .counted levels
        (∀ (inside : Inside) (owner : ConceptId), level = some inside →
          LabelTable.Restored (Read.final (Read.descriptor inside owner) reader).model
            reader.labels (Read.final (Read.descriptor inside owner) reader).labels) ∧
        LabelTable.Restored (Read.final (Read.lambda setting (.counted level)) reader).model
          reader.labels (Read.final (Read.lambda setting (.counted level)) reader).labels := by
  refine ⟨?_, fun setting levels reader known => ⟨fun inside owner entered => ?_, ?_⟩⟩
  · unfold parseGraph
    dsimp only
    rw [parseOutermostGraph_scoped]
    have production : ∀ setting, Read.Confined true (do
        Read.graphInto setting (model.newGraph none).1
        return (model.newGraph none).1) := fun setting =>
      (Read.confined_graphInto _).bind fun _ => .pure _
    have read := (follows_read { session with labels := session.labels.push }
      (model.newGraph none).2 form source production reachable.distinct.push).2
    have closed : LabelTable.Follows false _ session.labels _ := read.pop
    exact closed.restored reachable.distinct
  · exact (Read.confined_descriptor_level entered owner reader).restored known
  · exact (Read.confined_lambda_level setting levels reader).restored known

/-- A label of the session is promoted, and a reading that fails inside a definition in a
nested graph restores all else. -/
theorem restored_parseGraph_failed :
    let session : Session := { labels := ({} : LabelTable).bind "x" (.concept ⟨0⟩) }
    let model : Model := { concepts := #[{}] }
    session.labels.Reachable ∧
      LabelTable.Restored
        (session.parseGraph model .cgif "[C: ?x [D: *y [(lambda (E *z) [F: *z] ]]]]").model
        session.labels
        (session.parseGraph model .cgif
          "[C: ?x [D: *y [(lambda (E *z) [F: *z] ]]]]").session.labels :=
  have reachable := LabelTable.Reachable.empty.bind "x" (.concept ⟨0⟩)
  ⟨reachable, (restored_parseGraph _ _ _ _ reachable).1⟩

end Session

end ConceptualGraph
