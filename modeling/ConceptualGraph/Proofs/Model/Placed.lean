/-
Module: ConceptualGraph.Proofs.Model.Placed
Purpose: A node stands in the graph into which it was put last, and every graph into which it was
  put at any time lists it; the two agree exactly if no node is put into a second graph.
Main exports: Model.Node, Model.Call.Orderly, Model.Runs, Model.PutOnce, Model.agreement_of_runs
-/
import ConceptualGraph.Proofs.Model.Mutual
import ConceptualGraph.Proofs.Reading.Moves
import ConceptualGraph.Proofs.Reading.Valence

namespace ConceptualGraph.Model

variable {model : Model} {graph : GraphId} {call : Call} {calls : List Call}

/-! ## Nodes -/

/-- What a graph lists: a concept or a relation. -/
inductive Node where
  | concept (id : ConceptId)
  | relation (id : RelationId)
  deriving DecidableEq, Repr

namespace Node

/-- The graph in which a node says that it stands. -/
def home? (model : Model) : Node → Option GraphId
  | .concept id => (model.concept id).graph
  | .relation id => (model.relation id).graph

/-- Whether a graph lists a node. -/
def IsListed (model : Model) (graph : GraphId) : Node → Prop
  | .concept id => id ∈ (model.graph graph).concepts
  | .relation id => id ∈ (model.graph graph).relations

/-- The call that puts a node into a graph. -/
def put (graph : GraphId) : Node → Call
  | .concept id => .addConcept graph id
  | .relation id => .addRelation graph id

end Node

/-! ## One call -/

namespace Call

/-- The graph into which a call puts a node. -/
def puts? (node : Node) : Call → Option GraphId
  | .addConcept graph id => if node = .concept id then some graph else none
  | .addRelation graph id => if node = .relation id then some graph else none
  | _ => none

theorem puts?_eq_some_iff {node : Node} : call.puts? node = some graph ↔ call = node.put graph := by
  cases call <;> cases node <;> grind [puts?, Node.put]

/-- What a call is to observe: the nodes and graphs among which it puts something are there, and
where a node stands is not written directly. -/
def Orderly (model : Model) : Call → Prop
  | .addConcept graph id => graph.index < model.graphs.size ∧ id.index < model.concepts.size
  | .addRelation graph id => graph.index < model.graphs.size ∧ id.index < model.relations.size
  | .editConcept _ change => ∀ data, (change data).graph = data.graph
  | .editRelation _ change => ∀ data, (change data).graph = data.graph
  | _ => True

end Call

/-- Two arenas have their nodes in the same graphs. -/
structure SamePlaces (model later : Model) : Prop where
  home : ∀ node : Node, node.home? later = node.home? model
  listed : ∀ (node : Node) (graph : GraphId), node.IsListed later graph ↔ node.IsListed model graph

namespace SamePlaces

variable {later : Model}

theorem refl (model : Model) : model.SamePlaces model :=
  ⟨fun _ => rfl, fun _ _ => Iff.rfl⟩

/-- What leaves alone where nodes stand and what graphs list. -/
theorem of_eq (concept : ∀ id, (later.concept id).graph = (model.concept id).graph)
    (relation : ∀ id, (later.relation id).graph = (model.relation id).graph)
    (concepts : ∀ graph, (later.graph graph).concepts = (model.graph graph).concepts)
    (relations : ∀ graph, (later.graph graph).relations = (model.graph graph).relations) :
    model.SamePlaces later where
  home node :=
    match node with
    | .concept id => concept id
    | .relation id => relation id
  listed node graph :=
    match node with
    | .concept id => by rw [Node.IsListed, concepts, Node.IsListed]
    | .relation id => by rw [Node.IsListed, relations, Node.IsListed]

/-- A graph that is made has no nodes. -/
theorem newGraph (owner : Option ConceptId) : model.SamePlaces (model.newGraph owner).2 := by
  have listed (graph : GraphId) :
      ((model.newGraph owner).2.graph graph).concepts = (model.graph graph).concepts ∧
        ((model.newGraph owner).2.graph graph).relations = (model.graph graph).relations := by
    rw [graph_newGraph_eq]
    split
    · next new =>
      rw [graph_of_le (Nat.le_of_eq new.symm)]
      exact ⟨rfl, rfl⟩
    · exact ⟨rfl, rfl⟩
  exact of_eq (fun _ => rfl) (fun _ => rfl) (fun graph => (listed graph).1)
    fun graph => (listed graph).2

theorem newConcept (type : Option ConceptType) : model.SamePlaces (model.newConcept type).2 := by
  refine of_eq (fun id => ?_) (fun _ => rfl) (fun _ => rfl) fun _ => rfl
  rw [concept_newConcept_eq]
  split
  · next new => rw [concept_of_le (Nat.le_of_eq new.symm)]; rfl
  · rfl

/-- A relation that is made stands nowhere yet. -/
theorem newRelation (type : Option RelationType) (args : List ConceptId) (role : RelationRole) :
    model.SamePlaces (model.newRelation type args role).2 := by
  refine of_eq (fun _ => rfl) (fun id => ?_) (fun _ => rfl) fun _ => rfl
  have made : (model.newRelation type args role).2.relation id = _ := relation_drafted id
  rw [made]
  split
  · next new => rw [relation_of_le (Nat.le_of_eq new.symm)]; rfl
  · rfl

theorem modifyGraph {id : GraphId} {change : Graph → Graph}
    (concepts : ∀ data, (change data).concepts = data.concepts)
    (relations : ∀ data, (change data).relations = data.relations) :
    model.SamePlaces (model.modifyGraph id change) :=
  of_eq (fun _ => rfl) (fun _ => rfl) (field_modifyGraph model id Graph.concepts concepts)
    (field_modifyGraph model id Graph.relations relations)

theorem modifyConcept {id : ConceptId} {change : Concept → Concept}
    (graph : ∀ data, (change data).graph = data.graph) :
    model.SamePlaces (model.modifyConcept id change) :=
  of_eq (field_modifyConcept model id Concept.graph graph) (fun _ => rfl) (fun _ => rfl)
    fun _ => rfl

theorem modifyRelation {id : RelationId} {change : Relation → Relation}
    (graph : ∀ data, (change data).graph = data.graph) :
    model.SamePlaces (model.modifyRelation id change) :=
  of_eq (fun _ => rfl) (field_modifyRelation model id Relation.graph graph) (fun _ => rfl)
    fun _ => rfl

theorem trans {last : Model} (first : model.SamePlaces later) (second : later.SamePlaces last) :
    model.SamePlaces last :=
  ⟨fun node => (second.home node).trans (first.home node),
    fun node graph => (second.listed node graph).trans (first.listed node graph)⟩

theorem setReferent (concept : ConceptId) (referent : Referent) :
    model.SamePlaces (model.setReferent concept referent) := by
  unfold Model.setReferent
  dsimp only
  split
  · apply (modifyGraph _ _).trans (modifyConcept _) <;> exact fun _ => rfl
  · exact modifyConcept fun _ => rfl

theorem newCorefSet (defining : ConceptId) :
    model.SamePlaces (model.newCorefSet defining).2 :=
  of_eq (field_modifyConcept _ defining Concept.graph fun _ => rfl) (fun _ => rfl) (fun _ => rfl)
    fun _ => rfl

/-- A member that is added moves nothing, and neither does one that is refused. -/
theorem addToCorefSet (set : CorefSetId) (concept : ConceptId) :
    model.SamePlaces ((Call.addToCorefSet set concept).after model) := by
  rw [Call.after_addToCorefSet]
  cases added : model.addToCorefSet set concept with
  | error error => exact refl model
  | ok later =>
      rcases eq_of_addToCorefSet added with ⟨-, rfl⟩ | ⟨-, rfl⟩
      · exact refl later
      · exact of_eq (field_modifyConcept _ concept Concept.graph fun _ => rfl) (fun _ => rfl)
          (fun _ => rfl) fun _ => rfl

end SamePlaces

/-- Where nodes stand after one of them has been put somewhere. -/
structure Puts (model : Model) (node : Node) (graph : GraphId) (later : Model) : Prop where
  home : ∀ other : Node,
    other.home? later = if other = node then some graph else other.home? model
  listed : ∀ (other : Node) (place : GraphId),
    other.IsListed later place ↔ other = node ∧ place = graph ∨ other.IsListed model place

/-- A concept that is added is put there, wherever it stood before. -/
theorem puts_addConcept {id : ConceptId} (within : graph.index < model.graphs.size)
    (inside : id.index < model.concepts.size) :
    model.Puts (.concept id) graph (model.addConcept graph id) where
  home other := by
    cases other with
    | relation other => rfl
    | concept other =>
        by_cases here : other = id
        · subst here
          rw [if_pos rfl]
          exact graph_addConcept inside
        · rw [if_neg (by simpa using here)]
          exact congrArg Concept.graph (concept_modifyConcept_of_ne here)
  listed other place := by
    by_cases there : place = graph
    · subst there
      have changed : (model.addConcept place id).graph place = _ :=
        graph_modifyGraph (by exact within)
      cases other <;> simp [Node.IsListed, changed, mem_appendNew]
    · have same : (model.addConcept graph id).graph place = _ := graph_modifyGraph_of_ne there
      cases other <;> simp [Node.IsListed, same, there]

/-- A relation that is added is put there, wherever it stood before. -/
theorem puts_addRelation {id : RelationId} (within : graph.index < model.graphs.size)
    (inside : id.index < model.relations.size) :
    model.Puts (.relation id) graph (model.addRelation graph id) where
  home other := by
    cases other with
    | concept other => rfl
    | relation other =>
        by_cases here : other = id
        · subst here
          rw [if_pos rfl]
          exact congrArg Relation.graph (relation_modifyRelation inside)
        · rw [if_neg (by simpa using here)]
          exact congrArg Relation.graph (relation_modifyRelation_of_ne here)
  listed other place := by
    by_cases there : place = graph
    · subst there
      have changed : (model.addRelation place id).graph place = _ :=
        graph_modifyGraph (by exact within)
      cases other <;> simp [Node.IsListed, changed, mem_appendNew]
    · have same : (model.addRelation graph id).graph place = _ := graph_modifyGraph_of_ne there
      cases other <;> simp [Node.IsListed, same, there]

/-- A call puts a node somewhere, or else leaves every node where it is. -/
theorem Call.puts_or_samePlaces (orderly : call.Orderly model) :
    (∃ node graph, call = node.put graph ∧ model.Puts node graph (call.after model)) ∨
      (∀ node, call.puts? node = none) ∧ model.SamePlaces (call.after model) := by
  cases call with
  | addConcept graph id => exact .inl ⟨.concept id, graph, rfl, puts_addConcept orderly.1 orderly.2⟩
  | addRelation graph id =>
      exact .inl ⟨.relation id, graph, rfl, puts_addRelation orderly.1 orderly.2⟩
  | newGraph owner => exact .inr ⟨fun _ => rfl, .newGraph owner⟩
  | newConcept type => exact .inr ⟨fun _ => rfl, .newConcept type⟩
  | newRelation type args role => exact .inr ⟨fun _ => rfl, .newRelation type args role⟩
  | addComment graph comment =>
      exact .inr ⟨fun _ => rfl, .modifyGraph (fun _ => rfl) fun _ => rfl⟩
  | setReferent concept referent => exact .inr ⟨fun _ => rfl, .setReferent concept referent⟩
  | editConcept concept change => exact .inr ⟨fun _ => rfl, .modifyConcept orderly⟩
  | editRelation relation change => exact .inr ⟨fun _ => rfl, .modifyRelation orderly⟩
  | newCorefSet defining =>
      rw [Call.after_newCorefSet]
      exact .inr ⟨fun _ => rfl, .newCorefSet defining⟩
  | addToCorefSet set concept => exact .inr ⟨fun _ => rfl, .addToCorefSet set concept⟩
  | newMarker | editHierarchy =>
      exact .inr ⟨fun _ => rfl, .of_eq (fun _ => rfl) (fun _ => rfl) (fun _ => rfl) fun _ => rfl⟩

/-- The place of a node after a call: where the call has put it, else where it was before. -/
theorem Call.home?_after (orderly : call.Orderly model) (node : Node) :
    node.home? (call.after model) = (call.puts? node).or (node.home? model) := by
  rcases Call.puts_or_samePlaces orderly with ⟨placed, graph, rfl, puts⟩ | ⟨none, same⟩
  · rw [puts.home]
    by_cases here : node = placed
    · subst here
      rw [if_pos rfl, Call.puts?_eq_some_iff.mpr rfl, Option.some_or]
    · have apart : (placed.put graph).puts? node = none := by
        cases placed <;> simpa [Node.put, puts?] using here
      rw [if_neg here, apart, Option.none_or]
  · rw [same.home, none, Option.none_or]

/-- The graphs that list a node after a call: the one into which the call has put it, and those
before. -/
theorem Call.isListed_after (orderly : call.Orderly model) (node : Node) (graph : GraphId) :
    node.IsListed (call.after model) graph ↔
      call = node.put graph ∨ node.IsListed model graph := by
  rcases Call.puts_or_samePlaces orderly with ⟨placed, place, rfl, puts⟩ | ⟨none, same⟩
  · rw [puts.listed]
    cases placed <;> cases node <;> simp [Node.put, eq_comm, and_comm]
  · rw [same.listed, ← Call.puts?_eq_some_iff, none]
    simp

/-! ## A run -/

/-- What a list of calls leads to from an arena in which there is nothing yet. -/
inductive Runs : List Call → Model → Prop
  | start (hierarchy : Hierarchy) : Runs [] { hierarchy }
  | call {calls : List Call} {model : Model} (call : Call) (orderly : call.Orderly model)
      (runs : Runs calls model) : Runs (calls ++ [call]) (call.after model)

/-- The graphs into which calls have put a node, in the order of the calls. -/
def homes (calls : List Call) (node : Node) : List GraphId :=
  calls.filterMap (Call.puts? node)

theorem mem_homes {node : Node} : graph ∈ homes calls node ↔ node.put graph ∈ calls := by
  simp [homes, Call.puts?_eq_some_iff]

/-- A node stands in the graph into which it was put last. -/
theorem Runs.home? (runs : Runs calls model) (node : Node) :
    node.home? model = (homes calls node).getLast? := by
  induction runs with
  | start hierarchy => cases node <;> rfl
  | @call calls model call orderly runs ih =>
      rw [Call.home?_after orderly, ih, homes, homes, List.filterMap_append, List.getLast?_append]
      cases put : call.puts? node <;> simp [put]

/-- Every graph into which a node was put lists it, and no other one does. -/
theorem Runs.isListed (runs : Runs calls model) (node : Node) (graph : GraphId) :
    node.IsListed model graph ↔ node.put graph ∈ calls := by
  induction runs with
  | start hierarchy => cases node <;> exact iff_of_false List.not_mem_nil List.not_mem_nil
  | call call orderly runs ih =>
      rw [Call.isListed_after orderly, ih, List.mem_append, List.mem_singleton, or_comm, eq_comm]

/-- No node is put into two different graphs; it may be put into one of them again. -/
structure PutOnce (calls : List Call) : Prop where
  concepts : ∀ (concept : ConceptId) (graph other : GraphId),
    .addConcept graph concept ∈ calls → .addConcept other concept ∈ calls → graph = other
  relations : ∀ (relation : RelationId) (graph other : GraphId),
    .addRelation graph relation ∈ calls → .addRelation other relation ∈ calls → graph = other

/-- Where a node stands and what lists it agree exactly if it is put into one graph only. -/
theorem Runs.agrees_iff (runs : Runs calls model) (node : Node) :
    (∀ graph, node.home? model = some graph ↔ node.IsListed model graph) ↔
      ∀ graph other, node.put graph ∈ calls → node.put other ∈ calls → graph = other := by
  simp only [runs.home?, runs.isListed, ← mem_homes]
  constructor
  · intro agrees graph other here there
    exact Option.some.inj (((agrees graph).mpr here).symm.trans ((agrees other).mpr there))
  · intro once graph
    constructor
    · exact List.mem_of_getLast?
    · intro here
      have ends := List.getLast?_eq_some_getLast (List.ne_nil_of_mem here)
      rw [ends, once _ graph (List.mem_of_getLast? ends) here]

/-- What a node says of where it stands is what the graphs say. -/
structure Agrees (model : Model) : Prop where
  concepts : ∀ (graph : GraphId) (concept : ConceptId),
    model.encloses graph concept = true ↔ concept ∈ (model.graph graph).concepts
  relations : ∀ (graph : GraphId) (relation : RelationId),
    (model.relation relation).graph = some graph ↔ relation ∈ (model.graph graph).relations

/-- No node is listed by two graphs. -/
structure Apart (model : Model) : Prop where
  concepts : ∀ (concept : ConceptId) (graph other : GraphId),
    concept ∈ (model.graph graph).concepts → concept ∈ (model.graph other).concepts → graph = other
  relations : ∀ (relation : RelationId) (graph other : GraphId),
    relation ∈ (model.graph graph).relations → relation ∈ (model.graph other).relations →
      graph = other

theorem encloses_iff {concept : ConceptId} :
    model.encloses graph concept = true ↔ (Node.concept concept).home? model = some graph :=
  beq_iff_eq

/-- Lists and back-links agree exactly where every node has been put somewhere at most once. -/
theorem Runs.agrees_iff_putOnce (runs : Runs calls model) : model.Agrees ↔ PutOnce calls := by
  constructor
  · intro agrees
    constructor
    · intro concept
      apply (runs.agrees_iff (.concept concept)).mp
      exact fun graph => encloses_iff.symm.trans (agrees.concepts graph concept)
    · intro relation
      apply (runs.agrees_iff (.relation relation)).mp
      exact fun graph => agrees.relations graph relation
  · intro once
    constructor
    · intro graph concept
      rw [encloses_iff]
      exact (runs.agrees_iff (.concept concept)).mpr (once.concepts concept) graph
    · intro graph relation
      exact (runs.agrees_iff (.relation relation)).mpr (once.relations relation) graph

/-- No node stands in two graphs exactly where every node has been put somewhere at most once. -/
theorem Runs.apart_iff_putOnce (runs : Runs calls model) : model.Apart ↔ PutOnce calls := by
  have concepts (concept : ConceptId) (graph : GraphId) :
      concept ∈ (model.graph graph).concepts ↔ .addConcept graph concept ∈ calls :=
    runs.isListed (.concept concept) graph
  have relations (relation : RelationId) (graph : GraphId) :
      relation ∈ (model.graph graph).relations ↔ .addRelation graph relation ∈ calls :=
    runs.isListed (.relation relation) graph
  constructor
  · intro apart
    constructor
    · simpa only [concepts] using apart.concepts
    · simpa only [relations] using apart.relations
  · intro once
    constructor
    · simpa only [concepts] using once.concepts
    · simpa only [relations] using once.relations

/-- After any calls each concept and each relation stands where a graph lists it and is listed by
one graph only, exactly if none of them has been put into two different graphs.  One that has been
stands in the graph into which it was put last, and the former one lists it still. -/
theorem agreement_of_runs (runs : Runs calls model) :
    (∀ graph concept, model.encloses graph concept = true ↔
      (homes calls (.concept concept)).getLast? = some graph) ∧
    (∀ graph concept, concept ∈ (model.graph graph).concepts ↔
      .addConcept graph concept ∈ calls) ∧
    (∀ graph relation, (model.relation relation).graph = some graph ↔
      (homes calls (.relation relation)).getLast? = some graph) ∧
    (∀ graph relation, relation ∈ (model.graph graph).relations ↔
      .addRelation graph relation ∈ calls) ∧
    (model.Agrees ↔ PutOnce calls) ∧ (model.Apart ↔ PutOnce calls) := by
  refine ⟨fun graph concept => ?_, fun graph concept => runs.isListed (.concept concept) graph,
    fun graph relation => ?_, fun graph relation => runs.isListed (.relation relation) graph,
    runs.agrees_iff_putOnce, runs.apart_iff_putOnce⟩
  · rw [encloses_iff, runs.home?]
  · rw [← runs.home? (.relation relation)]
    rfl

/-- A concept is put into its graph a second time, and a relation into another graph. -/
theorem agreement_of_runs_again :
    let calls : List Call := [.newGraph none, .newGraph none, .newConcept none,
      .addConcept ⟨0⟩ ⟨0⟩, .newRelation none [⟨0⟩] .relation, .addRelation ⟨1⟩ ⟨0⟩,
      .setReferent ⟨0⟩ { descriptor := some ⟨1⟩ }, .addConcept ⟨0⟩ ⟨0⟩]
    let model : Model := calls.foldl (fun model call => call.after model) {}
    Runs calls model ∧ PutOnce calls ∧ model.Agrees ∧ model.Apart ∧
      model.encloses ⟨0⟩ ⟨0⟩ = true ∧ (model.graph ⟨0⟩).concepts = [⟨0⟩] ∧
      (model.relation ⟨0⟩).graph = some ⟨1⟩ ∧ (model.graph ⟨1⟩).relations = [⟨0⟩] := by
  intro calls model
  have made := ((Runs.start {}).call (.newGraph none) trivial).call (.newGraph none) trivial
  have put := (made.call (.newConcept none) trivial).call (.addConcept ⟨0⟩ ⟨0⟩)
    ⟨by decide, by decide⟩
  have related := (put.call (.newRelation none [⟨0⟩] .relation) trivial).call
    (.addRelation ⟨1⟩ ⟨0⟩) ⟨by decide, by decide⟩
  have runs : Runs calls model :=
    (related.call (.setReferent ⟨0⟩ { descriptor := some ⟨1⟩ }) trivial).call
      (.addConcept ⟨0⟩ ⟨0⟩) ⟨by decide, by decide⟩
  have once : PutOnce calls := by
    constructor <;> intro node graph other here there <;> simp [calls] at here there <;>
      rw [here.1, there.1]
  obtain ⟨-, -, -, -, agrees, apart⟩ := agreement_of_runs runs
  exact ⟨runs, once, agrees.mpr once, apart.mpr once, by decide +kernel⟩

/-- A concept is put into one graph and then into another one: it stands in the second, and both
list it. -/
theorem listed_by_former_graph :
    let calls : List Call := [.newGraph none, .newGraph none, .newConcept none,
      .addConcept ⟨0⟩ ⟨0⟩, .addConcept ⟨1⟩ ⟨0⟩]
    let model : Model := calls.foldl (fun model call => call.after model) {}
    Runs calls model ∧ model.encloses ⟨0⟩ ⟨0⟩ = false ∧ model.encloses ⟨1⟩ ⟨0⟩ = true ∧
      (model.graph ⟨0⟩).concepts = [⟨0⟩] ∧ (model.graph ⟨1⟩).concepts = [⟨0⟩] ∧
      ¬ model.Agrees ∧ ¬ model.Apart := by
  intro calls model
  have made := ((Runs.start {}).call (.newGraph none) trivial).call (.newGraph none) trivial
  have put := (made.call (.newConcept none) trivial).call (.addConcept ⟨0⟩ ⟨0⟩)
    ⟨by decide, by decide⟩
  have runs : Runs calls model := put.call (.addConcept ⟨1⟩ ⟨0⟩) ⟨by decide, by decide⟩
  have left : model.encloses ⟨0⟩ ⟨0⟩ = false := by decide +kernel
  have former : (model.graph ⟨0⟩).concepts = [⟨0⟩] := by decide +kernel
  have latter : (model.graph ⟨1⟩).concepts = [⟨0⟩] := by decide +kernel
  refine ⟨runs, left, by decide +kernel, former, latter, fun agrees => ?_, fun apart => ?_⟩
  · have stands := (agrees.concepts ⟨0⟩ ⟨0⟩).mpr (by simp [former])
    rw [left] at stands
    cases stands
  · have same := apart.concepts ⟨0⟩ ⟨0⟩ ⟨1⟩ (by simp [former]) (by simp [latter])
    cases same

end ConceptualGraph.Model
