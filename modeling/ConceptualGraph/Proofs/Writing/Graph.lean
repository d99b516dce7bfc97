/-
Module: ConceptualGraph.Proofs.Writing.Graph
Purpose: A graph is written with all graphs nested in it, whatever fails being reckoned with:
  nothing if no concept names another one, and else anything.
Main exports: Model.Complete, Model.Writing.complete, Write.items_ends, Write.items_achieves,
  Write.ensures_items, Session.fst_generateGraph
-/
import ConceptualGraph.Proofs.Model.Isomorphism
import ConceptualGraph.Proofs.Writing.Chain
import ConceptualGraph.Session

namespace ConceptualGraph

/-! ## What has been written to its end -/

namespace Model

/-- Whether everything in the outermost graph and in the graphs within it has been written,
once. -/
structure Complete (model : Model) (writer : Writer) : Prop where
  filled : ∀ graph, model.Within ⟨0⟩ graph → model.Filled writer graph
  once : writer.written.Nodup

variable {model : Model} {writer : Writer}

namespace Writing

variable (writing : model.Writing [⟨0⟩] writer)

include writing

/-- Where the outermost graph has been written to its end, every graph has been that has been
begun. -/
theorem filled_of_begun (filled : model.Filled writer ⟨0⟩) {graph : GraphId}
    (begun : model.Begun writer.order graph) : model.Filled writer graph := by
  rcases writing.filled graph begun with root | ended
  · rw [List.mem_singleton.mp root]
    exact filled
  · exact ended

/-- Then all graphs within the outermost one have been begun. -/
theorem complete (filled : model.Filled writer ⟨0⟩) : model.Complete writer := by
  have begun : ∀ graph, model.Within ⟨0⟩ graph → model.Begun writer.order graph := by
    intro graph within
    induction within with
    | root => exact .inl rfl
    | described within stands describes begun =>
        have ended := writing.filled_of_begun filled begun
        exact .inr ⟨_, ended.concepts _ stands, describes⟩
  exact ⟨fun graph within => writing.filled_of_begun filled (begun graph within), writing.once⟩

end Writing

end Model

/-! ## Whole graphs -/

namespace Write

variable {model : Model} {source form : Notation} {faults : GenerateError → Prop} {levels : Nat}
  {outer : List GraphId}

/-- A graph is written to its end with the graphs nested in it, where there are levels for all
of them. -/
theorem completes_graphItems (writable : model.Writable source faults)
    (enough : model.concepts.size < levels + outer.length) :
    model.Completes faults (graphItems model form levels) outer := by
  induction levels generalizing outer with
  | zero =>
      intro graph writer writing
      have few := writable.length_le_size writing.houses.nests
      omega
  | succ levels ih =>
      have deeper :
        ∀ graph, model.Completes faults (graphItems model form levels) (graph :: outer) :=
        fun graph => ih (by
          rw [List.length_cons]
          omega)
      cases form with
      | cgif => exact completes_bracketGraph writable deeper
      | linear => exact completes_linearGraph writable deeper

/-- There are levels for all graphs that are nested in one another. -/
theorem size_lt_levelBound (model : Model) : model.concepts.size < levelBound model := by
  unfold levelBound
  extract_lets types targets nodes
  have one : 1 ≤ types * (targets + 1) + 1 := Nat.le_add_left _ _
  have wide : nodes + 1 ≤ (types * (targets + 1) + 1) * (nodes + 1) :=
    Nat.le_mul_of_pos_left _ one
  have few : model.concepts.size ≤ nodes := Nat.le_add_right _ _
  omega

/-- The state in which a graph begins to be written in a new session. -/
def start : Writer where
  labels := ({} : LabelTable).push
  markers := {}

/-- At the start only the outermost graph is open. -/
theorem writing_start : model.Writing [⟨0⟩] start where
  houses :=
    { distinct := List.nodup_nil
      housed := fun _ member => absurd member List.not_mem_nil
      related := fun _ member => absurd member List.not_mem_nil
      wrapped := fun _ member => absurd member List.not_mem_nil
      begun := fun _ member => .inl (List.mem_singleton.mp member)
      nests := rfl }
  once := List.nodup_nil
  negations := fun _ member => absurd member List.not_mem_nil
  filled _ begun := begun.elim (fun root => .inl (root ▸ List.mem_singleton_self _))
    fun ⟨_, member, _⟩ => absurd member List.not_mem_nil
  unlabelled := fun _ member => absurd member List.not_mem_nil

theorem untouched_start {graph : GraphId} : model.Untouched start graph :=
  ⟨fun _ member => absurd member List.not_mem_nil, fun _ member => absurd member List.not_mem_nil⟩

/-- The outermost graph of a model is written with everything in it, unless a failure is met that
is reckoned with. -/
theorem items_ends (writable : model.Writable source faults) :
    Ends faults (items model form ⟨0⟩) start fun _ after =>
      model.Writing [⟨0⟩] after ∧ model.Filled after ⟨0⟩ :=
  (completes_graphItems writable (by
    simpa using size_lt_levelBound model) ⟨0⟩ start writing_start untouched_start).mono
      fun _ _ facts => ⟨facts.1, facts.2.1⟩

/-- Where no concept names another one, no failure is met at all. -/
theorem items_achieves (copyable : model.Copyable source form) :
    Achieves (items model form ⟨0⟩) start fun _ after =>
      model.Writing [⟨0⟩] after ∧ model.Filled after ⟨0⟩ :=
  ends_iff_achieves.mp (items_ends
    { toRooted := copyable.toRooted
      toTypesNamed := copyable.typesNamed
      cites := fun concept _ names => by
        rw [copyable.undefined concept] at names
        cases names })

/-- Where the outermost graph of a model is written, everything in it and in the graphs within it
is written, and nothing twice. -/
theorem ensures_items (rooted : model.Rooted source) (named : model.TypesNamed) :
    Ensures (items model form ⟨0⟩) start fun _ after =>
      model.Writing [⟨0⟩] after ∧ model.Complete after :=
  (ends_iff_ensures.mp (items_ends
    { toRooted := rooted
      toTypesNamed := named
      cites := fun _ _ _ => ⟨.inr trivial, trivial, trivial, fun _ => trivial⟩ })).mono
        fun _ _ facts => ⟨facts.1, facts.1.complete facts.2⟩

end Write

/-! ## Calls -/

namespace Session

variable {options : Options} {model : Model} {form : Notation} {graph : GraphId}

/-- What is written for a graph in a new session consists of its items. -/
theorem fst_generateGraph (options : Options) (model : Model) (form : Notation) (graph : GraphId) :
    ((withOptions options).generateGraph model form graph).1 =
      match Write.items model form graph Write.start with
      | .ok items _ => .ok (Phrase.join "\n" items).text
      | .error error _ => .error (.generate error) := by
  have same : (⟨(withOptions options).labels.push, (withOptions options).markers, [], []⟩ :
      Writer) = Write.start := rfl
  simp only [generateGraph, generateOutermostGraph, write, same, Write.graph, Bind.bind,
    EStateM.bind]
  cases Write.items model form graph Write.start <;> rfl

/-- A text that has been generated is that of the items of its graph, line by line. -/
theorem exists_of_generateGraph {written : String}
    (wrote : ((withOptions options).generateGraph model form graph).1 = .ok written) :
    ∃ items after, Write.items model form graph Write.start = .ok items after ∧
      written = (Phrase.join "\n" items).text := by
  rw [fst_generateGraph] at wrote
  split at wrote
  · next items after ran => exact ⟨items, after, ran, (Except.ok.inj wrote).symm⟩
  · cases wrote

/-- Generation fails only where writing the items of the graph does. -/
theorem exists_of_generateGraph_error {failure : Error}
    (failed : ((withOptions options).generateGraph model form graph).1 = .error failure) :
    ∃ error after, Write.items model form graph Write.start = .error error after ∧
      failure = .generate error := by
  rw [fst_generateGraph] at failed
  split at failed
  · cases failed
  · next error after ran => exact ⟨error, after, ran, (Except.error.inj failed).symm⟩

end Session

end ConceptualGraph
