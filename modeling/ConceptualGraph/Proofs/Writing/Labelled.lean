/-
Module: ConceptualGraph.Proofs.Writing.Labelled
Purpose: The plan of a graph asks for a label for every concept to which anything written later
  refers, so that no reference fails because a concept was written without one.
Main exports: Model.mem_designated_of_climbsTo, Model.Grounded.not_unreferred,
  Session.writable_parseGraph, Session.no_unlabelled_reference
-/
import ConceptualGraph.Proofs.Reading.Complete
import ConceptualGraph.Proofs.Reading.Grounded
import ConceptualGraph.Proofs.Writing.Graph

namespace ConceptualGraph

/-! ## Designators and plans -/

namespace Model

variable {model : Model} {source : Notation} {graph outer : GraphId} {concept target : ConceptId}

/-- A designator that is found is found among more levels. -/
theorem designated_mono {levels more : Nat} (le : levels ≤ more) (graph : GraphId) :
    model.designated levels graph ⊆ model.designated more graph := by
  induction levels generalizing more graph with
  | zero => exact List.nil_subset _
  | succ levels ih =>
      obtain ⟨more, rfl⟩ : ∃ rest, more = rest + 1 := ⟨more - 1, by omega⟩
      intro target named
      obtain ⟨concept, member, among⟩ := List.mem_flatMap.mp named
      refine List.mem_flatMap.mpr ⟨concept, member, ?_⟩
      rcases List.mem_append.mp among with here | further
      · exact List.mem_append_left _ here
      · refine List.mem_append_right _ ?_
        cases describes : model.descriptor? concept with
        | none =>
            rw [describes] at further
            cases further
        | some inner =>
            rw [describes] at further
            exact ih (Nat.le_of_succ_le_succ le) inner further

/-- A graph finds the designators of the graphs within it. -/
theorem mem_designated_of_climbsTo (listed : model.Listed)
    (described : ∀ graph owner, (model.graph graph).owner = some owner →
      model.descriptor? owner = some graph) {steps levels : Nat}
    (climbs : model.climbsTo outer steps graph = true)
    (named : target ∈ model.designated levels graph) :
    target ∈ model.designated (steps + levels) outer := by
  induction steps generalizing graph levels with
  | zero =>
      obtain rfl : graph = outer := by simpa [climbsTo] using climbs
      rwa [Nat.zero_add]
  | succ steps ih =>
      simp only [climbsTo, Bool.or_eq_true, beq_iff_eq, Option.any_eq_true] at climbs
      rcases climbs with rfl | ⟨next, parent, climbs⟩
      · exact designated_mono (Nat.le_add_left _ _) graph named
      · -- Seen from the next graph outwards, the designator lies one level deeper.
        obtain ⟨owner, owned, stands⟩ := Option.bind_eq_some_iff.mp parent
        have further : target ∈ model.designated (levels + 1) next := by
          refine List.mem_flatMap.mpr ⟨owner, (listed.mem_concepts next owner).mpr stands, ?_⟩
          rw [described graph owner owned]
          exact List.mem_append_right _ named
        have found := ih climbs further
        rwa [show steps + 1 + levels = steps + (levels + 1) by omega]

/-- A concept that a designator names may not stay without a label. -/
theorem Grounded.not_unreferred (grounded : model.Grounded) (listed : model.Listed)
    (described : ∀ graph owner, (model.graph graph).owner = some owner →
      model.descriptor? owner = some graph)
    (names : model.designates? concept = some target) : ¬model.Unreferred target := by
  obtain ⟨graph, stands, outer, here, visible, climbs⟩ := grounded concept target names
  have member := (listed.mem_concepts graph concept).mpr stands
  have made : graph.index < model.graphs.size := by
    by_contra outside
    rw [graph_of_le (Nat.le_of_not_lt outside)] at member
    cases member
  have named : target ∈ model.designated 1 graph :=
    List.mem_flatMap.mpr ⟨concept, member, List.mem_append_left _ (by simp [names])⟩
  have found : target ∈ model.designated (model.graphs.size + 1) outer :=
    designated_mono (by omega) outer (mem_designated_of_climbsTo listed described climbs named)
  intro unreferred
  obtain ⟨-, -, unnamed⟩ := Plan.needsLabel_eq_false.mp (unreferred.needless here visible).unneeded
  exact unnamed found

/-- Where nothing but the outermost graph is left over, every other graph describes its owner. -/
theorem Attached.descriptor?_of_owner {owner : ConceptId}
    (attached : model.Attached { graphs := [⟨0⟩] }) (rooted : model.Rooted source)
    (owned : (model.graph graph).owner = some owner) : model.descriptor? owner = some graph := by
  rcases attached.graphs graph (lt_of_owner owned) with root | ⟨concept, describes⟩
  · rw [List.mem_singleton.mp root, rooted.root] at owned
    cases owned
  · have same := (rooted.describedBy describes).owner.symm.trans owned
    rwa [← Option.some.inj same]

end Model

/-! ## Graphs that have been read -/

/-- Whether a failure does not come from a concept that was written without a label. -/
def GenerateError.Elsewhere (failure : GenerateError) : Prop :=
  ∀ concept, failure ≠ .unlabelledConcept concept

namespace Session

variable {form : Notation} {reading : Options} {source : String} {graph : GraphId}

/-- A graph that has been read without definitions can be written but for other failures. -/
theorem writable_parseGraph (free : Read.LambdaFree (Scan.ofText form source).tokens)
    (parsed : ((withOptions reading).parseGraph {} form source).result = .ok graph) :
    ((withOptions reading).parseGraph {} form source).model.Writable form
      GenerateError.Elsewhere := by
  have sound := sound_parseGraph parsed
  have rooted : ((withOptions reading).parseGraph {} form source).model.Rooted form :=
    ⟨sound.sound, sound.owner⟩
  have attached := attached_parseGraph free parsed
  obtain ⟨-, -, -, rfl, -⟩ := exists_of_parseGraph parsed
  refine ⟨rooted, typesNamed_parseGraph free parsed, fun concept target names => ?_⟩
  have referred := (grounded_parseGraph free parsed).not_unreferred rooted.sound.listed
    (fun _ _ owned => attached.descriptor?_of_owner rooted owned) names
  exact ⟨.inl referred, by simp [GenerateError.Elsewhere], by simp [GenerateError.Elsewhere],
    by simp [GenerateError.Elsewhere]⟩

/-- Plans ask for enough labels.  A reference to a concept that was written without a label always
fails; but in a graph that has been read from a text without definitions, however it is written,
no reference fails so. -/
theorem no_unlabelled_reference (free : Read.LambdaFree (Scan.ofText form source).tokens)
    (parsed : ((withOptions reading).parseGraph {} form source).result = .ok graph) :
    let model := ((withOptions reading).parseGraph {} form source).model
    (∀ concept writer, writer.emitted.lookup concept = some none →
      Write.reference model concept writer = .error (.unlabelledConcept concept) writer) ∧
    ∀ (writing : Options) (output : Notation) (concept : ConceptId),
      ((withOptions writing).generateGraph model output graph).1 ≠
        .error (.generate (.unlabelledConcept concept)) := by
  intro model
  refine ⟨fun concept writer unlabelled => ?_, fun writing output concept failed => ?_⟩
  · unfold Write.reference
    rw [bind_of_ok (rfl : (get : Write Writer) writer = .ok writer writer), unlabelled]
    rfl
  · have writable : model.Writable form GenerateError.Elsewhere := writable_parseGraph free parsed
    obtain ⟨-, -, -, rfl, -⟩ := exists_of_parseGraph parsed
    obtain ⟨error, after, ran, same⟩ := exists_of_generateGraph_error failed
    exact (Write.items_ends writable).of_error ran concept (Error.generate.inj same).symm

/-- Concepts that are referred to twice by a relation, by a relation of three arguments, by a
designator in a nested graph, inside a negation, and by an actor after all else. -/
theorem no_unlabelled_reference_mixed :
    let source := "[A: *x] (R ?x ?x) (T [B] [C: *c] [D: *d ?x]) (S [E] ?c) [P: [Q: *q ?c]]
      ~[(U ?d [V: *v ?x])] <W ?x | [Y: *y]> [Z: *z ?y]"
    let model := ((withOptions {}).parseGraph {} .cgif source).model
    Read.LambdaFree (Scan.ofText .cgif source).tokens ∧
      ((withOptions {}).parseGraph {} .cgif source).result = .ok ⟨0⟩ ∧
      ∀ concept, ((withOptions {}).generateGraph model .linear ⟨0⟩).1 ≠
        .error (.generate (.unlabelledConcept concept)) := by
  intro source model
  have free : Read.LambdaFree (Scan.ofText .cgif source).tokens := by
    unfold Read.LambdaFree
    decide +kernel
  have parsed : ((withOptions {}).parseGraph {} .cgif source).result = .ok ⟨0⟩ := by decide +kernel
  exact ⟨free, parsed, fun concept => (no_unlabelled_reference free parsed).2 {} .linear concept⟩

end Session

end ConceptualGraph
