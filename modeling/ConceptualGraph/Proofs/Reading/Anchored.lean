/-
Module: ConceptualGraph.Proofs.Reading.Anchored
Purpose: A concept of the graph that is being read may always join the coreference set of a label,
  and so two errors are never given.
Main exports: Juncture.Refused.not_coreference, Session.sheltered_reader,
  Session.no_internal_failure
-/
import ConceptualGraph.Proofs.Reading.Hierarchy
import ConceptualGraph.Proofs.Reading.Whole

namespace ConceptualGraph

namespace Juncture

variable {setting : Setting} {juncture later : Juncture}

/-- A concept of the graph that is being read may join the set of any label. -/
theorem Refused.not_coreference {error : Error} (sheltered : juncture.Sheltered)
    (refused : juncture.Refused setting error) {fault : ParseFault} {found : Located}
    (parse : error = .parse ⟨fault, found⟩) : fault.kind ≠ .coreference := by
  cases refused with
  | fault otherwise =>
      cases parse
      exact otherwise
  | @coreference home homes reader label set concept cause found denotes seated refused =>
      obtain ⟨distinct, shelters⟩ := sheltered
      cases home with
      | none => cases shelters
      | some home =>
          have bound := (LabelTable.target?_eq_some_iff distinct).mp denotes
          have ⟨_, anchors⟩ := shelters.anchored _ bound
          have within := anchors.inScope (seated home rfl) shelters.made
          simp [Model.addToCorefSet, within] at refused
          split at refused <;> cases refused
  | conceptType | relationType => cases parse

end Juncture

/-! ## Calls -/

namespace Session

variable {options : Options} {model : Model} {form : Notation} {source : String} {stop : Position}

/-- A session without labels begins to read a graph where nothing is bound. -/
theorem sheltered_reader :
    Juncture.Sheltered ⟨[some (model.newGraph none).1],
      (Session.withOptions options).reader model form source stop⟩ where
  distinct := List.nodup_nil
  shelters := by
    have level : (model.newGraph none).2.Shelters [some (model.newGraph none).1]
        ([] ++ .boundary :: []) :=
      .level (by simp) List.not_mem_nil nofun .outside
    exact level

/-- What a session without labels reads never leads to a concept that may not join the set of its
label, unless the text defines a type. -/
theorem not_coreference_parseGraph
    (free : Read.DefinitionFree (Scan.ofText form source).tokens) {fault : ParseFault}
    {found : Located}
    (failed : ((Session.withOptions options).parseGraph model form source).result =
      .error (.parse ⟨fault, found⟩)) : fault.kind ≠ .coreference := by
  cases scanned : (Scan.ofText form source).stop with
  | error error =>
      simp [parseGraph, parseOutermostGraph, read, scanned] at failed
  | ok stop =>
      cases ran : Read.graphInto ⟨form, options⟩ (model.newGraph none).1
          ((Session.withOptions options).reader model form source stop) with
      | ok _ later =>
          rw [parseGraph_of_ok scanned ran] at failed
          cases failed
      | error error later =>
          rw [parseGraph_of_error scanned ran] at failed
          have traced (reader : Reader) : Read.Traced ⟨form, options⟩ False
              [some (model.newGraph none).1] _ reader fun _ _ => True := Read.traced_graphInto _
          obtain ⟨stuck, path, refused, _⟩ :=
            (traced _).of_error (fun _ => ⟨sheltered_reader, free⟩) ran
          exact refused.not_coreference (path.sheltered id sheltered_reader)
            (Except.error.inj failed)

/-- Two errors are never given.  Whatever a call reads, it does not fail for a reason that lies in
the hierarchy alone; and where a session without labels reads a graph, whose text defines no type,
no concept is refused as a member of a coreference set. -/
theorem no_internal_failure :
    (∀ (session : Session) (model later : Model) (form : Notation) (failure : Option Error)
        (cause : HierarchyError), model.hierarchy.concepts.Reached →
        model.hierarchy.relations.Reached → session.Parsed model form later failure →
        failure ≠ some (.hierarchy cause)) ∧
      ∀ (options : Options) (model : Model) (form : Notation) (source : String),
        Read.DefinitionFree (Scan.ofText form source).tokens → ∀ fault found,
        ((Session.withOptions options).parseGraph model form source).result =
          .error (.parse ⟨fault, found⟩) → fault.kind ≠ .coreference := by
  refine ⟨fun session model later form failure cause concepts relations parsed => ?_,
    fun options model form source free fault found => not_coreference_parseGraph free⟩
  exact (ordered_of_parsed parsed ⟨concepts.ordered, relations.ordered⟩).2.2 cause

/-- A text that joins a coreference set inside a nested graph, makes a relation type and fails. -/
theorem no_internal_failure_nested :
    let source := "[Cat: *x] [Belief: [Cat: ?x] (On ?x [Mat] #)]"
    let reading := (Session.withOptions {}).parseGraph {} .cgif source
    let found : Located := ⟨.marker none, ⟨⟨1, 43⟩, ⟨1, 44⟩⟩⟩
    reading.model.corefSets.size = 1 ∧ reading.model.hierarchy.relations.size = 3 ∧
      Read.DefinitionFree (Scan.ofText .cgif source).tokens ∧
      Call.graph.failure? (.withOptions {}) {} .cgif source ≠
        some (.hierarchy (.duplicateLabel "On")) ∧
      reading.result = .error (.parse ⟨.expected .relationClosing, found⟩) ∧
      (ParseFault.expected .relationClosing).kind ≠ .coreference := by
  intro source reading found
  have free : Read.DefinitionFree (Scan.ofText .cgif source).tokens := by decide +kernel
  have failed : reading.result = .error (.parse ⟨.expected .relationClosing, found⟩) := by
    decide +kernel
  refine ⟨by decide +kernel, by decide +kernel, free, ?_, failed, ?_⟩
  · exact no_internal_failure.1 _ _ _ _ _ _ (.start "Universal" "Absurd")
      (.start "Link" "AbsurdLink") (.text .graph source)
  · exact no_internal_failure.2 {} {} .cgif source free _ _ failed

end Session

end ConceptualGraph
