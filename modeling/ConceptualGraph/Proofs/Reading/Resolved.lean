/-
Module: ConceptualGraph.Proofs.Reading.Resolved
Purpose: A bound label is resolved to a concept of the graph in which it is an argument, one that is
  there or else a new one, and to the same concept for as long as it is bound.
Main exports: Model.Makes, Reader.IsPresent, Read.resolve_of_missing, Read.standsFor_of_resolve,
  Read.resolve_of_underway
-/
import ConceptualGraph.Proofs.Reading.Settled

section

open Relation (ReflTransGen)

namespace ConceptualGraph

/-- Whether one of the concepts that a label denotes stands in a graph. -/
def Reader.IsPresent (reader : Reader) (label : String) (graph : GraphId) : Prop :=
  ∃ concept, reader.Denotes label concept ∧ reader.model.encloses graph concept = true

/-! ## A concept that is made -/

namespace Model

variable {model later : Model}

/-- A concept has been made, of a type and in a graph, and the others stand where they stood. -/
structure Makes (model : Model) (type : Option ConceptType) (graph : GraphId) (later : Model) :
    Prop where
  size : later.concepts.size = model.concepts.size + 1
  type : (later.concept ⟨model.concepts.size⟩).type = type
  stands : (later.concept ⟨model.concepts.size⟩).graph = some graph
  others : ∀ id : ConceptId, id ≠ ⟨model.concepts.size⟩ →
    (later.concept id).graph = (model.concept id).graph

/-- What makes a concept still does so after the sets have changed. -/
theorem Makes.of_same {middle : Model} {type : Option ConceptType} {graph : GraphId}
    (makes : model.Makes type graph middle) (same : middle.SameButSets later) :
    model.Makes type graph later where
  size := same.size.trans makes.size
  type := (same.field Concept.type (fun _ => rfl) _).trans makes.type
  stands := (same.field Concept.graph (fun _ => rfl) _).trans makes.stands
  others id apart := (same.field Concept.graph (fun _ => rfl) id).trans (makes.others id apart)

end Model

/-! ## Resolving a label -/

namespace Read

variable {reader later : Reader} {label : String} {graph : GraphId} {concept : ConceptId}
  {target : Target} {found : Located}

/-- A label that is bound has a defining concept. -/
theorem definingConcept?_eq (denotes : reader.labels.target? label = some target) :
    definingConcept? label reader = .ok (some (target.defining reader.model)) reader := by
  unfold definingConcept?
  rw [bind_of_ok (rfl : labels reader = .ok reader.labels reader), denotes]
  cases target <;> rfl

/-- The first of the concepts that a label denotes is looked for. -/
theorem representative?_eq (denotes : reader.labels.target? label = some target) :
    representative? label (target.defining reader.model) graph reader =
      .ok ((target.concepts reader.model).find? (reader.model.encloses graph)) reader := by
  unfold representative? Target.concepts
  rw [bind_of_ok (rfl : model reader = .ok reader.model reader), List.find?_cons]
  cases here : reader.model.encloses graph (target.defining reader.model) with
  | true => rfl
  | false =>
      simp only [Bool.false_eq_true, if_false, LabelTable.set?, denotes,
        bind_of_ok (rfl : labels reader = .ok reader.labels reader)]
      cases target <;> rfl

/-- The state in which a label denotes a coreference set, with the set. -/
def seated (reader : Reader) (label : String) : Target → CorefSetId × Reader
  | .set id => (id, reader)
  | .concept id =>
      ((reader.model.newCorefSet id).1,
        (reader.withModel (reader.model.newCorefSet id).2).withLabels
          (reader.labels.bind label (.set (reader.model.newCorefSet id).1)))

/-- A label that is bound has a set, which is made if there is none yet. -/
theorem setFor_eq (denotes : reader.labels.target? label = some target) :
    setFor found label reader =
      .ok (seated reader label target).1 (seated reader label target).2 := by
  unfold setFor
  rw [bind_of_ok (rfl : labels reader = .ok reader.labels reader), denotes]
  cases target <;> rfl

/-- A concept joins the set of a label, which is promoted first if it is not one yet. -/
theorem join_eq (denotes : reader.labels.target? label = some target) :
    join found label concept reader =
      let (set, middle) := seated reader label target
      match middle.model.addToCorefSet set concept with
      | .ok model => .ok () (middle.withModel model)
      | .error cause => .error (.parse ⟨.outsideCoreference label cause, found⟩) middle := by
  unfold join
  rw [bind_of_ok (setFor_eq denotes), bind_of_ok (rfl : model _ = .ok _ _)]
  dsimp only
  cases (seated reader label target).2.model.addToCorefSet (seated reader label target).1
    concept <;> rfl

/-- The state in which a concept of the type of the defining one has been put into a graph. -/
def conceived (reader : Reader) (graph : GraphId) (target : Target) : Reader :=
  reader.withModel ((reader.model.newConcept
    (reader.model.concept (target.defining reader.model)).type).2.addConcept graph
      ⟨reader.model.concepts.size⟩)

/-- A label is resolved to the first of its concepts in the graph. -/
theorem resolve_of_found (denotes : reader.labels.target? label = some target)
    (first : (target.concepts reader.model).find? (reader.model.encloses graph) = some concept) :
    resolve found label (some graph) reader = .ok concept reader := by
  unfold resolve
  rw [bind_of_ok (definingConcept?_eq denotes)]
  dsimp only
  rw [bind_of_ok (representative?_eq denotes), first]
  rfl

/-- Without any, a label is resolved to a new concept, which joins its set. -/
theorem resolve_of_missing (denotes : reader.labels.target? label = some target)
    (missing : (target.concepts reader.model).find? (reader.model.encloses graph) = none) :
    resolve found label (some graph) reader =
      (do
        join found label ⟨reader.model.concepts.size⟩
        return ⟨reader.model.concepts.size⟩ : Read ConceptId) (conceived reader graph target) := by
  unfold resolve
  rw [bind_of_ok (definingConcept?_eq denotes)]
  dsimp only
  rw [bind_of_ok (representative?_eq denotes), missing]
  rfl

/-! ### Joining a set -/

/-- The label denotes the set from then on. -/
theorem target?_seated (denotes : reader.labels.target? label = some target) :
    (seated reader label target).2.labels.target? label =
      some (.set (seated reader label target).1) := by
  cases target with
  | set id => exact denotes
  | concept id => exact (LabelTable.target?_bind _ _ _ _).trans (if_pos rfl)

/-- The set is one of the model. -/
theorem known_seated (holds : reader.model.Holds target) :
    (seated reader label target).1.index < (seated reader label target).2.model.corefSets.size := by
  cases target with
  | set id => exact holds
  | concept id => simp [seated]

/-- Finding the set of a label changes nothing but sets. -/
theorem sameButSets_seated (holds : reader.model.Holds target) :
    reader.model.SameButSets (seated reader label target).2.model := by
  cases target with
  | set id => exact ⟨rfl, rfl, rfl, rfl, rfl, fun _ => rfl⟩
  | concept id => exact .newCorefSet holds

/-- A set that has just begun has the concept that the label denoted for its only member. -/
theorem mem_concepts_seated :
    concept ∈ (Target.set (seated reader label target).1).concepts
        (seated reader label target).2.model ↔ concept ∈ target.concepts reader.model := by
  cases target with
  | set id => exact Iff.rfl
  | concept id =>
      have new : (reader.model.newCorefSet id).2.corefSet ⟨reader.model.corefSets.size⟩ = _ :=
        Model.corefSet_newCorefSet _
      simp [seated, Target.concepts, Target.defining, new]

/-- The set of a label with one more member. -/
structure Joins (reader : Reader) (label : String) (target : Target) (concept : ConceptId)
    (later : Reader) : Prop where
  same : reader.model.SameButSets later.model
  joined : ∃ set, later.labels.target? label = some (.set set) ∧
    ∀ id, id ∈ (Target.set set).concepts later.model ↔
      id ∈ target.concepts reader.model ∨ id = concept

/-- The concept joins the set of the label, or is refused; nothing but sets changes. -/
theorem join_spec (denotes : reader.labels.target? label = some target)
    (holds : reader.model.Holds target) (inside : concept.index < reader.model.concepts.size) :
    match join found label concept reader with
    | .ok _ later => Joins reader label target concept later
    | .error _ later => reader.model.SameButSets later.model := by
  have same : reader.model.SameButSets (seated reader label target).2.model :=
    sameButSets_seated holds
  rw [join_eq denotes]
  dsimp only
  cases added : (seated reader label target).2.model.addToCorefSet (seated reader label target).1
      concept with
  | error cause => exact same
  | ok model =>
      refine ⟨same.trans (.addToCorefSet (same.size.symm ▸ inside) added), _,
        target?_seated denotes, fun id => ?_⟩
      rw [Reader.withModel_model, Target.mem_concepts_addToCorefSet (known_seated holds) added,
        mem_concepts_seated]

/-! ### A new concept -/

/-- A concept that is conceived has the type of its label and stands in the graph where the label
was met. -/
theorem makes_conceived (reader : Reader) (graph : GraphId) (target : Target) : reader.model.Makes
    (reader.model.concept (target.defining reader.model)).type graph
    (conceived reader graph target).model := by
  have placed : (conceived reader graph target).model.concept ⟨reader.model.concepts.size⟩ = _ :=
    Model.concept_modifyConcept (by simp)
  rw [Model.concept_newConcept] at placed
  refine ⟨by simp [conceived, Model.addConcept], ?_, ?_, fun id apart => ?_⟩
  · rw [placed]
  · rw [placed]
  · have kept : ((conceived reader graph target).model.concept id).graph = _ :=
      congrArg Concept.graph (Model.concept_modifyConcept_of_ne apart)
    exact kept.trans ((Model.SamePlaces.newConcept _).home (.concept id))

/-- A label of whose concepts the new one is the only one in the graph stands for it. -/
theorem standsFor_of_joins {type : Option ConceptType}
    (missing : (target.concepts reader.model).find? (reader.model.encloses graph) = none)
    (makes : reader.model.Makes type graph later.model)
    (joins : Joins (conceived reader graph target) label target ⟨reader.model.concepts.size⟩
      later) :
    later.StandsFor label graph ⟨reader.model.concepts.size⟩ := by
  obtain ⟨set, denotes, members⟩ := joins.joined
  refine ⟨_, denotes, ?_⟩
  cases first : ((Target.set set).concepts later.model).find? (later.model.encloses graph) with
  | none =>
      have outside := List.find?_eq_none.mp first _ ((members _).mpr (.inr rfl))
      exact absurd (beq_iff_eq.mpr makes.stands) outside
  | some id =>
      by_cases new : id = ⟨reader.model.concepts.size⟩
      · rw [new]
      · have old : id ∈ target.concepts reader.model :=
          ((members id).mp (List.mem_of_find?_eq_some first)).resolve_right new
        have stands : later.model.encloses graph id = true := List.find?_some first
        rw [Model.encloses, makes.others id new] at stands
        exact absurd stands (List.find?_eq_none.mp missing id old)

/-- Without a concept of the label in the graph, one is made.  It stands for the label unless it is
refused as a member of the set. -/
theorem resolve_spec_of_missing (found : Located) (orderly : reader.Orderly)
    (denotes : reader.labels.target? label = some target)
    (missing : (target.concepts reader.model).find? (reader.model.encloses graph) = none) :
    match resolve found label (some graph) reader with
    | .ok concept later =>
        concept = ⟨reader.model.concepts.size⟩ ∧ later.StandsFor label graph concept ∧
          reader.model.Makes (reader.model.concept (target.defining reader.model)).type graph
            later.model
    | .error _ later =>
        reader.model.Makes (reader.model.concept (target.defining reader.model)).type graph
          later.model := by
  have makes := makes_conceived reader graph target
  have grown : reader.model.concepts.size ≤ (conceived reader graph target).model.concepts.size :=
    Nat.le_trans (Nat.le_succ _) (Nat.le_of_eq makes.size.symm)
  have holds : (conceived reader graph target).model.Holds target :=
    (orderly.known.mono grown (Nat.le_refl _)).holds denotes
  have joined : match join found label ⟨reader.model.concepts.size⟩ _ with
    | .ok _ later => Joins _ label target ⟨reader.model.concepts.size⟩ later
    | .error _ later => Model.SameButSets _ later.model :=
    join_spec (show (conceived reader graph target).labels.target? label = some target from denotes)
      holds (by rw [makes.size]; exact Nat.lt_succ_self _)
  rw [resolve_of_missing denotes missing]
  cases ran : join found label ⟨reader.model.concepts.size⟩ (conceived reader graph target) with
  | ok value later =>
      rw [ran] at joined
      rw [bind_of_ok ran]
      have made := makes.of_same joined.same
      exact ⟨rfl, standsFor_of_joins missing made joined, made⟩
  | error error later =>
      rw [ran] at joined
      rw [bind_of_error ran]
      exact makes.of_same joined

/-- No member of what a label denotes stands in a graph exactly where the label is not present
there. -/
theorem find?_concepts_eq_none (denotes : reader.labels.target? label = some target) :
    (target.concepts reader.model).find? (reader.model.encloses graph) = none ↔
      ¬ reader.IsPresent label graph := by
  rw [List.find?_eq_none]
  constructor
  · rintro outside ⟨concept, ⟨other, same, member⟩, stands⟩
    obtain rfl : other = target := Option.some.inj (same.symm.trans denotes)
    exact outside concept member stands
  · intro absent concept member stands
    exact absent ⟨concept, ⟨target, denotes, member⟩, stands⟩

/-- A label that has a concept here resolves to it, without any change. -/
theorem resolve_of_standsFor (stands : reader.StandsFor label graph concept) :
    resolve found label (some graph) reader = .ok concept reader :=
  have ⟨_, denotes, first⟩ := stands
  resolve_of_found denotes first

/-- The concept to which a label is resolved stands for it. -/
theorem standsFor_of_resolve (orderly : reader.Orderly)
    (bound : reader.labels.isBound label = true)
    (ran : resolve found label (some graph) reader = .ok concept later) :
    later.StandsFor label graph concept := by
  obtain ⟨target, denotes⟩ := LabelTable.isBound_iff_exists.mp bound
  cases first : (target.concepts reader.model).find? (reader.model.encloses graph) with
  | some present =>
      rw [resolve_of_found denotes first] at ran
      cases ran
      exact ⟨target, denotes, first⟩
  | none =>
      have spec := resolve_spec_of_missing found orderly denotes first
      rw [ran] at spec
      exact spec.2.1

/-- Whatever has been read so far, a label that is bound is resolved to a concept that stands in the
graph and is the one that defines the label or a member of its set.  A concept is made, of the type
of the defining one, exactly if none of these stands in the graph yet.  Whatever is read after it
while the label stays bound, the label is resolved to the same concept and nothing is changed. -/
theorem resolve_of_underway {moment : Moment} (underway : moment.Underway)
    (bound : moment.reader.labels.isBound label = true) (found : Located) (graph : GraphId) :
    ∃ defining, definingConcept? label moment.reader = .ok (some defining) moment.reader ∧
      (∀ concept later, resolve found label (some graph) moment.reader = .ok concept later →
        later.model.encloses graph concept = true ∧ later.Denotes label concept ∧
          (¬ moment.reader.IsPresent label graph →
            concept = ⟨moment.reader.model.concepts.size⟩) ∧
          ∀ last, ReflTransGen (Moment.Continues label) ⟨later, moment.awaiting⟩ last →
            ∀ again, resolve again label (some graph) last.reader = .ok concept last.reader) ∧
      (moment.reader.model.Makes (moment.reader.model.concept defining).type graph
          (final (resolve found label (some graph)) moment.reader).model ↔
        ¬ moment.reader.IsPresent label graph) ∧
      (moment.reader.IsPresent label graph →
        ∃ concept, resolve found label (some graph) moment.reader = .ok concept moment.reader) := by
  have orderly := underway.orderly
  obtain ⟨target, denotes⟩ := LabelTable.isBound_iff_exists.mp bound
  have reused (present : moment.reader.IsPresent label graph) :
      ∃ concept, resolve found label (some graph) moment.reader = .ok concept moment.reader := by
    obtain ⟨concept, first⟩ := Option.ne_none_iff_exists'.mp
      (mt (find?_concepts_eq_none denotes).mp (not_not.mpr present))
    exact ⟨concept, resolve_of_found denotes first⟩
  have made (absent : ¬ moment.reader.IsPresent label graph) :=
    resolve_spec_of_missing found orderly denotes
      ((find?_concepts_eq_none denotes).mpr absent)
  -- Either the label is followed to a concept that stands here, or one is made; never both.
  refine ⟨target.defining moment.reader.model, definingConcept?_eq denotes,
    fun concept later ran => ?_, ?_, reused⟩
  · have stands := standsFor_of_resolve orderly bound ran
    refine ⟨stands.encloses, stands.denotes, fun absent => ?_, fun last further again => ?_⟩
    · have spec := made absent
      rw [ran] at spec
      exact spec.1
    · have enacted : Enacted moment.awaiting (resolve found label (some graph)) moment.reader
        (fun _ => moment.awaiting) fun _ _ => True := enacted_resolve found label
      have leads : Moment.Leads moment ⟨later, moment.awaiting⟩ := (enacted.of_ok ran).1
      have kept := Moment.standsFor_of_continues further (underway.of_leads leads).orderly stands
      exact resolve_of_standsFor kept.2
  · constructor
    · intro makes present
      obtain ⟨concept, ran⟩ := reused present
      rw [final, ran] at makes
      exact absurd makes.size (Nat.ne_of_lt (Nat.lt_succ_self _))
    · intro absent
      have spec := made absent
      unfold final
      split at spec
      · next ran => rw [ran]; exact spec.2.2
      · next ran => rw [ran]; exact spec

/-- A label of the outermost graph is resolved inside a nested one, where a concept is made for it,
and again after one more concept has been made. -/
theorem resolve_of_underway_nested :
    let read := Session.Call.after .outermostGraph {} {} .cgif "[A: *x] [B: [C]]"
    let moment : Moment := ⟨read.1.opening read.2 [] {}, []⟩
    let found : Located := ⟨.boundLabel "x", ⟨{}, {}⟩⟩
    moment.Underway ∧ moment.reader.labels.isBound "x" = true ∧
      ¬ moment.reader.IsPresent "x" ⟨1⟩ ∧
      ∃ later, resolve found "x" (some ⟨1⟩) moment.reader = .ok ⟨3⟩ later ∧
        later.model.encloses ⟨1⟩ ⟨3⟩ = true ∧ later.Denotes "x" ⟨3⟩ ∧
        let last := later.withModel (later.model.newConcept none).2
        resolve found "x" (some ⟨1⟩) last = .ok ⟨3⟩ last := by
  intro read moment found
  have reached := Model.Reached.read 0 .outermostGraph .cgif "[A: *x] [B: [C]]" (.start {})
  have table : read.1.labels.Reachable := by
    have bound : read.1.labels = LabelTable.bind {} "x" (.concept ⟨0⟩) := by decide +kernel
    rw [bound]
    exact .bind "x" _ .empty
  have onward : Model.Onward {} read.1.labels read.2 :=
    Session.Call.onward_after .outermostGraph .cgif "[A: *x] [B: [C]]" (Model.Mutual.start {})
      LabelTable.Known.empty
  have underway : moment.Underway := .text reached table onward.known [] {}
  have bound : moment.reader.labels.isBound "x" = true := by decide +kernel
  have absent : ¬ moment.reader.IsPresent "x" ⟨1⟩ := by
    rintro ⟨concept, ⟨target, denotes, member⟩, stands⟩
    have outer : moment.reader.labels.target? "x" = some (.concept ⟨0⟩) := by decide +kernel
    obtain rfl : target = .concept ⟨0⟩ := Option.some.inj (denotes.symm.trans outer)
    obtain rfl := List.mem_singleton.mp member
    have elsewhere : moment.reader.model.encloses ⟨1⟩ ⟨0⟩ = false := by decide +kernel
    exact absurd stands (Bool.eq_false_iff.mp elsewhere)
  have succeeds : (match resolve found "x" (some ⟨1⟩) moment.reader with
    | .ok _ _ => true
    | .error _ _ => false) = true := by decide +kernel
  obtain ⟨-, -, resolved, -, -⟩ := resolve_of_underway underway bound found ⟨1⟩
  cases ran : resolve found "x" (some ⟨1⟩) moment.reader with
  | error error later =>
      rw [ran] at succeeds
      cases succeeds
  | ok concept later =>
      obtain ⟨stands, denotes, new, again⟩ := resolved concept later ran
      obtain rfl : concept = ⟨3⟩ := (new absent).trans (by decide +kernel)
      obtain ⟨_, target, _⟩ := id denotes
      have further : Moment.Continues "x" ⟨later, []⟩ ⟨later.withModel _, _⟩ :=
        .act (.conceive none) (LabelTable.isBound_iff_exists.mpr ⟨_, target⟩)
      exact ⟨underway, bound, absent, later, rfl, stands, denotes, again _ (.single further) found⟩

end Read

end ConceptualGraph

end
