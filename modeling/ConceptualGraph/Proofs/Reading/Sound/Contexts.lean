/-
Module: ConceptualGraph.Proofs.Reading.Sound.Contexts
Purpose: Contexts under a label and negations are read soundly.
Main exports: Read.keeps_specialContext, Read.keeps_negation
-/
import ConceptualGraph.Proofs.Reading.Sound.Nodes

namespace ConceptualGraph.Read

variable {form : Notation} {unfinished : List ConceptId} {reader : Reader}
  {setting : Setting}

/-- A concept may be completed before it is put into its graph or after. -/
theorem modifyConcept_placed {model : Model} {data : Concept} {graph : GraphId}
    {change : Concept → Concept}
    (same : change { data with graph := some graph } =
      { change data with graph := some graph }) :
    (model.placed data graph).modifyConcept ⟨model.concepts.size⟩ change =
      model.placed (change data) graph := by
  unfold Model.placed Model.modifyConcept Model.modifyGraph
  simp only [Model.modify_push, same]

/-- A hidden concept is made hidden before it is put into its graph. -/
theorem addConcept_hidden {model : Model} {graph : GraphId} (listed : model.Listed) :
    ((model.newConcept none).2.modifyConcept ⟨model.concepts.size⟩ fun data =>
      { data with hidden := true }).addConcept graph ⟨model.concepts.size⟩ =
      model.placed { hidden := true } graph := by
  have unlisted : (⟨model.concepts.size⟩ : ConceptId) ∉ (model.graph graph).concepts :=
    Model.not_mem_concepts listed
  have appended := Model.appendNew_of_not_mem unlisted
  unfold Model.addConcept Model.newConcept Model.modifyConcept Model.placed
  simp only [Model.modify_push]
  exact Model.modifyGraph_congr (by simpa [Model.graph] using appended)

/-! ## Contexts under a label -/

/-- A referent that only describes. -/
theorem withParts_descriptor {graph : GraphId} (data : Concept) :
    withParts { descriptor := some graph } none data =
      { data with referent := some { descriptor := some graph } } := rfl

/-- A context that has been read can be written again: its body is what it describes. -/
theorem keeps_contextBody {inside : Inside} (insideSound : InsideSound form inside)
    {graph : GraphId} (within : graph.index < reader.model.graphs.size)
    {label : ContextLabel} (allowed : label ≠ .elseLabel) :
    Keeps form unfinished (contextBody inside graph label) reader
      fun concept later => (later.model.concept concept).graph = some graph := by
  refine .optional fun first same sound => ?_
  have room : graph.index < first.model.graphs.size := same ▸ within
  have frame : first.model.Frame []
      (first.model.placed { special := some label.spelling } graph) := .placed room
  have placedSound : (first.withModel
      (first.model.placed { special := some label.spelling } graph)).Sound form unfinished :=
    sound.withModel (sound.model.placed room (by simp) ⟨rfl, rfl, rfl, rfl⟩
      (by rintro _ ⟨⟩; exact ⟨rfl, label, rfl, allowed⟩)) frame (Nat.le_refl _)
  have here : (first.model.placed { special := some label.spelling } graph).concept
      ⟨first.model.concepts.size⟩ =
        { special := some label.spelling, graph := some graph } := by
    simp [Model.concept_placed]
  have old : (⟨first.model.concepts.size⟩ : ConceptId).index <
      (first.model.placed { special := some label.spelling } graph).concepts.size := by simp
  simp only [ensures_bind, ensures_make, ensures_edit, Reader.withModel_model,
    Model.newConcept_fst]
  rw [Model.addConcept_newConcept sound.model.listed _, modifyConcept_placed rfl]
  refine (keeps_descriptor insideSound ⟨first.model.concepts.size⟩ placedSound).mono
    fun body middle kept => ?_
  obtain ⟨middleSound, advances, describes⟩ := kept
  -- What was made before the descriptor is framed, so that the context is still bare after it.
  have bare : (middle.model.concept ⟨first.model.concepts.size⟩).bare =
      { special := some label.spelling, graph := some graph } := by
    rw [advances.frame.concept _ old List.not_mem_nil]
    exact (congrArg Concept.bare here).trans rfl
  have stands : (middle.model.concept ⟨first.model.concepts.size⟩).graph = some graph :=
    congrArg Concept.graph bare
  have through := (Reader.Advances.withModel frame rfl (Nat.le_refl _)).trans advances
  -- Only a context that encloses a graph has a referent.
  cases body with
  | none =>
      simp only [ensures_bind, ensures_expect, ensures_pure]
      exact fun _ => ⟨middleSound.next, through.trans (.next _), stands⟩
  | some body =>
      have described := describes body rfl
      have set := setReferent_of_describes ⟨first.model.concepts.size⟩
        { descriptor := some body } fun graph same => by
          cases same
          exact described
      simp only [ensures_bind, ensures_edit, ensures_expect, ensures_pure,
        Reader.ahead_withModel]
      intro bracket
      have kept := sound_withParts { descriptor := some body } none middleSound.model
        (Model.lt_of_graph stands) (congrArg Concept.hidden bare)
        ⟨congrArg Concept.referent bare, congrArg Concept.comment bare⟩
        (fun _ _ => ⟨rfl, rfl, rfl⟩) (by simp) (by simp)
        (fun graph same => by
          cases same
          exact described.describedBy old (by simp [bracket, startsItem])) (by simp)
      have same : ((middle.withModel (middle.model.setReferent ⟨first.model.concepts.size⟩
          { descriptor := some body })).next).model =
          middle.model.modifyConcept ⟨first.model.concepts.size⟩
            (withParts { descriptor := some body } none) := set
      refine ⟨middleSound.modified kept (fun _ => rfl) (fun _ => rfl) (fun _ => rfl) same
        (List.tail_suffix _) rfl rfl, through.modified same (Nat.le_refl _) (fun _ => rfl)
          (fun _ => rfl) (fun _ => rfl) (List.tail_suffix _), ?_⟩
      rw [same, Model.concept_modifyConcept (Model.lt_of_graph stands)]
      exact stands

/-- Something is read into a graph and stands there, or nothing is read. -/
def Gains (graph : GraphId) (reader : Reader) (gained : Bool) (later : Reader) : Prop :=
  (gained = true → later.model.IsInhabited graph) ∧ (gained = false → later = reader)

/-- A context that is read stands in its graph; where none is found, nothing is read. -/
def Places (graph : GraphId) (reader : Reader) (concept : Option ConceptId) (later : Reader) :
    Prop :=
  (∀ found, concept = some found → (later.model.concept found).graph = some graph) ∧
    (concept = none → later = reader)

theorem keeps_specialContext {room : Option Inside} (roomSound : RoomSound form room)
    {graph : GraphId} (within : graph.index < reader.model.graphs.size) :
    Keeps form unfinished (specialContext setting room graph) reader (Places graph reader) := by
  have nothing : Keeps form unfinished (pure none : Read (Option ConceptId)) reader
      (Places graph reader) := .pure fun _ => ⟨nofun, fun _ => rfl⟩
  refine .peek fun first _ => .ahead fun second _ => ?_
  split
  · exact .located .failAt
  · next label allowed _ _ =>
    refine .descend roomSound fun inside insideSound => .advance (.advance ?_)
    refine (keeps_contextBody insideSound (by exact within) allowed).bind
      fun concept later _ stands => ?_
    exact .pure fun _ => ⟨fun found same => by cases same; exact stands, nofun⟩
  · exact nothing

/-! ## Negations -/

/-- The type of negations has its own label. -/
theorem keeps_negationType :
    Keeps form unfinished negationType reader fun type later =>
      later.model.hierarchy.relations.label? type = some negationLabel := by
  refine .model ?_
  cases known : reader.model.hierarchy.relations.find? negationLabel with
  | some type =>
      simp only [known]
      exact .pure fun _ => Lattice.find?_eq_some known
  | none =>
      simp only [known]
      split
      · next type relations created =>
        obtain ⟨rfl, rfl, -⟩ := Lattice.eq_of_createOnDemand created
        have word : Token.IsName form negationLabel := by
          cases form <;> decide +kernel
        refine .retype rfl (.refl _) (Lattice.Extends.withType.trans (.setValence 1))
          (fun conceptNames relationNames =>
            ⟨conceptNames, (relationNames.withType word).setValence _ 1⟩) ?_
        exact .pure fun _ => by
          rw [Reader.withModel_model, Lattice.label?_setValence, Lattice.label?_withType]
      · exact .throw

/-- A negation that has been read, except that its relation stands in no graph yet. -/
structure Negating (form : Notation) (unfinished : List ConceptId) (graph : GraphId)
    (reader : Reader) (relation : RelationId) (later : Reader) : Prop where
  read : ∃ (middle : Reader) (concept : ConceptId) (type : RelationType) (body : GraphId),
    middle.Sound form (concept :: unfinished) ∧ reader.Advances middle ∧
    concept ∉ unfinished ∧ reader.model.concepts.size ≤ concept.index ∧
    middle.model.hierarchy.relations.label? type = some negationLabel ∧
    (middle.model.concept concept).bare =
      { hidden := true, graph := some graph, referent := some { descriptor := some body } } ∧
    middle.model.DescribedBy concept body ∧
    relation = ⟨middle.model.relations.size⟩ ∧
    later = middle.withModel
      (middle.model.drafted { type := some type, args := [concept] })

/-- The end of a negation, from the time on when its graph is known. -/
theorem negating_ensures {graph body : GraphId} {concept : ConceptId} {middle : Reader}
    (sound : middle.Sound form (concept :: unfinished)) (advances : reader.Advances middle)
    (unlisted : concept ∉ unfinished) (new : reader.model.concepts.size ≤ concept.index)
    (bare : (middle.model.concept concept).bare = { hidden := true, graph := some graph })
    (described : middle.model.DescribedBy concept body) :
    Ensures (do
      edit (·.setReferent concept { descriptor := some body })
      expect (.punct .rightBracket) .negationClosing
      let type ← negationType
      make (·.newRelation (some type) [concept] .relation)) middle
        (Negating form unfinished graph reader) := by
  -- The wrapper stays unfinished until its relation is made.
  have hidden : (middle.model.concept concept).hidden = true := congrArg Concept.hidden bare
  have inside := Model.lt_of_hidden hidden
  have set : middle.model.setReferent concept { descriptor := some body } =
      middle.model.modifyConcept concept (withParts { descriptor := some body } none) :=
    Model.setReferent_eq fun graph same => by
      cases same
      exact ⟨described.inside, described.owner⟩
  have touched : middle.model.Frame [concept]
      (middle.model.modifyConcept concept (withParts { descriptor := some body } none)) :=
    .modifyConcept (fun _ => rfl) (fun _ => rfl) fun _ => rfl
  have kept : (middle.model.modifyConcept concept
      (withParts { descriptor := some body } none)).Sound form (concept :: unfinished) :=
    sound.model.modified inside (fun _ => rfl) (fun _ => rfl) (fun _ => rfl) (fun _ => rfl)
      fun absent => absurd (List.mem_cons_self ..) absent
  have given : ((middle.model.modifyConcept concept
      (withParts { descriptor := some body } none)).concept concept).bare =
      { hidden := true, graph := some graph, referent := some { descriptor := some body } } := by
    rw [Model.concept_modifyConcept inside, withParts_descriptor]
    have untyped := congrArg Concept.type bare
    have uncommented := congrArg Concept.comment bare
    have unlabelled := congrArg Concept.special bare
    have stands := congrArg Concept.graph bare
    simp only [Concept.bare] at untyped uncommented unlabelled stands ⊢
    simp [untyped, uncommented, unlabelled, stands, hidden]
  rw [ensures_bind, ensures_edit, ensures_bind, ensures_expect, set]
  intro _
  have same : ((middle.withModel (middle.model.modifyConcept concept
      (withParts { descriptor := some body } none))).next).model =
        middle.model.modifyConcept concept (withParts { descriptor := some body } none) := rfl
  have after := sound.modified kept (fun _ => rfl) (fun _ => rfl) (fun _ => rfl) same
    (List.tail_suffix _) rfl rfl
  have through := advances.modified same new (fun _ => rfl) (fun _ => rfl) (fun _ => rfl)
    (List.tail_suffix _)
  rw [ensures_bind]
  refine (keeps_negationType after).mono fun type last ⟨lastSound, lastAdvances, named⟩ => ?_
  rw [ensures_make]
  have inside' := Nat.lt_of_lt_of_le inside touched.concepts_le
  refine ⟨last, concept, type, body, lastSound, through.trans lastAdvances, unlisted, new, named,
    ?_, lastAdvances.frame.describedBy inside' (touched.describedBy inside described), rfl, rfl⟩
  rw [lastAdvances.frame.concept concept inside' List.not_mem_nil]
  exact given

/-- What is read after the mark of a negation negates the graph that it holds. -/
theorem negationBody_ensures {inside : Inside} (insideSound : InsideSound form inside)
    {graph : GraphId} {opened : Reader} (within : graph.index < opened.model.graphs.size)
    (sound : opened.Sound form unfinished) (before : reader.Advances opened) :
    Ensures (negationBody inside graph) opened
      (Negating form unfinished graph reader) := by
  have frame : opened.model.Frame [] (opened.model.placed { hidden := true } graph) :=
    .placed within
  have placedSound : (opened.withModel
      (opened.model.placed { hidden := true } graph)).Sound form
        (⟨opened.model.concepts.size⟩ :: unfinished) :=
    sound.withModel (sound.model.placed_hidden within rfl rfl) frame (Nat.le_refl _)
  have here : (opened.model.placed { hidden := true } graph).concept
      ⟨opened.model.concepts.size⟩ = { hidden := true, graph := some graph } := by
    simp [Model.concept_placed]
  have old : (⟨opened.model.concepts.size⟩ : ConceptId).index <
      (opened.model.placed { hidden := true } graph).concepts.size := by simp
  have unlisted : (⟨opened.model.concepts.size⟩ : ConceptId) ∉ unfinished := fun member =>
    absurd (Model.lt_of_hidden (sound.model.unfinished _ member).1) (Nat.lt_irrefl _)
  have new : reader.model.concepts.size ≤
      (⟨opened.model.concepts.size⟩ : ConceptId).index := before.frame.concepts_le
  unfold negationBody
  rw [ensures_bind, ensures_make]
  dsimp only
  rw [ensures_bind, ensures_edit, ensures_bind, ensures_edit, Reader.withModel_model,
    Reader.withModel_model, Model.newConcept_fst, addConcept_hidden sound.model.listed,
    ensures_bind]
  refine (keeps_descriptor insideSound ⟨opened.model.concepts.size⟩ placedSound).mono
    fun body middle ⟨middleSound, advances, describes⟩ => ?_
  have bare : (middle.model.concept ⟨opened.model.concepts.size⟩).bare =
      { hidden := true, graph := some graph } := by
    rw [advances.frame.concept _ old List.not_mem_nil]
    exact (congrArg Concept.bare here).trans rfl
  have hidden : (middle.model.concept ⟨opened.model.concepts.size⟩).hidden = true :=
    congrArg Concept.hidden bare
  have through : reader.Advances middle :=
    before.trans ((Reader.Advances.withModel frame rfl (Nat.le_refl _)).trans advances)
  -- A body that was read may not be empty; one that was not read is made here.
  cases body with
  | some body =>
      have described := describes body rfl
      refine negating_ensures middleSound through unlisted new bare
        ⟨described.inside, described.owner, fun other stands =>
          Nat.lt_of_lt_of_le old (described.new other stands), fun visible => ?_⟩
      rw [hidden] at visible
      cases visible
  | none =>
      have added : middle.model.Frame []
          (middle.model.newGraph (some ⟨opened.model.concepts.size⟩)).2 := .newGraph
      dsimp only
      rw [ensures_bind, ensures_make]
      refine negating_ensures
        (middleSound.withModel middleSound.model.newGraph added (Nat.le_refl _))
        (through.trans (.withModel added rfl (Nat.le_refl _))) unlisted new bare
        ⟨by simp, congrArg Graph.owner Model.graph_newGraph, fun other stands => ?_,
          fun visible => ?_⟩
      · exact absurd (middleSound.model.listed.concept_graph other _ stands)
          (Nat.lt_irrefl _)
      · exact absurd (hidden.symm.trans visible) nofun

/-- A negation that has been read, where one is found. -/
theorem negation_ensures {room : Option Inside} (roomSound : RoomSound form room)
    {graph : GraphId} (within : graph.index < reader.model.graphs.size)
    (sound : reader.Sound form unfinished) :
    Ensures (negation setting room graph) reader fun relation later =>
      (relation = none ∧ later = reader) ∨
        ∃ known, relation = some known ∧ Negating form unfinished graph reader known later := by
  unfold negation
  rw [ensures_bind, ensures_peek, ensures_bind, ensures_ahead]
  split
  · rw [ensures_bind, ensures_descend]
    intro inside roomy
    rw [ensures_bind, ensures_advance, ensures_bind, ensures_advance, ensures_bind]
    refine (negationBody_ensures (roomSound inside roomy) (by exact within) sound.next.next
      ((Reader.Advances.next reader).trans (.next _))).mono fun relation later negating => ?_
    exact .inr ⟨relation, rfl, negating⟩
  · trivial
  · exact .inl ⟨rfl, rfl⟩

/-! ## Relations put into their graphs -/

/-- A relation that stands nowhere yet may be put into its graph. -/
theorem gains_addRelation {middle : Reader} {touched : List ConceptId}
    {unfinishedBefore : List ConceptId} {graph : GraphId} {data : Relation}
    (sound : middle.Sound form unfinishedBefore) (advances : reader.Advances middle)
    (related : (middle.model.related data graph).Sound form unfinished)
    (frame : middle.model.Frame touched (middle.model.related data graph))
    (new : ∀ concept ∈ touched, reader.model.concepts.size ≤ concept.index) :
    Ensures (edit (·.addRelation graph ⟨middle.model.relations.size⟩))
      (middle.withModel (middle.model.drafted data)) fun _ later =>
        later.Sound form unfinished ∧ reader.Advances later ∧
          later.model.IsInhabited graph := by
  rw [ensures_edit, Reader.withModel_model, Model.addRelation_drafted sound.model.listed]
  refine ⟨sound.withModel related frame (Nat.le_refl _), ⟨advances.rest, advances.markers,
    (advances.frame.weaken.trans frame).of_new new, advances.sets⟩, ?_⟩
  refine .inr (.inl ⟨⟨middle.model.relations.size⟩, ?_⟩)
  change ((middle.model.related data graph).relation _).graph = some graph
  simp [Model.relation_related]

/-- A relation that has been drafted is put into its graph. -/
theorem keeps_relationInto {graph : GraphId} {production : Read (Option RelationId)}
    (within : graph.index < reader.model.graphs.size)
    (drafts : reader.Sound form unfinished → Ensures production reader
      (Drafts form unfinished graph reader)) :
    Keeps form unfinished (relationInto graph production) reader (Gains graph reader) := by
  intro sound
  unfold relationInto
  rw [ensures_bind]
  refine (drafts sound).mono fun relation later drafted => ?_
  rcases drafted with ⟨rfl, rfl⟩ | ⟨middle, data, middleSound, advances, relates, rfl, rfl⟩
  · exact ⟨sound, .refl _, nofun, fun _ => rfl⟩
  · dsimp only
    rw [ensures_bind]
    have room := Nat.lt_of_lt_of_le within advances.frame.graphs_le
    have related := middleSound.model.related room relates.type relates.args relates.role
      relates.comment
    have frame : middle.model.Frame [] (middle.model.related data graph) :=
      .related room fun concept argument _ => (relates.args concept argument).2.1
    refine (gains_addRelation middleSound advances related frame nofun).mono
      fun _ last ⟨lastSound, lastAdvances, inhabited⟩ => ?_
    exact ⟨lastSound, lastAdvances, fun _ => inhabited, nofun⟩

/-- A negation is put into the graph where it was read. -/
theorem keeps_negation {room : Option Inside} (roomSound : RoomSound form room)
    {graph : GraphId} (within : graph.index < reader.model.graphs.size) :
    Keeps form unfinished (relationInto graph (negation setting room graph)) reader
      (Gains graph reader) := by
  intro sound
  unfold relationInto
  rw [ensures_bind]
  refine (negation_ensures roomSound within sound).mono fun relation later negated => ?_
  rcases negated with ⟨rfl, rfl⟩ | ⟨known, rfl, ⟨read⟩⟩
  · exact ⟨sound, .refl _, nofun, fun _ => rfl⟩
  · obtain ⟨middle, concept, type, body, middleSound, advances, unlisted, new, named, bare,
      described, rfl, rfl⟩ := read
    dsimp only
    rw [ensures_bind]
    have room := Nat.lt_of_lt_of_le within advances.frame.graphs_le
    obtain ⟨frame, related⟩ := middleSound.model.negated unlisted room named
      (congrArg Concept.graph bare)
      ⟨congrArg Concept.type bare, congrArg Concept.comment bare,
        congrArg Concept.special bare⟩
      (congrArg Concept.referent bare) described
    refine (gains_addRelation middleSound advances related frame fun id member => ?_).mono
      fun _ last ⟨lastSound, lastAdvances, inhabited⟩ => ?_
    · rw [List.mem_singleton.mp member]
      exact new
    · exact ⟨lastSound, lastAdvances, fun _ => inhabited, nofun⟩

end ConceptualGraph.Read
