/-
Module: ConceptualGraph.Proofs.Reading.Sound.Types
Purpose: Labels and types are read soundly.
Main exports: Read.keeps_join, Read.keeps_resolve, Read.InsideSound, Read.keeps_conceptType,
  Read.keeps_relationType, Read.keeps_lambda
-/
import ConceptualGraph.Proofs.Reading.Sound.State

namespace ConceptualGraph.Read

open Model (Frame SameButSets)

variable {form : Notation} {unfinished : List ConceptId} {reader : Reader}
  {setting : Setting}

/-! ## Coreference -/

/-- The concept that a label defines is looked up, not made. -/
theorem keeps_definingConcept? (label : String) :
    Keeps form unfinished (definingConcept? label) reader fun concept later =>
      later = reader ∧ ∀ defining, concept = some defining →
        reader.model.Shows defining := by
  refine .labels (.assuming fun sound => ?_)
  cases found : reader.labels.target? label with
  | none => exact .pure fun _ => ⟨rfl, nofun⟩
  | some target =>
      have shows := sound.labels label target (LabelTable.mem_of_target? found)
      cases target with
      | concept concept =>
          refine .pure fun _ => ⟨rfl, fun defining same => ?_⟩
          cases same
          exact shows
      | set set =>
          refine .model (.pure fun _ => ⟨rfl, fun defining same => ?_⟩)
          cases same
          exact sound.model.joined.shows_of_mem (sound.model.joined.defining set shows)

/-- Sets may be begun and added to without touching anything else. -/
theorem advances_of_sameButSets {model : Model} (same : reader.model.SameButSets model)
    (sets : reader.model.corefSets.size ≤ model.corefSets.size) :
    reader.Advances (reader.withModel model) :=
  .withModel same.frame same.markers sets

/-- The set of a label is there, promoted from its concept if need be. -/
theorem keeps_setFor (found : Located) (label : String) :
    Keeps form unfinished (setFor found label) reader fun set later =>
      set.index < later.model.corefSets.size := by
  intro sound
  simp only [setFor, ensures_bind, ensures_labels]
  cases bound : reader.labels.target? label with
  | none => trivial
  | some target =>
      have shows := sound.labels label target (LabelTable.mem_of_target? bound)
      cases target with
      | set set => exact ⟨sound, .refl _, shows⟩
      | concept concept =>
          obtain ⟨inside, visible⟩ := shows
          have same : reader.model.SameButSets (reader.model.newCorefSet concept).2 :=
            .newCorefSet inside
          have sets : reader.model.corefSets.size ≤
              (reader.model.newCorefSet concept).2.corefSets.size := by simp
          simp only [ensures_bind, ensures_make, ensures_bindLabel, ensures_pure]
          have after := sound.withModel
            (same.sound sound.model (sound.model.joined.newCorefSet inside visible))
            same.frame sets
          refine ⟨after.bind ?_, ?_, ?_⟩
          · simp [Model.ShowsTarget]
          · exact (advances_of_sameButSets same sets).trans (.withLabels _ _)
          · simp

/-- A concept that shows itself may join the set of a label. -/
theorem keeps_join {found : Located} {label : String} {concept : ConceptId}
    (shows : reader.model.Shows concept) :
    Keeps form unfinished (join found label concept) reader fun _ _ => True := by
  refine (keeps_setFor found label).bind fun set later advances known => .model ?_
  cases added : later.model.addToCorefSet set concept with
  | error error => exact .failAt
  | ok model =>
      intro sound
      obtain ⟨inside, visible⟩ := shows.frame advances.frame
      have same := SameButSets.addToCorefSet inside added
      have sets : later.model.corefSets.size ≤ model.corefSets.size := by
        rcases Model.eq_of_addToCorefSet added with ⟨-, rfl⟩ | ⟨-, rfl⟩
        · exact Nat.le_refl _
        · simp [Model.noteMembership, Model.modifyCorefSet]
      simp only [ensures_edit]
      exact ⟨sound.withModel (same.sound sound.model
          (sound.model.joined.addToCorefSet known inside visible added)) same.frame sets,
        advances_of_sameButSets same sets, trivial⟩

/-- A member of a set that stands in a graph is looked up, not made. -/
theorem keeps_representative? {label : String} {defining : ConceptId} {graph : GraphId}
    (shows : reader.model.Shows defining) :
    Keeps form unfinished (representative? label defining graph) reader fun concept later =>
      later = reader ∧ ∀ member, concept = some member →
        reader.model.Stands graph member := by
  intro sound
  simp only [representative?, ensures_bind, ensures_model]
  split
  · next encloses =>
    refine ⟨sound, .refl _, rfl, fun member same => ?_⟩
    cases same
    exact ⟨by simpa [Model.encloses] using encloses, shows.2⟩
  · simp only [ensures_bind, ensures_labels]
    split
    · next set bound =>
      refine ⟨sound, .refl _, rfl, fun member same => ?_⟩
      have member' := List.mem_of_find?_eq_some same
      have stands := List.find?_some same
      exact ⟨by simpa [Model.encloses] using stands,
        (sound.model.joined.shows_of_mem member').2⟩
    · exact ⟨sound, .refl _, rfl, by simp⟩

/-- A concept that is made in a graph stands there. -/
theorem Keeps.place {type : Option ConceptType} {graph : GraphId} {β : Type}
    {next : ConceptId → Read β} {final : β → Reader → Prop}
    (inside : graph.index < reader.model.graphs.size)
    (typed : reader.Sound form unfinished → ∀ known, type = some known →
      known.index < reader.model.hierarchy.concepts.size)
    (others : (reader.model.placed { type } graph).Stands graph ⟨reader.model.concepts.size⟩ →
      Keeps form unfinished (next ⟨reader.model.concepts.size⟩)
        (reader.withModel (reader.model.placed { type } graph)) final) :
    Keeps form unfinished (do
      let concept ← Read.make (·.newConcept type)
      Read.edit (·.addConcept graph concept)
      next concept) reader final := fun sound => by
  have frame : reader.model.Frame [] (reader.model.placed { type } graph) := .placed inside
  have stands : (reader.model.placed { type } graph).Stands graph
      ⟨reader.model.concepts.size⟩ := by
    simp [Model.Stands, Concept.IsPlain, Model.concept_placed]
  have after := sound.withModel
    (sound.model.placed inside (typed sound) ⟨rfl, rfl, rfl, rfl⟩ (by simp)) frame
    (Nat.le_refl _)
  simp only [ensures_bind, ensures_make, ensures_edit, Reader.withModel_model,
    Model.newConcept_fst]
  rw [Model.addConcept_newConcept sound.model.listed _]
  refine (others stands after).mono fun _ _ kept => ?_
  obtain ⟨last, further, result⟩ := kept
  exact ⟨last, (Reader.Advances.withModel frame rfl (Nat.le_refl _)).trans further, result⟩

/-- A label is resolved to a concept of the graph where it was met. -/
theorem keeps_resolve {found : Located} {label : String} {graph : GraphId}
    (inside : graph.index < reader.model.graphs.size) :
    Keeps form unfinished (resolve found label (some graph)) reader fun concept later =>
      later.model.Stands graph concept := by
  refine (keeps_definingConcept? label).bind fun concept later _ ⟨same, defines⟩ => ?_
  subst same
  cases concept with
  | none => exact .failAt
  | some defining =>
      have shows := defines defining rfl
      refine (keeps_representative? shows).bind fun member later _ ⟨same, stands⟩ => ?_
      subst same
      cases member with
      | some member => exact .pure fun _ => stands member rfl
      | none =>
          refine .model (.place inside ?_ fun stands => ?_)
          · intro sound type has
            by_cases finished : defining ∈ unfinished
            · have hidden := (sound.model.unfinished defining finished).1
              rw [shows.2.1] at hidden
              cases hidden
            · exact (sound.model.concepts defining shows.1 finished).type type has
          · refine (keeps_join (by exact stands.shows)).bind fun _ last advances _ => ?_
            exact .pure fun _ => Model.Stands.frame (by exact stands) advances.frame

/-! ## Labels of types -/

/-- Types may be made as long as they have words for labels. -/
theorem Keeps.retype {hierarchy : Hierarchy} {change : Model → Model} {β : Type}
    {next : Unit → Read β} {final : β → Reader → Prop}
    (same : change reader.model = { reader.model with hierarchy })
    (conceptTypes : reader.model.hierarchy.concepts.Extends hierarchy.concepts)
    (relationTypes : reader.model.hierarchy.relations.Extends hierarchy.relations)
    (named : reader.model.hierarchy.concepts.Named form →
      reader.model.hierarchy.relations.Named form →
      hierarchy.concepts.Named form ∧ hierarchy.relations.Named form)
    (others : Keeps form unfinished (next ())
      (reader.withModel { reader.model with hierarchy }) final) :
    Keeps form unfinished (Read.edit change >>= next) reader final := by
  rw [← same] at others
  refine .edit (fun sound => ?_) (by rw [same]) (by rw [same]) others
  obtain ⟨conceptNames, relationNames⟩ :=
    named sound.model.conceptTypes sound.model.relationTypes
  rw [same]
  exact sound.model.elsewhere hierarchy reader.model.markers (Nat.le_refl _) conceptTypes
    relationTypes conceptNames relationNames

/-- A label that is read is a concept type of the hierarchy, created there if need be. -/
theorem keeps_conceptTypeNamed {found : Located} {label : String}
    (word : Token.IsName form label) :
    Keeps form unfinished (conceptTypeNamed setting found label) reader fun type later =>
      type.index < later.model.hierarchy.concepts.size := by
  refine .model ?_
  cases known : reader.model.hierarchy.concepts.find? label with
  | some type =>
      simp only [known]
      exact .pure fun _ => Lattice.lt_size_of_find? known
  | none =>
    simp only [known]
    split
    · split
      · next type concepts created =>
        obtain ⟨rfl, rfl, -⟩ := Lattice.eq_of_createOnDemand created
        refine .retype rfl Lattice.Extends.withType (.refl _)
          (fun conceptNames relationNames => ⟨conceptNames.withType word, relationNames⟩) ?_
        exact .pure fun _ => by simp
      · exact .throw
    · exact .failAt

/-- A label that is read is a relation type of the hierarchy, created there if need be. -/
theorem keeps_relationTypeNamed {found : Located} {label : String}
    (word : Token.IsName form label) :
    Keeps form unfinished (relationTypeNamed setting found label) reader fun type later =>
      type.index < later.model.hierarchy.relations.size := by
  refine .model ?_
  cases known : reader.model.hierarchy.relations.find? label with
  | some type =>
      simp only [known]
      exact .pure fun _ => Lattice.lt_size_of_find? known
  | none =>
    simp only [known]
    split
    · split
      · next type relations created =>
        obtain ⟨rfl, rfl, -⟩ := Lattice.eq_of_createOnDemand created
        refine .retype rfl (.refl _) Lattice.Extends.withType
          (fun conceptNames relationNames => ⟨conceptNames, relationNames.withType word⟩) ?_
        exact .pure fun _ => by simp
      · exact .throw
    · exact .failAt

/-! ## Definitions -/

/-- A formal parameter is read without an edit but to the types. -/
theorem keeps_parameter :
    Keeps form unfinished (parameter setting) reader fun _ _ => True := by
  refine .peek fun token found => ?_
  split
  · next label =>
    refine .assuming fun sound => .located (.advance ?_)
    have word : Token.IsName form label := sound.scanned_ahead found
    refine (keeps_conceptTypeNamed word).bind fun type later _ _ => .peek fun token _ => ?_
    split
    · exact .located (.advance (.pure fun _ => trivial))
    · exact .fail
  · exact .fail

theorem keeps_parameters (tokens : Nat) :
    Keeps form unfinished (parameters setting tokens) reader fun _ _ => True := by
  induction tokens generalizing reader with
  | zero => exact keeps_parameter.bind fun _ _ _ _ => .pure fun _ => trivial
  | succ tokens ih =>
      refine keeps_parameter.bind fun first later _ _ => .eat (fun _ => ?_) fun _ => ?_
      · exact ih.bind fun _ _ _ _ => .pure fun _ => trivial
      · exact .pure fun _ => trivial

/-- A formal parameter is linked by looking up what its label denotes. -/
theorem keeps_linkParameter (body : Option GraphId) (parameter : Declared) :
    Keeps form unfinished (linkParameter body parameter) reader fun _ _ => True := by
  unfold linkParameter
  cases body with
  | none => exact .pure fun _ => trivial
  | some graph =>
      have linked : Keeps form unfinished (parameterConcept graph parameter) reader
          fun _ _ => True := by
        refine (keeps_definingConcept? parameter.label).bind fun concept later _ _ => ?_
        cases concept with
        | none => exact .failAt
        | some concept =>
            refine .model (.ite (fun _ => .failAt) fun _ => .ite (fun _ => .failAt) fun _ => ?_)
            exact .pure fun _ => trivial
      exact linked.bind fun _ _ _ _ => .pure fun _ => trivial

theorem keeps_mapM {α β : Type} {step : α → Read β} (arguments : List α)
    (keeps : ∀ reader argument, Keeps form unfinished (step argument) reader fun _ _ => True) :
    Keeps form unfinished (arguments.mapM step) reader fun _ _ => True := by
  induction arguments generalizing reader with
  | nil => exact .pure fun _ => trivial
  | cons argument others ih =>
      rw [List.mapM_cons]
      exact (keeps _ argument).bind fun _ _ _ _ => ih.bind fun _ _ _ _ =>
        .pure fun _ => trivial

/-! ## Inside a bracket -/

/-- Whether a graph has got something, if an item of it followed at the beginning and
none follows at the end. -/
def Settles (reader later : Reader) (graph : GraphId) : Prop :=
  startsItem (reader.ahead 0).token = true →
    startsItem (later.ahead 0).token = true ∨ later.model.IsInhabited graph

/-- What can be read inside a bracket is read soundly. -/
structure InsideSound (form : Notation) (inside : Inside) : Prop where
  concept : ∀ {unfinished reader graph}, graph.index < reader.model.graphs.size →
    Keeps form unfinished (inside.concept (some graph)) reader fun concept later =>
      ∀ found, concept = some found → later.model.Stands graph found
  lambda : ∀ {unfinished reader},
    Keeps form unfinished inside.lambda reader fun _ _ => True
  items : ∀ {unfinished reader graph}, graph.index < reader.model.graphs.size →
    Keeps form unfinished (inside.items graph) reader fun _ later =>
      Settles reader later graph

/-- Whatever can be read inside a bracket, if there is room for one. -/
def RoomSound (form : Notation) (room : Option Inside) : Prop :=
  ∀ inside, room = some inside → InsideSound form inside

/-- Descending keeps the reader sound if what is read inside does at the room that is left. -/
theorem Keeps.descend {room : Option Inside} {β : Type} {next : Inside → Read β}
    {final : β → Reader → Prop} (sound : RoomSound form room)
    (others : ∀ inside, InsideSound form inside →
      Keeps form unfinished (next inside) reader final) :
    Keeps form unfinished (Read.descend setting room >>= next) reader final := by
  cases room with
  | none => exact fun _ => trivial
  | some inside => exact others inside (sound inside rfl)

/-- A new graph, which describes nothing or a concept. -/
theorem Keeps.newGraph {owner : Option ConceptId} {β : Type} {next : GraphId → Read β}
    {final : β → Reader → Prop}
    (others : Keeps form unfinished (next ⟨reader.model.graphs.size⟩)
      (reader.withModel (reader.model.newGraph owner).2) final) :
    Keeps form unfinished (Read.make (·.newGraph owner) >>= next) reader final := fun sound => by
  have frame : reader.model.Frame [] (reader.model.newGraph owner).2 := .newGraph
  rw [ensures_bind, ensures_make]
  refine (others (sound.withModel sound.model.newGraph frame (Nat.le_refl _))).mono ?_
  exact fun _ _ ⟨last, further, result⟩ =>
    ⟨last, (Reader.Advances.withModel frame rfl (Nat.le_refl _)).trans further, result⟩

/-- The body of a definition is read in a graph of its own. -/
theorem keeps_definitionBody {inside : Inside} (sound : InsideSound form inside)
    (declared : List Declared) :
    Keeps form unfinished (definitionBody inside declared) reader fun _ _ => True := by
  refine .peek fun token _ => .ite (fun _ => ?_) fun _ => ?_
  · refine .newGraph ?_
    have within : (⟨reader.model.graphs.size⟩ : GraphId).index <
        (reader.withModel (reader.model.newGraph none).2).model.graphs.size := by simp
    refine (sound.items within).bind fun _ _ _ _ => ?_
    refine (keeps_mapM declared fun _ _ => keeps_linkParameter _ _).bind fun _ _ _ _ => ?_
    exact .pure fun _ => trivial
  · refine (keeps_mapM declared fun _ _ => keeps_linkParameter _ _).bind fun _ _ _ _ => ?_
    exact .pure fun _ => trivial

/-- A lambda keeps the reader sound where its body does. -/
theorem keeps_lambda {room : Option Inside} (sound : RoomSound form room) :
    Keeps form unfinished (lambda setting room) reader fun _ _ => True := by
  refine .descend sound fun inside insideSound => .expect fun _ => .expect fun _ =>
    .expect fun _ => .get ?_
  refine (keeps_parameters _).bind fun declared later _ _ => .expect fun _ => ?_
  have body : Keeps form unfinished (inContext (definitionBody inside declared)) later.next
      fun _ _ => True :=
    .inContext (keeps_definitionBody insideSound declared) fun _ _ _ _ => trivial
  exact body.bind fun _ _ _ _ => .expect fun _ => .pure fun _ => trivial

/-! ## Types in their places -/

theorem keeps_lambdaAhead {places : Nat} {β : Type} {next : Bool → Read β}
    {final : β → Reader → Prop}
    (others : ∀ answer, Keeps form unfinished (next answer) reader final) :
    Keeps form unfinished (lambdaAhead places >>= next) reader final := fun sound => by
  simp only [lambdaAhead, ensures_bind, ensures_ahead, ensures_pure]
  exact others _ sound

/-- A concept type is one of the hierarchy, whether it is named or defined in place. -/
theorem keeps_conceptType {lambda : Read Definition}
    (keeps : ∀ reader, Keeps form unfinished lambda reader fun _ _ => True) :
    Keeps form unfinished (conceptType setting lambda) reader fun type later =>
      ∀ known, type = some known → known.index < later.model.hierarchy.concepts.size := by
  refine .peek fun token found => ?_
  split
  · next label =>
    refine .assuming fun sound => .located (.advance ?_)
    have word : Token.IsName form label := sound.scanned_ahead found
    refine (keeps_conceptTypeNamed word).bind fun type later _ known => .pure fun _ => ?_
    intro other same
    cases same
    exact known
  · refine keeps_lambdaAhead fun answer => .ite (fun _ => ?_) fun _ => .pure fun _ => nofun
    refine .located ((keeps _).bind fun definition later _ _ => .ite (fun _ => .failAt) fun _ => ?_)
    intro sound
    have created : later.model.hierarchy.concepts.Extends
        (later.model.hierarchy.concepts.createDefined definition).2 := .createDefined definition
    obtain ⟨frame, after⟩ := sound.model.elsewhere
      { later.model.hierarchy with
        concepts := (later.model.hierarchy.concepts.createDefined definition).2 }
      later.model.markers (Nat.le_refl _) created (.refl _)
      (sound.model.conceptTypes.createDefined definition) sound.model.relationTypes
    simp only [ensures_bind, ensures_make, ensures_pure]
    refine ⟨sound.withModel after frame (Nat.le_refl _),
      .withModel frame rfl (Nat.le_refl _), fun known same => ?_⟩
    cases same
    simp

/-- A relation type is one of the hierarchy, whether it is named or defined in place. -/
theorem keeps_relationType {lambda : Read Definition}
    (keeps : ∀ reader, Keeps form unfinished lambda reader fun _ _ => True) :
    Keeps form unfinished (relationType setting lambda) reader fun type later =>
      type.index < later.model.hierarchy.relations.size := by
  refine .peek fun token found => ?_
  split
  · next label =>
    refine .assuming fun sound => .located (.advance ?_)
    have word : Token.IsName form label := sound.scanned_ahead found
    exact keeps_relationTypeNamed word
  · refine (keeps _).bind fun definition later _ _ => ?_
    intro sound
    have created : later.model.hierarchy.relations.Extends
        (later.model.hierarchy.relations.createDefined definition).2 := .createDefined definition
    obtain ⟨frame, after⟩ := sound.model.elsewhere
      { later.model.hierarchy with
        relations := (later.model.hierarchy.relations.createDefined definition).2.setValence
          ⟨later.model.hierarchy.relations.size⟩ definition.parameters.length }
      later.model.markers (Nat.le_refl _) (.refl _) (created.trans (.setValence _))
      sound.model.conceptTypes
      ((sound.model.relationTypes.createDefined definition).setValence _ _)
    simp only [ensures_make]
    refine ⟨sound.withModel after frame (Nat.le_refl _),
      .withModel frame rfl (Nat.le_refl _), ?_⟩
    simp

end ConceptualGraph.Read
