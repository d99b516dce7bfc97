/-
Module: ConceptualGraph.Proofs.Reading.Attached
Purpose: A reading that succeeds leaves nothing over: whatever it has made stands in a graph or
  describes a concept.  A text with definitions is excepted, since the graphs of these describe
  no concept.
Main exports: Read.LambdaFree, Read.Attaches, Read.attaches_graphInto
-/
import ConceptualGraph.Proofs.Model.Attached
import ConceptualGraph.Proofs.Reading.WellFormed

namespace ConceptualGraph.Read

open Model (Loose)

/-- Whether no definition begins among tokens. -/
def LambdaFree (tokens : List Located) : Prop :=
  ∀ located ∈ tokens, located.token ≠ .keyword .lambda

variable {α β : Type} {step other : Read α} {next : α → Read β} {reader : Reader}
  {loose : Loose} {post : α → Loose} {last : β → Loose}

/-- A step, if it succeeds where nothing else waits, leaves nothing else waiting. -/
def Attaches (loose : Loose) (step : Read α) (reader : Reader) (post : α → Loose) : Prop :=
  reader.model.Attached loose → LambdaFree reader.rest →
    Ensures step reader fun value later =>
      later.model.Attached (post value) ∧ later.rest <:+ reader.rest

theorem LambdaFree.of_suffix {tokens rest : List Located} (free : LambdaFree tokens)
    (suffix : rest <:+ tokens) : LambdaFree rest :=
  fun located member => free located (suffix.subset member)

namespace Attaches

/-! ## Rules -/

theorem bind (first : Attaches loose step reader post)
    (others : ∀ value later, Attaches (post value) (next value) later last) :
    Attaches loose (step >>= next) reader last := fun attached free =>
  (first attached free).bind fun value later ⟨still, suffix⟩ =>
    (others value later still (free.of_suffix suffix)).mono fun _ _ ⟨after, further⟩ =>
      ⟨after, further.trans suffix⟩

theorem mono {weaker : α → Loose} (attaches : Attaches loose step reader post)
    (weaken : ∀ value model, Model.Attached (post value) model →
      Model.Attached (weaker value) model) :
    Attaches loose step reader weaker := fun attached free =>
  (attaches attached free).mono fun value _ ⟨still, suffix⟩ =>
    ⟨weaken value _ still, suffix⟩

theorem of_spares (spares : Spares step) : Attaches loose step reader fun _ => loose :=
  fun attached _ => (spares.ensures reader).mono fun _ _ ⟨same, suffix⟩ =>
    ⟨same.symm ▸ attached, suffix⟩

/-- A step that leaves the model alone comes first. -/
theorem past (spares : Spares step)
    (others : ∀ value later, later.model = reader.model → Attaches loose (next value) later last) :
    Attaches loose (step >>= next) reader last := fun attached free =>
  (spares.ensures reader).bind fun value later ⟨same, suffix⟩ =>
    (others value later same (same.symm ▸ attached) (free.of_suffix suffix)).mono
      fun _ _ ⟨after, further⟩ => ⟨after, further.trans suffix⟩

theorem pure {value : α} (same : post value = loose) :
    Attaches loose (pure value) reader post :=
  fun attached _ => ⟨same.symm ▸ attached, List.suffix_rfl⟩

/-- What has waited need not wait any more. -/
theorem release {value : α} (enough : ∀ model, Model.Attached loose model →
    Model.Attached (post value) model) : Attaches loose (Pure.pure value) reader post :=
  fun attached _ => ⟨enough _ attached, List.suffix_rfl⟩

theorem throw {error : Error} : Attaches loose (throw error) reader post :=
  fun _ _ => True.intro

theorem failAt {found : Located} {fault : ParseFault} :
    Attaches loose (failAt found fault) reader post := throw

theorem fail {fault : ParseFault} : Attaches loose (fail fault) reader post :=
  fun _ _ => True.intro

theorem ite {condition : Prop} [Decidable condition] (yes : Attaches loose step reader post)
    (no : Attaches loose other reader post) :
    Attaches loose (if condition then step else other) reader post := by
  split
  · exact yes
  · exact no

theorem edit {change : Model → Model} {after : Loose}
    (kept : reader.model.Attached loose → (change reader.model).Attached after) :
    Attaches loose (edit change) reader fun _ => after :=
  fun attached _ => ⟨kept attached, List.suffix_rfl⟩

theorem make {change : Model → α × Model}
    (kept : reader.model.Attached loose →
      (change reader.model).2.Attached (post (change reader.model).1)) :
    Attaches loose (make change) reader post :=
  fun attached _ => ⟨kept attached, List.suffix_rfl⟩

theorem inContext (attaches : Attaches loose step (reader.withLabels reader.labels.push) post) :
    Attaches loose (inContext step) reader post := fun attached free =>
  (ensures_inContext ..).mpr (attaches attached free)

theorem descend {setting : Setting} {room : Option Inside} {next : Inside → Read β}
    (others : ∀ inside, room = some inside → Attaches loose (next inside) reader last) :
    Attaches loose (descend setting room >>= next) reader last := by
  cases room with
  | none => exact fail
  | some inside => exact others inside rfl

/-- An edit that neither moves nor makes anything. -/
theorem reshape {change : Model → Model} (same : reader.model.SameShape (change reader.model))
    (relations : (change reader.model).relations.size = reader.model.relations.size) :
    Attaches loose (Read.edit change) reader fun _ => loose :=
  edit fun attached => attached.of_sameShape same relations

/-- A concept is made and put into a graph. -/
theorem place {next : ConceptId → Read β} {type : Option ConceptType} {graph : GraphId}
    (others : ∀ later concept, concept ∉ loose.concepts →
      Attaches { loose with concepts := concept :: loose.concepts } (next concept) later last) :
    Attaches loose (do
      let concept ← Read.make (·.newConcept type)
      Read.edit (·.addConcept graph concept)
      next concept) reader last := by
  intro attached free
  have fresh : (⟨reader.model.concepts.size⟩ : ConceptId) ∉ loose.concepts := fun waits =>
    absurd (attached.bare _ waits).1 (Nat.lt_irrefl _)
  refine others (reader.withModel ((reader.model.newConcept type).2.addConcept graph
    ⟨reader.model.concepts.size⟩)) ⟨reader.model.concepts.size⟩ fresh
      (attached.withConcept { type, graph := some graph } ?_ ?_ rfl rfl rfl) free
  · simp only [Reader.withModel_model, Model.addConcept, Model.newConcept, Model.modifyConcept,
      Model.modifyGraph, Model.modify_push]
  · simp [Model.addConcept, Model.newConcept]

end Attaches

/-! ## Coreference -/

variable {setting : Setting} {room : Option Inside} {graph : GraphId}

theorem attaches_setFor (found : Located) (label : String) :
    Attaches loose (setFor found label) reader fun _ => loose := by
  refine .past .labels fun labels _ _ => ?_
  split
  · exact .pure rfl
  · exact (Attaches.make fun attached => attached.newCorefSet _).bind fun _ _ =>
      .past (.bindLabel _ _) fun _ _ _ => .pure rfl
  · exact .failAt

theorem attaches_join (found : Located) (label : String) (concept : ConceptId) :
    Attaches loose (join found label concept) reader fun _ => loose := by
  refine (attaches_setFor found label).bind fun set later => ?_
  intro attached free
  rw [ensures_bind, ensures_model]
  split
  · next model added =>
    rw [ensures_edit]
    exact ⟨attached.addToCorefSet added, List.suffix_rfl⟩
  · exact True.intro

/-- A label that is resolved leaves no node loose. -/
theorem attaches_resolve (found : Located) (label : String) :
    Attaches loose (resolve found label (some graph)) reader fun _ => loose := by
  refine .past (passes_definingConcept? label).spares fun defining _ _ => ?_
  split
  · exact .failAt
  · next nowhere => cases nowhere
  · refine .past (passes_representative? _ _ _).spares fun known _ _ => ?_
    split
    · exact .pure rfl
    · refine .past .model fun model _ _ => .place fun _ concept _ => ?_
      exact ((attaches_join found label concept).bind fun _ _ => .pure rfl).mono
        fun _ _ attached => attached.forget

/-! ## Types -/

theorem attaches_conceptTypeNamed (found : Located) (label : String) :
    Attaches loose (conceptTypeNamed setting found label) reader fun _ => loose := by
  refine .past .model fun model _ _ => ?_
  dsimp only
  split
  · exact .pure rfl
  · refine .ite ?_ .failAt
    split
    · exact (Attaches.reshape (.elsewhere _ _) rfl).bind fun _ _ => .pure rfl
    · exact .throw

theorem attaches_relationTypeNamed (found : Located) (label : String) :
    Attaches loose (relationTypeNamed setting found label) reader fun _ => loose := by
  refine .past .model fun model _ _ => ?_
  dsimp only
  split
  · exact .pure rfl
  · refine .ite ?_ .failAt
    split
    · exact (Attaches.reshape (.elsewhere _ _) rfl).bind fun _ _ => .pure rfl
    · exact .throw

/-- What is read inside a bracket leaves nothing over, and no definition is read there. -/
structure InsideAttaches (inside : Inside) : Prop where
  concept : ∀ graph loose reader,
    Attaches loose (inside.concept (some graph)) reader fun _ => loose
  lambda : ∀ reader : Reader, LambdaFree reader.rest →
    Ensures inside.lambda reader fun _ _ => False
  items : ∀ graph loose reader, Attaches loose (inside.items graph) reader fun _ => loose

/-- What is read where there is room leaves nothing over. -/
def RoomAttaches (room : Option Inside) : Prop :=
  ∀ inside, room = some inside → InsideAttaches inside

/-- Without its word, no definition is read. -/
theorem lambda_ensures_not (free : LambdaFree reader.rest) :
    Ensures (lambda setting room) reader fun _ _ => False := by
  unfold lambda
  rw [ensures_bind, ensures_descend]
  intro inside _
  rw [ensures_bind, ensures_expect]
  intro _
  rw [ensures_bind, ensures_expect]
  intro word
  exact absurd word (free _ ((List.tail_suffix _).subset (Reader.ahead_mem rfl (by simp [word]))))

/-- Without lambdas, only named types are read. -/
theorem attaches_conceptType {lambda : Read Definition}
    (never : ∀ reader : Reader, LambdaFree reader.rest → Ensures lambda reader fun _ _ => False) :
    Attaches loose (conceptType setting lambda) reader fun _ => loose := by
  refine .past .peek fun token _ _ => ?_
  split
  · exact .past (.located 0) fun _ _ _ => .past .advance fun _ _ _ =>
      (attaches_conceptTypeNamed _ _).bind fun _ _ => .pure rfl
  · refine .past (passes_lambdaAhead 0).spares fun _ _ _ => .ite ?_ (.pure rfl)
    refine .past (.located 0) fun _ later _ _ free => ?_
    exact (never later free).bind fun _ _ => False.elim

theorem attaches_relationType {lambda : Read Definition}
    (never : ∀ reader : Reader, LambdaFree reader.rest → Ensures lambda reader fun _ _ => False) :
    Attaches loose (relationType setting lambda) reader fun _ => loose := by
  refine .past .peek fun token later _ => ?_
  split
  · exact .past (.located 0) fun _ _ _ => .past .advance fun _ _ _ =>
      attaches_relationTypeNamed _ _
  · exact fun _ free => (never later free).bind fun _ _ => False.elim

/-! ## Concepts -/

theorem attaches_markerOf (digits : Option String) :
    Attaches loose (markerOf digits) reader fun _ => loose := by
  cases digits with
  | none =>
      have made : Attaches loose (Read.make Model.newMarker) reader fun _ => loose :=
        .make fun attached => attached.of_sameShape (.elsewhere _ _) rfl
      exact made
  | some foreign =>
      intro attached _
      have kept : (reader.markers.markerFor foreign reader.model).2.2.Attached loose := by
        unfold MarkerTable.markerFor
        split
        · exact attached
        · exact attached.of_sameShape (.elsewhere _ _) rfl
      exact ⟨kept, List.suffix_rfl⟩

theorem attaches_designatorOf (found : Located) :
    Attaches loose (designatorOf found) reader fun _ => loose := by
  unfold designatorOf
  split
  · exact .pure rfl
  · exact .pure rfl
  · exact .pure rfl
  · exact .pure rfl
  · exact .pure rfl
  · exact (attaches_markerOf _).bind fun _ _ => .pure rfl
  · refine .past (passes_definingConcept? _).spares fun concept _ _ => ?_
    split
    · exact .pure rfl
    · exact .failAt
  · exact .pure rfl

theorem attaches_designator : Attaches loose designator reader fun _ => loose :=
  .past (.eat _) fun _ _ _ => .ite
    (.past passes_encodedLiteral.spares fun _ _ _ => .pure rfl)
    (.past (.located 0) fun _ _ _ => (attaches_designatorOf _).bind fun _ _ =>
      .ite (.past .advance fun _ _ _ => .pure rfl) (.pure rfl))

/-- A graph that has been made waits for its concept. -/
theorem Attaches.newGraph (owner : Option ConceptId) :
    Attaches loose (Read.make (·.newGraph owner)) reader
      fun graph => { loose with graphs := graph :: loose.graphs } :=
  .make fun attached => attached.newGraph owner

/-- The graph that is read for a concept waits for it. -/
theorem attaches_descriptor {inside : Inside} (attaches : InsideAttaches inside)
    (owner : ConceptId) :
    Attaches loose (descriptor inside owner) reader
      fun found => { loose with graphs := found.toList ++ loose.graphs } := by
  refine .past .peek fun _ _ _ => .ite ?_ (.pure rfl)
  exact (Attaches.newGraph _).bind fun graph _ =>
    (Attaches.inContext (attaches.items graph _ _)).bind fun _ _ => .pure rfl

/-- A concept is given the graph that has waited for it. -/
theorem Attaches.describe {concept : ConceptId} (fresh : concept ∉ loose.concepts)
    (body : GraphId) :
    Attaches { loose with concepts := concept :: loose.concepts, graphs := body :: loose.graphs }
      (Read.edit (·.setReferent concept { descriptor := some body })) reader fun _ => loose :=
  .edit fun attached => attached.describe fresh

/-- A concept that waits for its descriptor gets its referent. -/
theorem attaches_referent {inside : Inside} (attaches : InsideAttaches inside)
    {concept : ConceptId} (fresh : concept ∉ loose.concepts) :
    Attaches { loose with concepts := concept :: loose.concepts } (referent inside concept) reader
      fun _ => loose := by
  refine .past passes_quantifier.spares fun quantifier _ _ => attaches_designator.bind
    fun designator _ => (attaches_descriptor attaches concept).bind fun descriptor later => ?_
  dsimp only
  split
  · next empty =>
    refine .release fun _ attached => ?_
    have nothing : (quantifier = none ∧ designator = none) ∧ descriptor = none := by
      simpa [Referent.isEmpty] using empty
    obtain ⟨-, rfl⟩ := nothing
    exact attached.forget
  · exact .edit fun attached => attached.describe fresh

theorem attaches_boundLabels (concept : ConceptId) (tokens : Nat) :
    Attaches loose (boundLabels concept tokens) reader fun _ => loose := by
  induction tokens generalizing reader with
  | zero => exact .pure rfl
  | succ tokens ih =>
      refine .past .peek fun token _ _ => ?_
      split
      · exact .past (.located 0) fun _ _ _ => .past .advance fun _ _ _ =>
          (attaches_join _ _ _).bind fun _ _ => ih
      · exact .pure rfl

theorem attaches_conceptLabels (concept : ConceptId) :
    Attaches loose (conceptLabels concept) reader fun _ => loose := by
  refine .past .peek fun token _ _ => ?_
  split
  · exact .past .labels fun _ _ _ => .ite .fail
      (.past .advance fun _ _ _ => .of_spares (.bindLabel _ _))
  · exact .past .get fun _ _ _ => attaches_boundLabels _ _

/-- Data of a node that attach nothing are changed. -/
theorem Attaches.touch {concept : ConceptId} {change : Concept → Concept}
    (graph : ∀ data, (change data).graph = data.graph)
    (descriptor : ∀ data, (change data).referent.bind Referent.descriptor =
      data.referent.bind Referent.descriptor) :
    Attaches loose (Read.edit (·.modifyConcept concept change)) reader fun _ => loose :=
  .reshape (.modifyConcept graph descriptor) rfl

theorem attaches_conceptBody {inside : Inside} (attaches : InsideAttaches inside) :
    Attaches loose (conceptBody setting inside (some graph)) reader fun _ => loose := by
  refine (attaches_conceptType attaches.lambda).bind fun type _ => .place fun _ concept fresh => ?_
  refine .past (.eat _) fun _ _ _ => (attaches_conceptLabels concept).bind fun _ _ =>
    (attaches_referent attaches fresh).bind fun _ _ =>
      .past (passes_nodeComment _).spares fun comment _ _ => ?_
  split
  · exact .bind (.touch (fun _ => rfl) fun _ => rfl) fun _ _ =>
      .past (.expect _ _) fun _ _ _ => .pure rfl
  · exact .past (.expect _ _) fun _ _ _ => .pure rfl

theorem attaches_concept (attaches : RoomAttaches room) :
    Attaches loose (concept setting room (some graph)) reader fun _ => loose := by
  refine .past .peek fun token _ _ => .past (.ahead 1) fun second _ _ => ?_
  split
  · exact .pure rfl
  · exact .past (.located 1) fun _ _ _ => .failAt
  · exact .past (.located 1) fun _ _ _ => .failAt
  · exact .descend fun inside entered => .past .advance fun _ _ _ =>
      (attaches_conceptBody (attaches inside entered)).bind fun _ _ => .pure rfl
  · exact .pure rfl

/-! ## Relations and actors -/

section Arguments

variable {concept : Option GraphId → Read (Option ConceptId)}
  (attaches : ∀ (loose : Loose) (reader : Reader),
    Attaches loose (concept (some graph)) reader fun _ => loose)

include attaches

theorem attaches_arc : Attaches loose (arc concept (some graph)) reader fun _ => loose := by
  refine .past .peek fun token _ _ => ?_
  split
  · exact .past (.located 0) fun _ _ _ => .past .advance fun _ _ _ =>
      (attaches_resolve _ _).bind fun _ _ => .pure rfl
  · exact attaches _ _
  · exact .pure rfl

theorem attaches_arcs (tokens : Nat) :
    Attaches loose (arcs concept (some graph) tokens) reader fun _ => loose := by
  induction tokens generalizing reader with
  | zero => exact .pure rfl
  | succ tokens ih =>
      refine (attaches_arc attaches).bind fun argument _ => ?_
      split
      · exact ih.bind fun _ _ => .pure rfl
      · exact .pure rfl

end Arguments

/-- A relation that has been made waits for its graph. -/
theorem attaches_makeRelation (found : Located) (type : RelationType) (args : List ConceptId)
    (role : RelationRole) (comment : Option String) :
    Attaches loose (makeRelation found type args role comment) reader
      fun relation => { loose with relations := relation :: loose.relations } := by
  refine .past (passes_checkValence _ _ _).spares fun _ later _ attached _ => ?_
  simp only [ensures_bind, ensures_make, ensures_edit, ensures_pure, Reader.withModel_model]
  refine ⟨?_, List.suffix_rfl⟩
  have made := attached.drafted { type := some type, args, comment, role }
  rw [← Model.modifyRelation_newRelation] at made
  exact made

/-- A relation is loose until it is put into its graph. -/
theorem attaches_relation (attaches : RoomAttaches room) :
    Attaches loose (relation setting room (some graph)) reader
      fun found => { loose with relations := found.toList ++ loose.relations } := by
  refine .past .peek fun token _ _ => .past (passes_relationTypeAhead 1).spares fun _ _ _ =>
    .ite ?_ (.pure rfl)
  exact .descend fun inside entered => .past (.located 0) fun _ _ _ =>
    .past .advance fun _ _ _ => (attaches_relationType (attaches inside entered).lambda).bind
      fun _ _ => .past .get fun _ _ _ =>
        (attaches_arcs ((attaches inside entered).concept graph) _).bind fun _ _ =>
          .past (passes_nodeComment _).spares fun _ _ _ => .past (.expect _ _) fun _ _ _ =>
            (attaches_makeRelation _ _ _ _ _).bind fun _ _ => .pure rfl

/-- An actor is loose until it is put into its graph. -/
theorem attaches_actorBody {inside : Inside} (attaches : InsideAttaches inside)
    (found : Located) :
    Attaches loose (actorBody setting inside found (some graph)) reader
      fun relation => { loose with relations := relation :: loose.relations } := by
  have body : ∀ later : Reader, Attaches loose (do
      let type ← relationType setting inside.lambda
      let inputs ← arcs inside.concept (some graph) (← get).rest.length
      expect (.punct .bar) .actorBar
      let outputs ← arcs inside.concept (some graph) (← get).rest.length
      let comment ← nodeComment .actor
      expect (.punct .rightAngle) .actorClosing
      makeRelation found type (inputs ++ outputs) (.actor inputs.length) comment) later
        fun relation => { loose with relations := relation :: loose.relations } := fun _ =>
    (attaches_relationType attaches.lambda).bind fun _ _ => .past .get fun _ _ _ =>
      (attaches_arcs (attaches.concept graph) _).bind fun _ _ => .past (.expect _ _) fun _ _ _ =>
        .past .get fun _ _ _ => (attaches_arcs (attaches.concept graph) _).bind fun _ _ =>
          .past (passes_nodeComment _).spares fun _ _ _ => .past (.expect _ _) fun _ _ _ =>
            attaches_makeRelation _ _ _ _ _
  exact .past (passes_relationTypeAhead 0).spares fun _ _ _ =>
    .ite (body _) (.past (.fail _) fun _ _ _ => body _)

theorem attaches_actor (attaches : RoomAttaches room) :
    Attaches loose (actor setting room (some graph)) reader
      fun found => { loose with relations := found.toList ++ loose.relations } :=
  .past .peek fun _ _ _ => .ite (.descend fun inside entered => .past (.located 0) fun _ _ _ =>
    .past .advance fun _ _ _ => (attaches_actorBody (attaches inside entered) _).bind
      fun _ _ => .pure rfl) (.pure rfl)

/-! ## Items of the interchange form -/

theorem attaches_contextBody {inside : Inside} (attaches : InsideAttaches inside)
    (label : ContextLabel) :
    Attaches loose (contextBody inside graph label) reader fun _ => loose := by
  refine .past (.eat _) fun _ _ _ => .place fun _ concept fresh => ?_
  refine .bind (.touch (fun _ => rfl) fun _ => rfl) fun _ _ =>
    (attaches_descriptor attaches concept).bind fun body later => ?_
  cases body with
  | some body =>
      exact (Attaches.describe fresh body).bind fun _ _ =>
        .past (.expect _ _) fun _ _ _ => .pure rfl
  | none => exact .past (.expect _ _) fun _ _ _ => .release fun _ attached => attached.forget

theorem attaches_specialContext (attaches : RoomAttaches room) :
    Attaches loose (specialContext setting room graph) reader fun _ => loose := by
  refine .past .peek fun token _ _ => .past (.ahead 1) fun second _ _ => ?_
  split
  · exact .past (.located 1) fun _ _ _ => .failAt
  · exact .descend fun inside entered => .past .advance fun _ _ _ => .past .advance fun _ _ _ =>
      (attaches_contextBody (attaches inside entered) _).bind fun _ _ => .pure rfl
  · exact .pure rfl

theorem attaches_negationType : Attaches loose negationType reader fun _ => loose := by
  refine .past .model fun model _ _ => ?_
  dsimp only
  split
  · exact .pure rfl
  · split
    · exact (Attaches.reshape (.elsewhere _ _) rfl).bind fun _ _ => .pure rfl
    · exact .throw

/-- The end of a negation: its concept gets the graph that has waited for it. -/
theorem attaches_negating {concept : ConceptId} {body : GraphId}
    (fresh : concept ∉ loose.concepts) :
    Attaches { loose with concepts := concept :: loose.concepts, graphs := body :: loose.graphs }
      (do
        edit (·.setReferent concept { descriptor := some body })
        expect (.punct .rightBracket) .negationClosing
        let type ← negationType
        make (·.newRelation (some type) [concept] .relation)) reader
      fun relation => { loose with relations := relation :: loose.relations } :=
  (Attaches.describe fresh body).bind fun _ _ => .past (.expect _ _) fun _ _ _ =>
    attaches_negationType.bind fun _ _ => .make fun attached => attached.drafted _

/-- A concept is made, hidden and put into a graph. -/
theorem Attaches.placeHidden {next : ConceptId → Read β}
    (others : ∀ later concept, concept ∉ loose.concepts →
      Attaches { loose with concepts := concept :: loose.concepts } (next concept) later last) :
    Attaches loose (do
      let concept ← Read.make (·.newConcept none)
      Read.edit (·.modifyConcept concept fun data => { data with hidden := true })
      Read.edit (·.addConcept graph concept)
      next concept) reader last := by
  intro attached free
  have fresh : (⟨reader.model.concepts.size⟩ : ConceptId) ∉ loose.concepts := fun waits =>
    absurd (attached.bare _ waits).1 (Nat.lt_irrefl _)
  refine others (reader.withModel (((reader.model.newConcept none).2.modifyConcept
    ⟨reader.model.concepts.size⟩ fun data => { data with hidden := true }).addConcept graph
      ⟨reader.model.concepts.size⟩)) ⟨reader.model.concepts.size⟩ fresh
        (attached.withConcept { hidden := true, graph := some graph } ?_ ?_ rfl rfl rfl) free
  · simp only [Reader.withModel_model, Model.addConcept, Model.newConcept, Model.modifyConcept,
      Model.modifyGraph, Model.modify_push]
  · simp [Model.addConcept, Model.newConcept]

theorem attaches_negationBody {inside : Inside} (attaches : InsideAttaches inside) :
    Attaches loose (negationBody inside graph) reader
      fun relation => { loose with relations := relation :: loose.relations } := by
  refine .placeHidden fun _ concept fresh => ?_
  refine (attaches_descriptor attaches concept).bind fun body _ => ?_
  split
  · exact attaches_negating fresh
  · exact (Attaches.newGraph _).bind fun _ _ => attaches_negating fresh

theorem attaches_negation (attaches : RoomAttaches room) :
    Attaches loose (negation setting room graph) reader
      fun found => { loose with relations := found.toList ++ loose.relations } := by
  refine .past .peek fun token _ _ => .past (.ahead 1) fun second _ _ => ?_
  split
  · exact .descend fun inside entered => .past .advance fun _ _ _ => .past .advance fun _ _ _ =>
      (attaches_negationBody (attaches inside entered)).bind fun _ _ => .pure rfl
  · exact .past (.located 1) fun _ _ _ => .failAt
  · exact .pure rfl

theorem attaches_relationInto {production : Read (Option RelationId)}
    (attaches : Attaches loose production reader
      fun found => { loose with relations := found.toList ++ loose.relations }) :
    Attaches loose (relationInto graph production) reader fun _ => loose := by
  refine attaches.bind fun found _ => ?_
  split
  · exact (Attaches.edit fun attached => attached.addRelation graph).bind fun _ _ => .pure rfl
  · exact .pure rfl

theorem attaches_graphComment :
    Attaches loose (graphComment graph) reader fun _ => loose := by
  refine .past .peek fun token _ _ => ?_
  split
  · exact .past .advance fun _ _ _ => (Attaches.edit fun attached =>
      attached.addComment graph _).bind fun _ _ => .pure rfl
  · exact .pure rfl

/-- The alternatives leave nothing loose. -/
theorem attaches_firstOf {productions : List (Read Bool)}
    (attaches : ∀ production ∈ productions, ∀ reader : Reader,
      Attaches loose production reader fun _ => loose) :
    Attaches loose (firstOf productions) reader fun _ => loose := by
  induction productions generalizing reader with
  | nil => exact .pure rfl
  | cons production others ih =>
      exact (attaches _ List.mem_cons_self reader).bind fun _ _ => .ite (.pure rfl)
        (ih fun other member => attaches other (List.mem_cons_of_mem _ member))

/-- Items leave nothing loose. -/
theorem attaches_bracketItems (attaches : RoomAttaches room) (tokens : Nat) :
    Attaches loose (bracketItems setting room graph tokens) reader fun _ => loose := by
  have productions : ∀ production ∈ bracketProductions setting room graph, ∀ reader : Reader,
      Attaches loose production reader fun _ => loose := by
    simp only [bracketProductions, List.forall_mem_cons, List.not_mem_nil, false_implies,
      implies_true, and_true]
    exact ⟨fun _ => (attaches_concept attaches).bind fun _ _ => .pure rfl,
      fun _ => (attaches_specialContext attaches).bind fun _ _ => .pure rfl,
      fun _ => attaches_relationInto (attaches_negation attaches),
      fun _ => attaches_relationInto (attaches_relation attaches),
      fun _ => attaches_relationInto (attaches_actor attaches), fun _ => attaches_graphComment⟩
  induction tokens generalizing reader with
  | zero => exact .pure rfl
  | succ tokens ih =>
      exact (attaches_firstOf productions).bind fun _ _ => .ite ih (.pure rfl)

/-! ## Statements of the linear form -/

section Statements

variable (attaches : RoomAttaches room)

include attaches

theorem attaches_target : Attaches loose (target setting room graph) reader fun _ => loose := by
  refine (attaches_arc fun _ _ => attaches_concept attaches).bind fun found _ => ?_
  split
  · exact .pure rfl
  · exact .fail

omit attaches in
theorem attaches_relationNode :
    Attaches loose (relationNode setting room) reader fun _ => loose :=
  .past passes_relationNodeAhead.spares fun _ _ _ => .ite
    (.past (.located 0) fun _ _ _ => .past .advance fun _ _ _ =>
      (attaches_relationType fun _ => lambda_ensures_not).bind fun _ _ =>
        .past (passes_nodeComment _).spares fun _ _ _ => .past (.expect _ _) fun _ _ _ => .pure rfl)
    .fail

omit attaches in
theorem attaches_connect (node : RelationNode) (args : List ConceptId) :
    Attaches loose (connect graph node args) reader fun _ => loose :=
  (attaches_makeRelation _ _ _ _ _).bind fun _ _ =>
    .edit fun attached => attached.addRelation graph

/-- Chains and fans, by the number of steps that are left. -/
theorem attaches_chains (steps : Nat) :
    (∀ (reader : Reader) (head : ConceptId),
      Attaches loose (chainTail setting room graph steps head) reader fun _ => loose) ∧
    (∀ (reader : Reader) (head : ConceptId) (first : Bool),
      Attaches loose (fan setting room graph steps head first) reader fun _ => loose) := by
  induction steps with
  | zero => exact ⟨fun _ _ => .pure rfl, fun _ _ _ => .pure rfl⟩
  | succ steps ih =>
      obtain ⟨tails, fans⟩ := ih
      constructor
      · intro reader head
        refine .past passes_refuseNumberedArc.spares fun _ _ _ =>
          .past passes_arrowAhead.spares fun into _ _ => ?_
        split
        · refine .past .advance fun _ _ _ => (attaches_relationNode).bind fun node _ =>
            .past passes_refuseNumberedArc.spares fun _ _ _ =>
              .past passes_arrowAhead.spares fun out _ _ => ?_
          split
          · exact attaches_connect _ _
          · exact .past (.located 0) fun _ _ _ => .past .advance fun _ _ _ => .ite .failAt
              ((attaches_target attaches).bind fun next _ => (attaches_connect _ _).bind
                fun _ _ => tails _ next)
        · exact .past (.eat _) fun _ _ _ => .ite (fans _ _ _) (.pure rfl)
      · intro reader head first
        refine .past passes_refuseNumberedArc.spares fun _ _ _ =>
          .past passes_relationNodeAhead.spares fun _ _ _ => .ite ?_ (.ite .fail
            (.past (.eat _) fun _ _ _ => .pure rfl))
        refine (attaches_relationNode).bind fun node _ =>
          .past passes_refuseNumberedArc.spares fun _ _ _ =>
            .past passes_arrowAhead.spares fun direction _ _ => ?_
        split
        · exact .past .advance fun _ _ _ => (attaches_target attaches).bind fun next _ =>
            (attaches_connect _ _).bind fun _ _ => (tails _ next).bind fun _ _ => fans _ _ _
        · exact (attaches_connect _ _).bind fun _ _ => fans _ _ _

theorem attaches_tail (head : ConceptId) :
    Attaches loose (tail setting room graph head) reader fun _ => loose :=
  .past .get fun _ _ _ => (attaches_chains attaches _).1 _ head

theorem attaches_chain : Attaches loose (chain setting room graph) reader fun _ => loose :=
  (attaches_target attaches).bind fun _ _ => attaches_tail attaches _

theorem attaches_relationChain :
    Attaches loose (relationChain setting room graph) reader fun _ => loose := by
  refine (attaches_relationNode).bind fun node _ =>
    .past passes_refuseNumberedArc.spares fun _ _ _ =>
      .past passes_arrowAhead.spares fun _ _ _ => ?_
  split
  · exact attaches_connect _ _
  · exact .past .advance fun _ _ _ => (attaches_target attaches).bind fun head _ =>
      (attaches_connect _ _).bind fun _ _ => attaches_tail attaches head

theorem attaches_statement :
    Attaches loose (statement setting room graph) reader fun _ => loose := by
  refine .past .peek fun token _ _ => ?_
  split
  · exact (attaches_chain attaches).bind fun _ _ => .pure rfl
  · exact (attaches_chain attaches).bind fun _ _ => .pure rfl
  · exact attaches_relationInto (attaches_negation attaches)
  · exact .past passes_relationNodeAhead.spares fun _ _ _ => .ite
      ((attaches_relationChain attaches).bind fun _ _ => .pure rfl) (.pure rfl)
  · exact attaches_relationInto (attaches_actor attaches)
  · exact .pure rfl

theorem attaches_statements (tokens : Nat) :
    Attaches loose (statements setting room graph tokens) reader fun _ => loose := by
  induction tokens generalizing reader with
  | zero => exact .pure rfl
  | succ tokens ih =>
      exact attaches_graphComment.bind fun _ _ => .ite ih ((attaches_statement attaches).bind
        fun _ _ => .ite (.past passes_statementEnd.spares fun _ _ _ => ih) (.pure rfl))

end Statements

/-! ## Nesting -/

theorem attaches_items (attaches : RoomAttaches room) :
    Attaches loose (items setting room graph) reader fun _ => loose := by
  refine .past .get fun _ _ _ => ?_
  dsimp only
  split
  · exact attaches_bracketItems attaches _
  · exact attaches_statements attaches _

theorem roomAttaches (brackets : Nat) : RoomAttaches (roomFor setting brackets) := by
  induction brackets with
  | zero => exact nofun
  | succ brackets ih =>
      rintro inside ⟨⟩
      exact ⟨fun _ _ _ => attaches_concept ih, fun _ => lambda_ensures_not,
        fun _ _ _ => attaches_items ih⟩

theorem attaches_graphInto :
    Attaches loose (graphInto setting graph) reader fun _ => loose :=
  (attaches_items (roomAttaches _)).bind fun _ _ => .of_spares passes_textEnd.spares

end ConceptualGraph.Read
