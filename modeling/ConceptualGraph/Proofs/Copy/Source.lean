/-
Module: ConceptualGraph.Proofs.Copy.Source
Purpose: The models whose writings can be read back, and what is known of them.
Main exports: Model.spokesman, Model.DefinedFirst, Model.Rooted, Model.Copyable, Model.Nests
-/
import ConceptualGraph.Proofs.Model.Sound
import ConceptualGraph.Writing.Plan

namespace ConceptualGraph

namespace Model

section Definitions

variable (model : Model)

/-- The concept that the label stands for under which a concept is written: the defining
member of the set that it shares, else the concept itself. -/
def spokesman (concept : ConceptId) : ConceptId :=
  match model.sharedSet? concept with
  | some set => (model.corefSet set).defining
  | none => concept

/-- Whether every concept comes after the one that speaks for it, the last one standing
first. -/
def DefinedFirst : List ConceptId → Prop
  | [] => True
  | concept :: older =>
      (model.spokesman concept = concept ∨ model.spokesman concept ∈ older) ∧ DefinedFirst older

/-- Whether graphs lie inside one another, the innermost first and the outermost graph of
the model last. -/
def Nests : List GraphId → Prop
  | [] => False
  | [graph] => graph = ⟨0⟩
  | inner :: outer :: others =>
      (∃ owner, model.descriptor? owner = some inner ∧
        (model.concept owner).graph = some outer) ∧ Nests (outer :: others)

end Definitions

/-- A model read from a text, in which the outermost graph describes no concept. -/
structure Rooted (source : Notation) (model : Model) : Prop where
  sound : model.Sound source []
  root : (model.graph ⟨0⟩).owner = none

/-- A model in which every type of a node has a label. -/
structure TypesNamed (model : Model) : Prop where
  conceptType : ∀ concept type, (model.concept concept).type = some type →
    ∃ label, model.hierarchy.concepts.label? type = some label
  relationType : ∀ relation type, (model.relation relation).type = some type →
    ∃ label, model.hierarchy.relations.label? type = some label

/-- A model in which no relation but an actor takes more than two arguments. -/
def Binary (model : Model) : Prop :=
  ∀ data ∈ model.relations.toList, data.isActor = false → data.args.length ≤ 2

instance (model : Model) : Decidable model.Binary :=
  inferInstanceAs (Decidable (∀ data ∈ model.relations.toList, _))

/-- A model read from a text in one notation that can be written in another one and read
back: no type is defined in place, no designator refers to a concept, and either no
concepts share a set or there is no nested graph.  The linear form has no contexts under
labels, and no numbers for the arguments of relations. -/
structure Copyable (source form : Notation) (model : Model) : Prop extends
    model.Rooted source where
  markers : model.markers < UInt64.size
  conceptType : ∀ concept type, (model.concept concept).type = some type →
    ∃ label, model.hierarchy.concepts.label? type = some label ∧ Token.IsName form label
  relationType : ∀ relation type, (model.relation relation).type = some type →
    ∃ label, model.hierarchy.relations.label? type = some label ∧ Token.IsName form label ∧
      (model.isNegation relation = false →
        label ≠ Read.negationLabel ∨ model.graphs.size ≤ 1)
  quantifier : ∀ concept referent word, (model.concept concept).referent = some referent →
    referent.quantifier = some (.named word) → Token.IsName form word
  encoding : ∀ concept referent encoding payload,
    (model.concept concept).referent = some referent →
    referent.designator = some (.literal (.encoded encoding payload)) →
    Token.IsName form encoding
  undefined : ∀ concept, model.designates? concept = none
  special : form = .linear → ∀ concept, (model.concept concept).special = none
  binary : form = .linear → model.Binary
  sets : model.corefSets = #[] ∨ form = .cgif ∧ model.graphs.size ≤ 1
  single : ∀ concept, (model.concept concept).corefSets.length ≤ 1

variable {model : Model} {source form : Notation} {concept : ConceptId}

/-! ## Looking up -/

theorem Binary.length_le (binary : model.Binary) {relation : RelationId}
    (passive : (model.relation relation).role = .relation) :
    (model.relation relation).args.length ≤ 2 := by
  by_cases inside : relation.index < model.relations.size
  · exact binary _ (by simp [Model.relation, inside]) (by simp [Relation.isActor, passive])
  · rw [relation_of_le (Nat.le_of_not_lt inside)]
    exact Nat.zero_le _

theorem lt_of_descriptor? {graph : GraphId} (describes : model.descriptor? concept = some graph) :
    concept.index < model.concepts.size := by
  by_contra outside
  rw [Model.descriptor?, concept_of_le (Nat.le_of_not_lt outside)] at describes
  cases describes

/-- The referent of a concept that has been read can be written. -/
theorem Sound.referentSound (sound : model.Sound source []) {referent : Referent}
    (described : (model.concept concept).referent = some referent) :
    referent.Sound source model.markers := by
  by_cases inside : concept.index < model.concepts.size
  · exact (sound.concepts concept inside List.not_mem_nil).referent referent described
  · rw [concept_of_le (Nat.le_of_not_lt inside)] at described
    cases described

/-- The comment of a concept can be written behind a semicolon. -/
theorem Sound.isNodeComment_concept (sound : model.Sound source []) {text : String}
    (spoken : (model.concept concept).comment = some text) : Token.IsNodeComment text := by
  by_cases inside : concept.index < model.concepts.size
  · exact (sound.concepts concept inside List.not_mem_nil).comment text spoken
  · rw [concept_of_le (Nat.le_of_not_lt inside)] at spoken
    cases spoken

/-- The comment of a relation can be written behind a semicolon. -/
theorem Sound.isNodeComment_relation (sound : model.Sound source []) {relation : RelationId}
    {text : String} (spoken : (model.relation relation).comment = some text) :
    Token.IsNodeComment text := by
  by_cases inside : relation.index < model.relations.size
  · exact (sound.relations relation inside).comment text spoken
  · rw [relation_of_le (Nat.le_of_not_lt inside)] at spoken
    cases spoken

/-- The one that defines the shared set speaks for a concept. -/
theorem spokesman_of_sharedSet? {set : CorefSetId}
    (shares : model.sharedSet? concept = some set) :
    model.spokesman concept = (model.corefSet set).defining := by
  simp [spokesman, shares]

theorem spokesman_of_none (alone : model.sharedSet? concept = none) :
    model.spokesman concept = concept := by
  simp [spokesman, alone]

/-- A set that a concept shares has another member and lists it. -/
theorem of_sharedSet? {set : CorefSetId} (shares : model.sharedSet? concept = some set) :
    set ∈ (model.concept concept).corefSets ∧ 1 < (model.corefSet set).members.length := by
  refine ⟨List.mem_of_find?_eq_some shares, ?_⟩
  simpa using List.find?_some shares

/-- Where defining concepts come first, they do so in every part that was there before. -/
theorem DefinedFirst.of_suffix {older later : List ConceptId} (first : model.DefinedFirst later)
    (suffix : older <:+ later) : model.DefinedFirst older := by
  obtain ⟨newer, rfl⟩ := suffix
  induction newer with
  | nil => exact first
  | cons concept newer ih => exact ih first.2

/-- Once a concept has come, so has the one that speaks for it. -/
theorem DefinedFirst.spokesman_mem {order : List ConceptId} (first : model.DefinedFirst order)
    (member : concept ∈ order) : model.spokesman concept ∈ order := by
  induction order with
  | nil => cases member
  | cons other older ih =>
      rcases List.mem_cons.mp member with rfl | member
      · rcases first.1 with same | before
        · rw [same]
          exact List.mem_cons_self ..
        · exact List.mem_cons_of_mem _ before
      · exact List.mem_cons_of_mem _ (ih first.2 member)

/-! ## Models read from texts -/

namespace Rooted

variable (rooted : model.Rooted source)

include rooted

theorem conceptSound (inside : concept.index < model.concepts.size) :
    model.ConceptSound source concept :=
  rooted.sound.concepts concept inside List.not_mem_nil

theorem describedBy {graph : GraphId} (describes : model.descriptor? concept = some graph) :
    model.DescribedBy concept graph :=
  (rooted.conceptSound (lt_of_descriptor? describes)).descriptor graph describes

/-- The outermost graph describes no concept. -/
theorem ne_root {graph : GraphId} (describes : model.descriptor? concept = some graph) :
    graph ≠ ⟨0⟩ := by
  rintro rfl
  have owned := (rooted.describedBy describes).owner
  rw [rooted.root] at owned
  cases owned

/-- A graph describes one concept. -/
theorem owner_unique {other : ConceptId} {graph : GraphId}
    (describes : model.descriptor? concept = some graph)
    (also : model.descriptor? other = some graph) : concept = other := by
  have owner := (rooted.describedBy describes).owner
  rw [(rooted.describedBy also).owner] at owner
  exact (Option.some.inj owner).symm

/-- Around the outermost graph there is none. -/
theorem outermost {outer : List GraphId} (nests : model.Nests (⟨0⟩ :: outer)) : outer = [] := by
  cases outer with
  | nil => rfl
  | cons next others =>
      obtain ⟨owner, describes, -⟩ := nests.1
      exact absurd rfl (rooted.ne_root describes)

/-- What a wrapper of a negation is made of. -/
theorem isWrapper (hidden : (model.concept concept).hidden = true) : model.IsWrapper concept :=
  (rooted.conceptSound (lt_of_hidden hidden)).hidden hidden

/-- A concept comes after the concepts that the graphs around it describe. -/
theorem length_le_index {graph : GraphId} {outer : List GraphId}
    (nests : model.Nests (graph :: outer)) (stands : (model.concept concept).graph = some graph) :
    outer.length ≤ concept.index := by
  induction outer generalizing graph concept with
  | nil => exact Nat.zero_le _
  | cons next outer ih =>
      obtain ⟨⟨owner, describes, around⟩, others⟩ := nests
      exact Nat.succ_le_of_lt (Nat.lt_of_le_of_lt (ih others around)
        ((rooted.describedBy describes).later concept stands))

/-- There are no more graphs around one than there are concepts. -/
theorem length_le_size {graph : GraphId} {outer : List GraphId}
    (nests : model.Nests (graph :: outer)) : outer.length ≤ model.concepts.size := by
  cases outer with
  | nil => exact Nat.zero_le _
  | cons next outer =>
      obtain ⟨⟨owner, describes, around⟩, others⟩ := nests
      exact Nat.succ_le_of_lt (Nat.lt_of_le_of_lt (rooted.length_le_index others around)
        (lt_of_descriptor? describes))

/-- The graph that describes a concept of a nested graph is none of those around it. -/
theorem not_mem_of_nests {graph inner : GraphId} {outer : List GraphId}
    (nests : model.Nests (graph :: outer)) (stands : (model.concept concept).graph = some graph)
    (describes : model.descriptor? concept = some inner) : inner ∉ graph :: outer := by
  have before : ∀ (graphs : List GraphId) (graph : GraphId) (concept : ConceptId),
      model.Nests (graph :: graphs) → (model.concept concept).graph = some graph →
      ∀ other ∈ graph :: graphs, ∀ owner, model.descriptor? owner = some other →
        owner.index < concept.index := by
    intro graphs
    induction graphs with
    | nil =>
        intro graph concept nests stands other member owner describes
        obtain rfl := List.mem_singleton.mp member
        exact absurd nests (rooted.ne_root describes)
    | cons next graphs ih =>
        intro graph concept nests stands other member owner describes
        obtain ⟨⟨holder, holds, around⟩, others⟩ := nests
        have earlier : holder.index < concept.index :=
          (rooted.describedBy holds).later concept stands
        rcases List.mem_cons.mp member with rfl | member
        · rw [rooted.owner_unique describes holds]
          exact earlier
        · exact Nat.lt_trans (ih next holder others around other member owner describes) earlier
  intro member
  exact Nat.lt_irrefl _ (before outer graph concept nests stands inner member concept describes)

end Rooted

/-! ## Copyable models -/

namespace Copyable

variable (copyable : model.Copyable source form)

include copyable

theorem typesNamed : model.TypesNamed where
  conceptType concept type typed :=
    (copyable.conceptType concept type typed).imp fun _ known => known.1
  relationType relation type typed :=
    (copyable.relationType relation type typed).imp fun _ known => known.1

/-- Where a graph is nested, no concepts share a set. -/
theorem setless_of_descriptor? {graph : GraphId}
    (describes : model.descriptor? concept = some graph) : model.corefSets = #[] := by
  refine copyable.sets.resolve_right fun flat => ?_
  have inside := (copyable.describedBy describes).inside
  have nested := copyable.ne_root describes
  refine nested (congrArg GraphId.mk (?_ : graph.index = 0))
  omega

theorem setless_of_linear (linear : form = .linear) : model.corefSets = #[] :=
  copyable.sets.resolve_right fun flat => by simp [linear] at flat

/-- In a model with sets all concepts stand in the outermost graph. -/
theorem root_of_graph (shared : model.corefSets ≠ #[]) {graph : GraphId}
    (stands : (model.concept concept).graph = some graph) : graph = ⟨0⟩ := by
  have flat := (copyable.sets.resolve_left shared).2
  have inside := copyable.sound.listed.concept_graph concept graph stands
  exact congrArg GraphId.mk (by omega : graph.index = 0)

/-- The defining member of a shared set shares it too. -/
theorem sharedSet?_defining {set : CorefSetId} (shares : model.sharedSet? concept = some set) :
    model.sharedSet? (model.corefSet set).defining = some set := by
  obtain ⟨lists, several⟩ := of_sharedSet? shares
  have member := (copyable.sound.joined.members set concept).mpr lists
  have defines := copyable.sound.joined.defining set (lt_of_mem_members member)
  have listed := (copyable.sound.joined.members set _).mp defines
  have few := copyable.single (model.corefSet set).defining
  unfold sharedSet?
  generalize (model.concept (model.corefSet set).defining).corefSets = sets at listed few
  cases sets with
  | nil => cases listed
  | cons first others =>
      have alone : others = [] := by simpa using few
      subst alone
      obtain rfl := List.mem_singleton.mp listed
      simp [several]

/-- A concept that shares a set is plain. -/
theorem isPlain_of_sharedSet? {set : CorefSetId}
    (shares : model.sharedSet? concept = some set) : (model.concept concept).IsPlain :=
  copyable.sound.joined.shown concept (List.ne_nil_of_mem (of_sharedSet? shares).1)

end Copyable

/-- Without coreference sets every concept speaks for itself. -/
theorem sharedSet?_of_setless (setless : model.corefSets = #[]) (concept : ConceptId) :
    model.sharedSet? concept = none := by
  simp only [sharedSet?, List.find?_eq_none]
  intro set _
  rw [corefSet_of_le (by simp [setless])]
  decide

theorem spokesman_of_setless (setless : model.corefSets = #[]) (concept : ConceptId) :
    model.spokesman concept = concept :=
  spokesman_of_none (sharedSet?_of_setless setless concept)

/-- Without sets any order has the defining concepts first. -/
theorem definedFirst_of_setless (setless : model.corefSets = #[]) (order : List ConceptId) :
    model.DefinedFirst order := by
  induction order with
  | nil => trivial
  | cons concept older ih => exact ⟨.inl (spokesman_of_setless setless concept), ih⟩

end Model

end ConceptualGraph
