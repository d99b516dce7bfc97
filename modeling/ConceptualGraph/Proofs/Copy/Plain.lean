/-
Module: ConceptualGraph.Proofs.Copy.Plain
Purpose: The plain fragment: models without coreference, definitions and numbers with a
  fraction, that use no word which a notation reserves.
Main exports: Model.words, Model.Plain, Model.Sound.copyable, Model.Plain.copyable
-/
import ConceptualGraph.Proofs.Copy.Written
import ConceptualGraph.Proofs.Reading.Sound.Graphs

namespace ConceptualGraph

/-! ## The fragment -/

/-- Whether a designator is a number with a fraction. -/
def Designator.isFraction : Designator → Bool
  | .literal (.number (.float _)) => true
  | _ => false

/-- The word of a quantifier that is not one of the usual ones. -/
def Quantifier.word? : Quantifier → Option String
  | .named word => Option.some word
  | _ => none

/-- The name of the encoding of a designator. -/
def Designator.encoding? : Designator → Option String
  | .literal (.encoded encoding _) => some encoding
  | _ => none

namespace Model

section Definitions

variable (model : Model)

/-- The words that are written for a concept: the label of its type, the word of its
quantifier and the name of an encoding. -/
def conceptWords (data : Concept) : List String :=
  (data.type.bind model.hierarchy.concepts.label?).toList
    ++ ((data.referent.bind Referent.quantifier).bind Quantifier.word?).toList
    ++ ((data.referent.bind Referent.designator).bind Designator.encoding?).toList

/-- The words that are written for a relation or actor: the label of its type. -/
def relationWords (data : Relation) : List String :=
  (data.type.bind model.hierarchy.relations.label?).toList

/-- The words that are written for the nodes of a model. -/
def words : List String :=
  model.concepts.toList.flatMap model.conceptWords
    ++ model.relations.toList.flatMap model.relationWords

/-- A model without coreference sets, in which no designator refers to a concept or is a number
with a fraction, no type is defined in place, only negations have the type of negations, and no
word is reserved in a notation. -/
structure Plain (form : Notation) (model : Model) : Prop where
  setless : model.corefSets = #[]
  undefined : ∀ data ∈ model.concepts.toList, data.referent.bind Referent.definedBy? = none
  whole : ∀ data ∈ model.concepts.toList,
    (data.referent.bind Referent.designator).any Designator.isFraction = false
  conceptTypes : ∀ data ∈ model.concepts.toList, ∀ type ∈ data.type,
    (model.hierarchy.concepts.node type).definition.isNone = true
  relationTypes : ∀ data ∈ model.relations.toList, ∀ type ∈ data.type,
    (model.hierarchy.relations.node type).definition.isNone = true
  negations : ∀ index < model.relations.size,
    (model.relation ⟨index⟩).type.bind model.hierarchy.relations.label? =
      some Read.negationLabel → model.isNegation ⟨index⟩ = true
  unreserved : ∀ word ∈ model.words, Keyword.ofWord? form word.toList = none

instance (form : Notation) (model : Model) : Decidable (model.Plain form) :=
  decidable_of_iff
    (model.corefSets = #[] ∧
      (∀ data ∈ model.concepts.toList, data.referent.bind Referent.definedBy? = none) ∧
      (∀ data ∈ model.concepts.toList,
        (data.referent.bind Referent.designator).any Designator.isFraction = false) ∧
      (∀ data ∈ model.concepts.toList, ∀ type ∈ data.type,
        (model.hierarchy.concepts.node type).definition.isNone = true) ∧
      (∀ data ∈ model.relations.toList, ∀ type ∈ data.type,
        (model.hierarchy.relations.node type).definition.isNone = true) ∧
      (∀ index < model.relations.size,
        (model.relation ⟨index⟩).type.bind model.hierarchy.relations.label? =
          some Read.negationLabel → model.isNegation ⟨index⟩ = true) ∧
      ∀ word ∈ model.words, Keyword.ofWord? form word.toList = none)
    ⟨fun ⟨setless, undefined, whole, concepts, relations, negations, unreserved⟩ =>
        ⟨setless, undefined, whole, concepts, relations, negations, unreserved⟩,
      fun plain => ⟨plain.setless, plain.undefined, plain.whole, plain.conceptTypes,
        plain.relationTypes, plain.negations, plain.unreserved⟩⟩

end Definitions

/-! ## Looking up -/

variable {model : Model} {source form : Notation} {concept : ConceptId} {relation : RelationId}

theorem concept_mem (inside : concept.index < model.concepts.size) :
    model.concept concept ∈ model.concepts.toList := by
  simp [Model.concept, inside]

theorem relation_mem (inside : relation.index < model.relations.size) :
    model.relation relation ∈ model.relations.toList := by
  simp [Model.relation, inside]

/-- What holds of all concepts of a model and of a concept that says nothing holds of all. -/
theorem forall_concept (property : Concept → Prop) (nothing : property default)
    (holds : ∀ data ∈ model.concepts.toList, property data) (concept : ConceptId) :
    property (model.concept concept) := by
  by_cases inside : concept.index < model.concepts.size
  · exact holds _ (concept_mem inside)
  · rw [concept_of_le (Nat.le_of_not_lt inside)]
    exact nothing

/-- Where there are no sets, no concept is in one. -/
theorem Joined.corefSets_eq_nil (joined : model.Joined) (setless : model.corefSets = #[])
    (concept : ConceptId) : (model.concept concept).corefSets = [] := by
  refine List.eq_nil_iff_forall_not_mem.mpr fun set member => ?_
  have inside := lt_of_mem_members ((joined.members set concept).mpr member)
  rw [setless] at inside
  cases inside

/-- Where no type is defined in place, all types have labels. -/
theorem Sound.typesNamed (sound : model.Sound source [])
    (concepts : ∀ data ∈ model.concepts.toList, ∀ type ∈ data.type,
      (model.hierarchy.concepts.node type).definition.isNone = true)
    (relations : ∀ data ∈ model.relations.toList, ∀ type ∈ data.type,
      (model.hierarchy.relations.node type).definition.isNone = true) : model.TypesNamed where
  conceptType concept type typed := by
    have inside := lt_of_type typed
    have undefined := concepts _ (concept_mem inside) type typed
    rw [Option.isNone_iff_eq_none] at undefined
    exact Option.isSome_iff_exists.mp ((sound.conceptTypes.known type
      ((sound.concepts concept inside List.not_mem_nil).type type typed)).resolve_right
        (by simp [undefined]))
  relationType relation type typed := by
    have inside := lt_of_relation_type typed
    have undefined := relations _ (relation_mem inside) type typed
    obtain ⟨known, same, within⟩ := (sound.relations relation inside).type
    obtain rfl : type = known := Option.some.inj (typed.symm.trans same)
    rw [Option.isNone_iff_eq_none] at undefined
    exact Option.isSome_iff_exists.mp
      ((sound.relationTypes.known type within).resolve_right (by simp [undefined]))

/-! ## Models whose words are not reserved -/

section Words

variable (unreserved : ∀ word ∈ model.words, Keyword.ofWord? form word.toList = none)

include unreserved

/-- The words of a concept are names in a notation if they are in the one that it was read
from. -/
theorem isName_of_mem_conceptWords (concept : ConceptId) {word : String}
    (name : Token.IsName source word)
    (member : word ∈ model.conceptWords (model.concept concept)) : Token.IsName form word := by
  refine ⟨name.1, unreserved word (List.mem_append_left _ ?_)⟩
  by_cases inside : concept.index < model.concepts.size
  · exact List.mem_flatMap.mpr ⟨_, concept_mem inside, member⟩
  · rw [concept_of_le (Nat.le_of_not_lt inside)] at member
    cases member

/-- The words of a relation can be read in the form that is written. -/
theorem isName_of_mem_relationWords (relation : RelationId) {word : String}
    (name : Token.IsName source word)
    (member : word ∈ model.relationWords (model.relation relation)) : Token.IsName form word := by
  refine ⟨name.1, unreserved word (List.mem_append_right _ ?_)⟩
  by_cases inside : relation.index < model.relations.size
  · exact List.mem_flatMap.mpr ⟨_, relation_mem inside, member⟩
  · rw [relation_of_le (Nat.le_of_not_lt inside)] at member
    cases member

/-- A model without sets that has been read from a text can be written and read back if all types
have labels and, where there are negations, nothing else has their type. -/
theorem Sound.copyable (sound : model.Sound source []) (root : (model.graph ⟨0⟩).owner = none)
    (markers : model.markers < UInt64.size) (named : model.TypesNamed)
    (setless : model.corefSets = #[]) (undefined : ∀ concept, model.designates? concept = none)
    (free : ∀ relation type, (model.relation relation).type = some type →
      model.hierarchy.relations.label? type = some Read.negationLabel →
        model.isNegation relation = true ∨ model.graphs.size ≤ 1)
    (special : form = .linear → ∀ concept, (model.concept concept).special = none)
    (binary : form = .linear → model.Binary) : model.Copyable source form where
  sound := sound
  root := root
  markers := markers
  conceptType concept type typed := by
    obtain ⟨label, labelled⟩ := named.conceptType concept type typed
    refine ⟨label, labelled, isName_of_mem_conceptWords unreserved concept
      (sound.conceptTypes.label type label labelled) ?_⟩
    simp [conceptWords, typed, labelled]
  relationType relation type typed := by
    obtain ⟨label, labelled⟩ := named.relationType relation type typed
    refine ⟨label, labelled, isName_of_mem_relationWords unreserved relation
      (sound.relationTypes.label type label labelled) ?_, fun positive => ?_⟩
    · simp [relationWords, typed, labelled]
    · by_cases negative : label = Read.negationLabel
      · exact .inr ((free relation type typed (negative ▸ labelled)).resolve_left
          (by simp [positive]))
      · exact .inl negative
  quantifier concept referent word described quantified := by
    have known := (sound.referentSound described).quantifier _ quantified
    refine isName_of_mem_conceptWords unreserved concept known.1 ?_
    simp [conceptWords, described, quantified, Quantifier.word?]
  encoding concept referent encoding payload described encoded := by
    refine isName_of_mem_conceptWords unreserved concept
      ((sound.referentSound described).designator _ encoded) ?_
    simp [conceptWords, described, encoded, Designator.encoding?]
  undefined := undefined
  special := special
  binary := binary
  sets := .inl setless
  single concept := by
    rw [sound.joined.corefSets_eq_nil setless concept]
    exact Nat.zero_le _

end Words

/-! ## Plain models -/

namespace Plain

variable (plain : model.Plain form)

include plain

theorem not_isFractional (concept : ConceptId) : ¬(model.concept concept).IsFractional := by
  have whole := forall_concept (fun data =>
    (data.referent.bind Referent.designator).any Designator.isFraction = false) rfl
    plain.whole concept
  rintro ⟨referent, value, described, same⟩
  simp [described, same, Designator.isFraction] at whole

/-- A plain model that has been read from a text can be written and read back. -/
theorem copyable (sound : model.Sound source []) (root : (model.graph ⟨0⟩).owner = none)
    (markers : model.markers < UInt64.size)
    (special : form = .linear → ∀ concept, (model.concept concept).special = none)
    (binary : form = .linear → model.Binary) : model.Copyable source form := by
  refine sound.copyable plain.unreserved root markers
    (sound.typesNamed plain.conceptTypes plain.relationTypes) plain.setless
    (forall_concept (fun data => data.referent.bind Referent.definedBy? = none) rfl plain.undefined)
    (fun relation type typed negative => .inl ?_) special binary
  exact plain.negations relation.index (lt_of_relation_type typed) (by
    simp only [typed, Option.bind_some, negative])

end Plain

end Model

end ConceptualGraph
