/-
Module: ConceptualGraph.Proofs.Copy.Translation
Purpose: Graphs of concepts that may have names, and of relations of one or two arguments, are
  translated between the notations under all labels of types but those that a notation reserves.
Main exports: Model.Simple, Model.Simple.copyable, Session.roundTrip_simple
-/
import ConceptualGraph.Proofs.Copy.RoundTrip

namespace ConceptualGraph

/-! ## The fragment -/

/-- Whether a designator is a name. -/
def Designator.isName : Designator → Bool
  | .name _ => true
  | _ => false

/-- Whether a referent says nothing but a name. -/
def Referent.isName (referent : Referent) : Bool :=
  referent.quantifier.isNone && referent.descriptor.isNone &&
    referent.designator.all Designator.isName

namespace Model

section Definitions

variable (model : Model)

/-- Whether a concept has a type with a label, and at most a name. -/
def isNamed (data : Concept) : Bool :=
  (data.type.bind model.hierarchy.concepts.label?).isSome && data.special.isNone &&
    data.referent.all Referent.isName

/-- Whether a relation has a type with a label, and takes at most two arguments. -/
def isLink (data : Relation) : Bool :=
  (data.type.bind model.hierarchy.relations.label?).isSome && !data.isActor &&
    data.args.length ≤ 2

/-- A model of one graph, without sets, in which all concepts have at most names and all relations
take at most two arguments. -/
structure Simple (model : Model) : Prop where
  flat : model.graphs.size = 1
  setless : model.corefSets = #[]
  concepts : ∀ data ∈ model.concepts.toList, model.isNamed data = true
  relations : ∀ data ∈ model.relations.toList, model.isLink data = true

instance : Decidable model.Simple :=
  decidable_of_iff
    (model.graphs.size = 1 ∧ model.corefSets = #[] ∧
      (∀ data ∈ model.concepts.toList, model.isNamed data = true) ∧
      ∀ data ∈ model.relations.toList, model.isLink data = true)
    ⟨fun ⟨flat, setless, concepts, relations⟩ => ⟨flat, setless, concepts, relations⟩,
      fun simple => ⟨simple.flat, simple.setless, simple.concepts, simple.relations⟩⟩

end Definitions

/-! ## Simple models can be copied -/

namespace Simple

variable {model : Model} {source form : Notation} (simple : model.Simple)

include simple

/-- What has been read has types with names. -/
theorem typesNamed : model.TypesNamed where
  conceptType concept type typed := by
    have named := simple.concepts _ (concept_mem (lt_of_type typed))
    simp only [isNamed, typed, Option.bind_some, Bool.and_eq_true] at named
    exact Option.isSome_iff_exists.mp named.1.1
  relationType relation type typed := by
    have named := simple.relations _ (relation_mem (lt_of_relation_type typed))
    simp only [isLink, typed, Option.bind_some, Bool.and_eq_true] at named
    exact Option.isSome_iff_exists.mp named.1.1

theorem special (concept : ConceptId) : (model.concept concept).special = none := by
  refine forall_concept (fun data => data.special = none) rfl (fun data member => ?_) concept
  have named := simple.concepts data member
  simp only [isNamed, Bool.and_eq_true, Option.isNone_iff_eq_none] at named
  exact named.1.2

/-- What designates a concept is its name. -/
theorem designator_isName {concept : ConceptId} {referent : Referent} {value : Designator}
    (described : (model.concept concept).referent = some referent)
    (designated : referent.designator = some value) : value.isName = true := by
  have known := forall_concept (fun data => data.referent.all Referent.isName = true) rfl
    (fun data member => by
      have named := simple.concepts data member
      simp only [isNamed, Bool.and_eq_true] at named
      exact named.2) concept
  simp only [described, Option.all_some, Referent.isName, designated, Bool.and_eq_true] at known
  exact known.2

theorem not_isFractional (concept : ConceptId) : ¬(model.concept concept).IsFractional := by
  rintro ⟨referent, value, described, designated⟩
  exact absurd (simple.designator_isName described designated) Bool.false_ne_true

theorem undefined (concept : ConceptId) : model.designates? concept = none := by
  refine Option.bind_eq_none_iff.mpr fun referent described => ?_
  cases designated : referent.designator with
  | none => simp [Referent.definedBy?, designated]
  | some value =>
      have name := simple.designator_isName described designated
      cases value <;> simp_all [Referent.definedBy?, Designator.isName]

theorem binary : model.Binary := by
  intro data member passive
  have named := simple.relations data member
  simp only [isLink, Bool.and_eq_true, decide_eq_true_eq] at named
  exact named.2

/-- A simple model that has been read from a text can be written and read back, whatever its types
are called. -/
theorem copyable (sound : model.Sound source []) (root : (model.graph ⟨0⟩).owner = none)
    (markers : model.markers < UInt64.size)
    (unreserved : ∀ word ∈ model.words, Keyword.ofWord? form word.toList = none) :
    model.Copyable source form :=
  sound.copyable unreserved root markers simple.typesNamed simple.setless simple.undefined
    (fun _ _ _ _ => .inr simple.flat.le) (fun _ => simple.special) fun _ => simple.binary

end Simple

end Model

/-! ## Translation -/

namespace Session

variable {source form : Notation}

/-- Simple graphs are written and read back in either notation if it does not reserve the label of
a type. -/
theorem roundTrip_simple {text : String} {graph : GraphId}
    (parsed : (({} : Session).parseGraph {} source text).result = .ok graph)
    (fits : text.length < UInt64.size)
    (simple : (({} : Session).parseGraph {} source text).model.Simple)
    (unreserved : ∀ word ∈ (({} : Session).parseGraph {} source text).model.words,
      Keyword.ofWord? form word.toList = none) :
    RoundTrips source form text graph := by
  have read : ((withOptions {}).parseGraph {} source text).result = .ok graph := parsed
  obtain ⟨-, -, -, rfl, -⟩ := exists_of_parseGraph read
  have sound : SoundAt source text (({} : Session).parseGraph {} source text).model :=
    sound_parseGraph read
  exact roundTrips_of_copyable (simple.copyable sound.sound sound.owner
    (Nat.lt_of_le_of_lt sound.markers fits) unreserved) simple.setless simple.not_isFractional

/-- A relation has the type of negations, but negates nothing. -/
theorem roundTrip_simple_negationLabel :
    (({} : Session).parseGraph {} .linear "[Cat: Tom] -> (Neg) -> [Mat] <- (Wet).").result =
        .ok ⟨0⟩ ∧
      RoundTrips .linear .cgif "[Cat: Tom] -> (Neg) -> [Mat] <- (Wet)." ⟨0⟩ :=
  have parsed : (({} : Session).parseGraph {} .linear
      "[Cat: Tom] -> (Neg) -> [Mat] <- (Wet).").result = .ok ⟨0⟩ := by decide +kernel
  ⟨parsed, roundTrip_simple parsed (by decide +kernel) (by decide +kernel) (by decide +kernel)⟩

/-- A label that is a name in one notation and reserved in the other one is written as it stands,
and cannot be read back. -/
theorem reserved_label_not_read :
    let model := (({} : Session).parseGraph {} .linear "[Cat] -> (Or) -> [Mat].").model
    (({} : Session).parseGraph {} .linear "[Cat] -> (Or) -> [Mat].").result = .ok ⟨0⟩ ∧
      model.Simple ∧ (({} : Session).generateGraph model .cgif ⟨0⟩).1 = .ok "(Or [Cat] [Mat])" ∧
      (({} : Session).parseGraph {} .cgif "(Or [Cat] [Mat])").result.isOk = false := by
  decide +kernel

end Session

end ConceptualGraph
