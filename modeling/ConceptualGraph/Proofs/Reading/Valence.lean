/-
Module: ConceptualGraph.Proofs.Reading.Valence
Purpose: The relations and actors that are read have as many arguments as their types ask for,
  but for negations, whose type may have been declared otherwise.
Main exports: Model.Fits, Model.IsNegation, Model.Built, Juncture.Leads.built,
  Session.valence_parseGraph
-/
import ConceptualGraph.Proofs.Reading.Hierarchy

section

open Relation (ReflTransGen)

namespace ConceptualGraph

/-! ## Relations and their types -/

namespace Model

/-- A relation or actor has as many arguments as its type asks for, if it asks. -/
def Fits (model : Model) (relation : RelationId) : Prop :=
  ∀ type valence, (model.relation relation).type = some type →
    model.hierarchy.relations.valence? type = some valence →
    (model.relation relation).args.length = valence

/-- A relation is that of a negation: it has the type of negations, and its one argument is
reached only through it. -/
def IsNegation (model : Model) (relation : RelationId) : Prop :=
  ∃ type concept, (model.relation relation).type = some type ∧
    model.hierarchy.relations.find? Read.negationLabel = some type ∧
    (model.relation relation).args = [concept] ∧ (model.concept concept).hidden = true

/-- From some relation on, all relations have types of the hierarchy, and fit them or are those of
negations. -/
def Built (first : Nat) (model : Model) : Prop :=
  ∀ relation : RelationId, first ≤ relation.index → relation.index < model.relations.size →
    (∃ type, (model.relation relation).type = some type ∧
      type.index < model.hierarchy.relations.size) ∧
    (model.Fits relation ∨ model.IsNegation relation)

end Model

/-- The type of negations takes one argument, unless it is there and asks for none or does not
ask. -/
def Hierarchy.NegatesOne (hierarchy : Hierarchy) : Prop :=
  ∀ type valence, hierarchy.relations.find? Read.negationLabel = some type →
    hierarchy.relations.valence? type = some valence → valence = 1

/-! ## New types -/

namespace Hierarchy

variable {setting : Setting} {hierarchy later : Hierarchy} {type : RelationType}

/-- What is asked for by a type that is there does not change. -/
theorem Extended.valence? (extended : hierarchy.Extended setting later)
    (known : type.index < hierarchy.relations.size) :
    later.relations.valence? type = hierarchy.relations.valence? type := by
  have old : type.index ≠ hierarchy.relations.size := Nat.ne_of_lt known
  have notNew : type ≠ ⟨hierarchy.relations.size⟩ := fun same => old (congrArg TypeRef.index same)
  rcases extended with named | defined
  · cases named with
    | conceptType allowed created => rfl
    | relationType allowed created =>
        obtain ⟨-, rfl, -⟩ := Lattice.eq_of_createOnDemand created
        exact Lattice.valence?_withType old
    | negationType created =>
        obtain ⟨rfl, rfl, -⟩ := Lattice.eq_of_createOnDemand created
        rw [Lattice.valence?_setValence_of_ne (by simp) notNew]
        exact Lattice.valence?_withType old
  · cases defined with
    | concept one => rfl
    | relation =>
        rw [Lattice.createDefined_fst, Lattice.valence?_setValence_of_ne (by simp) notNew,
          Lattice.valence?, Lattice.valence?, Lattice.createDefined_snd,
          Lattice.node_modify_of_ne notNew]
        change ((hierarchy.relations.insert none [Lattice.top] [Lattice.bottom]).node
          type).valence = _
        rw [Lattice.field_insert TypeNode.valence (fun _ _ => rfl) fun _ _ => rfl, if_neg notNew]

/-- A label that names a type of relations goes on to name it. -/
theorem Extended.find? {label : String} (extended : hierarchy.Extended setting later)
    (found : hierarchy.relations.find? label = some type) :
    later.relations.find? label = some type := by
  have made {word : String} (missing : hierarchy.relations.find? word = none) :
      (hierarchy.relations.withType word).find? label = some type := by
    rw [Lattice.find?_withType, if_neg, found]
    rintro rfl
    exact absurd found (by simp [missing])
  cases extended with
  | named named =>
      cases named with
      | conceptType allowed created => exact found
      | relationType allowed created =>
          obtain ⟨-, rfl, missing⟩ := Lattice.eq_of_createOnDemand created
          exact made missing
      | negationType created =>
          obtain ⟨-, rfl, missing⟩ := Lattice.eq_of_createOnDemand created
          exact (Lattice.find?_setValence 1).trans (made missing)
  | defined defined =>
      cases defined with
      | concept one => exact found
      | relation =>
          rw [Lattice.find?_setValence, Lattice.find?_createDefined, found]

/-- A type of negations that reading makes takes one argument. -/
theorem Extended.negatesOne (extended : hierarchy.Extended setting later)
    (one : hierarchy.NegatesOne) : later.NegatesOne := by
  intro type valence found asks
  cases known : hierarchy.relations.find? Read.negationLabel with
  | some before =>
      obtain rfl : type = before :=
        Option.some.inj (found.symm.trans (extended.find? known))
      rw [extended.valence? (Lattice.lt_size_of_find? known)] at asks
      exact one type valence known asks
  | none =>
      -- Otherwise the label names the type that has just been made.
      have new : hierarchy.relations.size ≤ type.index := by
        by_contra inside
        refine Lattice.find?_eq_none_iff.mp known type ?_
        rw [← extended.extends_.label type (Nat.lt_of_not_le inside)]
        exact Lattice.find?_eq_some found
      have last (size : later.relations.size = hierarchy.relations.size + 1) :
          type = ⟨hierarchy.relations.size⟩ := by
        have inside := Lattice.lt_size_of_find? found
        rw [size] at inside
        cases type
        exact congrArg TypeRef.mk (Nat.le_antisymm (Nat.le_of_lt_succ inside) new)
      rcases extended with named | @⟨definition, _, defined⟩
      · cases named with
        | conceptType allowed created => simp [known] at found
        | relationType allowed created =>
            obtain ⟨-, rfl, -⟩ := Lattice.eq_of_createOnDemand created
            obtain rfl := last (by simp)
            rw [Lattice.valence?_withType_self] at asks
            cases asks
        | negationType created =>
            obtain ⟨rfl, rfl, -⟩ := Lattice.eq_of_createOnDemand created
            obtain rfl := last (by simp)
            rw [Lattice.valence?_setValence_self (by simp)] at asks
            exact (Option.some.inj asks).symm
      · cases defined with
        | concept one => simp [known] at found
        | relation =>
            obtain rfl := last (by simp)
            have unnamed : (hierarchy.relations.createDefined definition).2.label? _ = none :=
              Lattice.label?_createDefined definition
            have named := Lattice.find?_eq_some found
            simp [unnamed] at named

end Hierarchy

/-! ## One move -/

namespace Model

variable {setting : Setting} {home : Option GraphId} {model later : Model} {first : Nat}
  {relation : RelationId}

/-- Of all relations only the one that is changed is another. -/
theorem field_modifyRelation {α : Type} (model : Model) (id : RelationId)
    {change : Relation → Relation} (field : Relation → α)
    (keeps : ∀ data, field (change data) = field data) (relation : RelationId) :
    field ((model.modifyRelation id change).relation relation) =
      field (model.relation relation) := by
  by_cases here : relation = id
  · subst here
    by_cases inside : relation.index < model.relations.size
    · rw [relation_modifyRelation inside, keeps]
    · rw [relation_of_le (by simpa using Nat.le_of_not_lt inside),
        relation_of_le (Nat.le_of_not_lt inside)]
  · rw [relation_modifyRelation_of_ne here]

/-- A relation with the same type and the same arguments is as it was, since types keep their
valences, the type of negations its name and hidden concepts stay hidden. -/
theorem built_of_same
    (built : (∃ type, (model.relation relation).type = some type ∧
      type.index < model.hierarchy.relations.size) ∧
        (model.Fits relation ∨ model.IsNegation relation))
    (endures : model.Endures later)
    (types : later.hierarchy = model.hierarchy ∨
      model.hierarchy.Extended setting later.hierarchy)
    (type : (later.relation relation).type = (model.relation relation).type)
    (args : (later.relation relation).args = (model.relation relation).args) :
    (∃ type, (later.relation relation).type = some type ∧
      type.index < later.hierarchy.relations.size) ∧
        (later.Fits relation ∨ later.IsNegation relation) := by
  obtain ⟨⟨known, has, inside⟩, kind⟩ := built
  refine ⟨⟨known, type.trans has, Nat.lt_of_lt_of_le inside endures.types⟩, ?_⟩
  have asks : later.hierarchy.relations.valence? known =
      model.hierarchy.relations.valence? known := by
    rcases types with same | extended
    · rw [same]
    · exact extended.valence? inside
  rcases kind with fits | ⟨named, concept, has', found, argument, hidden⟩
  · refine .inl fun other valence has' asks' => ?_
    obtain rfl : other = known := Option.some.inj (has'.symm.trans (type.trans has))
    rw [args]
    exact fits other valence has (asks ▸ asks')
  · refine .inr ⟨named, concept, type.trans has', ?_, args.trans argument, endures.hidden _ hidden⟩
    rcases types with same | extended
    · rw [same, found]
    · exact extended.find? found

/-- A move that makes no relation. -/
theorem Built.of_same (built : model.Built first) (endures : model.Endures later)
    (types : later.hierarchy = model.hierarchy ∨
      model.hierarchy.Extended setting later.hierarchy)
    (size : later.relations.size = model.relations.size)
    (type : ∀ relation, (later.relation relation).type = (model.relation relation).type)
    (args : ∀ relation, (later.relation relation).args = (model.relation relation).args) :
    later.Built first := fun relation from_ inside =>
  built_of_same (built relation from_ (size ▸ inside)) endures types (type relation) (args relation)

/-- One more relation. -/
theorem Built.draft (built : model.Built first) {data : Relation}
    (known : ∃ type, data.type = some type ∧ type.index < model.hierarchy.relations.size)
    (kind : (∀ type valence, data.type = some type →
        model.hierarchy.relations.valence? type = some valence → data.args.length = valence) ∨
      ∃ type concept, data.type = some type ∧
        model.hierarchy.relations.find? Read.negationLabel = some type ∧
        data.args = [concept] ∧ (model.concept concept).hidden = true) :
    (model.drafted data).Built first := by
  intro relation from_ inside
  have made : (model.drafted data).relation relation = _ := relation_drafted relation
  by_cases new : relation.index = model.relations.size
  · rw [if_pos new] at made
    unfold Fits IsNegation
    rw [made]
    exact ⟨known, kind⟩
  · rw [if_neg new] at made
    have before : relation.index < model.relations.size := by
      have size : (model.drafted data).relations.size = model.relations.size + 1 := by
        simp [drafted]
      omega
    have types : (model.drafted data).hierarchy = model.hierarchy ∨
        model.hierarchy.Extended ⟨.cgif, {}⟩ (model.drafted data).hierarchy := .inl rfl
    exact built_of_same (built relation from_ before) (.relations _) types
      (congrArg Relation.type made) (congrArg Relation.args made)

/-- An edit keeps every relation fitting its type. -/
theorem Edited.built (edited : model.Edited setting home later) (built : model.Built first) :
    later.Built first := by
  have endures := edited.endures
  have types := edited.hierarchy.imp_right Hierarchy.Extended.named
  cases edited with
  | relation known fits =>
      refine built.draft ⟨_, rfl, known⟩ (.inl ?_)
      rintro type valence ⟨⟩ asks
      exact fits valence asks
  | negation named hidden =>
      exact built.draft ⟨_, rfl, Lattice.lt_size_of_find? named⟩
        (.inr ⟨_, _, rfl, named, rfl, hidden⟩)
  | note relation comment =>
      refine built.of_same endures types (by simp) (field_modifyRelation _ _ Relation.type ?_)
        (field_modifyRelation _ _ Relation.args ?_) <;> exact fun _ => rfl
  | insert graph relation =>
      refine built.of_same endures types (by simp [addRelation])
        (field_modifyRelation _ _ Relation.type ?_)
        (field_modifyRelation _ _ Relation.args ?_) <;> exact fun _ => rfl
  | _ => exact built.of_same endures types rfl (fun _ => rfl) fun _ => rfl

end Model

namespace Juncture

variable {setting : Setting} {defines : Prop} {juncture later : Juncture} {first : Nat}

/-- A move keeps every relation fitting its type. -/
theorem Moves.built (moves : Moves setting defines juncture later)
    (built : juncture.reader.model.Built first) : later.reader.model.Built first := by
  have endures := moves.endures
  have types := moves.hierarchy
  cases moves with
  | edit edited => exact edited.built built
  | mark foreign =>
      have relations : ∀ (table : MarkerTable) (model : Model),
          (table.markerFor foreign model).2.2.relations = model.relations := fun table model => by
        unfold MarkerTable.markerFor
        split <;> rfl
      refine built.of_same endures types (congrArg Array.size (relations _ _)) (fun _ => ?_)
        fun _ => ?_ <;> exact congrArg _ (congrArg (·[_]?.getD default) (relations _ _))
  | refer =>
      refine built.of_same endures types (congrArg Array.size (Model.relations_setReferent _))
        (fun _ => ?_) fun _ => ?_ <;>
          exact congrArg _ (congrArg (·[_]?.getD default) (Model.relations_setReferent _))
  | join denotes seated added =>
      rcases Model.eq_of_addToCorefSet added with ⟨-, rfl⟩ | ⟨-, rfl⟩ <;>
        exact built.of_same endures types rfl (fun _ => rfl) fun _ => rfl
  | @define home =>
      cases home <;> exact built.of_same endures types rfl (fun _ => rfl) fun _ => rfl
  | _ => exact built.of_same endures types rfl (fun _ => rfl) fun _ => rfl

/-! ## Any number of moves -/

/-- Every relation that has been read has a type that it fits, or is that of a negation. -/
theorem Leads.built (leads : Leads setting defines juncture later)
    (built : juncture.reader.model.Built first) : later.reader.model.Built first := by
  induction leads with
  | refl => exact built
  | tail _ moves ih => exact moves.built ih

/-- The type of negations goes on to take one argument, wherever reading leads. -/
theorem Leads.negatesOne (leads : Leads setting defines juncture later)
    (one : juncture.reader.model.hierarchy.NegatesOne) :
    later.reader.model.hierarchy.NegatesOne := by
  induction leads with
  | refl => exact one
  | tail _ moves ih =>
      rcases moves.hierarchy with same | extended
      · rw [same]
        exact ih
      · exact extended.negatesOne ih

end Juncture

/-! ## Graphs -/

namespace Session

/-- Every relation and actor that is made while a graph is read has as many arguments as its type
asks for, or is that of a negation and has one.  If the type of negations was not declared, or
with one argument or any number, the relations of negations have as many as it asks for too. -/
theorem valence_parseGraph (session : Session) (model : Model) (form : Notation) (source : String)
    {relation : RelationId} (made : model.relations.size ≤ relation.index)
    (inside : relation.index < (session.parseGraph model form source).model.relations.size) :
    ((session.parseGraph model form source).model.Fits relation ∨
      (session.parseGraph model form source).model.IsNegation relation) ∧
    (model.hierarchy.NegatesOne →
      (session.parseGraph model form source).model.Fits relation) := by
  obtain ⟨start, last, same, ends, -, path, -⟩ := comes_parseGraph session model form source
  -- No relation has been made by this text when it begins.
  have began : start.model.Built start.model.relations.size :=
    fun _ from_ before => absurd before (Nat.not_lt.mpr from_)
  rw [← ends] at inside ⊢
  have ⟨known, kind⟩ := path.built began relation (same ▸ made) inside
  refine ⟨kind, fun one => kind.elim id ?_⟩
  rintro ⟨type, concept, has, found, args, -⟩ other valence has' asks
  obtain rfl : other = type := Option.some.inj (has'.symm.trans has)
  rw [args]
  exact (path.negatesOne (same ▸ one) other valence found asks).symm

/-- A relation of a chain and one of a negation, in a hierarchy that declares both types. -/
theorem valence_parseGraph_chain :
    let declared := do
      let (_, hierarchy) ← ({} : Hierarchy).declareRelation "On" 2 []
      hierarchy.declareRelation "Neg" 1 []
    let model : Model := { hierarchy := declared.toOption.elim {} Prod.snd }
    let later := ((Session.withOptions {}).parseGraph model .linear
      "[Cat] -> (On) -> [Mat]. ~[[Dog]]").model
    model.hierarchy.NegatesOne ∧ later.relations.size = 2 ∧
      later.hierarchy.relations.valence? ⟨2⟩ = some 2 ∧
      later.hierarchy.relations.valence? ⟨3⟩ = some 1 ∧
      (later.Fits ⟨0⟩ ∨ later.IsNegation ⟨0⟩) ∧ later.Fits ⟨1⟩ := by
  intro declared model later
  have one : model.hierarchy.NegatesOne := by
    intro type valence found asks
    have known : model.hierarchy.relations.find? Read.negationLabel = some ⟨3⟩ := by
      decide +kernel
    obtain rfl := Option.some.inj (known.symm.trans found)
    have asked : model.hierarchy.relations.valence? ⟨3⟩ = some 1 := by decide +kernel
    exact Option.some.inj (asks.symm.trans asked)
  have made (relation : RelationId) (inside : relation.index < later.relations.size) :=
    valence_parseGraph (.withOptions {}) model .linear "[Cat] -> (On) -> [Mat]. ~[[Dog]]"
      (Nat.zero_le relation.index) inside
  exact ⟨one, by decide +kernel, by decide +kernel, by decide +kernel,
    (made ⟨0⟩ (by decide +kernel)).1, (made ⟨1⟩ (by decide +kernel)).2 one⟩

/-- The relation of a negation does not fit a type of negations that is declared with two
arguments: no other place makes a relation without a check of the valence. -/
theorem valence_of_negation_unchecked :
    ¬∀ (session : Session) (model : Model) (form : Notation) (source : String) (graph : GraphId),
      (session.parseGraph model form source).result = .ok graph →
      ∀ relation : RelationId, model.relations.size ≤ relation.index →
        relation.index < (session.parseGraph model form source).model.relations.size →
        (session.parseGraph model form source).model.Fits relation := by
  intro claimed
  let declared := ({} : Hierarchy).declareRelation "Neg" 2 []
  let model : Model := { hierarchy := declared.toOption.elim {} Prod.snd }
  have fits := claimed (.withOptions {}) model .cgif "~[[Cat]]" ⟨0⟩ (by decide +kernel) ⟨0⟩
    (Nat.zero_le _) (by decide +kernel)
  exact absurd (fits ⟨2⟩ 2 (by decide +kernel) (by decide +kernel)) (by decide +kernel)

end Session

end ConceptualGraph

end
