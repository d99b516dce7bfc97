/-
Module: ConceptualGraph.Proofs.Reading.Defined
Purpose: The definitions that texts give to types: each parameter stands for a concept of its type
  that lies directly in the body, and parameters stand for one concept exactly if they have one
  label.
Main exports: Definition.WellTyped, Definition.Faithful, Reader.Faithful, Juncture.Leads.faithful,
  Juncture.Leads.accounts, Session.wellTyped_of_parsed, Session.faithful_of_parsed
-/
import ConceptualGraph.Proofs.Reading.Anchored
import ConceptualGraph.Proofs.Reading.Resolved
import ConceptualGraph.Proofs.Reading.Valence

section

open Relation (ReflTransGen)

namespace ConceptualGraph

/-! ## Definitions -/

/-- What a parameter stands for.  With a body this is a concept of the declared type that lies
directly in the body, without one it is nothing. -/
def Parameter.IsLinked (parameter : Parameter) (model : Model) : Option GraphId → Prop
  | none => parameter.concept = none
  | some body => ∃ concept, parameter.concept = some concept ∧
      model.encloses body concept = true ∧ (model.concept concept).type = some parameter.type

/-- Each parameter of a definition stands for a concept as its declaration says. -/
def Definition.WellTyped (definition : Definition) (model : Model) : Prop :=
  ∀ parameter ∈ definition.parameters, parameter.IsLinked model definition.body

/-- Where a definition has a body, its parameters stand for one concept exactly if they have one
label. -/
def Definition.Faithful (definition : Definition) : Prop :=
  definition.body ≠ none → ∀ first ∈ definition.parameters, ∀ second ∈ definition.parameters,
    (first.concept = second.concept ↔ first.label = second.label)

/-- A concept keeps its type and its place. -/
theorem Definition.WellTyped.endures {definition : Definition} {model later : Model}
    (typed : definition.WellTyped model) (endures : model.Endures later) :
    definition.WellTyped later := by
  intro parameter member
  have linked := typed parameter member
  unfold Parameter.IsLinked at linked ⊢
  split at linked
  · exact linked
  · obtain ⟨concept, stands, lies, type⟩ := linked
    refine ⟨concept, stands, ?_, endures.typed _ _ type⟩
    exact beq_iff_eq.mpr (endures.stands _ _ (beq_iff_eq.mp lies))

/-- Whether a definition stands for as many concepts as it has parameters. -/
def Definition.IsDistinct (definition : Definition) : Prop :=
  (definition.parameters.map Parameter.concept).Nodup

/-- No two parameters of a faithful definition stand for one concept exactly if no two have one
label. -/
theorem Definition.Faithful.isDistinct_iff {definition : Definition}
    (faithful : definition.Faithful) (body : definition.body ≠ none) :
    definition.IsDistinct ↔ (definition.parameters.map Parameter.label).Nodup := by
  have agree := faithful body
  rw [IsDistinct, List.Nodup, List.Nodup, List.pairwise_map, List.pairwise_map]
  exact List.Pairwise.iff_of_mem fun first second => not_congr (agree _ first _ second)

/-! ## Labels that keep concepts apart -/

/-- Labels denote what is in the arena, and different labels are defined by different concepts. -/
structure Reader.Faithful (reader : Reader) : Prop where
  known : ∀ label target, .binding label target ∈ reader.labels.scope →
    reader.model.Holds target ∧
      (target.defining reader.model).index < reader.model.concepts.size
  apart : ∀ label target other further, .binding label target ∈ reader.labels.scope →
    .binding other further ∈ reader.labels.scope →
    target.defining reader.model = further.defining reader.model → label = other

namespace Target

variable {model later : Model} {target : Target}

/-- A set keeps the concept that defines it. -/
theorem defining_retained (retains : model.RetainsSets later) (holds : model.Holds target) :
    target.defining later = target.defining model := by
  cases target with
  | concept id => rfl
  | set id => exact (retains id holds).2

theorem defining_newCorefSet (model : Model) (concept : ConceptId) :
    (Target.set (model.newCorefSet concept).1).defining (model.newCorefSet concept).2 = concept :=
  (Read.newCorefSet_defines model concept).2

end Target

namespace Reader.Faithful

variable {reader later : Reader}

/-- Where no label is bound, nothing is denoted. -/
theorem of_unbound (unbound : ∀ label target, .binding label target ∉ reader.labels.scope) :
    reader.Faithful where
  known label target member := absurd member (unbound label target)
  apart label target _ _ member := absurd member (unbound label target)

/-- No label is bound, and the arena only grows. -/
theorem mono (faithful : reader.Faithful) (endures : reader.model.Endures later.model)
    (retains : reader.model.RetainsSets later.model)
    (bound : ∀ label target, .binding label target ∈ later.labels.scope →
      .binding label target ∈ reader.labels.scope) : later.Faithful where
  known label target member := by
    obtain ⟨holds, inside⟩ := faithful.known label target (bound label target member)
    rw [Target.defining_retained retains holds]
    refine ⟨?_, Nat.lt_of_lt_of_le inside endures.concepts⟩
    cases target with
    | concept id => exact Nat.lt_of_lt_of_le holds endures.concepts
    | set id => exact (retains id holds).1
  apart label target other further first second same := by
    have first := bound label target first
    have second := bound other further second
    rw [Target.defining_retained retains (faithful.known _ _ first).1,
      Target.defining_retained retains (faithful.known _ _ second).1] at same
    exact faithful.apart _ _ _ _ first second same

/-- A label is bound to what no other label denotes. -/
theorem bind (faithful : reader.Faithful) {label : String} {target : Target}
    (holds : reader.model.Holds target)
    (inside : (target.defining reader.model).index < reader.model.concepts.size)
    (alone : ∀ other further, .binding other further ∈ reader.labels.scope →
      target.defining reader.model = further.defining reader.model → label = other) :
    (reader.withLabels (reader.labels.bind label target)).Faithful where
  known bound denoted member := by
    rcases LabelTable.mem_scope_bind member with ⟨rfl, rfl⟩ | former
    · exact ⟨holds, inside⟩
    · exact faithful.known bound denoted former
  apart bound denoted other further first second same := by
    rcases LabelTable.mem_scope_bind first with ⟨rfl, rfl⟩ | former
    · rcases LabelTable.mem_scope_bind second with ⟨rfl, rfl⟩ | also
      · rfl
      · exact alone other further also same
    · rcases LabelTable.mem_scope_bind second with ⟨rfl, rfl⟩ | also
      · exact (alone bound denoted former same.symm).symm
      · exact faithful.apart _ _ _ _ former also same

end Reader.Faithful

namespace Juncture

variable {setting : Setting} {defines : Prop} {juncture later : Juncture}

/-- No move gives one concept to two labels: a label is bound to a concept that is made for it, or
to a set that the concept defines which it denoted. -/
theorem Moves.faithful (moves : Moves setting defines juncture later)
    (faithful : juncture.reader.Faithful) : later.reader.Faithful := by
  have endures := moves.endures
  have retains := moves.retainsSets
  cases moves with
  | past | edit | mark | join | refer | beginBody | endBody =>
      exact faithful.mono endures retains fun _ _ => id
  | enter | beginDefinition =>
      exact faithful.mono endures retains fun _ _ member =>
        (List.mem_cons.mp member).resolve_left nofun
  | leave | conclude =>
      exact faithful.mono endures retains fun _ _ member => LabelTable.scope_pop_subset _ member
  | @define home homes reader label type unbound =>
      have grown : (reader.withModel (reader.model.conceive home type)).Faithful :=
        faithful.mono endures retains fun _ _ => id
      have made : reader.model.concepts.size < (reader.model.conceive home type).concepts.size := by
        cases home <;> simp [Model.conceive, Model.addConcept]
      refine grown.bind made made fun other further member same => ?_
      -- What was denoted before was there before.
      have former := faithful.known other further member
      rw [← Target.defining_retained retains former.1] at former
      exact absurd former.2 (Nat.not_lt.mpr (Nat.le_of_eq (congrArg ConceptId.index same)))
  | @promote homes reader label concept denotes =>
      have member := LabelTable.mem_of_target? denotes
      have grown : (reader.withModel (reader.model.newCorefSet concept).2).Faithful :=
        faithful.mono endures retains fun _ _ => id
      have defining := Target.defining_newCorefSet reader.model concept
      refine grown.bind (by simp [Model.Holds]) ?_ fun other further also same => ?_
      · exact lt_of_eq_of_lt (congrArg ConceptId.index defining) (grown.known _ _ member).2
      · exact grown.apart _ _ _ _ member also (defining.symm.trans same)

/-- Moves lead from one faithful reader to another. -/
theorem Leads.faithful (leads : Leads setting defines juncture later)
    (faithful : juncture.reader.Faithful) : later.reader.Faithful := by
  induction leads with
  | refl => exact faithful
  | tail _ moves ih => exact moves.faithful ih

end Juncture

/-! ## Linking -/

namespace Read

variable {reader : Reader}

/-- What a step gives for each member of a list when it changes nothing. -/
theorem exists_of_mapM_ok {α β : Type} {step : α → Read β}
    (looks : ∀ argument, Looks (step argument))
    {arguments : List α} {results : List β}
    (ran : arguments.mapM step reader = .ok results reader) :
    ∀ result ∈ results, ∃ argument ∈ arguments, step argument reader = .ok result reader := by
  induction arguments generalizing results with
  | nil =>
      rw [List.mapM_nil] at ran
      cases ran
      exact nofun
  | cons argument arguments ih =>
      rw [List.mapM_cons] at ran
      obtain ⟨first, between, began, ran⟩ := exists_of_bind_ok ran
      obtain rfl := (looks argument).of_ok began
      obtain ⟨others, last, went, ran⟩ := exists_of_bind_ok ran
      obtain rfl := (Looks.mapM arguments looks).of_ok went
      cases ran
      intro result member
      rcases List.mem_cons.mp member with rfl | member
      · exact ⟨argument, List.mem_cons_self, began⟩
      · obtain ⟨declared, listed, same⟩ := ih went result member
        exact ⟨declared, List.mem_cons_of_mem _ listed, same⟩

/-- A parameter without a body stands for nothing. -/
theorem linkParameter_none {declared : Declared} {parameter : Parameter}
    (linked : linkParameter none declared reader = .ok parameter reader) :
    parameter.concept = none := by
  cases linked
  rfl

/-- A parameter of a definition with a body stands for the concept that defines its label, if this
lies directly in the body and has the declared type. -/
theorem linkParameter_some {graph : GraphId} {declared : Declared} {parameter : Parameter}
    (linked : linkParameter (some graph) declared reader = .ok parameter reader) :
    ∃ target, reader.labels.target? parameter.label = some target ∧
      parameter.concept = some (target.defining reader.model) ∧
      reader.model.encloses graph (target.defining reader.model) = true ∧
      (reader.model.concept (target.defining reader.model)).type = some parameter.type := by
  obtain ⟨concept, between, found, given⟩ := exists_of_bind_ok linked
  obtain ⟨defining, middle, looked, checked⟩ := exists_of_bind_ok found
  cases denotes : reader.labels.target? declared.label with
  | none =>
      have missing : definingConcept? declared.label reader = .ok none reader := by
        unfold definingConcept?
        rw [bind_of_ok (rfl : labels reader = .ok reader.labels reader), denotes]
        rfl
      cases looked.symm.trans missing
      cases checked
  | some target =>
      cases looked.symm.trans (definingConcept?_eq denotes)
      dsimp only at checked
      rw [bind_of_ok (rfl : Read.model reader = .ok reader.model reader)] at checked
      split at checked
      · cases checked
      · next lies =>
        split at checked
        · cases checked
        · next typed =>
          cases checked
          cases given
          exact ⟨target, denotes, rfl, by simpa using lies, not_not.mp typed⟩

/-- The parameters of a definition whose linking has succeeded. -/
theorem wellTyped_of_linked {declared : List Declared} {definition : Definition}
    (linked : declared.mapM (linkParameter definition.body) reader =
      .ok definition.parameters reader) : definition.WellTyped reader.model := by
  intro parameter member
  obtain ⟨parameter', _, given⟩ :=
    exists_of_mapM_ok (fun _ => looks_linkParameter _ _) linked parameter member
  cases body : definition.body with
  | none => exact linkParameter_none (body ▸ given)
  | some graph =>
      obtain ⟨target, _, stands, lies, type⟩ := linkParameter_some (body ▸ given)
      exact ⟨_, stands, lies, type⟩

/-- Where labels keep concepts apart, so do the parameters that are linked by them. -/
theorem faithful_of_linked {declared : List Declared} {definition : Definition}
    (faithful : reader.Faithful)
    (linked : declared.mapM (linkParameter definition.body) reader =
      .ok definition.parameters reader) : definition.Faithful := by
  intro some_ first listed second also
  obtain ⟨graph, body⟩ := Option.ne_none_iff_exists'.mp some_
  have linking := exists_of_mapM_ok (fun _ => looks_linkParameter _ _) linked
  obtain ⟨one, _, given⟩ := linking first listed
  obtain ⟨two, _, given'⟩ := linking second also
  obtain ⟨target, denotes, stands, -⟩ := linkParameter_some (body ▸ given)
  obtain ⟨further, denotes', stands', -⟩ := linkParameter_some (body ▸ given')
  rw [stands, stands', Option.some.injEq]
  constructor
  · exact faithful.apart _ _ _ _ (LabelTable.mem_of_target? denotes)
      (LabelTable.mem_of_target? denotes')
  · intro same
    rw [same, denotes'] at denotes
    obtain rfl := Option.some.inj denotes
    rfl

end Read

/-! ## Types with definitions -/

/-- Every definition of a hierarchy was there before or is of a kind.  One that is new has one
parameter if it is that of a concept type, and as many as the type asks for if it is that of a
relation type. -/
structure Hierarchy.Accounts (former hierarchy : Hierarchy) (kind : Definition → Prop) : Prop where
  concepts : ∀ type definition, (hierarchy.concepts.node type).definition = some definition →
    (former.concepts.node type).definition = some definition ∨
      definition.parameters.length = 1 ∧ kind definition
  relations : ∀ type definition, (hierarchy.relations.node type).definition = some definition →
    (former.relations.node type).definition = some definition ∨
      hierarchy.relations.valence? type = some definition.parameters.length ∧ kind definition

/-- A definition is that of a type which did not have it before. -/
def Hierarchy.Gains (former hierarchy : Hierarchy) (definition : Definition) : Prop :=
  (∃ type, (hierarchy.concepts.node type).definition = some definition ∧
    (former.concepts.node type).definition ≠ some definition) ∨
  ∃ type, (hierarchy.relations.node type).definition = some definition ∧
    (former.relations.node type).definition ≠ some definition

namespace Lattice

variable {kind : TypeKind} {lattice : Lattice kind} {type : TypeRef kind} {definition : Definition}

/-- A type with a definition is one of the lattice. -/
theorem lt_size_of_definition (defined : (lattice.node type).definition = some definition) :
    type.index < lattice.size := by
  by_contra outside
  have missing : lattice.nodes[type.index]? = none :=
    Array.getElem?_eq_none (Nat.le_of_not_lt outside)
  simp [node, missing] at defined

/-- The extremes have no definitions. -/
theorem definition_withExtremes (top bottom : String) (type : TypeRef kind) :
    ((withExtremes top bottom).node type).definition = none := by
  rcases type with ⟨_ | _ | _⟩ <;> rfl

/-- A type that is named has no definition. -/
theorem definition_withType (label : String) (type : TypeRef kind) :
    ((lattice.withType label).node type).definition = (lattice.node type).definition := by
  have outside : (lattice.node ⟨lattice.size⟩).definition = none := by
    simp [node, size]
  change ((lattice.insert (some label) [top] [bottom]).node type).definition = _
  rw [field_insert TypeNode.definition (fun _ _ => rfl) fun _ _ => rfl]
  split
  · next new => rw [new, outside]
  · rfl

/-- The only type that gets a definition is the new one. -/
theorem definition_createDefined_eq (given : Definition) (type : TypeRef kind) :
    ((lattice.createDefined given).2.node type).definition =
      if type = ⟨lattice.size⟩ then some given else (lattice.node type).definition := by
  split
  · next new =>
    subst new
    exact definition_createDefined given
  · next old =>
    rw [createDefined_snd, node_modify_of_ne old]
    change ((lattice.insert none [top] [bottom]).node type).definition = _
    rw [field_insert TypeNode.definition (fun _ _ => rfl) fun _ _ => rfl, if_neg old]

end Lattice

namespace Hierarchy

variable {setting : Setting} {former hierarchy later : Hierarchy}
  {kind stricter : Definition → Prop}
  {definition : Definition}

/-- Naming a type gives no type a definition. -/
theorem Named.definitions (named : hierarchy.Named setting later) :
    (∀ type, (later.concepts.node type).definition = (hierarchy.concepts.node type).definition) ∧
      ∀ type, (later.relations.node type).definition =
        (hierarchy.relations.node type).definition := by
  cases named with
  | conceptType allowed created =>
      obtain ⟨-, rfl, -⟩ := Lattice.eq_of_createOnDemand created
      exact ⟨Lattice.definition_withType _, fun _ => rfl⟩
  | relationType allowed created =>
      obtain ⟨-, rfl, -⟩ := Lattice.eq_of_createOnDemand created
      exact ⟨fun _ => rfl, Lattice.definition_withType _⟩
  | negationType created =>
      obtain ⟨-, rfl, -⟩ := Lattice.eq_of_createOnDemand created
      exact ⟨fun _ => rfl, fun type =>
        Lattice.definition_setValence.trans (Lattice.definition_withType _ _)⟩

namespace Accounts

theorem refl (hierarchy : Hierarchy) : hierarchy.Accounts hierarchy kind :=
  ⟨fun _ _ => .inl, fun _ _ => .inl⟩

theorem mono (accounts : former.Accounts hierarchy stricter)
    (weaken : ∀ definition, stricter definition → kind definition) :
    former.Accounts hierarchy kind where
  concepts type definition defined :=
    (accounts.concepts type definition defined).imp_right (.imp_right (weaken _))
  relations type definition defined :=
    (accounts.relations type definition defined).imp_right (.imp_right (weaken _))

/-- A type that is named needs no account. -/
theorem named (accounts : former.Accounts hierarchy kind) (named : hierarchy.Named setting later) :
    former.Accounts later kind where
  concepts type definition defined :=
    accounts.concepts type definition (named.definitions.1 type ▸ defined)
  relations type definition defined := by
    rw [named.definitions.2 type] at defined
    rw [Extended.valence? (.named named) (Lattice.lt_size_of_definition defined)]
    exact accounts.relations type definition defined

/-- A definition that is kept is accounted for along with all before. -/
theorem defined (accounts : former.Accounts hierarchy kind)
    (defined : hierarchy.Defined definition later) (holds : kind definition) :
    former.Accounts later kind := by
  have extended : hierarchy.Extended ⟨.cgif, {}⟩ later := .defined defined
  cases defined with
  | concept one =>
      refine ⟨fun type other here => ?_, accounts.relations⟩
      rw [Lattice.definition_createDefined_eq] at here
      split at here
      · obtain rfl := Option.some.inj here
        exact .inr ⟨one, holds⟩
      · exact accounts.concepts type other here
  | relation =>
      refine ⟨accounts.concepts, fun type other here => ?_⟩
      rw [Lattice.definition_setValence, Lattice.definition_createDefined_eq] at here
      split at here
      · next new =>
        subst new
        obtain rfl := Option.some.inj here
        exact .inr ⟨Lattice.valence?_setValence_self (by simp) _, holds⟩
      · rw [extended.valence? (Lattice.lt_size_of_definition here)]
        exact accounts.relations type other here

end Accounts

end Hierarchy

namespace Juncture

variable {setting : Setting} {defines : Prop} {juncture later : Juncture}

/-- However reading goes on, every definition was there before or is well typed; and if labels kept
concepts apart before, it is faithful. -/
theorem Leads.accounts (leads : Leads setting defines juncture later) :
    juncture.reader.model.hierarchy.Accounts later.reader.model.hierarchy fun definition =>
      definition.WellTyped later.reader.model ∧
        (juncture.reader.Faithful → definition.Faithful) := by
  induction leads with
  | refl => exact .refl _
  | @tail middle last path moves ih =>
      have grown : juncture.reader.model.hierarchy.Accounts middle.reader.model.hierarchy
          fun definition => definition.WellTyped last.reader.model ∧
            (juncture.reader.Faithful → definition.Faithful) :=
        ih.mono fun _ holds => ⟨holds.1.endures moves.endures, holds.2⟩
      rcases moves.hierarchy_cases with same | named | ⟨declared, definition, -, linked, defined⟩
      · rw [same]
        exact grown
      · exact grown.named named
      · refine grown.defined defined ⟨?_, fun faithful => ?_⟩
        · exact (Read.wellTyped_of_linked linked).endures moves.endures
        · exact Read.faithful_of_linked (Leads.faithful path faithful) linked

end Juncture

/-! ## Calls -/

namespace Session

variable {session : Session} {options : Options} {model later : Model} {form : Notation}
  {failure : Option Error}

/-- Whatever a call reads, and whether it succeeds or fails: where no type had a definition before,
each one is well typed.  A concept type that has one has one parameter, and a relation type asks for
as many arguments as it has parameters. -/
theorem wellTyped_of_parsed (parsed : session.Parsed model form later failure)
    (concepts : ∀ type, (model.hierarchy.concepts.node type).definition = none)
    (relations : ∀ type, (model.hierarchy.relations.node type).definition = none) :
    (∀ type definition, (later.hierarchy.concepts.node type).definition = some definition →
      definition.parameters.length = 1 ∧ definition.WellTyped later) ∧
    ∀ type definition, (later.hierarchy.relations.node type).definition = some definition →
      later.hierarchy.relations.valence? type = some definition.parameters.length ∧
        definition.WellTyped later := by
  obtain ⟨homes, start, last, rfl, rfl, -, path, -⟩ := comes_of_parsed parsed
  have accounts := path.accounts
  constructor
  · intro type definition defined
    have ⟨one, typed, _⟩ := (accounts.concepts type definition defined).resolve_left
      fun before => by simp [concepts type] at before
    exact ⟨one, typed⟩
  · intro type definition defined
    have ⟨asks, typed, _⟩ := (accounts.relations type definition defined).resolve_left
      fun before => by simp [relations type] at before
    exact ⟨asks, typed⟩

/-- A text that fails after it has defined two types: the body of the one uses a parameter in a
nested graph, so that its label comes to denote a coreference set, and the other has no body. -/
theorem wellTyped_of_parsed_promoted :
    let source := "((lambda (A *x, B *y) [A: *x] [B: *y] [(lambda (A *z)): [B: ?x]]) [A] [B]) ("
    let later := (Call.graph.after (.withOptions {}) {} .cgif source).2
    let related : Definition :=
      ⟨[⟨⟨2⟩, "x", some ⟨0⟩⟩, ⟨⟨3⟩, "y", some ⟨1⟩⟩], some ⟨1⟩⟩
    let described : Definition := ⟨[⟨⟨2⟩, "z", none⟩], none⟩
    Call.graph.failure? (.withOptions {}) {} .cgif source ≠ none ∧ later.corefSets.size = 1 ∧
      (later.hierarchy.relations.node ⟨2⟩).definition = some related ∧
      (later.hierarchy.concepts.node ⟨4⟩).definition = some described ∧
      related.WellTyped later ∧ described.WellTyped later ∧
      later.hierarchy.relations.valence? ⟨2⟩ = some 2 := by
  intro source later related described
  have parsed : (Session.withOptions {}).Parsed {} .cgif later _ := .text .graph source
  have ⟨concepts, relations⟩ := wellTyped_of_parsed parsed
    (Lattice.definition_withExtremes "Universal" "Absurd")
    (Lattice.definition_withExtremes "Link" "AbsurdLink")
  have ⟨failed, sets, first, second⟩ :
      Call.graph.failure? (.withOptions {}) {} .cgif source ≠ none ∧ later.corefSets.size = 1 ∧
        (later.hierarchy.relations.node ⟨2⟩).definition = some related ∧
        (later.hierarchy.concepts.node ⟨4⟩).definition = some described := by decide +kernel
  exact ⟨failed, sets, first, second, (relations _ _ first).2, (concepts _ _ second).2,
    (relations _ _ first).1⟩

/-- In a session without labels, whatever a call reads, and whether it succeeds or fails: where a
definition that is new has a body, its parameters stand for one concept exactly if they have one
label.  So it stands for as many concepts as it has parameters exactly if no two of these have one
label. -/
theorem faithful_of_parsed (parsed : (Session.withOptions options).Parsed model form later failure)
    {definition : Definition} (new : model.hierarchy.Gains later.hierarchy definition)
    (body : definition.body ≠ none) :
    definition.Faithful ∧
      (definition.IsDistinct ↔ (definition.parameters.map Parameter.label).Nodup) := by
  obtain ⟨homes, start, last, rfl, rfl, bound, path, -⟩ := comes_of_parsed parsed
  have apart : start.Faithful := .of_unbound fun label target member =>
    absurd (bound label target member) List.not_mem_nil
  have faithful : definition.Faithful := by
    rcases new with ⟨type, defined, before⟩ | ⟨type, defined, before⟩
    · exact ((path.accounts.concepts type _ defined).resolve_left before).2.2 apart
    · exact ((path.accounts.relations type _ defined).resolve_left before).2.2 apart
  exact ⟨faithful, faithful.isDistinct_iff body⟩

/-- A relation of a chain is defined with two parameters, whose labels occur as arguments in the
body. -/
theorem faithful_of_parsed_chain :
    let source := "[A] -> ((lambda (A *x, B *y) [A: *x] -> (R) -> [B: *y])) -> [B]."
    let later := (Call.graph.after (.withOptions {}) {} .linear source).2
    let related : Definition :=
      ⟨[⟨⟨2⟩, "x", some ⟨1⟩⟩, ⟨⟨3⟩, "y", some ⟨2⟩⟩], some ⟨1⟩⟩
    Call.graph.failure? (.withOptions {}) {} .linear source = none ∧
      (later.hierarchy.relations.node ⟨3⟩).definition = some related ∧ related.Faithful ∧
      related.IsDistinct := by
  intro source later related
  have parsed : (Session.withOptions {}).Parsed {} .linear later _ := .text .graph source
  have ⟨succeeds, defined⟩ : Call.graph.failure? (.withOptions {}) {} .linear source = none ∧
      (later.hierarchy.relations.node ⟨3⟩).definition = some related := by decide +kernel
  have new : Hierarchy.Gains {} later.hierarchy related := .inr ⟨⟨3⟩, defined, by decide +kernel⟩
  have ⟨faithful, distinct⟩ := faithful_of_parsed parsed new nofun
  exact ⟨succeeds, defined, faithful, distinct.mpr (by decide)⟩

/-- A label that two parameters share is no error: both stand for the one concept that it denotes
in the body, and the relation type asks for two arguments. -/
theorem parameters_share_label :
    ¬∀ (source : String) (graph : GraphId) (type : RelationType) (definition : Definition),
      ((Session.withOptions {}).parseGraph {} .cgif source).result = .ok graph →
      (((Session.withOptions {}).parseGraph {} .cgif source).model.hierarchy.relations.node
        type).definition = some definition →
      (definition.parameters.map Parameter.label).Nodup ∧
        (definition.body ≠ none → definition.IsDistinct) := by
  intro claimed
  have shared := claimed "((lambda (T *x, T *x) [T: *x]) [A] [B])" ⟨0⟩ ⟨2⟩
    ⟨[⟨⟨2⟩, "x", some ⟨0⟩⟩, ⟨⟨2⟩, "x", some ⟨0⟩⟩], some ⟨1⟩⟩ (by decide +kernel)
    (by decide +kernel)
  exact absurd shared.1 (by decide)

end Session

end ConceptualGraph

end
