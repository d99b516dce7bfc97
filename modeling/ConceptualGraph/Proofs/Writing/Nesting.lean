/-
Module: ConceptualGraph.Proofs.Writing.Nesting
Purpose: The text of a graph in the interchange form has at most two brackets for each concept
  around a node: that of the concept, and that of the relation in which it is written in place.
Main exports: Phrase.Within, Write.yields_graphItems
-/
import ConceptualGraph.Proofs.Copy.Nested
import ConceptualGraph.Proofs.Model.Depth
import ConceptualGraph.Proofs.Token.Nesting
import ConceptualGraph.Proofs.Token.Phrase
import ConceptualGraph.Proofs.Writing.Plan
import ConceptualGraph.Writing.Graph

namespace ConceptualGraph

open Token (Brackets isFlat)

/-! ## Phrases -/

namespace Phrase

/-- The brackets of a phrase match, and at most so many stand inside each other. -/
def Within (levels : Nat) (phrase : Phrase) : Prop :=
  ∃ depth ≤ levels, Brackets depth phrase.tokens

namespace Within

variable {α : Type} {levels more : Nat} {front back phrase : Phrase} {phrases : List Phrase}
  {token : Token} {opener closer : Punct}

theorem mono (within : phrase.Within levels) (le : levels ≤ more) : phrase.Within more :=
  within.imp fun _ ⟨few, matched⟩ => ⟨few.trans le, matched⟩

theorem of_flat (flat : ∀ token ∈ phrase.tokens, token.isFlat = true) : phrase.Within levels :=
  ⟨0, Nat.zero_le _, .of_flat flat⟩

theorem nil : Within levels [] := of_flat nofun

theorem space : Within levels space := of_flat nofun

theorem ofToken (flat : token.isFlat = true) : (Phrase.ofToken token).Within levels :=
  of_flat (by simpa using flat)

theorem append (first : front.Within levels) (second : back.Within levels) :
    (front ++ back).Within levels := by
  obtain ⟨depth, few, matched⟩ := first
  obtain ⟨other, less, also⟩ := second
  exact ⟨max depth other, max_le few less, by rw [tokens_append]; exact .append matched also⟩

/-- Brackets around a phrase add one level. -/
theorem enclose (pair : opener.closer? = some closer) (within : phrase.Within levels) :
    (mark opener ++ phrase ++ mark closer).Within (levels + 1) := by
  obtain ⟨depth, few, matched⟩ := within
  exact ⟨depth + 1, Nat.succ_le_succ few, by simpa using Brackets.enclose pair matched⟩

/-- Phrases one after the other are within the levels that each of them is within. -/
theorem flatMap {elements : List α} {step : α → Phrase}
    (each : ∀ element ∈ elements, (step element).Within levels) :
    Within levels (elements.flatMap step) := by
  induction elements with
  | nil => exact nil
  | cons element elements ih =>
      obtain ⟨here, others⟩ := List.forall_mem_cons.mp each
      exact here.append (ih others)

/-- Blanks between phrases add nothing. -/
theorem join (separator : String) (each : ∀ phrase ∈ phrases, phrase.Within levels) :
    (Phrase.join separator phrases).Within levels := by
  induction phrases with
  | nil => exact nil
  | cons phrase phrases ih =>
      obtain ⟨here, others⟩ := List.forall_mem_cons.mp each
      cases phrases with
      | nil => simpa using here
      | cons second phrases =>
          rw [join_cons_cons]
          exact here.append (ih others : Within levels (.blank separator :: _))

end Within

end Phrase

/-! ## Models -/

/-- A model that can be written with few brackets inside each other: few concepts lie around every
node, and every type of a node has a label. -/
structure Model.Stacked (source : Notation) (limit : Nat) (model : Model) : Prop extends
    model.Rooted source, model.TypesNamed where
  shallow : model.Shallow limit

/-- The graph that describes a concept lies inside one concept more than the concept does. -/
theorem Model.Sound.depth_descriptor {model : Model} {source : Notation} {concept : ConceptId}
    {graph inner : GraphId} {levels : Nat} (sound : model.Sound source [])
    (stands : (model.concept concept).graph = some graph) (deep : model.Depth graph levels)
    (describes : model.descriptor? concept = some inner) : model.Depth inner (levels + 1) :=
  .inside ((sound.concepts concept (Model.lt_of_descriptor? describes)
    List.not_mem_nil).descriptor inner describes).owner stands deep

/-! ## Steps of writing -/

namespace Write

open Phrase (mark ofToken space)

variable {α : Type} {step : Write α} {post : α → Prop} {model : Model} {inner : Inner} {plan : Plan}
  {concept : ConceptId} {relation : RelationId} {graph : GraphId} {levels limit : Nat}

/-- What a step gives, if it succeeds, has a property. -/
abbrev Yields (step : Write α) (post : α → Prop) : Prop := Maintains (fun _ => True) step post

namespace Yields

theorem any (step : Write α) : Yields step fun _ => True :=
  fun writer _ => (Ensures.trivial step writer).mono fun _ _ _ => ⟨trivial, trivial⟩

theorem inContext (yields : Yields step post) : Yields (inContext step) post :=
  fun _ _ => ensures_inContext.mpr ((yields _ trivial).mono fun _ _ facts => facts)

end Yields

theorem yields_reference (levels : Nat) (concept : ConceptId) :
    Yields (reference model concept) (Phrase.Within levels) := by
  refine .get fun writer => ?_
  split
  · exact .pure (.ofToken rfl)
  · exact .throw
  · exact (Yields.any _).bind fun _ _ => .pure (.ofToken rfl)

/-- A comment has no brackets. -/
theorem within_comment (node : NodeKind) (text : Option String) :
    (comment node text).Within levels := by
  cases text with
  | some text => exact .of_flat (by simp [comment, isFlat])
  | none => exact .nil

theorem within_quantifier (value : Quantifier) : (quantifier value).Within levels := by
  cases value <;> exact .of_flat (by simp [quantifier, isFlat])

theorem within_literal (value : Literal) : (literal value).Within levels := by
  rcases value with (_ | _) | _ | _ <;> exact .of_flat (by simp [literal, numberToken, isFlat])

theorem yields_designator (value : Designator) :
    Yields (designator model value) (Phrase.Within levels) := by
  cases value with
  | literal value => exact .pure (within_literal value)
  | name name => exact .pure (.ofToken rfl)
  | marker marker => exact (Yields.any _).bind fun _ _ => .pure (.ofToken rfl)
  | defined concept => exact yields_reference _ concept

theorem yields_designators (levels : Nat) (value : Option Designator) :
    Yields (concat (fun value => return [← designator model value]) value.toList) fun phrases =>
      ∀ phrase ∈ phrases, phrase.Within levels :=
  maintains_concat fun value _ => (yields_designator value).bind fun _ within =>
    .pure (by simpa using within)

/-! ## Concepts -/

variable {source : Notation} {use : Option LabelUse}

/-- The brackets that may stand around an item of a graph that lies inside so many concepts: two for
every further concept that may lie around a node. -/
def bracketsLeft (limit levels : Nat) : Nat := 2 * (limit - levels)

/-- A concept takes one of the brackets, and the relation in which it is written the other. -/
theorem bracketsLeft_succ (less : levels < limit) :
    bracketsLeft limit (levels + 1) + 2 = bracketsLeft limit levels := by
  unfold bracketsLeft
  omega

section Inner

variable (stacked : model.Stacked source limit)
  (nested : ∀ {graph levels}, model.Depth graph levels → Yields (inner graph) fun items =>
    ∀ item ∈ items, item.Within (bracketsLeft limit levels))

include nested

theorem yields_nestedGraph (deep : model.Depth graph levels) :
    Yields (nestedGraph inner graph) (Phrase.Within (bracketsLeft limit levels)) :=
  .inContext <| (nested deep).bind fun _ items => .pure (.join _ items)

include stacked

variable (deep : model.Depth graph levels)

include deep

section Concept

variable (stands : (model.concept concept).graph = some graph)

include stands

/-- What describes a concept. -/
theorem yields_descriptor :
    Yields (concat (fun graph => return [← nestedGraph inner graph])
      (model.descriptor? concept).toList)
      fun phrases => ∀ phrase ∈ phrases, phrase.Within (bracketsLeft limit (levels + 1)) :=
  maintains_concat fun body member =>
    (yields_nestedGraph nested (stacked.sound.depth_descriptor stands deep
      (Option.mem_toList.mp member))).bind fun _ within => .pure (by simpa using within)

theorem yields_specialContext (label : String) :
    Yields (specialContext inner label (model.descriptor? concept))
      (Phrase.Within (bracketsLeft limit (levels + 1) + 1)) := by
  have bracketed (body : Phrase) (within : body.Within (bracketsLeft limit (levels + 1))) :
      (mark .leftBracket ++ ofToken (.ident label) ++ body ++ mark .rightBracket).Within
        (bracketsLeft limit (levels + 1) + 1) := by
    rw [List.append_assoc (mark _)]
    exact .enclose rfl (.append (.ofToken rfl) within)
  cases described : model.descriptor? concept with
  | none => exact .pure (bracketed [] .nil)
  | some body =>
      exact (yields_nestedGraph nested (stacked.sound.depth_descriptor stands deep described)).bind
        fun _ within => .pure (bracketed _ (.append .space within))

theorem yields_referentParts {referent : Referent}
    (described : (model.concept concept).referent = some referent) :
    Yields (referentParts model inner referent) fun parts =>
      ∀ part ∈ parts, part.Within (bracketsLeft limit (levels + 1)) := by
  have bodies := yields_descriptor stacked nested deep stands
  have same : model.descriptor? concept = referent.descriptor := by
    rw [Model.descriptor?, described]
    rfl
  rw [same] at bodies
  refine (yields_designators (bracketsLeft limit (levels + 1)) _).bind fun designators first =>
    bodies.bind fun graphs second => .pure fun part member => ?_
  rcases List.mem_append.mp member with before | member
  rcases List.mem_append.mp before with quantified | member
  · obtain ⟨value, -, rfl⟩ := Option.mem_map.mp (Option.mem_toList.mp quantified)
    exact within_quantifier value
  · exact first part member
  · exact second part member

/-- A concept nests by one bracket and what its graph does. -/
theorem yields_plainConcept : Yields (plainConcept model inner concept use)
    (Phrase.Within (bracketsLeft limit (levels + 1) + 1)) := by
  unfold plainConcept
  simp only [concat_conceptType stacked.toTypesNamed, pure_bind]
  refine .ite (.bind (.throw : Yields _ fun _ => False) fun _ => False.elim) ?_
  have referents : Yields
      (concat (referentParts model inner) (model.concept concept).referent.toList)
      fun parts => ∀ part ∈ parts, part.Within (bracketsLeft limit (levels + 1)) :=
    maintains_concat fun referent member =>
      yields_referentParts stacked nested deep stands (Option.mem_toList.mp member)
  refine referents.bind fun referent within => .pure ?_
  have type : (typeName model (model.concept concept).type).Within
      (bracketsLeft limit (levels + 1)) := by
    cases (model.concept concept).type <;> exact .of_flat (by simp [typeName, isFlat])
  generalize listed : (use.map fun use => ofToken use.token).toList ++ referent = parts
  have within : ∀ part ∈ parts, part.Within (bracketsLeft limit (levels + 1)) := by
    subst listed
    intro part member
    rcases List.mem_append.mp member with label | member
    · obtain ⟨known, -, rfl⟩ := Option.mem_map.mp (Option.mem_toList.mp label)
      exact .ofToken (by cases known <;> rfl)
    · exact within part member
  have colon : Phrase.Within (bracketsLeft limit (levels + 1)) (if
      (model.concept concept).type.isSome && !parts.isEmpty then mark .colon ++ space else []) := by
    split
    · exact .of_flat (by simp [isFlat])
    · exact .nil
  have whole := Phrase.Within.enclose (rfl : Punct.leftBracket.closer? = some .rightBracket)
    (((type.append colon).append (.join " " within)).append
      (within_comment .concept (model.concept concept).comment))
  simpa only [List.append_assoc] using whole

/-- A concept has its own bracket around what describes it. -/
theorem yields_emitConcept : Yields (emitConcept model inner concept use)
    (Phrase.Within (bracketsLeft limit (levels + 1) + 1)) := by
  refine (Yields.any _).bind fun _ _ => ?_
  split
  · exact yields_specialContext stacked nested deep stands _
  · exact yields_plainConcept stacked nested deep stands

theorem yields_firstEmission (plan : Plan) : Yields (firstEmission model inner plan concept)
    (Phrase.Within (bracketsLeft limit (levels + 1) + 1)) :=
  (Yields.any _).bind fun _ _ => yields_emitConcept stacked nested deep stands

theorem yields_argument (plan : Plan) : Yields (argument model inner plan concept) fun argument =>
    argument.phrase.Within (bracketsLeft limit (levels + 1) + 1) := by
  refine (Yields.any _).bind fun _ _ => .ite ?_ ?_
  · exact (yields_reference _ concept).bind fun _ within => .pure within
  · exact (yields_firstEmission stacked nested deep stands plan).bind fun _ within => .pure within

end Concept

/-! ## Relations -/

omit nested deep in
theorem yields_relationType (levels : Nat) (relation : RelationId) :
    Yields (relationType model inner relation) (Phrase.Within levels) := by
  unfold relationType
  cases typed : (model.relation relation).type with
  | none => exact .throw
  | some type =>
      obtain ⟨label, known⟩ := stacked.relationType relation type typed
      simp only [known]
      exact .pure (.ofToken rfl)

/-- An argument nests no deeper than the concept that it is. -/
theorem yields_arguments (inlined : Option ConceptId) {args : List ConceptId}
    (stands : ∀ argument ∈ args, (model.concept argument).graph = some graph) :
    Yields (arguments model inner plan inlined args) fun args =>
      ∀ argument ∈ args, argument.phrase.Within (bracketsLeft limit (levels + 1) + 1) := by
  have each (args : List ConceptId)
      (stands : ∀ argument ∈ args, (model.concept argument).graph = some graph) :
      Yields (concat (fun concept => return [← argument model inner plan concept]) args) fun args =>
        ∀ argument ∈ args, argument.phrase.Within (bracketsLeft limit (levels + 1) + 1) :=
    maintains_concat fun concept member =>
      (yields_argument stacked nested deep (stands concept member) plan).bind fun _ within =>
        .pure (by simpa using within)
  cases args with
  | nil => exact .pure (by simp)
  | cons first others =>
      obtain ⟨here, rest⟩ := List.forall_mem_cons.mp stands
      unfold arguments
      have both (written : List Argument) (within : ∀ argument ∈ written,
          argument.phrase.Within (bracketsLeft limit (levels + 1) + 1)) : Yields (do
            let rest ← concat (fun concept => return [← argument model inner plan concept]) others
            return written ++ rest) fun args =>
              ∀ argument ∈ args, argument.phrase.Within (bracketsLeft limit (levels + 1) + 1) :=
        (each others rest).bind fun _ more => .pure fun argument member =>
          (List.mem_append.mp member).elim (within argument) (more argument)
      refine .ite ?_ ((each [first] (by simpa using here)).bind both)
      exact (yields_emitConcept stacked nested deep here).bind fun _ within =>
        both _ (by simpa using within)

omit stacked nested deep in
/-- A relation has a bracket around those of its arguments. -/
theorem within_relationPhrase {type : Phrase} {args : List Argument} (named : type.Within levels)
    (within : ∀ argument ∈ args, argument.phrase.Within levels) (relation : RelationId) :
    (relationPhrase model relation type args).Within (levels + 1) := by
  have inside : Phrase.Within levels (args.flatMap fun argument => space ++ argument.phrase) :=
    .flatMap fun argument member => .append .space (within argument member)
  have whole := Phrase.Within.enclose (rfl : Punct.leftParen.closer? = some .rightParen)
    ((named.append inside).append (within_comment .relation (model.relation relation).comment))
  simpa only [relationPhrase, List.append_assoc] using whole

omit stacked nested deep in
/-- Only relations that begin with a concept are written after it. -/
theorem yields_unwritten (relations : List RelationId) :
    Yields (unwritten relations) fun left => ∀ relation ∈ left, relation ∈ relations :=
  .get fun _ => .pure fun _ => List.mem_of_mem_filter

omit nested deep in
theorem stands_of_primary (member : relation ∈ (Plan.ofGraph model graph).primary concept) :
    (model.relation relation).graph = some graph :=
  ((Plan.mem_links stacked.sound.listed).mp (Plan.mem_primary.mp member).1).1

omit nested deep in
/-- The arguments of a relation stand where it does. -/
theorem stands_of_argument (stands : (model.relation relation).graph = some graph) :
    ∀ argument ∈ (model.relation relation).args, (model.concept argument).graph = some graph := by
  intro argument member
  have known : relation.index < model.relations.size := by
    by_contra outside
    rw [Model.relation_of_le (Nat.le_of_not_lt outside)] at member
    cases member
  exact (stacked.sound.relations relation known).graph argument member graph stands

/-- The relations that a relation draws along nest no deeper than itself. -/
theorem yields_relationItems (steps : Nat) (inlined : Option ConceptId)
    (stands : (model.relation relation).graph = some graph) :
    Yields (relationItems model inner (Plan.ofGraph model graph) steps inlined relation)
      fun items => ∀ item ∈ items, item.Within (bracketsLeft limit levels) := by
  induction steps generalizing inlined relation with
  | zero => exact .pure (by simp)
  | succ steps ih =>
      unfold relationItems
      refine .get fun writer => .ite (.pure (by simp)) ((Yields.any _).bind fun _ _ => ?_)
      refine (yields_relationType stacked (bracketsLeft limit (levels + 1) + 1) relation).bind
        fun type named => (yields_arguments stacked nested deep inlined
          (stands_of_argument stacked stands)).bind fun args within => ?_
      have following : ∀ concept, Yields (do
          concat (relationItems model inner (Plan.ofGraph model graph) steps none)
            (← unwritten ((Plan.ofGraph model graph).primary concept)))
          fun items => ∀ item ∈ items, item.Within (bracketsLeft limit levels) := fun concept =>
        (yields_unwritten _).bind fun relations members => maintains_concat fun relation member =>
          ih none (stands_of_primary stacked (members relation member))
      refine (maintains_concat fun concept _ => following concept).bind fun items more => .pure ?_
      have first : (relationPhrase model relation type args).Within _ :=
        within_relationPhrase named within relation
      rw [bracketsLeft_succ (stacked.shallow.lt_of_relation deep stands)] at first
      exact List.forall_mem_cons.mpr ⟨first, more⟩

/-- A concept with the relations that it draws along nests no deeper than its graph allows. -/
theorem yields_conceptItems (stands : (model.concept concept).graph = some graph) :
    Yields (conceptItems model inner (Plan.ofGraph model graph) concept)
      fun items => ∀ item ∈ items, item.Within (bracketsLeft limit levels) := by
  have related (inlined : Option ConceptId) {relation : RelationId}
      (member : relation ∈ (Plan.ofGraph model graph).primary concept) :=
    yields_relationItems stacked nested deep (relationSteps model) inlined
      (stands_of_primary stacked member)
  unfold conceptItems
  refine (Yields.any _).bind fun _ _ => .ite (.pure (by simp)) ((Yields.any _).bind fun label _ =>
    (yields_unwritten _).bind fun primaries members => ?_)
  have separate : Yields (do
      let item ← emitConcept model inner concept label
      return item :: (← concat (relationItems model inner (Plan.ofGraph model graph)
        (relationSteps model) none) primaries))
      fun items => ∀ item ∈ items, item.Within (bracketsLeft limit levels) := by
    refine (yields_emitConcept stacked nested deep stands).bind fun item within =>
      (maintains_concat fun relation member => related none (members relation member)).bind
        fun others more => .pure (List.forall_mem_cons.mpr ⟨within.mono ?_, more⟩)
    have room := bracketsLeft_succ (stacked.shallow.lt_of_concept deep stands)
    omega
  split
  · exact related _ (members _ (by simp))
  · exact separate

/-! ## Actors and negations -/

omit stacked nested deep in
theorem yields_actorArgs (levels : Nat) (args : List ConceptId) :
    Yields (actorArgs model args) (Phrase.Within levels) := by
  unfold actorArgs
  induction args with
  | nil => exact .pure .nil
  | cons argument others ih =>
      have here : Yields (do return space ++ (← reference model argument)) (Phrase.Within levels) :=
        (yields_reference levels argument).bind fun _ within => .pure (.append .space within)
      exact here.bind fun _ first => ih.bind fun _ rest => .pure (first.append rest)

omit nested deep in
/-- An actor only refers to its arguments. -/
theorem yields_actor (relation : RelationId) :
    Yields (actor model inner relation) (Phrase.Within 1) := by
  have bar : (mark .bar).Within 0 := .of_flat (by simp [isFlat])
  unfold actor
  refine (Yields.any _).bind fun _ _ => (yields_relationType stacked 0 relation).bind
    fun type named => (yields_actorArgs 0 _).bind fun inputs before =>
      (yields_actorArgs 0 _).bind fun outputs after => .pure ?_
  have whole := Phrase.Within.enclose (rfl : Punct.leftAngle.closer? = some .rightAngle)
    (((((named.append before).append .space).append bar).append after).append
      (within_comment .actor (model.relation relation).comment))
  simpa only [List.append_assoc] using whole

/-- A negation has a bracket around what describes its hidden concept. -/
theorem yields_negation (stands : (model.relation relation).graph = some graph) :
    Yields (negation model inner relation)
      (Phrase.Within (bracketsLeft limit (levels + 1) + 1)) := by
  have wrapped (wrapper : ConceptId) (member : wrapper ∈ (model.relation relation).args) :
      Yields (do
        emit wrapper none
        concat (nestedGraph inner) (model.descriptor? wrapper).toList)
      (Phrase.Within (bracketsLeft limit (levels + 1))) := by
    refine (Yields.any _).bind fun _ _ => ?_
    cases described : model.descriptor? wrapper with
    | none => exact .pure .nil
    | some body =>
        rw [Option.toList_some, concat_singleton]
        exact yields_nestedGraph nested (stacked.sound.depth_descriptor
          (stands_of_argument stacked stands wrapper member) deep described)
  have bodies : Yields (concat (fun wrapper => do
      emit wrapper none
      concat (nestedGraph inner) (model.descriptor? wrapper).toList)
      ((model.relation relation).args.take 1))
      (Phrase.Within (bracketsLeft limit (levels + 1))) := by
    cases args : (model.relation relation).args with
    | nil => exact .pure .nil
    | cons wrapper others =>
        rw [List.take_succ_cons, List.take_zero, concat_singleton]
        exact wrapped wrapper (by simp [args])
  unfold negation
  refine (Yields.any _).bind fun _ _ => bodies.bind fun body within => .pure ?_
  have tilde : Phrase.Within (bracketsLeft limit (levels + 1) + 1) (mark .tilde) :=
    .of_flat (by simp [isFlat])
  have whole := tilde.append
    (.enclose (rfl : Punct.leftBracket.closer? = some .rightBracket) within)
  simpa only [List.append_assoc] using whole

/-! ## Graphs -/

/-- A relation that is left nests no deeper than its graph allows. -/
theorem yields_remainingItems (stands : (model.relation relation).graph = some graph) :
    Yields (remainingItems model inner (Plan.ofGraph model graph) relation)
      fun items => ∀ item ∈ items, item.Within (bracketsLeft limit levels) := by
  have room := bracketsLeft_succ (stacked.shallow.lt_of_relation deep stands)
  refine .get fun _ => .ite (.pure (by simp)) (.ite ?_ (.ite ?_ ?_))
  · exact (yields_negation stacked nested deep stands).bind fun _ within =>
      .pure (by simpa using within.mono (by omega))
  · exact (yields_actor stacked relation).bind fun _ within =>
      .pure (by simpa using within.mono (by omega))
  · exact yields_relationItems stacked nested deep _ _ stands

theorem yields_bracketGraph : Yields (bracketGraph model inner graph)
    fun items => ∀ item ∈ items, item.Within (bracketsLeft limit levels) := by
  have listed := stacked.sound.listed
  unfold bracketGraph
  refine (maintains_concat fun concept member => yields_conceptItems stacked nested deep
    ((listed.mem_concepts graph concept).mp (Plan.mem_order.mp member).1)).bind
      fun concepts first => (maintains_concat fun relation member =>
        yields_remainingItems stacked nested deep
          ((listed.mem_relations graph relation).mp member)).bind
            fun relations second => .pure fun item member => ?_
  rcases List.mem_append.mp member with before | after
  · rcases List.mem_append.mp before with comment | before
    · obtain ⟨text, -, rfl⟩ := List.mem_map.mp comment
      exact .ofToken rfl
    · exact first item before
  · exact second item after

end Inner

/-- The items of a graph have at most two brackets for every further concept around a node. -/
theorem yields_graphItems (stacked : model.Stacked source limit) (steps : Nat)
    (deep : model.Depth graph levels) : Yields (graphItems model .cgif steps graph)
      fun items => ∀ item ∈ items, item.Within (bracketsLeft limit levels) := by
  induction steps generalizing graph levels with
  | zero => exact .pure (by simp)
  | succ steps ih => exact yields_bracketGraph stacked ih deep

end Write

end ConceptualGraph
