/-
Module: ConceptualGraph.Proofs.Writing.Tally
Purpose: In the interchange form the marks that begin nodes account for the nodes that are
  remembered as written: no mark is written without a node, and no node without its mark.
Main exports: Counted, Phrase.count, Model.tally, Write.Accounts,
  Write.accounts_graphItems
-/
import ConceptualGraph.Proofs.Copy.Context
import ConceptualGraph.Proofs.Copy.Relation
import ConceptualGraph.Proofs.Writing.Plan
import ConceptualGraph.Writing.Graph
import Mathlib.Algebra.Ring.Nat

namespace ConceptualGraph

open Phrase (join mark ofToken space)

/-! ## Marks -/

/-- What begins with a mark of its own where it is written. -/
inductive Counted where
  | concept
  | relation
  | actor
  | negation
  | comment
  deriving DecidableEq, Repr

/-- Whether a token is the mark with which something of a kind begins. -/
def Counted.begins : Counted → Token → Bool
  | .concept, .punct .leftBracket => true
  | .relation, .punct .leftParen => true
  | .actor, .punct .leftAngle => true
  | .negation, .punct .tilde => true
  | .comment, .formalComment _ => true
  | _, _ => false

namespace Phrase

variable {kind : Counted} {phrase front back : Phrase}

/-- How many things of a kind begin in a phrase. -/
def count (kind : Counted) (phrase : Phrase) : Nat :=
  phrase.tokens.countP kind.begins

@[simp] theorem count_nil : count kind [] = 0 := rfl

@[simp] theorem count_append : (front ++ back).count kind = front.count kind + back.count kind := by
  simp [count]

@[simp] theorem count_space : space.count kind = 0 := rfl

@[simp] theorem count_ofToken (token : Token) :
    (ofToken token).count kind = if kind.begins token then 1 else 0 := by
  simp [count, List.countP_cons]

@[simp] theorem count_mark (punct : Punct) :
    (mark punct).count kind = if kind.begins (.punct punct) then 1 else 0 := by
  simp [count, List.countP_cons]

/-- Phrases in a row have the counts of each together. -/
@[simp] theorem count_flatMap {α : Type} (elements : List α) (step : α → Phrase) :
    count kind (elements.flatMap step) =
      (elements.map fun element => (step element).count kind).sum := by
  induction elements with
  | nil => rfl
  | cons element elements ih => rw [List.flatMap_cons, count_append, ih]; rfl

/-- What joins phrases counts for nothing. -/
@[simp] theorem count_join (separator : String) (phrases : List Phrase) :
    (join separator phrases).count kind = (phrases.map (count kind)).sum := by
  simp only [count, tokens_join, List.countP_flatMap]
  rfl

/-- Whether nothing begins in a phrase. -/
def Unmarked (phrase : Phrase) : Prop :=
  ∀ kind, phrase.count kind = 0

end Phrase

/-! ## Nodes -/

namespace Model

variable (model : Model)

/-- How many things of a kind the comments of a graph are. -/
def remarks (kind : Counted) (graph : GraphId) : Nat :=
  if kind = .comment then (model.graph graph).comments.length else 0

/-- What a relation, actor or negation counts as. -/
def counted (relation : RelationId) : Counted :=
  if model.isNegation relation then .negation
  else if (model.relation relation).isActor then .actor
  else .relation

/-- How many things of a kind a concept comes to, with the comments of the graph that describes
it. -/
def conceptTally (kind : Counted) (concept : ConceptId) : Nat :=
  (if kind = .concept then 1 else 0) + (model.descriptor? concept).elim 0 (model.remarks kind)

/-- How many things of a kind a relation, actor or negation comes to. -/
def relationTally (kind : Counted) (relation : RelationId) : Nat :=
  if kind = model.counted relation then 1 else 0

/-- How many things of a kind the nodes come to that are remembered as written. -/
def tally (kind : Counted) (writer : Writer) : Nat :=
  (writer.order.map (model.conceptTally kind)).sum
    + (writer.written.map (model.relationTally kind)).sum

variable {model} {kind : Counted} {writer after : Writer}

/-- A tally depends on what has been emitted and written. -/
theorem tally_congr (emitted : after.emitted = writer.emitted)
    (written : after.written = writer.written) :
    model.tally kind after = model.tally kind writer := by
  simp only [tally, Writer.order, emitted, written]

/-- A concept that is emitted is added to the tally. -/
theorem tally_emit (writer : Writer) (concept : ConceptId) (label : Option String) :
    model.tally kind (writer.emit concept label) =
      model.conceptTally kind concept + model.tally kind writer := by
  simp only [tally, Writer.order_emit, Writer.written_emit, List.map_cons, List.sum_cons]
  omega

/-- A relation that is begun is added to the tally. -/
theorem tally_begin (writer : Writer) (relation : RelationId) :
    model.tally kind (writer.begin relation) =
      model.relationTally kind relation + model.tally kind writer := by
  simp only [tally, Writer.order, Writer.begin, List.map_cons, List.sum_cons]
  omega

end Model

namespace Write

/-! ## Steps that write no node -/

/-- Whether a step, begun where these nodes have been written, writes no more of them, and gives
results of a certain kind. -/
abbrev Quiet {α : Type} (emitted : List (ConceptId × Option String)) (written : List RelationId)
    (step : Write α) (post : α → Prop) : Prop :=
  Maintains (fun writer : Writer => writer.emitted = emitted ∧ writer.written = written) step post

variable {model : Model} {source : Notation} {inner : Inner} {concept : ConceptId}
  {relation : RelationId} {emitted : List (ConceptId × Option String)} {written : List RelationId}

theorem quiet_labelFor (target : Target) :
    Quiet emitted written (labelFor target) fun _ => True := by
  unfold labelFor
  refine .get fun writer => ?_
  cases writer.labels.name? target with
  | some label => exact .pure trivial
  | none => exact fun _ rests => ⟨rests, trivial⟩

theorem quiet_openLabel (concept : ConceptId) (needed : Bool) :
    Quiet emitted written (openLabel model concept needed) fun _ => True := by
  unfold openLabel
  cases model.sharedSet? concept with
  | some set => exact (quiet_labelFor _).bind fun _ _ => .pure trivial
  | none =>
      exact .get fun _ => .ite ((quiet_labelFor _).bind fun _ _ => .pure trivial) (.pure trivial)

theorem quiet_knownLabel (concept : ConceptId) :
    Quiet emitted written (knownLabel model concept) fun _ => True := by
  unfold knownLabel
  refine .get fun writer => ?_
  cases (model.concept concept).corefSets.head? with
  | some set =>
      dsimp only
      cases writer.labels.name? (.set set) with
      | some label => exact .pure trivial
      | none => exact .throw
  | none =>
      dsimp only
      cases writer.labels.name? (.concept concept) with
      | some label => exact .pure trivial
      | none => exact .throw

theorem unmarked_boundLabel (label : String) : (ofToken (.boundLabel label)).Unmarked :=
  fun kind => by cases kind <;> rfl

theorem quiet_reference (concept : ConceptId) :
    Quiet emitted written (reference model concept) Phrase.Unmarked := by
  unfold reference
  refine .get fun writer => ?_
  cases writer.emitted.lookup concept with
  | none => exact (quiet_knownLabel concept).bind fun label _ => .pure (unmarked_boundLabel label)
  | some label =>
      cases label with
      | some label => exact .pure (unmarked_boundLabel label)
      | none => exact .throw

theorem quiet_designator (value : Designator) :
    Quiet emitted written (designator model value) Phrase.Unmarked := by
  cases value with
  | literal value =>
      refine .pure fun kind => ?_
      cases value with
      | number value => cases value <;> cases kind <;> rfl
      | string text => cases kind <;> rfl
      | encoded encoding payload => cases kind <;> rfl
  | name name => exact .pure fun kind => by cases kind <;> rfl
  | marker marker =>
      have given : Quiet emitted written (markerId marker) fun _ => True :=
        fun _ rests => ⟨rests, trivial⟩
      exact given.bind fun foreign _ => .pure fun kind => by cases kind <;> rfl
  | defined concept => exact quiet_reference concept

theorem quiet_actorArgs (args : List ConceptId) :
    Quiet emitted written (actorArgs model args) Phrase.Unmarked := by
  unfold actorArgs
  induction args with
  | nil => exact .pure fun _ => rfl
  | cons argument others ih =>
      unfold concat
      simp only [bind_assoc, pure_bind]
      refine (quiet_reference argument).bind fun first unmarked => ih.bind fun rest also =>
        .pure fun kind => ?_
      simp [unmarked kind, also kind]

theorem quiet_unwritten (relations : List RelationId) :
    Quiet emitted written (unwritten relations) fun left => left ⊆ relations :=
  .get fun _ => .pure (List.filter_subset_self ..)

theorem quiet_relationType (named : model.TypesNamed) (relation : RelationId) :
    Quiet emitted written (relationType model inner relation) Phrase.Unmarked := by
  unfold relationType
  cases typed : (model.relation relation).type with
  | none => exact .throw
  | some type =>
      obtain ⟨label, known⟩ := named.relationType relation type typed
      simp only [known]
      exact .pure fun kind => by cases kind <;> rfl

/-! ## Steps that account for what they write -/

/-- Whether what a step writes has the marks of the nodes that it adds to those written, apart
from a number of marks beyond these. -/
def Accounts {α : Type} (model : Model) (kind : Counted) (step : Write α) (cost : α → Nat)
    (beyond : Nat) : Prop :=
  ∀ writer : Writer, Ensures step writer fun value after =>
    cost value + model.tally kind writer = model.tally kind after + beyond

/-- The marks of several phrases. -/
def costs (kind : Counted) (phrases : List Phrase) : Nat :=
  (phrases.map (Phrase.count kind)).sum

section Rules

variable {kind : Counted} {α β : Type} {step : Write α} {next : α → Write β} {cost : α → Nat}
  {total : β → Nat} {post : α → Prop} {beyond more : Nat}

@[simp] theorem costs_nil : costs kind [] = 0 := rfl

@[simp] theorem costs_cons (phrase : Phrase) (phrases : List Phrase) :
    costs kind (phrase :: phrases) = phrase.count kind + costs kind phrases := rfl

@[simp] theorem costs_append (front back : List Phrase) :
    costs kind (front ++ back) = costs kind front + costs kind back := by
  simp [costs]

namespace Accounts

theorem pure {value : α} (exact : cost value = beyond) :
    Accounts model kind (Pure.pure value) cost beyond := by
  intro writer
  rw [ensures_pure]
  omega

theorem get {next : Writer → Write β}
    (others : ∀ state : Writer, Accounts model kind (next state) total beyond) :
    Accounts model kind (MonadState.get >>= next) total beyond :=
  fun writer => others writer writer

theorem ite {condition : Prop} [Decidable condition] {other : Write α}
    (first : Accounts model kind step cost beyond)
    (second : Accounts model kind other cost beyond) :
    Accounts model kind (if condition then step else other) cost beyond := by
  split
  · exact first
  · exact second

/-- The marks beyond the nodes that are written are those of the steps together. -/
theorem bind_add (first : Accounts model kind step cost more)
    (others : ∀ value, Accounts model kind (next value) total (beyond + cost value)) :
    Accounts model kind (step >>= next) total (more + beyond) := by
  intro writer
  refine (first writer).bind fun value middle spent => (others value middle).mono
    fun result after rest => ?_
  omega

/-- The marks of the last step that writes are those of the result. -/
theorem last (first : Accounts model kind step cost beyond)
    (others : ∀ value, Accounts model kind (next value) total (cost value)) :
    Accounts model kind (step >>= next) total beyond :=
  first.bind_add fun value => (Nat.zero_add (cost value)).symm ▸ others value

/-- What a step has written has still to be part of the result. -/
theorem bind (first : Accounts model kind step cost 0)
    (others : ∀ value, Accounts model kind (next value) total (beyond + cost value)) :
    Accounts model kind (step >>= next) total beyond :=
  Nat.zero_add beyond ▸ first.bind_add others

/-- A step that writes no node comes first. -/
theorem quietly (quiet : ∀ emitted written, Quiet emitted written step post)
    (others : ∀ value, post value → Accounts model kind (next value) total beyond) :
    Accounts model kind (step >>= next) total beyond := by
  intro writer
  refine (quiet writer.emitted writer.written writer ⟨rfl, rfl⟩).bind fun value middle facts => ?_
  obtain ⟨⟨emitted, written⟩, holds⟩ := facts
  refine (others value holds middle).mono fun result after rest => ?_
  rw [Model.tally_congr emitted written] at rest
  exact rest

theorem inContext (accounts : Accounts model kind step cost beyond) :
    Accounts model kind (Write.inContext step) cost beyond :=
  fun writer => ensures_inContext.mpr (accounts (writer.withLabels writer.labels.push))

theorem emit (concept : ConceptId) (label : Option String) :
    Accounts model kind (Write.emit concept label) (fun _ => model.conceptTally kind concept) 0 :=
  fun writer => (Model.tally_emit writer concept label).symm

theorem markWritten (relation : RelationId) :
    Accounts model kind (Write.markWritten relation)
      (fun _ => model.relationTally kind relation) 0 :=
  fun writer => (Model.tally_begin writer relation).symm

/-- What a loop writes is counted if every part of it is. -/
theorem concat {step : α → Write (List Phrase)} {arguments : List α}
    (each : ∀ argument ∈ arguments, Accounts model kind (step argument) (costs kind) 0) :
    Accounts model kind (Write.concat step arguments) (costs kind) 0 := by
  induction arguments with
  | nil => exact .pure rfl
  | cons argument others ih =>
      refine (each argument (List.mem_cons_self ..)).bind fun first => ?_
      refine (ih fun other member => each other (List.mem_cons_of_mem _ member)).bind
        fun rest => .pure ?_
      rw [costs_append, Nat.zero_add]

end Accounts

end Rules

/-! ## Concepts -/

/-- Whether the graphs that describe the concepts of a graph are written with their comments
beyond the nodes in them. -/
def AccountsWithin (model : Model) (kind : Counted) (inner : Inner) (graph : GraphId) : Prop :=
  ∀ concept, (model.concept concept).graph = some graph → ∀ id,
    model.descriptor? concept = some id →
      Accounts model kind (inner id) (costs kind) (model.remarks kind id)

variable {kind : Counted} {graph : GraphId} {use : Option LabelUse}

theorem accounts_nestedGraph {beyond : Nat}
    (accounts : Accounts model kind (inner graph) (costs kind) beyond) :
    Accounts model kind (nestedGraph inner graph) (Phrase.count kind) beyond :=
  .inContext <| accounts.last fun items => .pure (Phrase.count_join " " items)

theorem unmarked_quantifier (value : Quantifier) : (quantifier value).Unmarked :=
  fun kind => by cases kind <;> cases value <;> rfl

theorem unmarked_comment (node : NodeKind) (text : Option String) :
    (comment node text).Unmarked :=
  fun kind => by cases kind <;> cases text <;> rfl

theorem unmarked_typeName (type : Option ConceptType) : (typeName model type).Unmarked :=
  fun kind => by cases kind <;> cases type <;> rfl

theorem unmarked_label (use : LabelUse) : (ofToken use.token).Unmarked :=
  fun kind => by cases kind <;> cases use <;> rfl

/-- Phrases without marks cost nothing. -/
theorem costs_eq_zero {phrases : List Phrase} (unmarked : ∀ phrase ∈ phrases, phrase.Unmarked) :
    costs kind phrases = 0 := by
  simp only [costs, List.sum_eq_zero_iff, List.mem_map]
  rintro _ ⟨phrase, member, rfl⟩
  exact unmarked phrase member kind

/-- Brackets that open a concept are the mark of one. -/
theorem count_bracket : (mark .leftBracket).count kind = if kind = .concept then 1 else 0 := by
  cases kind <;> rfl

theorem quiet_designators (value : Option Designator) :
    Quiet emitted written (concat (fun value => return [← designator model value]) value.toList)
      fun phrases => ∀ phrase ∈ phrases, phrase.Unmarked :=
  maintains_concat fun value _ => (quiet_designator value).bind fun phrase unmarked =>
    .pure (by simpa using unmarked)

/-- What a concept refers to is counted once, along with what its graph counts. -/
theorem accounts_referentParts (within : AccountsWithin model kind inner graph)
    (stands : (model.concept concept).graph = some graph) {referent : Referent}
    (described : (model.concept concept).referent = some referent) :
    Accounts model kind (referentParts model inner referent) (costs kind)
      ((model.descriptor? concept).elim 0 (model.remarks kind)) := by
  have same : model.descriptor? concept = referent.descriptor := by
    simp [Model.descriptor?, described]
  rw [same]
  refine .quietly (fun _ _ => quiet_designators _) fun designators unmarked => ?_
  have quantified : ∀ phrase ∈ (referent.quantifier.map quantifier).toList, phrase.Unmarked := by
    intro phrase member
    obtain ⟨value, -, rfl⟩ := Option.map_eq_some_iff.mp (Option.mem_toList.mp member)
    exact unmarked_quantifier value
  cases describes : referent.descriptor with
  | none => exact .pure (by simp [costs_eq_zero unmarked, costs_eq_zero quantified])
  | some id =>
      simp only [Option.toList_some, concat_singleton, bind_assoc, pure_bind]
      refine (accounts_nestedGraph (within concept stands id (same.trans describes))).last
        fun nested => .pure ?_
      simp [costs_eq_zero unmarked, costs_eq_zero quantified]

/-- A concept that is no context is counted once. -/
theorem accounts_plainConcept (named : model.TypesNamed)
    (within : AccountsWithin model kind inner graph)
    (stands : (model.concept concept).graph = some graph) :
    Accounts model kind (plainConcept model inner concept use) (Phrase.count kind)
      (model.conceptTally kind concept) := by
  have labelled : costs kind (use.map fun use => ofToken use.token).toList = 0 :=
    costs_eq_zero fun phrase member => by
      obtain ⟨known, -, rfl⟩ := Option.map_eq_some_iff.mp (Option.mem_toList.mp member)
      exact unmarked_label known
  -- Everything but the parts of the concept is outside of what is counted.
  have bracketed :
    ∀ (colon : Phrase) (parts : List Phrase), colon = [] ∨ colon = mark .colon ++ space →
      (mark .leftBracket ++ typeName model (model.concept concept).type ++ colon ++
        join " " ((use.map fun use => ofToken use.token).toList ++ parts) ++
          comment .concept (model.concept concept).comment ++ mark .rightBracket).count kind =
            (if kind = .concept then 1 else 0) + costs kind parts := by
    intro colon parts colonized
    have silent : colon.count kind = 0 := by
      rcases colonized with rfl | rfl
      · rfl
      · cases kind <;> rfl
    have closes : (mark .rightBracket).count kind = 0 := by cases kind <;> rfl
    have joined : (join " " ((use.map fun use => ofToken use.token).toList ++ parts)).count kind =
        costs kind parts := by
      rw [Phrase.count_join, ← costs, costs_append, labelled, Nat.zero_add]
    simp only [Phrase.count_append, count_bracket, unmarked_typeName _ kind, silent, joined, closes,
      unmarked_comment _ _ kind]
    omega
  unfold plainConcept
  simp only [concat_conceptType named, pure_bind]
  refine .ite (fun _ => trivial) ?_
  have colonized : ∀ present : Bool, (if present = true then mark .colon ++ space else []) = [] ∨
      (if present = true then mark .colon ++ space else []) = mark .colon ++ space := by
    intro present
    cases present <;> simp
  cases described : (model.concept concept).referent with
  | none =>
      have nothing : model.descriptor? concept = none := by simp [Model.descriptor?, described]
      refine .pure ((bracketed _ _ (colonized _)).trans ?_)
      simp [Model.conceptTally, nothing]
  | some referent =>
      rw [Option.toList_some, concat_singleton, Model.conceptTally, Nat.add_comm]
      exact (accounts_referentParts within stands described).bind_add fun parts =>
        .pure (bracketed _ _ (colonized _))

theorem accounts_specialContext (within : AccountsWithin model kind inner graph)
    (stands : (model.concept concept).graph = some graph) (label : String) :
    Accounts model kind (specialContext inner label (model.descriptor? concept)) (Phrase.count kind)
      (model.conceptTally kind concept) := by
  have opens : ∀ body : Phrase,
      (mark .leftBracket ++ ofToken (.ident label) ++ body ++ mark .rightBracket).count kind =
        (if kind = .concept then 1 else 0) + body.count kind := by
    intro body
    simp only [Phrase.count_append]
    cases kind <;> simp [Counted.begins]
  unfold specialContext Model.conceptTally
  cases describes : model.descriptor? concept with
  | none => exact .pure (opens [])
  | some id =>
      simp only [pure_bind, Option.elim_some]
      rw [Nat.add_comm]
      refine (accounts_nestedGraph (within concept stands id describes)).bind_add fun body =>
        .pure ((opens _).trans ?_)
      rw [Phrase.count_append, Phrase.count_space, Nat.zero_add]

/-- A concept is written with its mark, and with the graph that describes it. -/
theorem accounts_emitConcept (named : model.TypesNamed)
    (within : AccountsWithin model kind inner graph)
    (stands : (model.concept concept).graph = some graph) :
    Accounts model kind (emitConcept model inner concept use) (Phrase.count kind) 0 := by
  unfold emitConcept
  refine (Accounts.emit concept _).bind fun _ => ?_
  rw [Nat.zero_add]
  cases (model.concept concept).special with
  | none => exact accounts_plainConcept named within stands
  | some special => exact accounts_specialContext within stands special

theorem accounts_firstEmission (named : model.TypesNamed)
    (within : AccountsWithin model kind inner graph) (plan : Plan)
    (stands : (model.concept concept).graph = some graph) :
    Accounts model kind (firstEmission model inner plan concept) (Phrase.count kind) 0 :=
  .quietly (fun _ _ => quiet_openLabel concept _) fun _ _ =>
    accounts_emitConcept named within stands

/-! ## Relations, actors and negations -/

/-- An argument is counted as a reference or as a concept in full. -/
theorem accounts_argument (named : model.TypesNamed)
    (within : AccountsWithin model kind inner graph) (plan : Plan)
    (stands : (model.concept concept).graph = some graph) :
    Accounts model kind (argument model inner plan concept)
      (fun argument => argument.phrase.count kind) 0 := by
  unfold argument isEmitted
  refine .get fun writer => .ite ?_ ?_
  · exact .quietly (fun _ _ => quiet_reference concept) fun phrase unmarked => .pure (unmarked kind)
  · exact (accounts_firstEmission named within plan stands).bind fun phrase =>
      .pure (Nat.zero_add _).symm

/-- The marks of several arguments. -/
def argumentCosts (kind : Counted) (args : List Argument) : Nat :=
  costs kind (args.map Argument.phrase)

theorem argumentCosts_append (front back : List Argument) :
    argumentCosts kind (front ++ back) = argumentCosts kind front + argumentCosts kind back := by
  simp [argumentCosts]

/-- Arguments are counted as references or as concepts in full. -/
theorem accounts_arguments (named : model.TypesNamed)
    (within : AccountsWithin model kind inner graph) (plan : Plan) (inlined : Option ConceptId)
    {args : List ConceptId} (stand : ∀ concept ∈ args, (model.concept concept).graph = some graph) :
    Accounts model kind (arguments model inner plan inlined args) (argumentCosts kind) 0 := by
  have each :
    ∀ args : List ConceptId, (∀ concept ∈ args, (model.concept concept).graph = some graph) →
      Accounts model kind
        (concat (fun concept => return [← argument model inner plan concept]) args)
        (argumentCosts kind) 0 := by
    intro args stand
    induction args with
    | nil => exact .pure rfl
    | cons concept others ih =>
        unfold concat
        simp only [bind_assoc, pure_bind]
        refine (accounts_argument named within plan (stand concept (List.mem_cons_self ..))).bind
          fun first => ?_
        rw [Nat.zero_add]
        refine (ih fun other member => stand other (List.mem_cons_of_mem _ member)).bind
          fun rest => .pure rfl
  cases args with
  | nil => exact .pure rfl
  | cons first others =>
      have rest := each others fun other member => stand other (List.mem_cons_of_mem _ member)
      have both : ∀ written, Accounts model kind (do
          let rest ← concat (fun concept => return [← argument model inner plan concept]) others
          return written ++ rest) (argumentCosts kind) (0 + argumentCosts kind written) :=
        fun written => rest.bind fun rest => .pure (by rw [argumentCosts_append, Nat.zero_add])
      have here := stand first (List.mem_cons_self ..)
      unfold arguments
      refine .ite ?_ ?_
      · simp only [pure_bind]
        exact (accounts_emitConcept named within here).bind fun phrase => both _
      · exact (each [first] (by simpa using here)).bind both

/-- A relation is counted once, beside its arguments. -/
theorem count_relation (relation : RelationId) (type : Phrase) (args : List Argument)
    (unmarked : type.Unmarked) : (relationPhrase model relation type args).count kind =
      (if kind = .relation then 1 else 0) + argumentCosts kind args := by
  have opens : (mark .leftParen).count kind = if kind = .relation then 1 else 0 := by
    cases kind <;> rfl
  have closes : (mark .rightParen).count kind = 0 := by cases kind <;> rfl
  simp only [relationPhrase, Phrase.count_append, opens, closes, unmarked kind,
    unmarked_comment _ _ kind, Phrase.count_flatMap, Phrase.count_space, Nat.zero_add, Nat.add_zero,
    argumentCosts, costs, List.map_map]
  rfl

/-- A relation is written with its mark, and with the concepts and relations that it brings
with it. -/
theorem accounts_relationItems (rooted : model.Rooted source) (named : model.TypesNamed)
    (within : AccountsWithin model kind inner graph) (inlined : Option ConceptId)
    (link : relation ∈ Plan.links model graph)
    (passive : (model.relation relation).role = .relation)
    (steps : Nat) :
    Accounts model kind
      (relationItems model inner (Plan.ofGraph model graph) steps inlined relation)
      (costs kind) 0 := by
  induction steps generalizing inlined relation with
  | zero => exact .pure rfl
  | succ steps ih =>
      obtain ⟨stands, positive⟩ := (Plan.mem_links rooted.sound.listed).mp link
      have relates : model.counted relation = .relation := by
        simp [Model.counted, positive, Plan.isActor_eq_false.mpr passive]
      have follows : ∀ concepts, Accounts model kind (concat (fun concept => do
          concat (relationItems model inner (Plan.ofGraph model graph) steps none)
            (← unwritten ((Plan.ofGraph model graph).primary concept))) concepts) (costs kind) 0 :=
        fun concepts => .concat fun concept _ =>
          .quietly (fun _ _ => quiet_unwritten _) fun relations among =>
            .concat fun next member => by
            obtain ⟨also, plain, -⟩ := Plan.mem_primary.mp (among member)
            exact ih none also plain
      unfold relationItems
      refine .get fun writer => .ite (.pure rfl) ?_
      refine (Accounts.markWritten relation).bind fun _ => ?_
      refine .quietly (fun _ _ => quiet_relationType named relation) fun type unmarked => ?_
      refine (accounts_arguments named within _ inlined fun concept argument =>
        (rooted.args_of_positive stands positive concept argument).1).bind fun args => ?_
      refine (follows _).bind fun following => .pure ?_
      rw [costs_cons, count_relation relation type args unmarked, Model.relationTally, relates]
      omega

theorem accounts_actor (named : model.TypesNamed) (acts : model.counted relation = .actor) :
    Accounts model kind (actor model inner relation) (Phrase.count kind) 0 := by
  unfold actor
  refine (Accounts.markWritten relation).bind fun _ => ?_
  refine .quietly (fun _ _ => quiet_relationType named relation) fun type unmarked => ?_
  refine .quietly (fun _ _ => quiet_actorArgs _) fun inputs before => ?_
  refine .quietly (fun _ _ => quiet_actorArgs _) fun outputs after => .pure ?_
  have opens : (mark .leftAngle).count kind = if kind = .actor then 1 else 0 := by
    cases kind <;> rfl
  have parts : (mark .bar).count kind = 0 ∧ (mark .rightAngle).count kind = 0 := by
    cases kind <;> exact ⟨rfl, rfl⟩
  simp only [Phrase.count_append, opens, parts, unmarked kind, before kind, after kind,
    unmarked_comment _ _ kind, Phrase.count_space, Model.relationTally, acts]
  omega

/-- A negation is written with its mark, that of its wrapper, and the graph inside. -/
theorem accounts_negation (rooted : model.Rooted source)
    (within : AccountsWithin model kind inner graph)
    (stands : (model.relation relation).graph = some graph)
    (negative : model.isNegation relation = true) :
    Accounts model kind (negation model inner relation) (Phrase.count kind) 0 := by
  obtain ⟨wrapper, -, negates, wraps, -⟩ := rooted.exists_wrapper negative
  obtain ⟨id, describes, -⟩ := wraps.descriptor?
  have here : (model.concept wrapper).graph = some graph := negates.graph.symm.trans stands
  have negated : model.counted relation = .negation := by simp [Model.counted, negative]
  have opens : (mark .tilde).count kind = if kind = .negation then 1 else 0 := by
    cases kind <;> rfl
  have closes : (mark .rightBracket).count kind = 0 := by cases kind <;> rfl
  unfold negation
  refine (Accounts.markWritten relation).bind fun _ => ?_
  simp only [negates.args, List.take_succ_cons, List.take_zero, concat_singleton, bind_assoc,
    describes, Option.toList_some]
  refine (Accounts.emit wrapper none).bind fun _ => ?_
  have tally : 0 + model.relationTally kind relation + model.conceptTally kind wrapper =
      model.remarks kind id + ((if kind = .concept then 1 else 0) +
        if kind = .negation then 1 else 0) := by
    simp only [Model.relationTally, negated, Model.conceptTally, describes, Option.elim_some]
    omega
  rw [tally]
  refine (accounts_nestedGraph (within wrapper here id describes)).bind_add fun body => .pure ?_
  simp only [Phrase.count_append, opens, closes, count_bracket]
  omega

/-! ## Graphs -/

/-- A concept and the relations that it draws along are counted once. -/
theorem accounts_conceptItems (rooted : model.Rooted source) (named : model.TypesNamed)
    (within : AccountsWithin model kind inner graph)
    (stands : (model.concept concept).graph = some graph) :
    Accounts model kind (conceptItems model inner (Plan.ofGraph model graph) concept)
      (costs kind) 0 := by
  have follow : ∀ inlined, ∀ relation ∈ (Plan.ofGraph model graph).primary concept,
      Accounts model kind (relationItems model inner (Plan.ofGraph model graph)
        (relationSteps model) inlined relation) (costs kind) 0 := by
    intro inlined relation primary
    obtain ⟨link, passive, -⟩ := Plan.mem_primary.mp primary
    exact accounts_relationItems rooted named within inlined link passive _
  unfold conceptItems isEmitted
  refine .get fun _ => .ite (.pure rfl) ?_
  refine .quietly (fun _ _ => quiet_openLabel concept _) fun label _ => ?_
  refine .quietly (fun _ _ => quiet_unwritten _) fun primaries among => ?_
  split
  · exact follow _ _ (among (List.mem_singleton_self _))
  · refine (accounts_emitConcept named within stands).bind fun item => ?_
    refine (Accounts.concat fun relation member => follow none relation (among member)).bind
      fun others => .pure ?_
    rw [costs_cons, Nat.zero_add]

/-- A relation that is left is counted once. -/
theorem accounts_remainingItems (rooted : model.Rooted source) (named : model.TypesNamed)
    (within : AccountsWithin model kind inner graph)
    (stands : (model.relation relation).graph = some graph) :
    Accounts model kind (remainingItems model inner (Plan.ofGraph model graph) relation)
      (costs kind) 0 := by
  unfold remainingItems
  refine .get fun _ => .ite (.pure rfl) ?_
  have single : ∀ phrase : Phrase, costs kind [phrase] = 0 + phrase.count kind := by
    intro phrase
    simp
  split
  · next negative =>
    exact (accounts_negation rooted within stands negative).bind fun phrase => .pure (single phrase)
  · next positive =>
    have positive : model.isNegation relation = false := by simpa using positive
    split
    · next active =>
      have acts : model.counted relation = .actor := by simp [Model.counted, positive, active]
      exact (accounts_actor named acts).bind fun phrase => .pure (single phrase)
    · next passive =>
      exact accounts_relationItems rooted named within none
        ((Plan.mem_links rooted.sound.listed).mpr ⟨stands, positive⟩)
        (Plan.isActor_eq_false.mp (by simpa using passive)) _

/-- The comments of a graph cost as many tokens as it has remarks. -/
theorem costs_comments (graph : GraphId) :
    costs kind (comments model graph) = model.remarks kind graph := by
  unfold comments Model.remarks
  induction (model.graph graph).comments with
  | nil => simp
  | cons text others ih =>
      rw [List.map_cons, costs_cons, ih]
      cases kind <;> simp [Counted.begins, Nat.add_comm]

/-- A graph is written with the marks of what lies in it, and its comments beyond that. -/
theorem accounts_bracketGraph (rooted : model.Rooted source) (named : model.TypesNamed)
    (within : AccountsWithin model kind inner graph) :
    Accounts model kind (bracketGraph model inner graph) (costs kind)
      (model.remarks kind graph) := by
  have listed := rooted.sound.listed
  unfold bracketGraph
  refine (Accounts.concat fun concept member => accounts_conceptItems rooted named within
    ((listed.mem_concepts graph concept).mp (Plan.mem_order.mp member).1)).bind fun concepts => ?_
  refine (Accounts.concat fun relation member => accounts_remainingItems rooted named within
    ((listed.mem_relations graph relation).mp member)).bind fun relations => .pure ?_
  simp only [costs_append, costs_comments]

/-- A graph is written with the marks of what lies in it and in the graphs nested in it, where
there are levels for all of them. -/
theorem accounts_graphItems (rooted : model.Rooted source) (named : model.TypesNamed) (levels : Nat)
    (deep : 0 < levels) (enough : ∀ concept, (model.concept concept).graph = some graph →
      model.concepts.size < levels + concept.index) :
    Accounts model kind (graphItems model .cgif levels graph) (costs kind)
      (model.remarks kind graph) := by
  induction levels generalizing graph with
  | zero => exact absurd deep (Nat.lt_irrefl 0)
  | succ levels ih =>
      refine accounts_bracketGraph rooted named fun concept stands id describes => ?_
      have known := enough concept stands
      have inside := Model.lt_of_graph stands
      refine ih (by omega) fun other within => ?_
      have later := (rooted.describedBy describes).later other within
      omega

end Write

end ConceptualGraph
