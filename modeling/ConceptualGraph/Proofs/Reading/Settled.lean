/-
Module: ConceptualGraph.Proofs.Reading.Settled
Purpose: Concepts that have their places keep them while texts are read, and a label that stays
  bound stands for the same concept in a graph.
Main exports: Target.concepts, Reader.Denotes, Moment.Underway, Moment.Underway.of_enacted,
  Moment.Continues, Reader.StandsFor, Moment.standsFor_of_continues
-/
import ConceptualGraph.Proofs.Label.Names
import ConceptualGraph.Proofs.Model.Placed
import ConceptualGraph.Proofs.Reading.Mutual
import ConceptualGraph.Proofs.Reading.Scope
import Mathlib.Data.List.Find

section

open Relation (ReflTransGen)

namespace ConceptualGraph

/-! ## The concepts for which a label stands -/

/-- The concept that defines the labels of a target. -/
def Target.defining (model : Model) : Target → ConceptId
  | .concept id => id
  | .set id => (model.corefSet id).defining

/-- The concepts that denote the individual of a target, as they are looked through: the one that
defines its labels, and the members of the coreference set if it is one. -/
def Target.concepts (model : Model) (target : Target) : List ConceptId :=
  target.defining model ::
    match target with
    | .concept _ => []
    | .set id => (model.corefSet id).members

/-- Whether a concept is the one that defines a label, or a member of the coreference set that the
label denotes. -/
def Reader.Denotes (reader : Reader) (label : String) (concept : ConceptId) : Prop :=
  ∃ target, reader.labels.target? label = some target ∧ concept ∈ target.concepts reader.model

/-- A label is bound exactly if it denotes something. -/
theorem LabelTable.isBound_iff_exists {table : LabelTable} {label : String} :
    table.isBound label = true ↔ ∃ target, table.target? label = some target := by
  rw [isBound_eq_seek, ← target?_eq, Option.isSome_iff_exists]

/-- The concepts of a target are found by the coreference sets alone. -/
theorem Target.concepts_of_eq {model later : Model} (sets : later.corefSets = model.corefSets)
    (target : Target) : target.concepts later = target.concepts model := by
  cases target with
  | concept id => rfl
  | set id => simp only [Target.concepts, Target.defining, Model.corefSet, sets]

namespace Model

variable {model later : Model} {set other : CorefSetId} {concept : ConceptId} {target : Target}

/-- What becomes of the sets when a concept is added to one of them. -/
theorem corefSet_addToCorefSet (known : set.index < model.corefSets.size)
    (added : model.addToCorefSet set concept = .ok later) (other : CorefSetId) :
    later.corefSet other =
      if other = set then
        { model.corefSet set with members := appendNew (model.corefSet set).members concept }
      else model.corefSet other := by
  rcases eq_of_addToCorefSet added with ⟨member, rfl⟩ | ⟨missing, rfl⟩
  · rw [appendNew, if_pos member]
    split
    · next same => rw [same]
    · rfl
  · rw [appendNew, if_neg missing]
    exact corefSet_modifyCorefSet known

/-! ## Places that are kept -/

/-- Concepts that have their places keep them. -/
def KeepsPlaces (model later : Model) : Prop :=
  ∀ concept, (model.concept concept).IsSettled →
    (later.concept concept).IsSettled ∧
      (later.concept concept).graph = (model.concept concept).graph

/-- A concept that has a place is in the arena. -/
theorem lt_of_isSettled (settled : (model.concept concept).IsSettled) :
    concept.index < model.concepts.size := by
  by_contra outside
  rw [concept_of_le (Nat.le_of_not_lt outside)] at settled
  rcases settled with graph | sets
  · exact graph rfl
  · exact sets rfl

namespace KeepsPlaces

/-- Places are kept where the concepts are. -/
theorem of_eq (concepts : later.concepts = model.concepts) : model.KeepsPlaces later := by
  intro concept settled
  have same : later.concept concept = model.concept concept := by
    rw [Model.concept, concepts, Model.concept]
  rw [same]
  exact ⟨settled, rfl⟩

/-- Where concepts stand is not changed, and none of them leaves a coreference set. -/
theorem of_fields
    (graph : ∀ concept, (model.concept concept).IsSettled →
      (later.concept concept).graph = (model.concept concept).graph)
    (corefSets : ∀ concept, (model.concept concept).corefSets ≠ [] →
      (later.concept concept).corefSets ≠ []) : model.KeepsPlaces later := by
  intro concept settled
  have same := graph concept settled
  refine ⟨?_, same⟩
  rcases settled with stands | member
  · exact .inl (same.symm ▸ stands)
  · exact .inr (corefSets concept member)

/-- Quiet changes keep all places. -/
theorem of_quiet (quiet : model.Quiet later) : model.KeepsPlaces later :=
  of_fields quiet.place fun concept member => by
    rw [quiet.corefSets]
    exact member

theorem newConcept (type : Option ConceptType) :
    model.KeepsPlaces (model.newConcept type).2 := by
  intro concept settled
  rw [concept_newConcept_of_lt (lt_of_isSettled settled)]
  exact ⟨settled, rfl⟩

theorem setReferent (concept : ConceptId) (referent : Referent) :
    model.KeepsPlaces (model.setReferent concept referent) := by
  apply of_fields
  · exact fun id _ => (SamePlaces.setReferent concept referent).home (.concept id)
  · intro id member
    rw [SameSets.setReferent.corefSets]
    exact member

/-- A concept that becomes a member of one more set. -/
theorem noteMembership (inside : concept.index < model.concepts.size) :
    model.KeepsPlaces (model.noteMembership set concept) := by
  apply of_fields
  · intro id _
    refine field_modifyConcept model concept Concept.graph ?_ id
    exact fun _ => rfl
  · intro id member
    rw [Mutual.corefSets_noteMembership inside]
    split
    · simp
    · exact member

/-- Joining a set keeps all places. -/
theorem addToCorefSet (inside : concept.index < model.concepts.size)
    (added : model.addToCorefSet set concept = .ok later) : model.KeepsPlaces later := by
  rcases eq_of_addToCorefSet added with ⟨-, rfl⟩ | ⟨-, rfl⟩
  · exact of_eq rfl
  · exact noteMembership (by exact inside)

end KeepsPlaces

end Model

/-! ## Sets that grow -/

namespace Target

variable {model later : Model} {defining : ConceptId} {target : Target}

/-- A concept that becomes the only member of a set of its own. -/
theorem concepts_promoted : (Target.concept defining).concepts model <+:
    (Target.set (model.newCorefSet defining).1).concepts (model.newCorefSet defining).2 := by
  have new : (model.newCorefSet defining).2.corefSet (model.newCorefSet defining).1 = _ :=
    Model.corefSet_newCorefSet _
  rw [Model.newCorefSet_fst, if_pos rfl] at new
  simp only [concepts, Target.defining, Model.newCorefSet_fst, new]
  exact List.prefix_append [defining] [defining]

/-- A new set is none of those that were there. -/
theorem concepts_newCorefSet (holds : model.Holds target) :
    target.concepts model <+: target.concepts (model.newCorefSet defining).2 := by
  cases target with
  | concept id => exact List.prefix_rfl
  | set id =>
      simp only [concepts, Target.defining, Model.corefSet_newCorefSet,
        if_neg (Nat.ne_of_lt (show id.index < model.corefSets.size from holds))]
      exact List.prefix_rfl

/-- A set goes on from what it was where a member is added to one. -/
theorem concepts_addToCorefSet {joined : CorefSetId} {member : ConceptId}
    (known : joined.index < model.corefSets.size)
    (added : model.addToCorefSet joined member = .ok later) (target : Target) :
    target.concepts model <+: target.concepts later := by
  cases target with
  | concept id => exact List.prefix_rfl
  | set id =>
      simp only [concepts, Target.defining, Model.corefSet_addToCorefSet known added]
      split
      · next same =>
        subst same
        exact List.cons_prefix_cons.mpr ⟨rfl, Model.prefix_appendNew _ _⟩
      · exact List.prefix_rfl

/-- A concept that joins a set is added to those that the set has, and no others come or go. -/
theorem mem_concepts_addToCorefSet {joined : CorefSetId} {member id : ConceptId}
    (known : joined.index < model.corefSets.size)
    (added : model.addToCorefSet joined member = .ok later) :
    id ∈ (Target.set joined).concepts later ↔
      id ∈ (Target.set joined).concepts model ∨ id = member := by
  simp only [concepts, Target.defining, Model.corefSet_addToCorefSet known added, if_pos,
    List.mem_cons, Model.mem_appendNew]
  tauto

end Target

/-- A label that is still bound when a context has ended denotes what it denoted. -/
theorem LabelTable.target?_pop {table : LabelTable} {label : String} {target : Target}
    (distinct : table.Distinct) (denotes : table.target? label = some target)
    (bound : table.pop.isBound label = true) : table.pop.target? label = some target := by
  obtain ⟨other, outer⟩ := isBound_iff_exists.mp bound
  have member := (target?_eq_some_iff distinct.pop).mp outer
  have former := (target?_eq_some_iff distinct).mpr (scope_pop_subset table member)
  obtain rfl : other = target := Option.some.inj (former.symm.trans denotes)
  exact outer

/-! ## Moments of reading -/

/-- Membership is noted on both sides, labels denote what is in the arena, and none is bound
twice. -/
structure Reader.Orderly (reader : Reader) : Prop where
  agree : reader.model.Mutual
  known : reader.labels.Known reader.model
  distinct : reader.labels.Distinct

namespace Moment

variable {moment later : Moment} {label : String}

/-- The moments to which acts lead after a text has begun.  The edits and readings before it have
led to the arena, and the table of labels, which comes from an empty one, denotes what is there. -/
inductive Underway : Moment → Prop
  | text {sessions : Nat → Session} {model : Model} (reached : Model.Reached sessions model)
      {session : Session} (table : session.labels.Reachable) (known : session.labels.Known model)
      (tokens : List Located) (stop : Position) : Underway ⟨session.opening model tokens stop, []⟩
  | act {moment later : Moment} (underway : Underway moment) (acts : Acts moment later) :
      Underway later

/-- A label stays bound while an act is done, or another text begins in the same session. -/
inductive Continues (label : String) : Moment → Moment → Prop
  | act {moment later : Moment} (acts : Acts moment later)
      (bound : later.reader.labels.isBound label = true) : Continues label moment later
  | text {moment : Moment} (tokens : List Located) (stop : Position) :
      Continues label moment ⟨{ moment.reader with rest := tokens, stop }, []⟩

/-- An act keeps labels distinct. -/
theorem Acts.distinct (acts : Acts moment later) (distinct : moment.reader.labels.Distinct) :
    later.reader.labels.Distinct := by
  cases acts with
  | define | promote => exact distinct.bind _ _
  | pop => exact distinct.pop
  | push => exact distinct.push
  | past | edit | conceive | mark | refer | leave | join | count => exact distinct

/-- An act keeps what is orderly. -/
theorem Acts.orderly (acts : Acts moment later) (orderly : moment.reader.Orderly) :
    later.reader.Orderly :=
  have onward := acts.onward orderly.agree orderly.known
  ⟨onward.agree, onward.known, acts.distinct orderly.distinct⟩

/-- Acts go on from what is underway. -/
theorem Underway.of_leads (underway : Underway moment) (leads : Leads moment later) :
    Underway later := by
  induction leads with
  | refl => exact underway
  | tail _ acts ih => exact .act ih acts

/-- Whatever is made of acts, and so every production with room, goes on to such a moment, also when
it fails. -/
theorem Underway.of_enacted {α : Type} {step : Read α} {reader : Reader} {before : Awaiting}
    {after : α → Awaiting} {post : α → Reader → Prop} (underway : Underway ⟨reader, before⟩)
    (enacted : Read.Enacted before step reader after post) :
    ∃ awaiting, Underway ⟨Read.final step reader, awaiting⟩ := by
  unfold Read.final
  cases ran : step reader with
  | ok value later => exact ⟨_, underway.of_leads (enacted.of_ok ran).1⟩
  | error error later =>
      obtain ⟨left, leads⟩ := enacted.of_error ran
      exact ⟨left, underway.of_leads leads⟩

/-- So does every production that counts its brackets. -/
theorem Underway.of_simulates {α : Type} {step step' : Read α} {reader : Reader} {depth : Nat}
    {before : Awaiting} {after : α → Awaiting} {post : α → Reader → Prop}
    (underway : Underway ⟨reader, before⟩) (enacted : Read.Enacted before step reader after post)
    (same : Read.Simulates reader.depth depth step step') :
    ∃ awaiting, Underway ⟨Read.final step' reader, awaiting⟩ := by
  obtain ⟨awaiting, goesOn⟩ := underway.of_enacted enacted
  obtain ⟨last, counts⟩ := same.exists_final reader
  exact ⟨awaiting, counts ▸ .act goesOn (.count last)⟩

/-- A reading that is underway is orderly. -/
theorem Underway.orderly (underway : Underway moment) : moment.reader.Orderly := by
  induction underway with
  | text reached table known tokens stop =>
      exact ⟨(Model.mutual_of_reached reached).1, known, table.distinct⟩
  | act _ acts ih => exact acts.orderly ih

/-! ## What an act keeps -/

/-- Concepts that have their places keep them. -/
theorem Acts.keepsPlaces (acts : Acts moment later) (orderly : moment.reader.Orderly) :
    moment.reader.model.KeepsPlaces later.reader.model := by
  cases acts with
  | past | leave | define | push | pop | count => exact .of_eq rfl
  | edit quiet => exact .of_quiet quiet
  | conceive type => exact .newConcept type
  | @mark reader _ _ digits _ _ next marks last =>
      have read := reader.markers.model_read digits reader.model
      exact .of_eq (read.elim (congrArg Model.concepts) (congrArg Model.concepts))
  | @refer reader _ concept _ referent same => exact .setReferent concept referent
  | promote denotes => exact .noteMembership (by exact orderly.known.holds denotes)
  | join denotes inside added => exact .addToCorefSet inside added

/-- A label that stays bound denotes the concepts that it denoted, and those that have joined them
since. -/
theorem Acts.exists_target (acts : Acts moment later) (orderly : moment.reader.Orderly)
    {target : Target} (denotes : moment.reader.labels.target? label = some target)
    (bound : later.reader.labels.isBound label = true) :
    ∃ further, later.reader.labels.target? label = some further ∧
      target.concepts moment.reader.model <+: further.concepts later.reader.model := by
  have kept {table : LabelTable} {model : Model} (same : table.target? label = some target)
      (sets : model.corefSets = moment.reader.model.corefSets) :
      ∃ further, table.target? label = some further ∧
        target.concepts moment.reader.model <+: further.concepts model :=
    ⟨target, same, by rw [Target.concepts_of_eq sets]⟩
  cases acts with
  | past | leave | count => exact kept denotes rfl
  | edit quiet => exact kept denotes quiet.sets
  | conceive type => exact kept denotes rfl
  | @mark reader _ _ digits _ _ next marks last =>
      have read := reader.markers.model_read digits reader.model
      exact kept denotes (read.elim (congrArg Model.corefSets) (congrArg Model.corefSets))
  | refer same => exact kept denotes Model.SameSets.setReferent.sets
  | @define reader _ concept other unbound inside =>
      have apart : other ≠ label := by
        rintro rfl
        rw [LabelTable.isBound_iff_exists.mpr ⟨target, denotes⟩] at unbound
        cases unbound
      exact kept ((LabelTable.target?_bind _ _ _ _).trans ((if_neg apart).trans denotes)) rfl
  | @promote reader _ concept other defines =>
      by_cases same : other = label
      · subst same
        obtain rfl : target = .concept concept := Option.some.inj (denotes.symm.trans defines)
        exact ⟨_, (LabelTable.target?_bind _ _ _ _).trans (if_pos rfl), Target.concepts_promoted⟩
      · exact ⟨target, (LabelTable.target?_bind _ _ _ _).trans ((if_neg same).trans denotes),
          Target.concepts_newCorefSet (orderly.known.holds denotes)⟩
  | join others inside added =>
      exact ⟨target, denotes,
        Target.concepts_addToCorefSet (orderly.known.holds others) added target⟩
  | push => exact kept denotes rfl
  | pop => exact kept (LabelTable.target?_pop orderly.distinct denotes bound) rfl

end Moment

/-! ## Labels that stand for a concept in a graph -/

namespace Reader

variable {reader : Reader} {label : String} {graph : GraphId} {concept : ConceptId}

/-- The members of a set have their places, and so has the concept that defines its labels. -/
theorem Orderly.isSettled (orderly : reader.Orderly) {set : CorefSetId}
    (denotes : reader.labels.target? label = some (.set set))
    (member : concept ∈ (Target.set set).concepts reader.model) :
    (reader.model.concept concept).IsSettled := by
  have within : set.index < reader.model.corefSets.size := orderly.known.holds denotes
  have listed : concept ∈ (reader.model.corefSet set).members := by
    rcases List.mem_cons.mp member with rfl | listed
    · exact List.mem_of_head? (orderly.agree.first set within)
    · exact listed
  exact .inr (List.ne_nil_of_mem ((orderly.agree.mem_iff _ _).mpr listed))

/-- A concept of a graph is the first one there of those that a label denotes. -/
def StandsFor (reader : Reader) (label : String) (graph : GraphId) (concept : ConceptId) : Prop :=
  ∃ target, reader.labels.target? label = some target ∧
    (target.concepts reader.model).find? (reader.model.encloses graph) = some concept

/-- A concept that stands for a label is enclosed by its graph. -/
theorem StandsFor.encloses (found : reader.StandsFor label graph concept) :
    reader.model.encloses graph concept = true :=
  have ⟨_, _, first⟩ := found
  List.find?_some first

/-- A concept that stands for a label is denoted by it. -/
theorem StandsFor.denotes (found : reader.StandsFor label graph concept) :
    reader.Denotes label concept :=
  have ⟨target, denotes, first⟩ := found
  ⟨target, denotes, List.mem_of_find?_eq_some first⟩

/-- Where a concept has been found for a label, all that the label denotes have their places. -/
theorem Orderly.isSettled_of_found (orderly : reader.Orderly) {target : Target}
    (denotes : reader.labels.target? label = some target)
    (first : (target.concepts reader.model).find? (reader.model.encloses graph) = some concept)
    {id : ConceptId} (member : id ∈ target.concepts reader.model) :
    (reader.model.concept id).IsSettled := by
  cases target with
  | set set => exact orderly.isSettled denotes member
  | concept defining =>
      obtain rfl := List.mem_singleton.mp member
      obtain rfl := List.mem_singleton.mp (List.mem_of_find?_eq_some first)
      have stands := List.find?_some first
      exact .inl (Option.ne_none_iff_exists'.mpr ⟨graph, beq_iff_eq.mp stands⟩)

end Reader

namespace Moment

variable {moment later : Moment} {label : String} {graph : GraphId} {concept : ConceptId}

/-- An act after which the label is bound leaves it standing for the same concept: what it denoted
before comes first, and keeps its places. -/
theorem Acts.standsFor (acts : Acts moment later) (orderly : moment.reader.Orderly)
    (found : moment.reader.StandsFor label graph concept)
    (bound : later.reader.labels.isBound label = true) :
    later.reader.StandsFor label graph concept := by
  obtain ⟨target, denotes, first⟩ := found
  obtain ⟨further, denotesLater, joined, grown⟩ := acts.exists_target orderly denotes bound
  have keeps := acts.keepsPlaces orderly
  have same : (target.concepts moment.reader.model).find? (later.reader.model.encloses graph) =
      some concept := by
    rw [← first]
    apply List.find?_congr
    intro id member
    rw [Model.encloses, (keeps id (orderly.isSettled_of_found denotes first member)).2,
      Model.encloses]
  refine ⟨further, denotesLater, ?_⟩
  rw [← grown, List.find?_append, same, Option.some_or]

/-- So does any further reading during which the label stays bound. -/
theorem standsFor_of_continues (further : ReflTransGen (Continues label) moment later)
    (orderly : moment.reader.Orderly) (found : moment.reader.StandsFor label graph concept) :
    later.reader.Orderly ∧ later.reader.StandsFor label graph concept := by
  induction further with
  | refl => exact ⟨orderly, found⟩
  | tail _ step ih =>
      cases step with
      | act acts bound => exact ⟨acts.orderly ih.1, acts.standsFor ih.1 ih.2 bound⟩
      | text tokens stop => exact ⟨⟨ih.1.agree, ih.1.known, ih.1.distinct⟩, ih.2⟩

end Moment

end ConceptualGraph

end
