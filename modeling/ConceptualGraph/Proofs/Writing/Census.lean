/-
Module: ConceptualGraph.Proofs.Writing.Census
Purpose: The text of a graph in the interchange form has the mark of every node once: its marks
  are as many as the graphs that are met through descriptors list nodes.
Main exports: Model.census, Model.Spellable, Session.census_generateGraph
-/
import ConceptualGraph.Proofs.Copy.Plain
import ConceptualGraph.Proofs.Model.Nested
import ConceptualGraph.Proofs.Reading.Reached
import ConceptualGraph.Proofs.Writing.Tally
import ConceptualGraph.Proofs.Writing.Text

namespace ConceptualGraph

/-! ## Marks that are read back -/

/-- A token that is read back is of the kind that it was. -/
theorem Counted.begins_reread (kind : Counted) (form : Notation) (token : Token) :
    kind.begins (token.reread form) = kind.begins token := by
  cases token with
  | ident word =>
      simp only [Token.reread]
      split <;> cases kind <;> rfl
  | float text =>
      simp only [Token.reread]
      split <;> cases kind <;> rfl
  | keyword word => rfl
  | int value => rfl
  | str text => rfl
  | name text => rfl
  | defLabel label => rfl
  | boundLabel label => rfl
  | marker digits => rfl
  | nodeComment node text => rfl
  | formalComment text => rfl
  | punct mark => rfl
  | endOfInput => rfl

/-! ## What a graph lists -/

namespace Model

/-- How many concepts, relations, actors, negations or comments a graph lists. -/
def census (model : Model) (kind : Counted) (graph : GraphId) : Nat :=
  match kind with
  | .concept => (model.graph graph).concepts.length
  | .relation => (model.graph graph).relations.countP fun relation =>
      !(model.relation relation).isActor && !model.isNegation relation
  | .actor => (model.graph graph).relations.countP fun relation =>
      (model.relation relation).isActor
  | .negation => (model.graph graph).relations.countP model.isNegation
  | .comment => (model.graph graph).comments.length

variable {model : Model} {source form : Notation} {kind : Counted} {graph inner outer : GraphId}
  {writer : Writer} {concept : ConceptId} {relation : RelationId}

/-- No actor negates. -/
theorem Rooted.isActor_of_isNegation (rooted : model.Rooted source)
    (negative : model.isNegation relation = true) : (model.relation relation).isActor = false := by
  obtain ⟨wrapper, -, negates, -⟩ := rooted.exists_wrapper negative
  exact Plan.isActor_eq_false.mpr negates.role

theorem sum_map_elim {α β : Type} (elements : List α) (part : α → Option β) (number : β → Nat) :
    (elements.map fun element => (part element).elim 0 number).sum =
      ((elements.filterMap part).map number).sum := by
  induction elements with
  | nil => rfl
  | cons element elements ih =>
      rw [List.map_cons, List.sum_cons, ih, List.filterMap_cons]
      cases part element with
      | none => rw [Option.elim_none, Nat.zero_add]
      | some value => rfl

theorem sum_map_ite_eq_countP {α : Type} (elements : List α) (test : α → Bool) :
    (elements.map fun element => if test element then 1 else 0).sum = elements.countP test := by
  induction elements with
  | nil => rfl
  | cons element elements ih =>
      rw [List.map_cons, List.sum_cons, ih, List.countP_cons, Nat.add_comm]

/-- The relations of a graph come to as many things of a kind as it lists relations of it. -/
theorem Rooted.census_eq (rooted : model.Rooted source) (graph : GraphId) :
    model.census kind graph =
      (if kind = .concept then (model.graph graph).concepts.length else 0) +
        ((model.graph graph).relations.map (model.relationTally kind)).sum +
          model.remarks kind graph := by
  -- It is enough to tell for each kind which relations count.
  have counts : ∀ test : RelationId → Bool,
      (∀ relation, test relation = decide (kind = model.counted relation)) →
        ((model.graph graph).relations.map (model.relationTally kind)).sum =
          (model.graph graph).relations.countP test := by
    intro test same
    rw [← sum_map_ite_eq_countP]
    simp only [same, decide_eq_true_eq]
    rfl
  cases kind with
  | concept =>
      have none := counts (fun _ => false) fun relation => by
        unfold counted
        split <;> [rfl; split <;> rfl]
      simp [census, remarks, none]
  | comment =>
      have none := counts (fun _ => false) fun relation => by
        unfold counted
        split <;> [rfl; split <;> rfl]
      simp [census, remarks, none]
  | relation =>
      have some := counts (fun relation => !(model.relation relation).isActor &&
        !model.isNegation relation) fun relation => by
          unfold counted
          cases negative : model.isNegation relation <;>
            cases active : (model.relation relation).isActor <;> rfl
      simp [census, remarks, some]
  | actor =>
      have some := counts (fun relation => (model.relation relation).isActor) fun relation => by
        unfold counted
        cases negative : model.isNegation relation with
        | false => cases active : (model.relation relation).isActor <;> rfl
        | true => simp [rooted.isActor_of_isNegation negative]
      simp [census, remarks, some]
  | negation =>
      have some := counts model.isNegation fun relation => by
        unfold counted
        cases negative : model.isNegation relation <;>
          cases active : (model.relation relation).isActor <;> rfl
      simp [census, remarks, some]

/-! ## What has been written and what the graphs list -/

/-- The walk from the outermost graph meets the graphs within it. -/
theorem mem_nested_iff_within (wellFormed : model.WellFormed) :
    graph ∈ Summary.nested model (model.graphs.size + 1) outer ↔ model.Within outer graph := by
  constructor
  · suffices met : ∀ levels root, model.Within outer root →
        graph ∈ Summary.nested model levels root → model.Within outer graph from met _ outer .root
    intro levels
    induction levels with
    | zero => exact fun _ _ met => by cases met
    | succ levels ih =>
        intro root within met
        rcases Summary.mem_nested_cons.mp met with rfl | ⟨concept, stands, body, describes, below⟩
        · exact within
        · exact ih body (.described within ((wellFormed.listed.mem_concepts root concept).mp stands)
            describes) below
  · -- A graph is met no deeper than there are graphs before it.
    intro within
    have reached : graph ∈ Summary.nested model (graph.index + 1) outer := by
      induction within with
      | root => exact List.mem_cons_self
      | @described graph inner concept within stands describes met =>
          have listed := (wellFormed.listed.mem_concepts graph concept).mpr stands
          have before := wellFormed.outward _ _ (wellFormed.liesIn listed describes)
          exact Summary.mem_nested_succ (Summary.mem_nested_mono before met) listed describes
    cases within with
    | root => exact List.mem_cons_self
    | described within stands describes =>
        have known := Model.lt_of_graph stands
        have owner := wellFormed.owned _ _ describes
        exact Summary.mem_nested_mono (Nat.succ_le_succ (Nat.le_of_lt (lt_of_owner owner))) reached

namespace Writing

/-- What has been written lies within the outermost graph. -/
theorem within_of_mem (writing : model.Writing [⟨0⟩] writer) (rooted : model.Rooted source)
    (member : concept ∈ writer.order) (stands : (model.concept concept).graph = some graph) :
    model.Within ⟨0⟩ graph := by
  induction place : concept.index using Nat.strong_induction_on generalizing concept graph with
  | _ place ih =>
      obtain ⟨home, here, begun⟩ := writing.houses.housed concept member
      obtain rfl : graph = home := Option.some.inj (stands.symm.trans here)
      rcases begun with rfl | ⟨owner, before, describes⟩
      · exact .root
      · obtain ⟨outer, outside, -⟩ := writing.houses.housed owner before
        have earlier := (rooted.describedBy describes).later concept stands
        exact .described (ih owner.index (place ▸ earlier) before outside rfl) outside describes

variable {graphs : List GraphId} (writing : model.Writing [⟨0⟩] writer)
  (rooted : model.Rooted source) (complete : model.Complete writer) (once : graphs.Nodup)
  (met : ∀ graph, graph ∈ graphs ↔ model.Within ⟨0⟩ graph)

include writing rooted complete once met

/-- The concepts written are those of the graphs. -/
theorem perm_order :
    writer.order.Perm (graphs.flatMap fun graph => (model.graph graph).concepts) := by
  have listed := rooted.sound.listed
  refine (List.perm_ext_iff_of_nodup writing.houses.distinct
    (listed.nodup_flatMap_concepts once)).mpr
    fun concept => ?_
  rw [List.mem_flatMap]
  constructor
  · intro member
    obtain ⟨graph, stands, -⟩ := writing.houses.housed concept member
    exact ⟨graph, (met graph).mpr (writing.within_of_mem rooted member stands),
      (listed.mem_concepts graph concept).mpr stands⟩
  · rintro ⟨graph, among, lists⟩
    exact (complete.filled graph ((met graph).mp among)).concepts concept
      ((listed.mem_concepts graph concept).mp lists)

/-- The graphs are the outermost one and those that describe the concepts written. -/
theorem perm_opened : graphs.Perm (model.opened writer.order.reverse) := by
  refine (List.perm_ext_iff_of_nodup once (writing.houses.nodup_opened rooted)).mpr fun graph => ?_
  rw [met, opened, List.mem_cons]
  simp only [List.mem_filterMap, List.mem_reverse]
  constructor
  · intro within
    cases within with
    | root => exact .inl rfl
    | described within stands describes =>
        exact .inr ⟨_, (complete.filled _ within).concepts _ stands, describes⟩
  · rintro (rfl | ⟨concept, member, describes⟩)
    · exact .root
    · obtain ⟨outer, stands, -⟩ := writing.houses.housed concept member
      exact .described (writing.within_of_mem rooted member stands) stands describes

/-- The relations written are those of the graphs. -/
theorem perm_written :
    writer.written.Perm (graphs.flatMap fun graph => (model.graph graph).relations) := by
  have listed := rooted.sound.listed
  refine (List.perm_ext_iff_of_nodup writing.once (listed.nodup_flatMap_relations once)).mpr
    fun relation => ?_
  rw [List.mem_flatMap]
  constructor
  · intro member
    obtain ⟨graph, stands, begun⟩ := writing.houses.related relation member
    refine ⟨graph, (met graph).mpr ?_, (listed.mem_relations graph relation).mpr stands⟩
    rcases begun with rfl | ⟨owner, before, describes⟩
    · exact .root
    · obtain ⟨outer, outside, -⟩ := writing.houses.housed owner before
      exact .described (writing.within_of_mem rooted before outside) outside describes
  · rintro ⟨graph, among, lists⟩
    exact (complete.filled graph ((met graph).mp among)).relations relation
      ((listed.mem_relations graph relation).mp lists)

/-- The marks of what has been written, with those of the comments of the outermost graph, are as
many as the graphs list things. -/
theorem tally_eq (kind : Counted) :
    model.tally kind writer + model.remarks kind ⟨0⟩ = (graphs.map (model.census kind)).sum := by
  have concepts :
    writer.order.length = (graphs.map fun graph => (model.graph graph).concepts.length).sum := by
    rw [(writing.perm_order rooted complete once met).length_eq, List.length_flatMap]
  have described : (graphs.map (model.remarks kind)).sum = model.remarks kind ⟨0⟩ +
      (writer.order.map fun concept =>
        (model.descriptor? concept).elim 0 (model.remarks kind)).sum := by
    rw [((writing.perm_opened rooted complete once met).map _).sum_eq, opened, List.map_cons,
      List.sum_cons, sum_map_elim, List.filterMap_reverse, List.map_reverse, List.sum_reverse]
  have related : (writer.written.map (model.relationTally kind)).sum = (graphs.map fun graph =>
      ((model.graph graph).relations.map (model.relationTally kind)).sum).sum := by
    rw [((writing.perm_written rooted complete once met).map _).sum_eq, List.map_flatMap,
      List.flatMap_def, List.sum_flatten, List.map_map]
    rfl
  have parts : (writer.order.map (model.conceptTally kind)).sum =
      (if kind = .concept then writer.order.length else 0) + (writer.order.map fun concept =>
        (model.descriptor? concept).elim 0 (model.remarks kind)).sum := by
    have same : model.conceptTally kind = fun concept => (if kind = .concept then 1 else 0) +
      (model.descriptor? concept).elim 0 (model.remarks kind) := rfl
    rw [same, List.sum_map_add, List.map_const', List.sum_replicate]
    split <;> simp
  have listed : (graphs.map (model.census kind)).sum =
      (if kind = .concept then (graphs.map fun graph => (model.graph graph).concepts.length).sum
        else 0) + (graphs.map fun graph =>
          ((model.graph graph).relations.map (model.relationTally kind)).sum).sum +
            (graphs.map (model.remarks kind)).sum := by
    rw [funext rooted.census_eq, List.sum_map_add, List.sum_map_add]
    split <;> simp
  rw [tally, parts, concepts, related, listed, described]
  omega

end Writing

/-! ## Models that can be spelled out -/

end Model

/-- Whether a designator is an infinite number. -/
def Designator.isInfinite : Designator → Bool
  | .literal (.number (.float number)) => number.magnitude == .infinite
  | _ => false

namespace Model

/-- A model in which no type is defined in place and no designator is an infinite number. -/
structure Spellable (model : Model) : Prop where
  conceptTypes : ∀ data ∈ model.concepts.toList, ∀ type ∈ data.type,
    (model.hierarchy.concepts.node type).definition.isNone = true
  relationTypes : ∀ data ∈ model.relations.toList, ∀ type ∈ data.type,
    (model.hierarchy.relations.node type).definition.isNone = true
  bounded : ∀ data ∈ model.concepts.toList,
    (data.referent.bind Referent.designator).any Designator.isInfinite = false

instance (model : Model) : Decidable model.Spellable :=
  decidable_of_iff
    ((∀ data ∈ model.concepts.toList, ∀ type ∈ data.type,
        (model.hierarchy.concepts.node type).definition.isNone = true) ∧
      (∀ data ∈ model.relations.toList, ∀ type ∈ data.type,
        (model.hierarchy.relations.node type).definition.isNone = true) ∧
      ∀ data ∈ model.concepts.toList,
        (data.referent.bind Referent.designator).any Designator.isInfinite = false)
    ⟨fun ⟨concepts, relations, bounded⟩ => ⟨concepts, relations, bounded⟩,
      fun spellable => ⟨spellable.conceptTypes, spellable.relationTypes, spellable.bounded⟩⟩

/-- In the interchange form a sign may stand before any number, whatever word it follows. -/
theorem Spellable.legible {model : Model} {source : Notation} (spellable : model.Spellable)
    (rooted : model.Rooted source) : model.Legible source .cgif where
  toRooted := rooted
  toTypesNamed := rooted.sound.typesNamed spellable.conceptTypes spellable.relationTypes
  quantifier linear := by cases linear
  bounded concept referent number described same infinite := by
    have bounded := forall_concept (fun data =>
      (data.referent.bind Referent.designator).any Designator.isInfinite = false) rfl
        spellable.bounded concept
    simp [described, same, Designator.isInfinite, infinite] at bounded

end Model

namespace Session

variable {form : Notation} {reading writing : Options} {model : Model} {graph : GraphId}
  {source written : String}

/-- A graph that has been read is written, if at all, as a text that is scanned, in which every
concept, relation, actor, negation and comment of the graphs that are met through descriptors
begins once. -/
theorem census_generateGraph
    (parsed : ((withOptions reading).parseGraph {} form source).result = .ok graph)
    (spellable : ((withOptions reading).parseGraph {} form source).model.Spellable)
    (wrote : ((withOptions writing).generateGraph
      ((withOptions reading).parseGraph {} form source).model .cgif graph).1 = .ok written) :
    let model := ((withOptions reading).parseGraph {} form source).model
    let graphs := Summary.nested model (model.graphs.size + 1) graph
    (graphs.Nodup ∧ ∀ other, other ∈ graphs ↔ model.Within graph other) ∧
      ∃ located stop, Scan.ofText .cgif written = ⟨located, .ok stop⟩ ∧
        ∀ kind : Counted, (located.map Located.token).countP kind.begins =
          (graphs.map (model.census kind)).sum := by
  have sound := sound_parseGraph parsed
  have wellFormed : ((withOptions reading).parseGraph {} form source).model.WellFormed :=
    wellFormed_parseOutermostGraph .empty
  obtain ⟨-, -, -, rfl, -⟩ := exists_of_parseGraph parsed
  intro model graphs
  have rooted : model.Rooted form := ⟨sound.sound, sound.owner⟩
  have legible : model.Legible form .cgif := spellable.legible rooted
  have once : graphs.Nodup := Summary.nodup_nested wellFormed _ _
  have met : ∀ other, other ∈ graphs ↔ model.Within ⟨0⟩ other := fun other =>
    Model.mem_nested_iff_within wellFormed
  refine ⟨⟨once, met⟩, ?_⟩
  obtain ⟨items, after, ran, rfl⟩ := exists_of_generateGraph wrote
  have clear := ((Write.words_graphItems legible (fun same => by cases same) _
    ⟨0⟩ _ Write.worded_start).of_ok ran).2
  obtain ⟨located, stop, scanned, tokens⟩ := (Phrase.clear_lines clear false [] nofun).ofText
  obtain ⟨whole, complete⟩ := (Write.ensures_items rooted legible.toTypesNamed).of_ok ran
  refine ⟨located, stop, scanned, fun kind => ?_⟩
  have accounts : Write.Accounts model kind (Write.items model .cgif ⟨0⟩) (Write.costs kind)
      (model.remarks kind ⟨0⟩) := by
    have enough := Write.size_lt_levelBound model
    exact Write.accounts_graphItems rooted legible.toTypesNamed _ (by omega)
      fun concept _ => Nat.lt_of_lt_of_le enough (Nat.le_add_right _ _)
  -- What writing has added to the tally of the model is what its phrases contain.
  have balance := (accounts Write.start).of_ok ran
  have begun : model.tally kind Write.start = 0 := rfl
  rw [begun, Nat.add_zero, whole.tally_eq rooted complete once met] at balance
  rw [← balance, tokens, List.countP_map]
  have same : kind.begins ∘ Token.reread .cgif = kind.begins :=
    funext fun token => kind.begins_reread .cgif token
  rw [same, ← Phrase.count, Phrase.count_join]
  rfl

/-- A cycle of relations, a label that is named in another context than its concept, a
designator that names another concept, and a number with a fraction. -/
theorem census_generateGraph_cycle :
    ((withOptions {}).parseGraph {} .cgif
      "[Cat: *x] (On ?x [Mat: *y]) (Under ?y ?x) ~[[Dog: 1.5] [Pet: ?x]] <Sum ?x | ?y> [Pet: *p ?x]").result =
        .ok ⟨0⟩ ∧
    ∃ located stop, Scan.ofText .cgif
        "[Cat: *x1]\n(On ?x1 [Mat: *x2])\n(Under ?x2 ?x1)\n[Pet: *x3 ?x1]\n~[[Dog: 1.5] [Pet: ?x1]]\n<Sum ?x1 | ?x2>" =
          ⟨located, .ok stop⟩ ∧
      (located.map Located.token).countP (Counted.begins .concept) = 6 ∧
      (located.map Located.token).countP (Counted.begins .relation) = 2 := by
  have parsed : ((withOptions {}).parseGraph {} .cgif
      "[Cat: *x] (On ?x [Mat: *y]) (Under ?y ?x) ~[[Dog: 1.5] [Pet: ?x]] <Sum ?x | ?y> [Pet: *p ?x]").result =
        .ok ⟨0⟩ := by decide +kernel
  have wrote : ((withOptions {}).generateGraph ((withOptions {}).parseGraph {} .cgif
      "[Cat: *x] (On ?x [Mat: *y]) (Under ?y ?x) ~[[Dog: 1.5] [Pet: ?x]] <Sum ?x | ?y> [Pet: *p ?x]").model
        .cgif ⟨0⟩).1 = .ok
          "[Cat: *x1]\n(On ?x1 [Mat: *x2])\n(Under ?x2 ?x1)\n[Pet: *x3 ?x1]\n~[[Dog: 1.5] [Pet: ?x1]]\n<Sum ?x1 | ?x2>" := by
    decide +kernel
  obtain ⟨-, located, stop, scanned, counts⟩ :=
    census_generateGraph parsed (by decide +kernel) wrote
  exact ⟨parsed, located, stop, scanned, (counts .concept).trans (by decide +kernel),
    (counts .relation).trans (by decide +kernel)⟩

end Session

end ConceptualGraph
