/-
Module: ConceptualGraph.Proofs.Writing.Exact
Purpose: How the plan of a graph is drawn up, and what it says then.  One pass over the relations
  counts arguments and files relations, a descent into the descriptors collects what designators
  name, and one pass puts the concepts in order.  In an arena that readings have filled the descent
  ends, what is drawn up is the plan, and the plan places, files and labels what it should.
Main exports: Plan.Survey, Plan.Survey.ofRelations_sums, Plan.collect, Plan.gathers_designated,
  Plan.drawn, Plan.drawn_eq, Model.Leads, Model.Starts, Model.IsReferredTo, Plan.Exact,
  Plan.exact_of_parseBuilt
-/
import ConceptualGraph.Proofs.Reading.Headed
import ConceptualGraph.Proofs.Writing.Census

namespace ConceptualGraph

namespace Plan

open Model (appendNew mem_appendNew)

variable {model : Model} {graph : GraphId} {concept : ConceptId} {relation : RelationId}

/-! ## One more relation -/

/-- One more relation adds its references to a concept. -/
theorem references_append_singleton (links : List RelationId) :
    references model (links ++ [relation]) concept =
      references model links concept + (model.relation relation).args.count concept := by
  have total (links : List RelationId) : references model links concept =
      (links.map fun relation => (model.relation relation).args.count concept).sum := rfl
  simp [total]

/-- One more relation is primary to its first argument, unless it is an actor. -/
theorem primaries_append_singleton (links : List RelationId) :
    primaries model (links ++ [relation]) concept =
      if (model.relation relation).isActor = false ∧
          (model.relation relation).args.head? = some concept then
        primaries model links concept ++ [relation]
      else primaries model links concept := by
  split <;> rename_i begins <;> simp [primaries, List.filter_cons] <;> simpa using begins

/-! ## The pass over the relations -/

/-- What is noted while the relations of a graph are passed over. -/
structure Survey where
  /-- How often a concept has been met as an argument. -/
  references : ConceptId → Nat := fun _ => 0
  /-- The concepts of which an argument alone shows that they need a label. -/
  labelled : List ConceptId := []
  /-- The relations that have been filed under their first arguments. -/
  primary : ConceptId → List RelationId := fun _ => []

namespace Survey

/-- Notes an argument of a relation or actor, with the arguments that were seen before it.  One that
has been seen needs a label, as does any argument of an actor. -/
def refer (active : Bool) (noted : Survey × List ConceptId) (argument : ConceptId) :
    Survey × List ConceptId :=
  let (survey, seen) := noted
  ({ survey with
      references := Function.update survey.references argument (survey.references argument + 1)
      labelled :=
        if seen.contains argument || active then appendNew survey.labelled argument
        else survey.labelled },
    appendNew seen argument)

/-- Files a relation under a concept. -/
def file (survey : Survey) (relation : RelationId) (first : ConceptId) : Survey :=
  { survey with
    primary := Function.update survey.primary first (survey.primary first ++ [relation]) }

/-- Notes a relation or actor unless it negates. -/
def note (model : Model) (survey : Survey) (relation : RelationId) : Survey :=
  if model.isNegation relation then survey
  else
    let data := model.relation relation
    let referred := (data.args.foldl (refer data.isActor) (survey, [])).1
    if data.isActor then referred else data.args.head?.elim referred (referred.file relation)

/-- What is noted of all relations and actors of a graph. -/
def ofRelations (model : Model) (relations : List RelationId) : Survey :=
  relations.foldl (note model) {}

/-! ## Arguments -/

/-- What has been noted when some arguments of a relation or actor have been passed. -/
structure Refers (active : Bool) (before : Survey) (passed : List ConceptId)
    (noted : Survey × List ConceptId) : Prop where
  references : ∀ concept,
    noted.1.references concept = before.references concept + passed.count concept
  labelled : ∀ concept, concept ∈ noted.1.labelled ↔ concept ∈ before.labelled ∨
    concept ∈ passed ∧ (active = true ∨ 2 ≤ passed.count concept)
  primary : noted.1.primary = before.primary
  seen : ∀ concept, concept ∈ noted.2 ↔ concept ∈ passed

variable {active : Bool} {before : Survey} {passed : List ConceptId}
  {noted : Survey × List ConceptId}

/-- Before any argument no concept has been referred to. -/
theorem Refers.start (active : Bool) (before : Survey) : Refers active before [] (before, []) where
  references _ := rfl
  labelled _ := by simp
  primary := rfl
  seen _ := Iff.rfl

/-- One more argument is one more reference, and the concept is noted if it is the first one. -/
theorem Refers.refer (refers : Refers active before passed noted) (argument : ConceptId) :
    Refers active before (passed ++ [argument]) (refer active noted argument) where
  references concept := by
    by_cases same : concept = argument
    · subst same
      simp [Survey.refer, refers.references, Nat.add_assoc]
    · have apart : argument ≠ concept := Ne.symm same
      simp [Survey.refer, refers.references, same, apart]
  labelled concept := by
    have noting : concept ∈ (Survey.refer active noted argument).1.labelled ↔
        concept ∈ noted.1.labelled ∨ concept = argument ∧ (active = true ∨ argument ∈ passed) := by
      have needs : (noted.2.contains argument || active) = true ↔
          active = true ∨ argument ∈ passed := by
        rw [Bool.or_eq_true, List.contains_iff_mem, refers.seen, or_comm]
      dsimp only [Survey.refer]
      split
      · next needed => simp [mem_appendNew, needs.mp needed, or_comm]
      · next unneeded => simp [mt needs.mpr unneeded]
    rw [noting, refers.labelled]
    by_cases same : concept = argument
    · subst same
      have more : 2 ≤ (passed ++ [concept]).count concept ↔ concept ∈ passed := by
        rw [← List.count_pos_iff]
        simp
      simp only [more, List.mem_append, List.mem_singleton, or_true, true_and]
      tauto
    · have apart : argument ≠ concept := Ne.symm same
      simp [same, apart]
  primary := refers.primary
  seen concept := by
    rw [Survey.refer, mem_appendNew, refers.seen]
    simp [or_comm]

/-- All arguments are noted, and no relation is filed meanwhile. -/
theorem refers_foldl (active : Bool) (before : Survey) (arguments : List ConceptId) :
    Refers active before arguments (arguments.foldl (refer active) (before, [])) := by
  induction arguments using List.reverseRecOn with
  | nil => exact .start active before
  | append_singleton passed argument ih =>
      rw [List.foldl_append]
      exact ih.refer argument

/-! ## Relations -/

/-- What has been noted when some relations and actors of a graph have been passed. -/
structure Sums (model : Model) (passed : List RelationId) (survey : Survey) : Prop where
  references : ∀ concept, survey.references concept =
    Plan.references model (passed.filter fun relation => !model.isNegation relation) concept
  labelled : ∀ concept, concept ∈ survey.labelled ↔
    ∃ relation ∈ passed, model.isNegation relation = false ∧
      concept ∈ (model.relation relation).args ∧
      ((model.relation relation).isActor = true ∨ 2 ≤ (model.relation relation).args.count concept)
  primary : ∀ concept, survey.primary concept =
    primaries model (passed.filter fun relation => !model.isNegation relation) concept

variable {survey : Survey} {relations : List RelationId}

/-- Before any relation nothing has been summed up. -/
theorem Sums.start (model : Model) : Sums model [] {} where
  references _ := rfl
  labelled _ := by simp
  primary _ := rfl

theorem primary_file (survey : Survey) (first : ConceptId) :
    (survey.file relation first).primary concept =
      if concept = first then survey.primary concept ++ [relation] else survey.primary concept := by
  by_cases same : concept = first
  · subst same
    simp [file]
  · simp [file, same]

theorem note_of_isNegation (negates : model.isNegation relation = true) :
    note model survey relation = survey := by
  simp [note, negates]

/-- A relation or actor that does not negate is noted with all its arguments, and is filed unless it
is an actor or has none. -/
theorem note_of_not_isNegation (survey : Survey) (asserts : model.isNegation relation = false) :
    (∀ concept, (note model survey relation).references concept =
      survey.references concept + (model.relation relation).args.count concept) ∧
    (∀ concept, concept ∈ (note model survey relation).labelled ↔ concept ∈ survey.labelled ∨
      concept ∈ (model.relation relation).args ∧ ((model.relation relation).isActor = true ∨
        2 ≤ (model.relation relation).args.count concept)) ∧
    ∀ concept, (note model survey relation).primary concept =
      if (model.relation relation).isActor = false ∧
          (model.relation relation).args.head? = some concept then
        survey.primary concept ++ [relation]
      else survey.primary concept := by
  have refers := refers_foldl (model.relation relation).isActor survey
    (model.relation relation).args
  simp only [note, asserts, Bool.false_eq_true, if_false]
  cases active : (model.relation relation).isActor with
  | true =>
      rw [active] at refers
      exact ⟨refers.references, refers.labelled, fun concept => by simp [refers.primary]⟩
  | false =>
      rw [active] at refers
      cases begins : (model.relation relation).args.head? with
      | none => exact ⟨refers.references, refers.labelled, fun concept => by simp [refers.primary]⟩
      | some first =>
          refine ⟨refers.references, refers.labelled, fun concept => ?_⟩
          simp only [Option.elim, Bool.false_eq_true, if_false, primary_file, refers.primary,
            true_and, Option.some.injEq, eq_comm]

/-- One more relation is summed up with those before it. -/
theorem Sums.note (sums : Sums model relations survey) (relation : RelationId) :
    Sums model (relations ++ [relation]) (note model survey relation) := by
  cases negates : model.isNegation relation with
  | true =>
      rw [note_of_isNegation negates]
      have same : ((relations ++ [relation]).filter fun relation => !model.isNegation relation) =
          relations.filter fun relation => !model.isNegation relation := by
        simp [negates]
      refine ⟨fun concept => ?_, fun concept => ?_, fun concept => ?_⟩
      · rw [same, sums.references]
      · rw [sums.labelled]
        simp [or_and_right, exists_or, negates]
      · rw [same, sums.primary]
  | false =>
      obtain ⟨references, labelled, primary⟩ := note_of_not_isNegation survey negates
      have more : ((relations ++ [relation]).filter fun relation => !model.isNegation relation) =
          (relations.filter fun relation => !model.isNegation relation) ++ [relation] := by
        simp [negates]
      refine ⟨fun concept => ?_, fun concept => ?_, fun concept => ?_⟩
      · rw [more, references, sums.references, references_append_singleton]
      · rw [labelled, sums.labelled]
        simp [or_and_right, exists_or, negates]
      · rw [more, primary, sums.primary, primaries_append_singleton]

/-- All relations and actors of a graph are noted. -/
theorem ofRelations_sums (model : Model) (relations : List RelationId) :
    Sums model relations (ofRelations model relations) := by
  induction relations using List.reverseRecOn with
  | nil => exact .start model
  | append_singleton passed relation ih =>
      rw [ofRelations, List.foldl_append]
      exact ih.note relation

end Survey

/-! ## The descent into descriptors -/

/-- Collects what designators name in a concept and in the graphs nested in it.  There is no result
where the levels run out. -/
def collect (model : Model) : (levels : Nat) → List ConceptId → ConceptId →
    Option (List ConceptId)
  | 0, _, _ => none
  | levels + 1, found, concept =>
      match (model.concept concept).referent with
      | none => some found
      | some referent =>
          let found := referent.definedBy?.elim found (appendNew found)
          match referent.descriptor with
          | none => some found
          | some inner => (model.graph inner).concepts.foldlM (collect model levels) found

/-- What is collected from a concept is what it designates, and then what the graph in it does. -/
theorem collect_succ (levels : Nat) (found : List ConceptId) (concept : ConceptId) :
    collect model (levels + 1) found concept =
      let found := (model.designates? concept).elim found (appendNew found)
      (model.descriptor? concept).elim (some found) fun inner =>
        (model.graph inner).concepts.foldlM (collect model levels) found := by
  rw [collect, Model.designates?, Model.descriptor?]
  cases (model.concept concept).referent with
  | none => rfl
  | some referent =>
      dsimp only [Option.bind_some]
      cases referent.descriptor <;> rfl

/-- Whether a collection ends, and adds exactly some concepts to what had been found. -/
def Gathers (collection : Option (List ConceptId)) (found more : List ConceptId) : Prop :=
  ∃ result, collection = some result ∧ ∀ target, target ∈ result ↔ target ∈ found ∨ target ∈ more

theorem gathers_foldlM {gather : List ConceptId → ConceptId → Option (List ConceptId)}
    {targets : ConceptId → List ConceptId} {concepts : List ConceptId}
    (each : ∀ concept ∈ concepts, ∀ found, Gathers (gather found concept) found (targets concept))
    (found : List ConceptId) :
    Gathers (concepts.foldlM gather found) found (concepts.flatMap targets) := by
  induction concepts generalizing found with
  | nil => exact ⟨found, rfl, by simp⟩
  | cons concept others ih =>
      obtain ⟨here, ran, first⟩ := each concept List.mem_cons_self found
      obtain ⟨result, rest, others⟩ := ih (fun other member =>
        each other (List.mem_cons_of_mem _ member)) here
      refine ⟨result, ?_, fun target => ?_⟩
      · rw [List.foldlM_cons, ran]
        exact rest
      · rw [others, first, List.flatMap_cons, List.mem_append, or_assoc]

/-- What a concept itself designates is collected at once. -/
theorem mem_elim_appendNew {named : Option ConceptId} {found : List ConceptId} :
    concept ∈ named.elim found (appendNew found) ↔ concept ∈ found ∨ concept ∈ named.toList := by
  cases named <;> simp [mem_appendNew, or_comm]

/-- The descent from a graph ends as soon as there are as many levels as graphs from it onwards,
since a descriptor comes after the graph of its concept. -/
theorem gathers_designated (wellFormed : model.WellFormed) {levels : Nat}
    (deep : model.graphs.size ≤ graph.index + levels) (found : List ConceptId) :
    Gathers ((model.graph graph).concepts.foldlM (collect model levels) found) found
      (model.designated levels graph) := by
  induction levels generalizing graph found with
  | zero =>
      have outside : model.graphs.size ≤ graph.index := deep
      rw [Model.graph_of_le outside]
      exact ⟨found, rfl, by simp [Model.designated]⟩
  | succ levels ih =>
      refine gathers_foldlM (fun concept stands found => ?_) found
      rw [collect_succ]
      dsimp only
      cases describes : model.descriptor? concept with
      | none => exact ⟨_, rfl, by simp [mem_elim_appendNew]⟩
      | some inner =>
          have before := wellFormed.outward _ _ (wellFormed.liesIn stands describes)
          obtain ⟨result, ran, mem⟩ := @ih inner (by omega)
            ((model.designates? concept).elim found (appendNew found))
          exact ⟨result, ran, by simp [mem, mem_elim_appendNew, or_assoc]⟩

/-! ## The plan -/

/-- Appending what is not there yet keeps the first of all that are equal. -/
theorem foldl_appendNew (placed concepts : List ConceptId) :
    concepts.foldl appendNew placed =
      placed ++ (concepts.filter fun concept => !placed.contains concept).eraseDups := by
  induction concepts generalizing placed with
  | nil => simp
  | cons concept others ih =>
      rw [List.foldl_cons, ih]
      by_cases already : concept ∈ placed
      · simp [appendNew, already]
      · have both (other : ConceptId) : (!(other == concept) && !placed.contains other) =
            !(placed ++ [concept]).contains other := by
          by_cases same : other = concept <;> simp [same]
        rw [Model.appendNew_of_not_mem already, List.filter_cons_of_pos (by simpa using already),
          List.eraseDups_cons, List.filter_filter, List.append_assoc]
        simp only [both, List.singleton_append]

/-- The plan of a graph as it is drawn up: from a survey of its relations, what the descent into
descriptors collects, and one pass that places each concept once. -/
def drawn (model : Model) (graph : GraphId) : Option Plan := do
  let survey := Survey.ofRelations model (model.graph graph).relations
  let designated ← (model.graph graph).concepts.foldlM (collect model (model.graphs.size + 1)) []
  let visible := (model.graph graph).concepts.filter fun concept => !(model.concept concept).hidden
  let leading := visible.filter fun concept =>
    designated.contains concept || model.definesSharedSet concept
  let starting := visible.filter fun concept => !(survey.primary concept).isEmpty
  return {
    order := (leading ++ starting ++ visible).foldl appendNew []
    primary := survey.primary
    needsLabel := fun concept =>
      survey.labelled.contains concept || 2 ≤ survey.references concept
        || designated.contains concept }

/-- What a survey labels, with what it has met twice, is what the counts ask for. -/
theorem needs_of_sums {survey : Survey}
    (sums : Survey.Sums model (model.graph graph).relations survey) (concept : ConceptId) :
    (survey.labelled.contains concept || decide (2 ≤ survey.references concept)) =
      (decide (2 ≤ references model (links model graph) concept) ||
        servesActor model (links model graph) concept) := by
  rw [Bool.eq_iff_iff]
  simp only [Bool.or_eq_true, List.contains_iff_mem, sums.labelled, decide_eq_true_eq,
    sums.references, servesActor, List.any_eq_true, Bool.and_eq_true]
  constructor
  · rintro (⟨relation, member, asserts, argument, active | twice⟩ | twice)
    · exact .inr ⟨relation, List.mem_filter.mpr ⟨member, by simp [asserts]⟩, active, argument⟩
    · exact .inl (Nat.le_trans twice
        (count_le_references (List.mem_filter.mpr ⟨member, by simp [asserts]⟩)))
    · exact .inl twice
  · rintro (twice | ⟨relation, member, active, argument⟩)
    · exact .inr twice
    · obtain ⟨member, asserts⟩ := List.mem_filter.mp member
      exact .inl ⟨relation, member, by simpa using asserts, argument, .inl active⟩

/-- What is drawn up is the plan. -/
theorem drawn_eq (wellFormed : model.WellFormed) (graph : GraphId) :
    drawn model graph = some (ofGraph model graph) := by
  have deep : model.graphs.size ≤ graph.index + (model.graphs.size + 1) := by omega
  obtain ⟨designated, ran, mem⟩ := gathers_designated wellFormed deep []
  have sums := Survey.ofRelations_sums model (model.graph graph).relations
  have named (concept : ConceptId) : designated.contains concept =
      (model.designated (model.graphs.size + 1) graph).contains concept := by
    rw [Bool.eq_iff_iff, List.contains_iff_mem, mem, List.contains_iff_mem]
    simp
  have primary : (Survey.ofRelations model (model.graph graph).relations).primary =
      primaries model (links model graph) := funext sums.primary
  simp only [drawn, ran, Option.bind_eq_bind, Option.bind_some, Option.pure_def, ofGraph, named,
    primary, needs_of_sums sums, foldl_appendNew, List.nil_append, List.contains_nil,
    Bool.not_false, List.filter_true]

end Plan

/-! ## Groups -/

section Lists

variable {α : Type} {all chosen first rest : List α} {wanted : α → Prop}

/-- What is wanted of a list: each such element once, in the order of the list. -/
structure Selects (all : List α) (wanted : α → Prop) (chosen : List α) : Prop where
  inOrder : chosen.Sublist all
  once : chosen.Nodup
  mem : ∀ element, element ∈ chosen ↔ element ∈ all ∧ wanted element

/-- A list without repetitions that is filtered by what is wanted selects just that. -/
theorem Selects.filter (once : all.Nodup) {test : α → Bool}
    (decides : ∀ element ∈ all, test element = true ↔ wanted element) :
    Selects all wanted (all.filter test) where
  inOrder := List.filter_sublist
  once := once.filter test
  mem element := by
    rw [List.mem_filter]
    exact and_congr_right (decides element)

variable [DecidableEq α]

/-- A list without repetition is as it is when repetitions are dropped. -/
theorem eraseDups_of_nodup (once : all.Nodup) : all.eraseDups = all := by
  induction all with
  | nil => rfl
  | cons first others ih =>
      obtain ⟨apart, once⟩ := List.nodup_cons.mp once
      have fresh : (others.filter fun other => !other == first) = others :=
        List.filter_eq_self.mpr fun other member => by
          have different : other ≠ first := fun same => apart (same ▸ member)
          simp [different]
      rw [List.eraseDups_cons, fresh, ih once]

/-- What has been placed before is left out of a list without repetitions. -/
theorem eraseDups_append_of_nodup (first : List α) (once : rest.Nodup) :
    (first ++ rest).eraseDups =
      first.eraseDups ++ rest.filter fun element => !first.contains element := by
  rw [List.eraseDups_append, List.removeAll, eraseDups_of_nodup (once.filter _)]

/-- Where those that lead are placed first, those that start next and all of them last, three groups
come about that have nothing in common. -/
theorem eraseDups_groups (once : all.Nodup) (leads starts : α → Bool) :
    (all.filter leads ++ all.filter starts ++ all).eraseDups =
      all.filter leads ++ (all.filter fun element => !leads element && starts element) ++
        all.filter fun element => !leads element && !starts element := by
  rw [eraseDups_append_of_nodup _ once, eraseDups_append_of_nodup _ (once.filter starts),
    eraseDups_of_nodup (once.filter leads), List.filter_filter]
  have second : (all.filter fun element => !(all.filter leads).contains element && starts element) =
      all.filter fun element => !leads element && starts element :=
    List.filter_congr fun element member => by simp [member]
  have third : (all.filter fun element =>
      !(all.filter leads ++ all.filter starts).contains element) =
      all.filter fun element => !leads element && !starts element :=
    List.filter_congr fun element member => by simp [member]
  rw [second, third]

end Lists

/-! ## Concepts that are written early -/

namespace Model

variable (model : Model) (graph : GraphId)

/-- Whether a designator in a graph, or in one nested in it, names a concept. -/
def IsTarget (concept : ConceptId) : Prop :=
  ∃ inner, model.Within graph inner ∧
    ∃ user ∈ (model.graph inner).concepts, model.designates? user = some concept

/-- Whether others refer to a concept: designators, or concepts of a set that it defines. -/
def Leads (concept : ConceptId) : Prop :=
  model.IsTarget graph concept ∨
    ∃ set, (model.corefSet set).defining = concept ∧ 1 < (model.corefSet set).members.length

/-- Whether a relation, which is neither an actor nor a negation, begins with a concept. -/
structure BeginsWith (concept : ConceptId) (relation : RelationId) : Prop where
  asserts : model.isNegation relation = false
  passive : (model.relation relation).isActor = false
  first : (model.relation relation).args.head? = some concept

/-- Whether a relation of a graph begins with a concept. -/
def Starts (concept : ConceptId) : Prop :=
  ∃ relation ∈ (model.graph graph).relations, model.BeginsWith concept relation

/-- The arguments of the relations and actors of a graph that do not negate, one list after the
other. -/
def arguments : List ConceptId :=
  ((model.graph graph).relations.filter fun relation => !model.isNegation relation).flatMap
    fun relation => (model.relation relation).args

/-- Whether a concept is an argument twice, an argument of an actor, or named by a designator. -/
def IsReferredTo (concept : ConceptId) : Prop :=
  2 ≤ (model.arguments graph).count concept ∨
    (∃ relation ∈ (model.graph graph).relations, (model.relation relation).isActor = true ∧
      concept ∈ (model.relation relation).args) ∨
    model.IsTarget graph concept

variable {model graph} {levels : Nat} {target concept : ConceptId}

theorem mem_designated_iff_nested : target ∈ model.designated levels graph ↔
    ∃ inner ∈ Summary.nested model levels graph,
      ∃ user ∈ (model.graph inner).concepts, model.designates? user = some target := by
  induction levels generalizing graph with
  | zero => simp [designated, Summary.nested]
  | succ levels ih =>
      have below (user : ConceptId) :
          target ∈ (model.descriptor? user).elim [] (model.designated levels) ↔
            ∃ body, model.descriptor? user = some body ∧ target ∈ model.designated levels body := by
        cases model.descriptor? user <;> simp
      simp only [designated, List.mem_flatMap, List.mem_append, Option.mem_toList, below, ih,
        Summary.mem_nested_cons]
      constructor
      · rintro ⟨user, stands, names | ⟨body, describes, inner, met, names⟩⟩
        · exact ⟨graph, .inl rfl, user, stands, names⟩
        · exact ⟨inner, .inr ⟨user, stands, body, describes, met⟩, names⟩
      · rintro ⟨inner, rfl | ⟨user, stands, body, describes, met⟩, names⟩
        · obtain ⟨user, stands, names⟩ := names
          exact ⟨user, stands, .inl names⟩
        · exact ⟨user, stands, .inr ⟨body, describes, inner, met, names⟩⟩

/-- The plan looks for designators deep enough to find all of them. -/
theorem mem_designated_iff_isTarget (wellFormed : model.WellFormed) :
    target ∈ model.designated (model.graphs.size + 1) graph ↔ model.IsTarget graph target := by
  simp only [mem_designated_iff_nested, mem_nested_iff_within wellFormed, IsTarget]

end Model

/-! ## Exactness -/

namespace Plan

/-- The three groups of concepts that are not hidden: those to which others refer, others that begin
relations, and the rest, each group in the order of the graph. -/
structure Groups (model : Model) (graph : GraphId) (leading starting others : List ConceptId) :
    Prop where
  leading : Selects (model.graph graph).concepts (fun concept =>
    (model.concept concept).hidden = false ∧ model.Leads graph concept) leading
  starting : Selects (model.graph graph).concepts (fun concept =>
    (model.concept concept).hidden = false ∧ ¬model.Leads graph concept ∧
      model.Starts graph concept) starting
  others : Selects (model.graph graph).concepts (fun concept =>
    (model.concept concept).hidden = false ∧ ¬model.Leads graph concept ∧
      ¬model.Starts graph concept) others

/-- A plan that is exact: it places, files and labels what it should, and nothing else. -/
structure Exact (model : Model) (graph : GraphId) (plan : Plan) : Prop where
  /-- The groups are placed one after the other. -/
  order : ∃ leading starting others,
    plan.order = leading ++ starting ++ others ∧ Groups model graph leading starting others
  /-- The concepts that are not hidden are placed, and none of them twice. -/
  placed : plan.order.Nodup ∧ ∀ concept, concept ∈ plan.order ↔
    concept ∈ (model.graph graph).concepts ∧ (model.concept concept).hidden = false
  /-- Under each concept are the relations that begin with it, in the order of the graph. -/
  primary : ∀ concept, Selects (model.graph graph).relations (model.BeginsWith concept)
    (plan.primary concept)
  /-- A relation with arguments, neither an actor nor a negation, is filed once, under the first. -/
  filed : ∀ relation ∈ (model.graph graph).relations, ∀ first others,
    model.isNegation relation = false → (model.relation relation).isActor = false →
    (model.relation relation).args = first :: others →
    ∀ concept, (plan.primary concept).count relation = if concept = first then 1 else 0
  /-- Labels are for the concepts that are referred to after they are written. -/
  needsLabel : ∀ concept, plan.needsLabel concept = true ↔ model.IsReferredTo graph concept

variable {sessions : Nat → Session} {model : Model} {graph : GraphId} {concept : ConceptId}

/-- The arguments of a graph refer to its concepts. -/
theorem count_arguments :
    (model.arguments graph).count concept = references model (links model graph) concept := by
  rw [Model.arguments, List.count_flatMap]
  rfl

theorem mem_links_iff {relation : RelationId} : relation ∈ links model graph ↔
    relation ∈ (model.graph graph).relations ∧ model.isNegation relation = false := by
  simp [links]

/-- The relations that a concept begins are selected in the order of the graph. -/
theorem selects_primary (listed : model.Listed) (concept : ConceptId) :
    Selects (model.graph graph).relations (model.BeginsWith concept)
      ((ofGraph model graph).primary concept) := by
  have merged : (ofGraph model graph).primary concept =
      (model.graph graph).relations.filter fun relation =>
        (!(model.relation relation).isActor &&
          (model.relation relation).args.head? == some concept) && !model.isNegation relation := by
    rw [← List.filter_filter]
    rfl
  rw [merged]
  refine .filter (listed.nodup_relations graph) fun relation _ => ?_
  simp only [Bool.and_eq_true, Bool.not_eq_true', beq_iff_eq]
  exact ⟨fun ⟨⟨passive, first⟩, asserts⟩ => ⟨asserts, passive, first⟩,
    fun begins => ⟨⟨begins.passive, begins.first⟩, begins.asserts⟩⟩

/-- A concept starts relations exactly if one is primary to it. -/
theorem starts_iff (listed : model.Listed) (concept : ConceptId) :
    (!(primaries model (links model graph) concept).isEmpty) = true ↔
      model.Starts graph concept := by
  rw [Bool.not_eq_true', List.isEmpty_eq_false_iff_exists_mem]
  exact exists_congr fun relation => (selects_primary listed concept).mem relation

/-- Whether the plan lets a concept lead. -/
theorem leads_iff (shared : model.Shared sessions) (concept : ConceptId) :
    ((model.designated (model.graphs.size + 1) graph).contains concept ||
      model.definesSharedSet concept) = true ↔ model.Leads graph concept := by
  rw [Bool.or_eq_true, List.contains_iff_mem, Model.mem_designated_iff_isTarget shared.wellFormed,
    Model.definesSharedSet_iff shared.headed shared.agree, Model.Leads]

/-- The order of a graph is what defines shared sets, then what begins relations, then all else. -/
theorem exists_groups (shared : model.Shared sessions) (graph : GraphId) :
    ∃ leading starting others, (ofGraph model graph).order = leading ++ starting ++ others ∧
      Groups model graph leading starting others := by
  have listed := shared.wellFormed.listed
  have once := listed.nodup_concepts graph
  refine ⟨_, _, _, eraseDups_groups (once.filter _) _ _, ⟨?_, ?_, ?_⟩⟩
  all_goals
    rw [List.filter_filter]
    refine .filter once fun concept _ => ?_
  · rw [Bool.and_eq_true, leads_iff shared, Bool.not_eq_true', and_comm]
  · rw [Bool.and_eq_true, Bool.and_eq_true, Bool.not_eq_true', ← Bool.not_eq_true,
      leads_iff shared, starts_iff listed, Bool.not_eq_true', and_comm]
  · rw [Bool.and_eq_true, Bool.and_eq_true, Bool.not_eq_true', ← Bool.not_eq_true,
      leads_iff shared, Bool.not_eq_true', ← Bool.not_eq_true, starts_iff listed,
      Bool.not_eq_true', and_comm]

/-- A concept needs a label exactly if something refers to it. -/
theorem needsLabel_iff (shared : model.Shared sessions) (concept : ConceptId) :
    (ofGraph model graph).needsLabel concept = true ↔ model.IsReferredTo graph concept := by
  have served : servesActor model (links model graph) concept = true ↔
      ∃ relation ∈ (model.graph graph).relations, (model.relation relation).isActor = true ∧
        concept ∈ (model.relation relation).args := by
    simp only [servesActor, List.any_eq_true, Bool.and_eq_true, List.contains_iff_mem,
      mem_links_iff]
    constructor
    · rintro ⟨relation, ⟨member, -⟩, active, argument⟩
      exact ⟨relation, member, active, argument⟩
    · rintro ⟨relation, member, active, argument⟩
      exact ⟨relation, ⟨member, shared.headed.isNegation_eq_false active⟩, active, argument⟩
  rw [Model.IsReferredTo, count_arguments, ← served,
    ← Model.mem_designated_iff_isTarget shared.wellFormed]
  simp only [ofGraph, Bool.or_eq_true, decide_eq_true_eq, List.contains_iff_mem, or_assoc]

/-- The plan of a graph with shared sets says exactly what is to be written, and when. -/
theorem Exact.of_shared (shared : model.Shared sessions) (graph : GraphId) :
    (ofGraph model graph).Exact model graph where
  order := exists_groups shared graph
  placed := ⟨Summary.nodup_eraseDups _, fun _ => mem_order⟩
  primary := selects_primary shared.wellFormed.listed
  filed relation member first others asserts passive args concept := by
    have selects : Selects (model.graph graph).relations (model.BeginsWith concept) _ :=
      selects_primary shared.wellFormed.listed concept
    split
    · next same =>
      refine List.count_eq_one_of_mem selects.once ((selects.mem relation).mpr ⟨member, ?_⟩)
      exact ⟨asserts, passive, by rw [args, same]; rfl⟩
    · next apart =>
      refine List.count_eq_zero.mpr fun filed => apart ?_
      have begins := ((selects.mem relation).mp filed).2.first
      rw [args] at begins
      exact (Option.some.inj begins).symm
  needsLabel := needsLabel_iff shared

/-- The plan is exact.  In an arena that readings have filled, what one pass over the relations of a
graph, a descent into the descriptors and one pass over the concepts draw up is the plan of the
graph, and that plan places, files and labels what it should. -/
theorem exact_of_parseBuilt (built : Model.ParseBuilt sessions model) (graph : GraphId) :
    drawn model graph = some (ofGraph model graph) ∧ (ofGraph model graph).Exact model graph :=
  ⟨drawn_eq built.shared.wellFormed graph, .of_shared built.shared graph⟩

/-- What a nested graph names comes before what begins a relation, and what nothing needs comes
last. -/
theorem exact_of_parseBuilt_nested :
    let model := (Session.Call.outermostGraph.after {} {} .cgif
      "[Eye] [Mat: *m] [Cat: *c] [Dog: *d] (on ?m ?c) <Look | ?m> ~[[?d] [Tail: *t ?c]]").2
    (drawn model ⟨0⟩ = some (ofGraph model ⟨0⟩) ∧ (ofGraph model ⟨0⟩).Exact model ⟨0⟩) ∧
      (ofGraph model ⟨0⟩).order = [⟨2⟩, ⟨3⟩, ⟨1⟩, ⟨0⟩] ∧
      (ofGraph model ⟨0⟩).primary ⟨1⟩ = [⟨0⟩] ∧
      (ofGraph model ⟨0⟩).order.filter (ofGraph model ⟨0⟩).needsLabel = [⟨2⟩, ⟨1⟩] :=
  ⟨exact_of_parseBuilt (.read 0 .outermostGraph .cgif _ nofun (.start {})) ⟨0⟩,
    by decide +kernel⟩

end Plan

end ConceptualGraph
