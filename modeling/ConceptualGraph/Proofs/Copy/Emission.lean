/-
Module: ConceptualGraph.Proofs.Copy.Emission
Purpose: The label with which a concept is written for the first time, and what it
  denotes from then on.
Main exports: LabelTable.Gives, Model.Opens, Write.openLabel_achieves,
  Model.Labels.unlabelled, Model.Labels.defined, Model.Labels.joined
-/
import ConceptualGraph.Proofs.Copy.Labels

namespace ConceptualGraph

/-! ## Labels given out -/

/-- Whether a table gives a target a label, and becomes another one by that. -/
def LabelTable.Gives (table : LabelTable) (target : Target) (label : String)
    (later : LabelTable) : Prop :=
  table.name? target = some label ∧ later = table ∨
    table.name? target = none ∧ ∃ number, table.counter < number ∧ label = numbered number ∧
      later = { table with counter := number }.bind label target

/-- The state in which a concept has been written with a label. -/
def Writer.emit (writer : Writer) (concept : ConceptId) (label : Option String) : Writer :=
  { writer with emitted := (concept, label) :: writer.emitted }

/-- The state with other labels. -/
def Writer.withLabels (writer : Writer) (labels : LabelTable) : Writer :=
  { writer with labels }

section

variable {writer : Writer} {concept : ConceptId} {label : Option String} {labels : LabelTable}

@[simp] theorem Writer.emitted_emit :
    (writer.emit concept label).emitted = (concept, label) :: writer.emitted := rfl
@[simp] theorem Writer.order_emit : (writer.emit concept label).order = concept :: writer.order :=
  rfl
@[simp] theorem Writer.labels_emit : (writer.emit concept label).labels = writer.labels := rfl
@[simp] theorem Writer.markers_emit : (writer.emit concept label).markers = writer.markers := rfl
@[simp] theorem Writer.written_emit : (writer.emit concept label).written = writer.written := rfl

@[simp] theorem Writer.emitted_withLabels :
    (writer.withLabels labels).emitted = writer.emitted := rfl
@[simp] theorem Writer.order_withLabels : (writer.withLabels labels).order = writer.order := rfl
@[simp] theorem Writer.labels_withLabels : (writer.withLabels labels).labels = labels := rfl
@[simp] theorem Writer.markers_withLabels :
    (writer.withLabels labels).markers = writer.markers := rfl
@[simp] theorem Writer.written_withLabels :
    (writer.withLabels labels).written = writer.written := rfl

@[simp] theorem Writer.ledger_withLabels (model : Model) :
    (writer.withLabels labels).ledger model = writer.ledger model := rfl

/-- A concept that is emitted is the last one on the ledger. -/
theorem Writer.concepts_emit (model : Model) :
    ((writer.emit concept label).ledger model).concepts =
      (writer.ledger model).concepts ++ [concept] := by
  simp [Writer.ledger]

/-- A concept that is emitted puts the graph that describes it on the ledger. -/
theorem Writer.graphs_emit (model : Model) :
    ((writer.emit concept label).ledger model).graphs =
      (writer.ledger model).graphs ++ (model.descriptor? concept).toList := by
  cases describes : model.descriptor? concept <;>
    simp [Writer.ledger, Model.opened, describes]

theorem Writer.continues_emit (model : Model) :
    (writer.ledger model).Continues ((writer.emit concept label).ledger model) :=
  Writer.continues (List.suffix_cons _ _) List.suffix_rfl

end

/-- Whether a concept is written under a label, or without one, when a state of writing is
left for another one. -/
inductive Model.Opens (model : Model) (writer : Writer) (concept : ConceptId) :
    Option LabelUse → Writer → Prop where
  | unlabelled (alone : model.sharedSet? concept = none) : Opens model writer concept none writer
  | alone {label : String} {labels : LabelTable} (alone : model.sharedSet? concept = none)
      (gives : writer.labels.Gives (.concept concept) label labels) :
      Opens model writer concept (some (.defining label)) (writer.withLabels labels)
  | defining {set : CorefSetId} {label : String} {labels : LabelTable}
      (shares : model.sharedSet? concept = some set)
      (defines : (model.corefSet set).defining = concept)
      (gives : writer.labels.Gives (.set set) label labels) :
      Opens model writer concept (some (.defining label)) (writer.withLabels labels)
  | member {set : CorefSetId} {label : String} {labels : LabelTable}
      (shares : model.sharedSet? concept = some set)
      (other : (model.corefSet set).defining ≠ concept)
      (gives : writer.labels.Gives (.set set) label labels) :
      Opens model writer concept (some (.bound label)) (writer.withLabels labels)

/-- Finding the label of a concept writes nothing. -/
theorem Model.Opens.exists_labels {model : Model} {writer opened : Writer} {concept : ConceptId}
    {use : Option LabelUse} (opens : model.Opens writer concept use opened) :
    ∃ labels, opened = writer.withLabels labels := by
  cases opens with
  | unlabelled _ => exact ⟨writer.labels, rfl⟩
  | alone _ _ => exact ⟨_, rfl⟩
  | defining _ _ _ => exact ⟨_, rfl⟩
  | member _ _ _ => exact ⟨_, rfl⟩

/-- A concept that has been opened is the next one in the order. -/
theorem Model.Opens.order_emit {model : Model} {writer opened : Writer} {concept : ConceptId}
    {use : Option LabelUse} (opens : model.Opens writer concept use opened) :
    (opened.emit concept (use.map LabelUse.label)).order = concept :: writer.order := by
  obtain ⟨labels, rfl⟩ := opens.exists_labels
  rw [Writer.order_emit, Writer.order_withLabels]

namespace Write

variable {model : Model} {writer : Writer}

/-- The label for a target is the one that the table has for it, or else a fresh one. -/
theorem labelFor_achieves (target : Target) :
    Achieves (labelFor target) writer fun label later =>
      ∃ labels, later = writer.withLabels labels ∧ writer.labels.Gives target label labels := by
  unfold labelFor
  rw [achieves_bind, achieves_get]
  cases named : writer.labels.name? target with
  | some label =>
      simp only [achieves_pure]
      exact ⟨writer.labels, rfl, .inl ⟨named, rfl⟩⟩
  | none =>
      obtain ⟨number, further, fresh⟩ := writer.labels.freshLabel_eq
      simp only [achieves_bind, achieves_get, achieves_modify, achieves_pure, fresh]
      exact ⟨_, rfl, .inr ⟨named, number, further, rfl, rfl⟩⟩

/-- A concept that opens is written with the label that its set or its own later mentions need, if
any do. -/
theorem openLabel_achieves (concept : ConceptId) (needed : Bool) :
    Achieves (openLabel model concept needed) writer fun use later =>
      model.Opens writer concept use later := by
  unfold openLabel
  cases shares : model.sharedSet? concept with
  | some set =>
      simp only [achieves_bind, achieves_pure]
      refine (labelFor_achieves (.set set)).mono fun label later facts => ?_
      obtain ⟨labels, rfl, gives⟩ := facts
      split
      · next defines => exact .defining shares defines gives
      · next other => exact .member shares other gives
  | none =>
      simp only [achieves_bind, achieves_get, achieves_ite, achieves_pure]
      refine ⟨fun _ => ?_, fun _ => .unlabelled shares⟩
      refine (labelFor_achieves (.concept concept)).mono fun label later facts => ?_
      obtain ⟨labels, rfl, gives⟩ := facts
      exact .alone shares gives

end Write

/-! ## What is known after a concept has been written -/

namespace Model

variable {model copy grown : Model} {writer : Writer} {concept other : ConceptId}
  {graph : GraphId} {outer graphs : List GraphId} {table : LabelTable}

/-- A label that is written stays so when one more concept is. -/
theorem Written.emit {known : String} {target : Target}
    (written : model.Written writer known target) (label : Option String) :
    model.Written (writer.emit concept label) known target := by
  cases target with
  | concept id => exact List.mem_cons_of_mem _ written
  | set set =>
      obtain ⟨id, member, shares⟩ := written
      exact ⟨id, List.mem_cons_of_mem _ member, shares⟩

/-- A concept is written without a label. -/
theorem Labels.unlabelled (labels : model.Labels graphs writer copy table)
    (alone : model.sharedSet? concept = none) (kept : copy.SetsKept grown) :
    model.Labels graphs (writer.emit concept none) grown table where
  labelled :=
    { own := labels.labelled.own
      named := fun target label member =>
        ⟨(labels.labelled.named target label member).1,
          (labels.labelled.named target label member).2.emit none⟩
      shared := by
        intro id label member set shares
        rcases List.mem_cons.mp member with same | member
        · cases same
          rw [alone] at shares
          cases shares
        · exact labels.labelled.shared id label member set shares }
  bound := labels.bound
  framed := (labels.framed.unlabelled (.inl rfl)).mono (Writer.continues_emit model) kept

/-- Whether a target is new when a concept is written: it stands for the concept, which is
the first one of its set. -/
def Owns (model : Model) (writer : Writer) (concept : ConceptId) : Target → Prop
  | .concept id => id = concept ∧ model.sharedSet? concept = none
  | .set set => model.sharedSet? concept = some set ∧ (model.corefSet set).defining = concept ∧
      ∀ id ∈ writer.order, model.sharedSet? id ≠ some set

/-- A target that is new has no name yet. -/
theorem Owns.unnamed {target : Target} (owns : model.Owns writer concept target)
    (labelled : model.Labelled writer) (fresh : concept ∉ writer.order) :
    writer.labels.name? target = none := by
  cases named : writer.labels.name? target with
  | none => rfl
  | some label =>
      exfalso
      have member : (target, label) ∈ writer.labels.names := by
        obtain ⟨front, back, same, -⟩ := List.lookup_eq_some_iff.mp named
        rw [same]
        simp
      have written := (labelled.named target label member).2
      cases target with
      | concept id =>
          obtain ⟨rfl, -⟩ := owns
          exact fresh written
      | set set =>
          obtain ⟨id, emitted, shares⟩ := written
          exact owns.2.2 id (List.mem_map_of_mem emitted) shares

/-- What has a label of its own speaks for itself. -/
theorem Owns.names {target : Target} (owns : model.Owns writer concept target) :
    model.spokesman concept = concept := by
  cases target with
  | concept id => exact spokesman_of_none owns.2
  | set set => rw [spokesman_of_sharedSet? owns.1, owns.2.1]

/-- A fresh label is given to a new target. -/
theorem Labelled.given {target : Target} {number : Nat} (labelled : model.Labelled writer)
    (owns : model.Owns writer concept target) (further : writer.labels.counter < number) :
    model.Labelled ((writer.withLabels ({ writer.labels with counter := number }.bind
      (LabelTable.numbered number) target)).emit concept
        (some (LabelTable.numbered number))) := by
  have unbound : { writer.labels with counter := number }.isBound
      (LabelTable.numbered number) = false := by
    refine Bool.eq_false_iff.mpr fun here => LabelTable.not_minted further ?_
    exact labelled.own _ here
  have minted : LabelTable.Minted number (LabelTable.numbered number) :=
    ⟨number, Nat.le_refl _, rfl⟩
  -- The parts of the invariant: labels are minted, they name what has been emitted, and emitted
  -- members of a set have the label of their set.
  constructor
  · intro label here
    rcases LabelTable.isBound_bind_of_unbound unbound here with rfl | former
    · rw [Writer.labels_emit, Writer.labels_withLabels, LabelTable.counter_bind]
      exact minted
    · rw [Writer.labels_emit, Writer.labels_withLabels, LabelTable.counter_bind]
      exact (labelled.own label former).mono (Nat.le_of_lt further)
  · intro id label member
    rw [Writer.labels_emit, Writer.labels_withLabels, LabelTable.counter_bind]
    rcases LabelTable.mem_names_bind_of_unbound unbound member with same | member
    · cases same
      refine ⟨minted, ?_⟩
      cases target with
      | concept single =>
          obtain ⟨rfl, -⟩ := owns
          exact List.mem_cons_self ..
      | set set => exact ⟨concept, List.mem_cons_self .., owns.1⟩
    · obtain ⟨former, written⟩ := labelled.named id label member
      exact ⟨former.mono (Nat.le_of_lt further), written.emit _⟩
  · intro id label member set shares
    rw [Writer.labels_emit, Writer.labels_withLabels]
    rcases List.mem_cons.mp member with same | member
    · cases same
      refine ⟨_, rfl, ?_⟩
      cases target with
      | concept single =>
          rw [owns.2] at shares
          cases shares
      | set own =>
          rw [owns.1] at shares
          cases shares
          rw [LabelTable.name?_bind_of_unbound unbound, if_pos rfl]
    · obtain ⟨word, same, former⟩ := labelled.shared id label member set shares
      refine ⟨word, same, ?_⟩
      rw [LabelTable.name?_bind_of_unbound unbound, if_neg]
      · exact former
      · rintro rfl
        exact owns.2.2 id (List.mem_map_of_mem member) shares

/-- A new target is given a fresh label. -/
theorem Owns.gives {target : Target} {label : String} {after : LabelTable}
    (owns : model.Owns writer concept target) (labelled : model.Labelled writer)
    (fresh : concept ∉ writer.order) (gives : writer.labels.Gives target label after) :
    ∃ number, writer.labels.counter < number ∧ label = LabelTable.numbered number ∧
      after = { writer.labels with counter := number }.bind label target := by
  rcases gives with ⟨named, -⟩ | ⟨-, number, further, same, bound⟩
  · rw [owns.unnamed labelled fresh] at named
    cases named
  · exact ⟨number, further, same, bound⟩

/-- A concept to which no label can refer is written with one. -/
theorem Labels.unheard {target : Target} {label : String} {after : LabelTable}
    (labels : model.Labels graphs writer copy table) (owns : model.Owns writer concept target)
    (fresh : concept ∉ writer.order) (gives : writer.labels.Gives target label after)
    (context : (model.concept concept).special ≠ none) (kept : copy.SetsKept grown) :
    model.Labels graphs ((writer.withLabels after).emit concept (some label)) grown table := by
  obtain ⟨number, further, rfl, rfl⟩ := owns.gives labels.labelled fresh gives
  refine ⟨labels.labelled.given owns further, fun label here => ?_, ?_⟩
  · rw [Writer.labels_emit, Writer.labels_withLabels, LabelTable.counter_bind]
    exact (labels.bound label here).mono (Nat.le_of_lt further)
  · exact (labels.framed.unlabelled (.inr context)).mono (Writer.continues_emit model) kept

/-- A concept is written with a label that it defines. -/
theorem Labels.defined {target : Target} {label : String} {after : LabelTable}
    (labels : model.Labels (graph :: outer) writer copy table)
    (owns : model.Owns writer concept target)
    (fresh : concept ∉ writer.order) (gives : writer.labels.Gives target label after)
    (apart : ∀ id ∈ outer, (model.concept concept).graph ≠ some id)
    (copies : (writer.emit concept none |>.ledger model).Concept concept other)
    (kept : copy.SetsKept grown) :
    table.isBound label = false ∧
      model.Labels (graph :: outer) ((writer.withLabels after).emit concept (some label)) grown
        (table.bind label (.concept other)) := by
  obtain ⟨number, further, rfl, rfl⟩ := owns.gives labels.labelled fresh gives
  have unbound : table.isBound (LabelTable.numbered number) = false :=
    Bool.eq_false_iff.mpr fun here => LabelTable.not_minted further (labels.bound _ here)
  have names : (writer.emit concept none |>.ledger model).Names model concept other := by
    rw [Ledger.Names, owns.names]
    exact copies
  refine ⟨unbound, labels.labelled.given owns further, fun label here => ?_, ?_⟩
  · rw [Writer.labels_emit, Writer.labels_withLabels, LabelTable.counter_bind]
    rcases LabelTable.isBound_bind_of_unbound unbound here with rfl | former
    · exact ⟨number, Nat.le_refl _, rfl⟩
    · exact (labels.bound label former).mono (Nat.le_of_lt further)
  · rw [LabelTable.bind_of_unbound unbound]
    refine Framed.defined ?_ apart ?_ names
    · exact labels.framed.mono (Writer.continues_emit model) kept
    · rw [LabelTable.isBound_eq_seek] at unbound
      exact Option.isNone_iff_eq_none.mp (by simpa using unbound)

/-! ## Members of coreference sets -/

section Members

variable {source form : Notation} {set : CorefSetId} {label : String} {after : LabelTable}

/-- The label of the set of a concept that does not define it denotes the defining member,
if that has been written, and else nothing. -/
theorem Labels.seek_member (labels : model.Labels [graph] writer copy table)
    (copyable : model.Copyable source form) (first : model.DefinedFirst writer.order)
    (stand : ∀ id ∈ writer.order, (model.concept id).graph = some graph)
    (shares : model.sharedSet? concept = some set)
    (gives : writer.labels.Gives (.set set) label after) :
    ((model.corefSet set).defining ∈ writer.order →
      after = writer.labels ∧ writer.labels.name? (.set set) = some label ∧
        ∃ other, (writer.ledger model).Names model concept other ∧
          copy.Denotes table.scope label other) ∧
      ((model.corefSet set).defining ∉ writer.order → table.isBound label = false) := by
  have defines := copyable.sharedSet?_defining shares
  constructor
  · intro before
    obtain ⟨⟨id, known⟩, emitted, rfl⟩ := List.mem_map.mp before
    obtain ⟨word, rfl, named⟩ := labels.labelled.shared _ known emitted set defines
    have same : word = label ∧ after = writer.labels := by
      rcases gives with ⟨also, kept⟩ | ⟨missing, -⟩
      · rw [named] at also
        exact ⟨Option.some.inj also, kept⟩
      · rw [named] at missing
        cases missing
    obtain ⟨rfl, kept⟩ := same
    obtain ⟨other, names, denotes⟩ := labels.framed.1 _ word emitted (stand _ before)
      (copyable.isPlain_of_sharedSet? defines).2
    refine ⟨kept, named, other, ?_, denotes⟩
    rw [Ledger.Names, spokesman_of_sharedSet? defines] at names
    rwa [Ledger.Names, spokesman_of_sharedSet? shares]
  · intro missing
    -- A label that was given before would have been written with its first member, which comes
    -- after the one that defines the set.
    rcases gives with ⟨named, -⟩ | ⟨-, number, further, rfl, -⟩
    · exfalso
      have member : (.set set, label) ∈ writer.labels.names := by
        obtain ⟨front, back, same, -⟩ := List.lookup_eq_some_iff.mp named
        rw [same]
        simp
      obtain ⟨id, emitted, also⟩ := (labels.labelled.named _ label member).2
      have before : model.spokesman id ∈ writer.order :=
        first.spokesman_mem (List.mem_map_of_mem emitted)
      rw [spokesman_of_sharedSet? also] at before
      exact missing before
    · exact Bool.eq_false_iff.mpr fun here =>
        LabelTable.not_minted further (labels.bound _ here)

/-- A concept takes the label of its set. -/
theorem Labelled.joined (labelled : model.Labelled writer)
    (shares : model.sharedSet? concept = some set)
    (named : writer.labels.name? (.set set) = some label) :
    model.Labelled (writer.emit concept (some label)) where
  own := labelled.own
  named target word member :=
    ⟨(labelled.named target word member).1, (labelled.named target word member).2.emit _⟩
  shared id word member other also := by
    rcases List.mem_cons.mp member with same | member
    · cases same
      rw [shares] at also
      cases also
      exact ⟨label, rfl, named⟩
    · exact labelled.shared id word member other also

/-- A concept is written with the label of its set, which denotes the defining member as
before; the reader may have begun the set. -/
theorem Labels.joined {later : LabelTable}
    (labels : model.Labels [graph] writer copy table)
    (shares : model.sharedSet? concept = some set)
    (named : writer.labels.name? (.set set) = some label)
    (names : (writer.ledger model).Names model concept other)
    (denotes : copy.Denotes table.scope label other) (kept : copy.SetsKept grown)
    (begun : later = table ∨ ∃ id, later.scope = table.scope.map
      (LabelTable.retarget label (.set id)) ∧ grown.Represents (.set id) other) :
    model.Labels [graph] (writer.emit concept (some label)) grown later := by
  have continues : (writer.ledger model).Continues
      ((writer.emit concept (some label)).ledger model) := Writer.continues_emit model
  have framed : model.Framed writer.emitted (writer.ledger model) grown [graph] later.scope ∧
      grown.Denotes later.scope label other := by
    rcases begun with rfl | ⟨id, scope, represents⟩
    · exact ⟨labels.framed.mono (.refl _) kept, denotes.mono kept⟩
    · rw [scope]
      refine ⟨labels.framed.retargeted denotes kept represents, .set id, ?_, represents⟩
      obtain ⟨target, found, -⟩ := denotes
      rw [LabelTable.seek_retarget, if_pos rfl, found]
      rfl
  refine ⟨labels.labelled.joined shares named, fun word here => ?_, ?_⟩
  · refine labels.bound word ?_
    rcases begun with rfl | ⟨id, scope, -⟩
    · exact here
    · rw [LabelTable.isBound_eq_seek] at here ⊢
      rw [scope, LabelTable.seek_retarget] at here
      split at here
      · simpa using here
      · exact here
  · obtain ⟨known, here, around, split, inner, -⟩ := framed.1
    refine ⟨fun id word member stands plain => ?_, here, around, split, inner, trivial⟩
    rcases List.mem_cons.mp member with same | member
    · cases same
      exact ⟨other, Ledger.Concept.mono names continues, framed.2⟩
    · obtain ⟨copied, cited, denoted⟩ := known id word member stands plain
      exact ⟨copied, Ledger.Concept.mono cited continues, denoted⟩

end Members

end Model

end ConceptualGraph
