/-
Module: ConceptualGraph.Proofs.Reading.Sound.State
Purpose: The state of reading stays sound: the model does, labels denote concepts that
  can be seen, and what is read goes on from what was there.
Main exports: Reader.Sound, Reader.Advances, Read.Keeps, Read.Keeps.bind
-/
import ConceptualGraph.Proofs.Model.Shared
import ConceptualGraph.Proofs.Reading.Steps

namespace ConceptualGraph

/-! ## States -/

/-- A plain concept in the arena. -/
def Model.Shows (model : Model) (concept : ConceptId) : Prop :=
  concept.index < model.concepts.size ∧ (model.concept concept).IsPlain

/-- A plain concept that stands in a graph. -/
def Model.Stands (model : Model) (graph : GraphId) (concept : ConceptId) : Prop :=
  (model.concept concept).graph = some graph ∧ (model.concept concept).IsPlain

/-- What a label may denote. -/
def Model.ShowsTarget (model : Model) : Target → Prop
  | .concept concept => model.Shows concept
  | .set set => set.index < model.corefSets.size

/-- A state of reading in which everything is in order. -/
structure Reader.Sound (form : Notation) (unfinished : List ConceptId) (reader : Reader) :
    Prop where
  model : reader.model.Sound form unfinished
  scanned : ∀ located ∈ reader.rest, located.token.Scanned form
  labels : ∀ label target, .binding label target ∈ reader.labels.scope →
    reader.model.ShowsTarget target
  markers : ∀ pair ∈ reader.markers.pairs, pair.2.index < reader.model.markers

/-- A state of reading goes on from another.  Every new marker takes a token. -/
structure Reader.Advances (reader later : Reader) : Prop where
  rest : later.rest <:+ reader.rest
  markers : later.model.markers + later.rest.length ≤
    reader.model.markers + reader.rest.length
  frame : reader.model.Frame [] later.model
  sets : reader.model.corefSets.size ≤ later.model.corefSets.size

namespace Model

variable {model later : Model} {touched : List ConceptId} {concept : ConceptId}

theorem Stands.shows {graph : GraphId} (stands : model.Stands graph concept) :
    model.Shows concept :=
  ⟨lt_of_graph stands.1, stands.2⟩

theorem Shows.frame (shows : model.Shows concept) (frame : model.Frame touched later) :
    later.Shows concept :=
  ⟨Nat.lt_of_lt_of_le shows.1 frame.concepts_le, frame.isPlain shows.1 shows.2⟩

/-- A concept that stands in a graph does so in every model that frames this one. -/
theorem Stands.frame {graph : GraphId} (stands : model.Stands graph concept)
    (frame : model.Frame touched later) : later.Stands graph concept :=
  have inside := lt_of_graph stands.1
  ⟨by rw [frame.graph concept inside, stands.1], frame.isPlain inside stands.2⟩

/-- A target that is shown is so in every model that frames this one. -/
theorem ShowsTarget.frame {target : Target} (shows : model.ShowsTarget target)
    (frame : model.Frame touched later)
    (sets : model.corefSets.size ≤ later.corefSets.size) : later.ShowsTarget target := by
  cases target with
  | concept concept => exact Shows.frame shows frame
  | set set => exact Nat.lt_of_lt_of_le shows sets

/-- The members of coreference sets can be seen. -/
theorem Joined.shows_of_mem {set : CorefSetId} (joined : model.Joined)
    (member : concept ∈ (model.corefSet set).members) : model.Shows concept := by
  have lists := (joined.members set concept).mp member
  exact ⟨lt_of_mem_corefSets lists, joined.shown concept (List.ne_nil_of_mem lists)⟩

end Model

namespace Reader

variable {form : Notation} {unfinished : List ConceptId} {reader later last : Reader}

theorem Advances.refl (reader : Reader) : reader.Advances reader :=
  ⟨List.suffix_rfl, Nat.le_refl _, .refl _, Nat.le_refl _⟩

theorem Advances.trans (first : reader.Advances later) (second : later.Advances last) :
    reader.Advances last :=
  ⟨second.rest.trans first.rest, Nat.le_trans second.markers first.markers,
    first.frame.trans second.frame, Nat.le_trans first.sets second.sets⟩

theorem Advances.next (reader : Reader) : reader.Advances reader.next where
  rest := List.tail_suffix _
  markers := by simp
  frame := .refl _
  sets := Nat.le_refl _

theorem Sound.next (sound : reader.Sound form unfinished) :
    reader.next.Sound form unfinished where
  model := sound.model
  scanned located member := sound.scanned located (List.mem_of_mem_tail member)
  labels := sound.labels
  markers := sound.markers

/-- The next token has been scanned. -/
theorem Sound.scanned_ahead (sound : reader.Sound form unfinished) {token : Token}
    (found : (reader.ahead 0).token = token) : token.Scanned form := by
  subst found
  by_cases ended : (reader.ahead 0).token = .endOfInput
  · rw [ended]
    trivial
  · exact sound.scanned _ (ahead_mem rfl ended)

/-- An edit of the model by which nothing is read. -/
theorem Sound.withModel (sound : reader.Sound form unfinished) {model : Model}
    {unfinishedLater : List ConceptId} {touched : List ConceptId}
    (kept : model.Sound form unfinishedLater)
    (frame : reader.model.Frame touched model)
    (sets : reader.model.corefSets.size ≤ model.corefSets.size) :
    (reader.withModel model).Sound form unfinishedLater where
  model := kept
  scanned := sound.scanned
  labels label target bound := (sound.labels label target bound).frame frame sets
  markers pair member := Nat.lt_of_lt_of_le (sound.markers pair member) frame.markers_le

/-- A reader advances with its model where the parts that lasted are framed. -/
theorem Advances.withModel {model : Model} (frame : reader.model.Frame [] model)
    (markers : model.markers = reader.model.markers)
    (sets : reader.model.corefSets.size ≤ model.corefSets.size) :
    reader.Advances (reader.withModel model) where
  rest := List.suffix_rfl
  markers := by simp [markers]
  frame := frame
  sets := sets

end Reader

/-! ## Labels -/

namespace LabelTable

variable {table : LabelTable} {label : String} {target : Target}

/-- What a label denotes is bound in the scope. -/
theorem mem_of_target? (found : table.target? label = some target) :
    .binding label target ∈ table.scope := by
  simp only [target?, Option.bind_eq_some_iff] at found
  obtain ⟨entry, here, denotes⟩ := found
  have member := List.mem_of_find?_eq_some here
  have binds := List.find?_some here
  cases entry with
  | boundary => cases binds
  | binding bound other =>
      simp only [ScopeEntry.binds, beq_iff_eq] at binds
      cases denotes
      exact binds ▸ member

/-- Binding a label puts one entry into the scope, and takes none in. -/
theorem mem_scope_bind {bound : String} {other : Target}
    (member : .binding bound other ∈ (table.bind label target).scope) :
    bound = label ∧ other = target ∨ .binding bound other ∈ table.scope := by
  unfold bind at member
  split at member
  · simpa only [List.mem_cons, ScopeEntry.binding.injEq] using member
  · simp only [List.mem_map] at member
    obtain ⟨entry, former, changed⟩ := member
    unfold retarget at changed
    split at changed
    · cases changed
      exact .inl ⟨rfl, rfl⟩
    · exact .inr (changed ▸ former)

/-- Unwinding a context leaves no entry that was not there before. -/
theorem unwind_subset (scope : List ScopeEntry) (names : List (Target × String)) :
    (unwind scope names).1 ⊆ scope := by
  induction scope generalizing names with
  | nil => exact fun _ member => member
  | cons entry scope ih =>
      cases entry with
      | boundary => exact List.subset_cons_self _ _
      | binding bound other => exact List.subset_cons_of_subset _ (ih _)

theorem scope_pop_subset (table : LabelTable) : table.pop.scope ⊆ table.scope :=
  unwind_subset table.scope table.names

end LabelTable

namespace Reader

variable {form : Notation} {unfinished : List ConceptId} {reader : Reader}

/-- A context that is opened keeps the reader sound. -/
theorem Sound.push (sound : reader.Sound form unfinished) :
    (reader.withLabels reader.labels.push).Sound form unfinished where
  model := sound.model
  scanned := sound.scanned
  labels label target bound := by
    rcases List.mem_cons.mp bound with same | bound
    · cases same
    · exact sound.labels label target bound
  markers := sound.markers

/-- Leaving a context keeps the reader sound. -/
theorem Sound.pop (sound : reader.Sound form unfinished) :
    (reader.withLabels reader.labels.pop).Sound form unfinished where
  model := sound.model
  scanned := sound.scanned
  labels label target bound :=
    sound.labels label target (LabelTable.scope_pop_subset _ bound)
  markers := sound.markers

/-- A label may be bound to a target that shows itself. -/
theorem Sound.bind (sound : reader.Sound form unfinished) {label : String} {target : Target}
    (denoted : reader.model.ShowsTarget target) :
    (reader.withLabels (reader.labels.bind label target)).Sound form unfinished where
  model := sound.model
  scanned := sound.scanned
  labels bound other member := by
    rcases LabelTable.mem_scope_bind member with ⟨-, rfl⟩ | member
    · exact denoted
    · exact sound.labels bound other member
  markers := sound.markers

theorem Advances.withLabels (reader : Reader) (labels : LabelTable) :
    reader.Advances (reader.withLabels labels) :=
  ⟨List.suffix_rfl, Nat.le_refl _, .refl _, Nat.le_refl _⟩

end Reader

/-! ## Productions -/

namespace Read

variable {form : Notation} {unfinished : List ConceptId} {α β : Type}

/-- A production that succeeds in a sound state leads on to a sound state, and to a
result with a property. -/
def Keeps (form : Notation) (unfinished : List ConceptId) (production : Read α)
    (reader : Reader) (post : α → Reader → Prop) : Prop :=
  reader.Sound form unfinished → Ensures production reader fun value later =>
    later.Sound form unfinished ∧ reader.Advances later ∧ post value later

namespace Keeps

variable {production : Read α} {reader : Reader} {post : α → Reader → Prop}

theorem mono {weaker : α → Reader → Prop} (keeps : Keeps form unfinished production reader post)
    (weaken : ∀ value later, later.Sound form unfinished → reader.Advances later →
      post value later → weaker value later) :
    Keeps form unfinished production reader weaker := fun sound =>
  (keeps sound).mono fun value later ⟨after, advances, holds⟩ =>
    ⟨after, advances, weaken value later after advances holds⟩

theorem pure {value : α} (holds : reader.Sound form unfinished → post value reader) :
    Keeps form unfinished (pure value) reader post :=
  fun sound => ⟨sound, .refl _, holds sound⟩

/-- Productions in a row keep the reader sound if each of them does where the one before has come
to. -/
theorem bind {next : α → Read β} {final : β → Reader → Prop}
    (first : Keeps form unfinished production reader post)
    (others : ∀ value later, reader.Advances later → post value later →
      Keeps form unfinished (next value) later final) :
    Keeps form unfinished (production >>= next) reader final := fun sound =>
  (first sound).bind fun value later ⟨after, advances, holds⟩ =>
    (others value later advances holds after).mono fun _ _ ⟨last, further, result⟩ =>
      ⟨last, advances.trans further, result⟩

theorem failAt {found : Located} {fault : ParseFault} :
    Keeps form unfinished (failAt found fault : Read α) reader post := fun _ => trivial

theorem fail {fault : ParseFault} :
    Keeps form unfinished (fail fault : Read α) reader post := fun _ => trivial

theorem throw {error : Error} :
    Keeps form unfinished (throw error : Read α) reader post := fun _ => trivial

/-- Looking ahead. -/
theorem peek {next : Token → Read β} {final : β → Reader → Prop}
    (others : ∀ token, (reader.ahead 0).token = token →
      Keeps form unfinished (next token) reader final) :
    Keeps form unfinished (peek >>= next) reader final := fun sound => by
  rw [ensures_bind, ensures_peek]
  exact others _ rfl sound

theorem ahead {places : Nat} {next : Token → Read β} {final : β → Reader → Prop}
    (others : ∀ token, (reader.ahead places).token = token →
      Keeps form unfinished (next token) reader final) :
    Keeps form unfinished (ahead places >>= next) reader final := fun sound => by
  rw [ensures_bind, ensures_ahead]
  exact others _ rfl sound

/-- Whatever is only known in a sound state. -/
theorem assuming (keeps : reader.Sound form unfinished →
    Keeps form unfinished production reader post) :
    Keeps form unfinished production reader post := fun sound => keeps sound sound

theorem located {places : Nat} {next : Located → Read β} {final : β → Reader → Prop}
    (others : Keeps form unfinished (next (reader.ahead places)) reader final) :
    Keeps form unfinished (located places >>= next) reader final := fun sound => by
  rw [ensures_bind, ensures_located]
  exact others sound

theorem get {next : Reader → Read β} {final : β → Reader → Prop}
    (others : Keeps form unfinished (next reader) reader final) :
    Keeps form unfinished (MonadState.get >>= next) reader final := fun sound => by
  rw [ensures_bind]
  exact others sound

theorem model {next : Model → Read β} {final : β → Reader → Prop}
    (others : Keeps form unfinished (next reader.model) reader final) :
    Keeps form unfinished (model >>= next) reader final := fun sound => by
  rw [ensures_bind, ensures_model]
  exact others sound

theorem labels {next : LabelTable → Read β} {final : β → Reader → Prop}
    (others : Keeps form unfinished (next reader.labels) reader final) :
    Keeps form unfinished (labels >>= next) reader final := fun sound => by
  rw [ensures_bind, ensures_labels]
  exact others sound

/-- Going past a token. -/
theorem advance {next : Unit → Read β} {final : β → Reader → Prop}
    (others : Keeps form unfinished (next ()) reader.next final) :
    Keeps form unfinished (advance >>= next) reader final := fun sound => by
  rw [ensures_bind, ensures_advance]
  exact (others sound.next).mono fun _ _ ⟨last, further, result⟩ =>
    ⟨last, (Reader.Advances.next reader).trans further, result⟩

theorem expect {token : Token} {what : Expected} {next : Unit → Read β}
    {final : β → Reader → Prop}
    (others : (reader.ahead 0).token = token →
      Keeps form unfinished (next ()) reader.next final) :
    Keeps form unfinished (expect token what >>= next) reader final := fun sound => by
  rw [ensures_bind, ensures_expect]
  exact fun found => (others found sound.next).mono fun _ _ ⟨last, further, result⟩ =>
    ⟨last, (Reader.Advances.next reader).trans further, result⟩

/-- A token is taken or left, and reading goes on either way. -/
theorem eat {token : Token} {next : Bool → Read β} {final : β → Reader → Prop}
    (found : (reader.ahead 0).token = token →
      Keeps form unfinished (next true) reader.next final)
    (missing : (reader.ahead 0).token ≠ token →
      Keeps form unfinished (next false) reader final) :
    Keeps form unfinished (eat token >>= next) reader final := fun sound => by
  rw [ensures_bind, ensures_eat]
  refine ⟨fun here => ?_, fun absent => missing absent sound⟩
  exact (found here sound.next).mono fun _ _ ⟨last, further, result⟩ =>
    ⟨last, (Reader.Advances.next reader).trans further, result⟩

/-- A token that may be missing and that nothing depends on. -/
theorem optional {token : Token} {step : Read β} {final : β → Reader → Prop}
    (others : ∀ first : Reader, first.model = reader.model →
      Keeps form unfinished step first final) :
    Keeps form unfinished (Read.eat token >>= fun _ => step) reader final :=
  .eat (fun _ => others _ rfl) fun _ => others _ rfl

/-- An edit of the model. -/
theorem edit {change : Model → Model} {next : Unit → Read β} {final : β → Reader → Prop}
    (frame : reader.Sound form unfinished → reader.model.Frame [] (change reader.model) ∧
      (change reader.model).Sound form unfinished)
    (markers : (change reader.model).markers = reader.model.markers)
    (sets : reader.model.corefSets.size ≤ (change reader.model).corefSets.size)
    (others : Keeps form unfinished (next ()) (reader.withModel (change reader.model)) final) :
    Keeps form unfinished (edit change >>= next) reader final := fun sound => by
  obtain ⟨kept, after⟩ := frame sound
  rw [ensures_bind, ensures_edit]
  exact (others (sound.withModel after kept sets)).mono fun _ _ ⟨last, further, result⟩ =>
    ⟨last, (Reader.Advances.withModel kept markers sets).trans further, result⟩

theorem ite {condition : Prop} [Decidable condition] {other : Read α}
    (holds : condition → Keeps form unfinished production reader post)
    (fails : ¬condition → Keeps form unfinished other reader post) :
    Keeps form unfinished (if condition then production else other) reader post := by
  split
  · next yes => exact holds yes
  · next no => exact fails no

/-- Reading in a context of its own. -/
theorem inContext
    (inner : Keeps form unfinished production (reader.withLabels reader.labels.push) post)
    (blind : ∀ value later labels, post value later → post value (later.withLabels labels)) :
    Keeps form unfinished (inContext production) reader post := fun sound => by
  rw [ensures_inContext]
  refine (inner sound.push).mono fun value later ⟨after, advances, result⟩ =>
    ⟨after.pop, ?_, blind _ _ _ result⟩
  exact ((Reader.Advances.withLabels reader _).trans advances).trans
    (Reader.Advances.withLabels later _)

end Keeps

end Read

end ConceptualGraph
