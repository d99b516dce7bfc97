/-
Module: ConceptualGraph.Proofs.Reading.Steps
Purpose: The rules for the steps of which productions are made.
Main exports: Reader.tokens, Reader.next, Reader.withModel, Reader.withLabels, Room.scoped,
  Read.roomFor
-/
import ConceptualGraph.Proofs.Step
import ConceptualGraph.Reading.Nesting

namespace ConceptualGraph

/-! ## Rooms

A bracket that is open takes the same room from all that is read inside it, whatever was read
before.  So the room that is left can be had without a count, from where a production stands. -/

/-- Brackets are opened as long as there is room for them, and nothing is counted. -/
@[coe]
def Room.scoped (room : Option Inside) : Room where
  enter setting :=
    match room with
    | some inside => return inside
    | none => Read.refuseBracket setting
  leave := return

instance : Coe (Option Inside) Room := ⟨Room.scoped⟩

namespace Read

variable (setting : Setting)

/-- What can be read inside a bracket with room for a number of further ones. -/
def roomFor : Nat → Option Inside :=
  level setting .scoped

/-- What can be read inside the first bracket of a text. -/
def room : Option Inside :=
  roomFor setting setting.options.maxDepth

/-- Reads a whole text into a graph, with the room that there is. -/
def graphInto (graph : GraphId) : Read Unit :=
  graphText setting (room setting) graph

/-- Reads a text that is one concept, with the room that there is. -/
def singleConcept (graph : Option GraphId) : Read ConceptId :=
  single setting .concept (concept setting (room setting) graph)

/-- Reads a text that is one relation, with the room that there is. -/
def singleRelation (graph : Option GraphId) : Read RelationId :=
  single setting .relation (relation setting (room setting) graph)

/-- Reads a text that is one actor, with the room that there is. -/
def singleActor (graph : Option GraphId) : Read RelationId :=
  single setting .actor (actor setting (room setting) graph)

variable {setting}

theorem roomFor_zero : roomFor setting 0 = none := rfl

/-- Inside of one more bracket there is room for one less. -/
theorem roomFor_succ (brackets : Nat) :
    roomFor setting (brackets + 1) =
      some
        { concept := fun graph reader => concept setting (roomFor setting brackets) graph reader
          lambda := fun reader => lambda setting (roomFor setting brackets) reader
          items := fun graph reader => items setting (roomFor setting brackets) graph reader } :=
  rfl

@[simp] theorem ascend_scoped (room : Option Inside) : ascend room = pure () := rfl

end Read

/-! ## States -/

namespace Reader

variable (reader : Reader)

/-- The tokens still to be read, without their places. -/
def tokens : List Token := reader.rest.map Located.token

/-- The state past the next token. -/
def next : Reader := { reader with rest := reader.rest.tail }

/-- The state with another model. -/
def withModel (model : Model) : Reader := { reader with model }

/-- The state with other labels. -/
def withLabels (labels : LabelTable) : Reader := { reader with labels }

/-- The state with another count of open brackets. -/
def atDepth (depth : Nat) : Reader := { reader with depth }

variable {reader} {model : Model} {labels : LabelTable} {token : Token} {others : List Token}

@[simp] theorem next_rest : reader.next.rest = reader.rest.tail := rfl
@[simp] theorem next_model : reader.next.model = reader.model := rfl
@[simp] theorem next_labels : reader.next.labels = reader.labels := rfl
@[simp] theorem next_markers : reader.next.markers = reader.markers := rfl

@[simp] theorem withModel_rest : (reader.withModel model).rest = reader.rest := rfl
@[simp] theorem withModel_tokens : (reader.withModel model).tokens = reader.tokens := rfl
@[simp] theorem withModel_model : (reader.withModel model).model = model := rfl
@[simp] theorem withModel_labels : (reader.withModel model).labels = reader.labels := rfl
@[simp] theorem withModel_markers : (reader.withModel model).markers = reader.markers := rfl

@[simp] theorem withLabels_rest : (reader.withLabels labels).rest = reader.rest := rfl
@[simp] theorem withLabels_tokens : (reader.withLabels labels).tokens = reader.tokens := rfl
@[simp] theorem withLabels_model : (reader.withLabels labels).model = reader.model := rfl
@[simp] theorem withLabels_labels : (reader.withLabels labels).labels = labels := rfl
@[simp] theorem withLabels_markers : (reader.withLabels labels).markers = reader.markers := rfl

@[simp] theorem ahead_withModel (places : Nat) :
    (reader.withModel model).ahead places = reader.ahead places := rfl
@[simp] theorem ahead_withLabels (places : Nat) :
    (reader.withLabels labels).ahead places = reader.ahead places := rfl

theorem length_rest : reader.rest.length = reader.tokens.length := by
  simp [tokens]

@[simp] theorem next_tokens : reader.next.tokens = reader.tokens.tail := by
  simp [tokens]

/-- A token ahead is one of those that are left, or the end of the input. -/
theorem token_ahead (places : Nat) :
    (reader.ahead places).token = reader.tokens[places]?.getD .endOfInput := by
  unfold ahead tokens
  cases found : reader.rest[places]? <;> simp [found]

theorem token_ahead_succ (places : Nat) :
    (reader.ahead (places + 1)).token = (reader.next.ahead places).token := by
  rw [token_ahead, token_ahead, next_tokens, List.getElem?_tail]

theorem token_ahead_zero (starts : reader.tokens = token :: others) :
    (reader.ahead 0).token = token := by
  simp [token_ahead, starts]

/-- A token that is seen is the next one, unless it is the end. -/
theorem tokens_eq_cons (seen : (reader.ahead 0).token = token) (going : token ≠ .endOfInput) :
    reader.tokens = token :: reader.next.tokens := by
  cases starts : reader.tokens with
  | nil =>
      rw [token_ahead, starts] at seen
      exact absurd seen.symm going
  | cons first others =>
      rw [token_ahead_zero starts] at seen
      rw [next_tokens, starts, seen, List.tail_cons]

theorem tail_tokens (starts : reader.tokens = token :: others) :
    reader.next.tokens = others := by
  simp [starts]

/-- Tokens that have been seen are still to be read. -/
theorem ahead_mem {found : Located} (seen : reader.ahead 0 = found)
    (more : found.token ≠ .endOfInput) : found ∈ reader.rest := by
  subst seen
  unfold ahead at more ⊢
  cases here : reader.rest[0]? with
  | none => simp [here] at more
  | some located => simpa [here] using List.mem_of_getElem? here

end Reader

namespace Read

/-! ## Rules

Every rule names the result and the state to which a step leads. -/

variable {reader : Reader} {α : Type}

section Tokens

@[simp] theorem ensures_located {places : Nat} {post : Located → Reader → Prop} :
    Ensures (located places) reader post ↔ post (reader.ahead places) reader := Iff.rfl

@[simp] theorem achieves_located {places : Nat} {post : Located → Reader → Prop} :
    Achieves (located places) reader post ↔ post (reader.ahead places) reader := Iff.rfl

@[simp] theorem ensures_ahead {places : Nat} {post : Token → Reader → Prop} :
    Ensures (ahead places) reader post ↔ post (reader.ahead places).token reader := Iff.rfl

@[simp] theorem achieves_ahead {places : Nat} {post : Token → Reader → Prop} :
    Achieves (ahead places) reader post ↔ post (reader.ahead places).token reader := Iff.rfl

@[simp] theorem ensures_peek {post : Token → Reader → Prop} :
    Ensures peek reader post ↔ post (reader.ahead 0).token reader := Iff.rfl

@[simp] theorem achieves_peek {post : Token → Reader → Prop} :
    Achieves peek reader post ↔ post (reader.ahead 0).token reader := Iff.rfl

@[simp] theorem ensures_advance {post : Unit → Reader → Prop} :
    Ensures advance reader post ↔ post () reader.next := Iff.rfl

@[simp] theorem achieves_advance {post : Unit → Reader → Prop} :
    Achieves advance reader post ↔ post () reader.next := Iff.rfl

@[simp] theorem ensures_failAt {found : Located} {fault : ParseFault}
    {post : α → Reader → Prop} : Ensures (failAt found fault) reader post ↔ True := Iff.rfl

@[simp] theorem achieves_failAt {found : Located} {fault : ParseFault}
    {post : α → Reader → Prop} : Achieves (failAt found fault) reader post ↔ False := Iff.rfl

@[simp] theorem ensures_fail {fault : ParseFault} {post : α → Reader → Prop} :
    Ensures (fail fault) reader post ↔ True := Iff.rfl

@[simp] theorem achieves_fail {fault : ParseFault} {post : α → Reader → Prop} :
    Achieves (fail fault) reader post ↔ False := Iff.rfl

theorem ensures_eat {token : Token} {post : Bool → Reader → Prop} :
    Ensures (eat token) reader post ↔
      ((reader.ahead 0).token = token → post true reader.next) ∧
        ((reader.ahead 0).token ≠ token → post false reader) := by
  simp only [eat, ensures_bind, ensures_peek, ensures_ite, ensures_advance, ensures_pure, ne_eq]

theorem achieves_eat {token : Token} {post : Bool → Reader → Prop} :
    Achieves (eat token) reader post ↔
      ((reader.ahead 0).token = token → post true reader.next) ∧
        ((reader.ahead 0).token ≠ token → post false reader) := by
  simp only [eat, achieves_bind, achieves_peek, achieves_ite, achieves_advance, achieves_pure,
    ne_eq]

@[simp] theorem ensures_expect {token : Token} {what : Expected} {post : Unit → Reader → Prop} :
    Ensures (expect token what) reader post ↔
      ((reader.ahead 0).token = token → post () reader.next) := by
  simp only [expect, ensures_bind, ensures_eat]
  simp

@[simp] theorem achieves_expect {token : Token} {what : Expected}
    {post : Unit → Reader → Prop} :
    Achieves (expect token what) reader post ↔
      (reader.ahead 0).token = token ∧ post () reader.next := by
  simp only [expect, achieves_bind, achieves_eat]
  simp only [achieves_fail, achieves_pure, Bool.false_eq_true, if_true, if_false]
  constructor
  · rintro ⟨found, missing⟩
    exact ⟨by_contra missing, found (by_contra missing)⟩
  · rintro ⟨found, later⟩
    exact ⟨fun _ => later, fun missing => missing found⟩

end Tokens

section State

@[simp] theorem ensures_model {post : Model → Reader → Prop} :
    Ensures model reader post ↔ post reader.model reader := Iff.rfl

@[simp] theorem achieves_model {post : Model → Reader → Prop} :
    Achieves model reader post ↔ post reader.model reader := Iff.rfl

@[simp] theorem ensures_edit {change : Model → Model} {post : Unit → Reader → Prop} :
    Ensures (edit change) reader post ↔ post () (reader.withModel (change reader.model)) :=
  Iff.rfl

@[simp] theorem achieves_edit {change : Model → Model} {post : Unit → Reader → Prop} :
    Achieves (edit change) reader post ↔ post () (reader.withModel (change reader.model)) :=
  Iff.rfl

@[simp] theorem ensures_make {change : Model → α × Model} {post : α → Reader → Prop} :
    Ensures (make change) reader post ↔
      post (change reader.model).1 (reader.withModel (change reader.model).2) := Iff.rfl

@[simp] theorem achieves_make {change : Model → α × Model} {post : α → Reader → Prop} :
    Achieves (make change) reader post ↔
      post (change reader.model).1 (reader.withModel (change reader.model).2) := Iff.rfl

@[simp] theorem ensures_labels {post : LabelTable → Reader → Prop} :
    Ensures labels reader post ↔ post reader.labels reader := Iff.rfl

@[simp] theorem achieves_labels {post : LabelTable → Reader → Prop} :
    Achieves labels reader post ↔ post reader.labels reader := Iff.rfl

@[simp] theorem ensures_bindLabel {label : String} {target : Target}
    {post : Unit → Reader → Prop} :
    Ensures (bindLabel label target) reader post ↔
      post () (reader.withLabels (reader.labels.bind label target)) := Iff.rfl

@[simp] theorem achieves_bindLabel {label : String} {target : Target}
    {post : Unit → Reader → Prop} :
    Achieves (bindLabel label target) reader post ↔
      post () (reader.withLabels (reader.labels.bind label target)) := Iff.rfl

@[simp] theorem ensures_inContext {step : Read α} {post : α → Reader → Prop} :
    Ensures (inContext step) reader post ↔
      Ensures step (reader.withLabels reader.labels.push) fun value later =>
        post value (later.withLabels later.labels.pop) := by
  unfold Ensures inContext Reader.withLabels
  cases step { reader with labels := reader.labels.push } <;> rfl

@[simp] theorem achieves_inContext {step : Read α} {post : α → Reader → Prop} :
    Achieves (inContext step) reader post ↔
      Achieves step (reader.withLabels reader.labels.push) fun value later =>
        post value (later.withLabels later.labels.pop) := by
  unfold Achieves inContext Reader.withLabels
  cases step { reader with labels := reader.labels.push } <;> rfl

/-- A step that succeeds in a context of its own leaves it. -/
theorem inContext_of_ok {step : Read α} {value : α} {later : Reader}
    (ran : step (reader.withLabels reader.labels.push) = .ok value later) :
    inContext step reader = .ok value (later.withLabels later.labels.pop) := by
  unfold Reader.withLabels at *
  simp only [inContext, ran]

/-- A step that fails in a context of its own leaves it too. -/
theorem inContext_of_error {step : Read α} {error : Error} {later : Reader}
    (ran : step (reader.withLabels reader.labels.push) = .error error later) :
    inContext step reader = .error error (later.withLabels later.labels.pop) := by
  unfold Reader.withLabels at *
  simp only [inContext, ran]

/-- Where there is no room, no bracket is entered. -/
@[simp] theorem ensures_descend {setting : Setting} {room : Option Inside}
    {post : Inside → Reader → Prop} :
    Ensures (descend setting room) reader post ↔ ∀ inside, room = some inside →
      post inside reader := by
  cases room <;> simp [descend, Room.scoped, refuseBracket]

@[simp] theorem achieves_descend {setting : Setting} {room : Option Inside}
    {post : Inside → Reader → Prop} :
    Achieves (descend setting room) reader post ↔ ∃ inside, room = some inside ∧
      post inside reader := by
  cases room <;> simp [descend, Room.scoped, refuseBracket]

end State

section Outcomes

variable {β : Type} {possible : Prop} {final : β → Reader → Prop}

@[simp] theorem outcome_located {places : Nat} {next : Located → Read β} :
    Outcome possible (located places >>= next) reader final ↔
      Outcome possible (next (reader.ahead places)) reader final := outcome_bind_of_ok rfl

@[simp] theorem outcome_ahead {places : Nat} {next : Token → Read β} :
    Outcome possible (ahead places >>= next) reader final ↔
      Outcome possible (next (reader.ahead places).token) reader final := outcome_bind_of_ok rfl

@[simp] theorem outcome_peek {next : Token → Read β} :
    Outcome possible (peek >>= next) reader final ↔
      Outcome possible (next (reader.ahead 0).token) reader final := outcome_bind_of_ok rfl

@[simp] theorem outcome_advance {next : Unit → Read β} :
    Outcome possible (advance >>= next) reader final ↔
      Outcome possible (next ()) reader.next final := outcome_bind_of_ok rfl

@[simp] theorem outcome_get {next : Reader → Read β} :
    Outcome possible (get >>= next) reader final ↔
      Outcome possible (next reader) reader final := outcome_bind_of_ok rfl

@[simp] theorem outcome_model {next : Model → Read β} :
    Outcome possible (model >>= next) reader final ↔
      Outcome possible (next reader.model) reader final := outcome_bind_of_ok rfl

@[simp] theorem outcome_edit {change : Model → Model} {next : Unit → Read β} :
    Outcome possible (edit change >>= next) reader final ↔
      Outcome possible (next ()) (reader.withModel (change reader.model)) final :=
  outcome_bind_of_ok rfl

@[simp] theorem outcome_make {change : Model → α × Model} {next : α → Read β} :
    Outcome possible (make change >>= next) reader final ↔
      Outcome possible (next (change reader.model).1)
        (reader.withModel (change reader.model).2) final :=
  outcome_bind_of_ok rfl

theorem outcome_descend {setting : Setting} {inside : Inside} {next : Inside → Read β} :
    Outcome possible (descend setting (some inside : Option Inside) >>= next) reader final ↔
      Outcome possible (next inside) reader final := outcome_bind_of_ok rfl

/-- A token that follows is gone past. -/
theorem outcome_expect {token : Token} {what : Expected} {next : Unit → Read β}
    (found : (reader.ahead 0).token = token) :
    Outcome possible (expect token what >>= next) reader final ↔
      Outcome possible (next ()) reader.next final := by
  obtain ⟨value, later, ran, same⟩ := Achieves.exists_ok (achieves_expect.mpr
    ⟨found, (rfl : reader.next = reader.next)⟩ : Achieves (expect token what) reader
      fun _ later => later = reader.next)
  rw [outcome_bind_of_ok ran, same]

end Outcomes

end Read

end ConceptualGraph
