/-
Module: ConceptualGraph.Proofs.Reading.Alternatives
Purpose: The kinds of items of a graph are told apart by at most three tokens, so that the
  productions for the other kinds leave no trace and may be tried in any order.
Main exports: ItemKind, ItemOrder, Read.itemsIn, Read.declined_alternatives_leave_no_trace
-/
import ConceptualGraph.Proofs.Reading.Composed
import ConceptualGraph.Proofs.Spread.Nodes

namespace ConceptualGraph

/-! ## Kinds of items -/

/-- The kinds of items of a graph in the interchange form. -/
inductive ItemKind where
  | concept
  | context
  | negation
  | relation
  | actor
  | comment
  deriving DecidableEq, Repr

/-- The kinds as reading tries them. -/
def ItemKind.all : List ItemKind := [.concept, .context, .negation, .relation, .actor, .comment]

theorem ItemKind.mem_all (kind : ItemKind) : kind ∈ ItemKind.all := by
  cases kind <;> decide

/-- An order in which to try every kind once.  It may be another one in every state. -/
structure ItemOrder where
  kinds : Reader → List ItemKind
  perm : ∀ reader, (kinds reader).Perm ItemKind.all

theorem ItemOrder.mem_kinds (order : ItemOrder) (reader : Reader) (kind : ItemKind) :
    kind ∈ order.kinds reader :=
  (order.perm reader).mem_iff.mpr kind.mem_all

namespace Read

/-- The kind of item that three tokens begin. -/
def itemBegun? : (first second third : Token) → Option ItemKind
  | .punct .leftBracket, .keyword (.context _), _ => some .context
  | .punct .leftBracket, _, _ => some .concept
  | .punct .tilde, _, _ => some .negation
  | .punct .leftParen, second, third => if beginsType second third then some .relation else none
  | .punct .leftAngle, _, _ => some .actor
  | .formalComment _, _, _ => some .comment
  | _, _, _ => none

/-- The kind of item that is ahead. -/
def itemAhead? (reader : Reader) : Option ItemKind :=
  itemBegun? (reader.ahead 0).token (reader.ahead 1).token (reader.ahead 2).token

/-! ## Trying the kinds in another order -/

section Ordered

variable (order : ItemOrder) (setting : Setting)

/-- Tries a production.  If it finds nothing, reading goes on with the tokens at which the
production began; all else stays as the production left it. -/
def attempt {α : Type} (production : Read (Option α)) : Read (Option α) := do
  let rest := (← get).rest
  match ← production with
  | some found => return some found
  | none =>
      modify fun reader => { reader with rest }
      return none

/-- The production of a kind, and whether it found something. -/
def production (room : Room) (graph : GraphId) : ItemKind → Read Bool
  | .concept => return (← concept setting room (some graph)).isSome
  | .context => return (← specialContext setting room graph).isSome
  | .negation => return (← negation setting room graph).isSome
  | .relation => return (← relation setting room (some graph)).isSome
  | .actor => return (← actor setting room (some graph)).isSome
  | .comment => graphComment graph

/-- Tries to read an item of a kind into a graph. -/
def alternative (room : Room) (graph : GraphId) : ItemKind → Read Bool
  | .concept => return (← attempt (concept setting room (some graph))).isSome
  | .context => return (← attempt (specialContext setting room graph)).isSome
  | .negation => relationInto graph (attempt (negation setting room graph))
  | .relation => relationInto graph (attempt (relation setting room (some graph)))
  | .actor => relationInto graph (attempt (actor setting room (some graph)))
  | .comment => graphComment graph

/-- Items as long as there are any, the kinds tried in an order. -/
def orderedItems (room : Room) (graph : GraphId) : (tokens : Nat) → Read Unit
  | 0 => return
  | tokens + 1 => do
      let kinds := order.kinds (← get)
      if ← firstOf (kinds.map (alternative setting room graph)) then
        orderedItems room graph tokens

/-- The items of a graph, the kinds tried in an order. -/
def itemsIn (room : Room) (graph : GraphId) : Read Unit := do
  let tokens := (← get).rest.length
  match setting.form with
  | .cgif => orderedItems order setting room graph tokens
  | .linear => statements setting room graph tokens

/-- What can be read inside a bracket, the kinds tried in an order there too. -/
def levelIn (room : Option Inside → Room) : Nat → Option Inside
  | 0 => none
  | levels + 1 =>
      some
        { concept := fun graph reader => concept setting (room (levelIn room levels)) graph reader
          lambda := fun reader => lambda setting (room (levelIn room levels)) reader
          items := fun graph reader =>
            itemsIn order setting (room (levelIn room levels)) graph reader }

end Ordered

/-! ## The kind that is ahead -/

section Ahead

variable {reader : Reader}

/-- A concept is ahead if a bracket opens and no context label follows. -/
theorem itemAhead?_eq_concept : itemAhead? reader = some .concept ↔
    (reader.ahead 0).token = .punct .leftBracket ∧
      ∀ label, (reader.ahead 1).token ≠ .keyword (.context label) := by
  unfold itemAhead? itemBegun?
  split <;> simp_all

/-- A context is ahead if a bracket opens and a context label follows. -/
theorem itemAhead?_eq_context : itemAhead? reader = some .context ↔
    (reader.ahead 0).token = .punct .leftBracket ∧
      ∃ label, (reader.ahead 1).token = .keyword (.context label) := by
  unfold itemAhead? itemBegun?
  split <;> simp_all

/-- A negation is ahead if a tilde is. -/
theorem itemAhead?_eq_negation :
    itemAhead? reader = some .negation ↔ (reader.ahead 0).token = .punct .tilde := by
  unfold itemAhead? itemBegun?
  split <;> simp_all

/-- A relation is ahead if a parenthesis opens and the type of a relation follows. -/
theorem itemAhead?_eq_relation : itemAhead? reader = some .relation ↔
    (reader.ahead 0).token = .punct .leftParen ∧
      beginsType (reader.ahead 1).token (reader.ahead 2).token = true := by
  unfold itemAhead? itemBegun?
  split <;> simp_all

/-- An actor is ahead if an angle opens. -/
theorem itemAhead?_eq_actor :
    itemAhead? reader = some .actor ↔ (reader.ahead 0).token = .punct .leftAngle := by
  unfold itemAhead? itemBegun?
  split <;> simp_all

/-- A comment on the graph is ahead if its token is. -/
theorem itemAhead?_eq_comment :
    itemAhead? reader = some .comment ↔ ∃ text, (reader.ahead 0).token = .formalComment text := by
  unfold itemAhead? itemBegun?
  split <;> simp_all

end Ahead

/-! ## What is ahead decides -/

/-- A production reads items of a kind: where none is ahead it finds nothing and changes
nothing, and where one is ahead it finds something or fails. -/
structure Heeds {α : Type} (kind : ItemKind) (production : Read α) (nothing : α)
    (reader : Reader) : Prop where
  declines : itemAhead? reader ≠ some kind → Declines production nothing reader
  answers : itemAhead? reader = some kind →
    Ensures production reader fun found _ => found ≠ nothing

section Productions

variable {setting : Setting} {room : Room} {graph : GraphId} {reader : Reader}
  {kind : ItemKind}

/-- Whatever a step comes to, what follows it ensures a property. -/
theorem ensures_after {α β : Type} {step : Read α} {next : α → Read β} {post : β → Reader → Prop}
    (others : ∀ value later, Ensures (next value) later post) :
    Ensures (step >>= next) reader post :=
  (Ensures.trivial step reader).bind fun value later _ => others value later

theorem ensures_relationTypeAhead_iff {places : Nat} {post : Bool → Reader → Prop} :
    Ensures (relationTypeAhead places) reader post ↔
      post (beginsType (reader.ahead places).token (reader.ahead (places + 1)).token) reader := by
  unfold Ensures
  rw [relationTypeAhead_eq]

theorem achieves_relationTypeAhead_iff {places : Nat} {post : Bool → Reader → Prop} :
    Achieves (relationTypeAhead places) reader post ↔
      post (beginsType (reader.ahead places).token (reader.ahead (places + 1)).token) reader := by
  unfold Achieves
  rw [relationTypeAhead_eq]

/-- A concept is read where the tokens open one, and nothing is read elsewhere. -/
theorem heeds_concept (home : Option GraphId) :
    Heeds .concept (concept setting room home) none reader where
  declines apart := by
    rw [ne_eq, itemAhead?_eq_concept] at apart
    unfold Declines concept
    simp only [achieves_bind, achieves_peek, achieves_ahead]
    split <;> simp_all
  answers ahead := by
    obtain ⟨opening, plain⟩ := itemAhead?_eq_concept.mp ahead
    unfold concept
    simp only [ensures_bind, ensures_peek, ensures_ahead]
    split
    · next label _ here => exact absurd here (plain label)
    · simp only [ensures_bind, ensures_located, ensures_failAt]
    · simp only [ensures_bind, ensures_located, ensures_failAt]
    · repeat
        apply ensures_after
        intro _ _
      exact Option.some_ne_none _
    · next other _ _ _ => exact absurd opening other

/-- A context is read where the tokens open one, and nothing is read elsewhere. -/
theorem heeds_specialContext :
    Heeds .context (specialContext setting room graph) none reader where
  declines apart := by
    rw [ne_eq, itemAhead?_eq_context] at apart
    unfold Declines specialContext
    simp only [achieves_bind, achieves_peek, achieves_ahead]
    split <;> simp_all
  answers ahead := by
    obtain ⟨opening, label, labelled⟩ := itemAhead?_eq_context.mp ahead
    unfold specialContext
    simp only [ensures_bind, ensures_peek, ensures_ahead]
    split
    · simp only [ensures_bind, ensures_located, ensures_failAt]
    · repeat
        apply ensures_after
        intro _ _
      exact Option.some_ne_none _
    · next other => exact absurd labelled (other label opening)

theorem heeds_negation : Heeds .negation (negation setting room graph) none reader where
  declines apart := negation_declines (mt itemAhead?_eq_negation.mpr apart)
  answers ahead := by
    have tilde := itemAhead?_eq_negation.mp ahead
    unfold negation
    simp only [ensures_bind, ensures_peek, ensures_ahead]
    split
    · repeat
        apply ensures_after
        intro _ _
      exact Option.some_ne_none _
    · simp only [ensures_bind, ensures_located, ensures_failAt]
    · next other _ => exact absurd tilde other

/-- A relation is read where the tokens open one, and nothing is read elsewhere. -/
theorem heeds_relation (home : Option GraphId) :
    Heeds .relation (relation setting room home) none reader where
  declines apart := by
    rw [ne_eq, itemAhead?_eq_relation] at apart
    unfold Declines relation
    simp only [achieves_bind, achieves_peek, achieves_relationTypeAhead_iff]
    rw [if_neg (by simpa using apart)]
    exact ⟨rfl, rfl⟩
  answers ahead := by
    unfold relation
    simp only [ensures_bind, ensures_peek, ensures_relationTypeAhead_iff]
    rw [if_pos (by simpa using itemAhead?_eq_relation.mp ahead)]
    repeat
      apply ensures_after
      intro _ _
    exact Option.some_ne_none _

theorem heeds_actor (home : Option GraphId) :
    Heeds .actor (actor setting room home) none reader where
  declines apart := actor_declines (mt itemAhead?_eq_actor.mpr apart) home
  answers ahead := by
    unfold actor
    simp only [ensures_bind, ensures_peek]
    rw [if_pos (itemAhead?_eq_actor.mp ahead)]
    repeat
      apply ensures_after
      intro _ _
    exact Option.some_ne_none _

theorem heeds_graphComment : Heeds .comment (graphComment graph) false reader where
  declines apart := graphComment_declines fun text comment =>
    apart (itemAhead?_eq_comment.mpr ⟨text, comment⟩)
  answers ahead := by
    obtain ⟨text, comment⟩ := itemAhead?_eq_comment.mp ahead
    unfold graphComment
    simp only [ensures_bind, ensures_peek, comment, ensures_advance, ensures_edit, ensures_pure]
    decide

/-! ### Productions as alternatives -/

/-- Whether an item was found is told from the item. -/
theorem Heeds.found {α : Type} {production : Read (Option α)}
    (heeds : Heeds kind production none reader) :
    Heeds kind (do return (← production).isSome) false reader where
  declines apart := by
    refine (heeds.declines apart).bind fun found later declined => ?_
    obtain ⟨rfl, rfl⟩ := declined
    exact ⟨rfl, rfl⟩
  answers ahead := by
    refine (heeds.answers ahead).bind fun found later some => ?_
    simpa [Option.isSome_iff_ne_none] using some

/-- A production that heeds goes on to do so when its relation is put into a graph. -/
theorem Heeds.into {production : Read (Option RelationId)}
    (heeds : Heeds kind production none reader) :
    Heeds kind (relationInto graph production) false reader where
  declines apart := relationInto_declines (heeds.declines apart)
  answers ahead := by
    refine (heeds.answers ahead).bind fun found later some => ?_
    cases found with
    | none => exact absurd rfl some
    | some relation => exact nofun

/-- A production that declines without a trace leaves nothing to restore. -/
theorem attempt_eq {α : Type} {production : Read (Option α)}
    (heeds : ∀ reader, Heeds kind production none reader) : attempt production = production := by
  funext reader
  unfold attempt
  rw [bind_of_ok (rfl : (get : Read Reader) reader = .ok reader reader)]
  by_cases ahead : itemAhead? reader = some kind
  · cases ran : production reader with
    | ok found later =>
        have some := ((heeds reader).answers ahead).of_ok ran
        rw [bind_of_ok ran]
        cases found with
        | none => exact absurd rfl some
        | some node => rfl
    | error error later => rw [bind_of_error ran]
  · have ran := ((heeds reader).declines ahead).ran
    rw [bind_of_ok ran, ran]
    rfl

/-- Every production heeds the kind of item that it reads. -/
theorem heeds_production (kind : ItemKind) (reader : Reader) :
    Heeds kind (production setting room graph kind) false reader := by
  cases kind with
  | concept => exact (heeds_concept _).found
  | context => exact heeds_specialContext.found
  | negation => exact heeds_negation.found
  | relation => exact (heeds_relation _).found
  | actor => exact (heeds_actor _).found
  | comment => exact heeds_graphComment

/-- The alternatives in the order in which reading tries them. -/
theorem bracketProductions_eq :
    bracketProductions setting room graph = ItemKind.all.map (alternative setting room graph) := by
  simp only [ItemKind.all, List.map_cons, List.map_nil, alternative, bracketProductions,
    attempt_eq fun _ => heeds_concept _, attempt_eq fun _ => heeds_specialContext,
    attempt_eq fun _ => heeds_negation, attempt_eq fun _ => heeds_relation _,
    attempt_eq fun _ => heeds_actor _]

/-- Each alternative heeds the kind of item that it reads. -/
theorem heeds_alternative (kind : ItemKind) (reader : Reader) :
    Heeds kind (alternative setting room graph kind) false reader := by
  cases kind with
  | concept =>
      rw [alternative, attempt_eq fun _ => heeds_concept _]
      exact (heeds_concept _).found
  | context =>
      rw [alternative, attempt_eq fun _ => heeds_specialContext]
      exact heeds_specialContext.found
  | negation =>
      rw [alternative, attempt_eq fun _ => heeds_negation]
      exact heeds_negation.into
  | relation =>
      rw [alternative, attempt_eq fun _ => heeds_relation _]
      exact (heeds_relation _).into
  | actor =>
      rw [alternative, attempt_eq fun _ => heeds_actor _]
      exact (heeds_actor _).into
  | comment => exact heeds_graphComment

/-! ## Orders -/

/-- Whatever the order, the kind that is ahead is read. -/
theorem firstOf_alternatives (kinds : List ItemKind) (reader : Reader) :
    firstOf (kinds.map (alternative setting room graph)) reader =
      match itemAhead? reader with
      | none => .ok false reader
      | some kind =>
          if kind ∈ kinds then alternative setting room graph kind reader
          else .ok false reader := by
  induction kinds with
  | nil => cases itemAhead? reader <;> rfl
  | cons first kinds ih =>
      rw [List.map_cons, firstOf]
      by_cases ahead : itemAhead? reader = some first
      · have answers : Ensures (alternative setting room graph first) reader fun found _ =>
            found ≠ false := (heeds_alternative first reader).answers ahead
        simp only [ahead, List.mem_cons_self, if_true]
        cases ran : alternative setting room graph first reader with
        | ok found later =>
            have yes : found = true := by simpa using answers.of_ok ran
            subst yes
            rw [bind_of_ok ran]
            rfl
        | error error later => rw [bind_of_error ran]
      · have declines : Declines (alternative setting room graph first) false reader :=
          (heeds_alternative first reader).declines ahead
        rw [bind_of_ok declines.ran, if_neg Bool.false_ne_true, ih]
        cases seen : itemAhead? reader with
        | none => rfl
        | some kind =>
            have apart : kind ≠ first := by rintro rfl; exact ahead seen
            simp only [List.mem_cons, apart, false_or]

/-- Trying the alternatives in another order comes to the same. -/
theorem firstOf_order (order : ItemOrder) (reader : Reader) :
    firstOf ((order.kinds reader).map (alternative setting room graph)) reader =
      firstOf (bracketProductions setting room graph) reader := by
  rw [bracketProductions_eq, firstOf_alternatives, firstOf_alternatives]
  cases itemAhead? reader with
  | none => rfl
  | some kind => simp only [order.mem_kinds reader kind, kind.mem_all, if_true]

/-- The alternatives may be tried in any order. -/
theorem orderedItems_eq (order : ItemOrder) (tokens : Nat) :
    orderedItems order setting room graph tokens = bracketItems setting room graph tokens := by
  induction tokens with
  | zero => rfl
  | succ tokens ih =>
      funext reader
      have same : firstOf ((order.kinds reader).map (alternative setting room graph)) reader =
          firstOf (bracketProductions setting room graph) reader := firstOf_order order reader
      unfold orderedItems bracketItems
      rw [ih, bind_of_ok (rfl : (get : Read Reader) reader = .ok reader reader)]
      cases ran : firstOf (bracketProductions setting room graph) reader with
      | ok found later => rw [bind_of_ok ran, bind_of_ok (same.trans ran)]
      | error error later => rw [bind_of_error ran, bind_of_error (same.trans ran)]

/-- The items of a graph are the same in every order. -/
theorem itemsIn_eq (order : ItemOrder) :
    itemsIn order setting room graph = items setting room graph := by
  cases form : setting.form with
  | cgif => simp only [itemsIn, items, form, orderedItems_eq]
  | linear => simp only [itemsIn, items, form]

/-- The order makes no difference to what is read inside a bracket. -/
theorem levelIn_eq (order : ItemOrder) (room : Option Inside → Room) (levels : Nat) :
    levelIn order setting room levels = level setting room levels := by
  induction levels with
  | zero => rfl
  | succ levels ih => simp only [levelIn, level, ih, itemsIn_eq]

/-! ## Declining -/

/-- What declines has changed nothing, and would decline with any number of brackets open. -/
theorem declines_of_ran {later : Reader}
    (ran : production setting room graph kind reader = .ok false later) (deeper : Room) :
    later = reader ∧ Declines (production setting deeper graph kind) false reader := by
  have apart : itemAhead? reader ≠ some kind := by
    intro ahead
    exact absurd rfl (((heeds_production kind reader).answers ahead).of_ok ran)
  have declined : Declines (production setting room graph kind) false reader :=
    (heeds_production kind reader).declines apart
  cases ran.symm.trans declined.ran
  exact ⟨rfl, (heeds_production kind reader).declines apart⟩

/-- A kind finds something or fails exactly where it is ahead. -/
theorem answers_iff (kind : ItemKind) (reader : Reader) :
    Ensures (production setting room graph kind) reader (fun found _ => found = true) ↔
      itemAhead? reader = some kind := by
  constructor
  · intro answers
    by_contra apart
    have declines : Declines (production setting room graph kind) false reader :=
      (heeds_production kind reader).declines apart
    exact absurd (answers.of_ok declines.ran) Bool.false_ne_true
  · intro ahead
    exact ((heeds_production kind reader).answers ahead).mono fun found _ some => by
      simpa using some

theorem itemAhead?_of_empty (empty : reader.rest = []) : itemAhead? reader = none := by
  simp only [itemAhead?, Reader.ahead, empty]
  rfl

/-- Items end where no kind of item is ahead, and not because their number was bounded. -/
theorem bracketItems_ends {site : Site} {room : Option Inside} (rooms : RoomEchoes site room)
    {tokens : Nat} (enough : reader.rest.length ≤ tokens) :
    Ensures (bracketItems setting room graph tokens) reader
      fun _ later => itemAhead? later = none := by
  induction tokens generalizing reader with
  | zero => exact itemAhead?_of_empty (List.length_eq_zero_iff.mp (Nat.le_zero.mp enough))
  | succ tokens ih =>
      unfold bracketItems
      rw [ensures_bind]
      refine .intro fun found later ran => ?_
      cases found with
      | true =>
          have shorter : later.rest.length < reader.rest.length := item_shorter rooms ran
          exact ih (by omega)
      | false =>
          obtain rfl : later = reader := absent_item.of_ok ran rfl
          rw [bracketProductions_eq, firstOf_alternatives] at ran
          cases ahead : itemAhead? later with
          | none => exact ahead
          | some kind =>
              simp only [ahead, kind.mem_all, if_true] at ran
              exact absurd rfl (((heeds_alternative kind later).answers ahead).of_ok ran)

end Productions

/-- A graph that is read with its brackets counted ends there too. -/
theorem items_ends (form : setting.form = .cgif) (levels : Nat) :
    Ensures (items setting (.counted (level setting .counted levels)) graph) reader
      fun _ later => itemAhead? later = none := by
  have admits := admits_level setting levels reader.depth
  have rooms : RoomEchoes ⟨0, none⟩ (roomFor setting
      (min levels (setting.options.maxDepth - reader.depth))) := roomEchoes form _
  refine .intro fun value later ran => ?_
  cases went : items setting (roomFor setting
      (min levels (setting.options.maxDepth - reader.depth))) graph reader with
  | ok value' last =>
      cases ran.symm.trans ((simulates_items admits graph).of_ok went)
      rw [items_cgif form] at went
      have ended : itemAhead? last = none := (bracketItems_ends rooms (Nat.le_refl _)).of_ok went
      exact ended
  | error error last =>
      obtain ⟨depth, failed⟩ := (simulates_items admits graph).of_error went
      cases ran.symm.trans failed

/-- In the interchange form, a kind of item that is declined leaves no trace, and it is declined no
matter how many brackets are open; at most one kind finds something or fails; and so the items of a
graph, which end where every kind is declined, are the same in whatever order the kinds are tried,
in this graph and in the graphs inside it. -/
theorem declined_alternatives_leave_no_trace (options : Options) (graph : GraphId)
    (reader : Reader) :
    (∀ room kind later, production ⟨.cgif, options⟩ room graph kind reader = .ok false later →
      later = reader ∧
        ∀ deeper, production ⟨.cgif, options⟩ deeper graph kind reader = .ok false reader) ∧
    (∀ room kind other,
      Ensures (production ⟨.cgif, options⟩ room graph kind) reader (fun found _ => found = true) →
      Ensures (production ⟨.cgif, options⟩ room graph other) reader (fun found _ => found = true) →
      kind = other) ∧
    (∀ levels later,
      items ⟨.cgif, options⟩ (.counted (level ⟨.cgif, options⟩ .counted levels)) graph reader =
        .ok () later →
      ∀ room kind, production ⟨.cgif, options⟩ room graph kind later = .ok false later) ∧
    ∀ order levels,
      itemsIn order ⟨.cgif, options⟩ (.counted (levelIn order ⟨.cgif, options⟩ .counted levels))
        graph reader =
      items ⟨.cgif, options⟩ (.counted (level ⟨.cgif, options⟩ .counted levels)) graph reader := by
  refine ⟨fun room kind later ran => ?declined, fun room kind other first second => ?one,
    fun levels later ran room kind => ?ended, fun order levels => ?ordered⟩
  case declined =>
    exact ⟨(declines_of_ran ran room).1, fun deeper => (declines_of_ran ran deeper).2.ran⟩
  case one =>
    have ahead := (answers_iff kind reader).mp first
    exact Option.some.inj (ahead.symm.trans ((answers_iff other reader).mp second))
  case ended =>
    have ended : itemAhead? later = none := (items_ends rfl levels).of_ok ran
    exact ((heeds_production kind later).declines (by simp [ended])).ran
  case ordered =>
    rw [levelIn_eq, itemsIn_eq]

/-- A bracket with a context label is declined as a concept, and read as a context. -/
example : itemBegun? (.punct .leftBracket) (.keyword (.context .ifLabel)) (.punct .colon) =
    some .context := rfl

end Read

end ConceptualGraph
