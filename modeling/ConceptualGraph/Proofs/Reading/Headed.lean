/-
Module: ConceptualGraph.Proofs.Reading.Headed
Purpose: Readings keep arenas headed, whether they succeed or fail: a concept that joins the set of
  another one has just been made, and no label denotes it.  So arenas that any number of readings
  have filled are headed.
Main exports: Reader.Headed, Reader.Follower, Read.StaysHeaded, Read.Presents, Read.roomPresents,
  Session.Call.heads_after, Model.ParseBuilt, Model.Shared, Model.ParseBuilt.shared
-/
import ConceptualGraph.Proofs.Model.Headed
import ConceptualGraph.Proofs.Reading.Mutual

namespace ConceptualGraph

/-! ## States -/

/-- A label of a table denotes a concept itself, and not a set. -/
def LabelTable.Denotes (table : LabelTable) (concept : ConceptId) : Prop :=
  ∃ label, .binding label (.concept concept) ∈ table.scope

/-- An arena is headed, and the labels of a table denote heads or sets of it.  The pinned concepts
are heads on behalf of other tables. -/
structure LabelTable.Heads (pinned : ConceptId → Prop) (model : Model) (table : LabelTable) :
    Prop where
  arena : model.Headed fun concept => pinned concept ∨ table.Denotes concept
  sets : ∀ label set, .binding label (.set set) ∈ table.scope → set.index < model.corefSets.size

namespace LabelTable

variable {table : LabelTable} {concept : ConceptId} {label : String} {target : Target}

/-- A concept is denoted by the label just bound or by another one. -/
theorem Denotes.of_bind (denotes : (table.bind label target).Denotes concept) :
    target = .concept concept ∨ table.Denotes concept := by
  obtain ⟨other, member⟩ := denotes
  rcases mem_scope_bind member with ⟨-, same⟩ | former
  · exact .inl same.symm
  · exact .inr ⟨other, former⟩

theorem Denotes.of_push (denotes : table.push.Denotes concept) : table.Denotes concept := by
  obtain ⟨label, member⟩ := denotes
  exact ⟨label, (List.mem_cons.mp member).resolve_left nofun⟩

theorem Denotes.of_pop (denotes : table.pop.Denotes concept) : table.Denotes concept := by
  obtain ⟨label, member⟩ := denotes
  exact ⟨label, scope_pop_subset table member⟩

variable {pinned : ConceptId → Prop} {model : Model}

theorem Heads.push (heads : table.Heads pinned model) : table.push.Heads pinned model where
  arena := heads.arena.mono fun _ => Or.imp_right Denotes.of_push
  sets label set member := heads.sets label set ((List.mem_cons.mp member).resolve_left nofun)

theorem Heads.pop (heads : table.Heads pinned model) : table.pop.Heads pinned model where
  arena := heads.arena.mono fun _ => Or.imp_right Denotes.of_pop
  sets label set member := heads.sets label set (scope_pop_subset table member)

end LabelTable

namespace Reader

variable (pinned : ConceptId → Prop)

/-- A state of reading in which the labels denote heads and sets. -/
abbrev Headed (reader : Reader) : Prop := reader.labels.Heads pinned reader.model

/-- A concept that may join sets: nobody needs it as a head. -/
structure Follower (reader : Reader) (concept : ConceptId) : Prop where
  shown : reader.model.IsShown concept
  unclaimed : ¬(pinned concept ∨ reader.labels.Denotes concept)
  undefining : ∀ set : CorefSetId, set.index < reader.model.corefSets.size →
    (reader.model.corefSet set).defining ≠ concept

/-- A concept of which no set knows yet. -/
structure Fresh (reader : Reader) (concept : ConceptId) : Prop extends
    reader.Follower pinned concept where
  unlisted : ∀ set, concept ∉ (reader.model.corefSet set).members

variable {pinned} {reader : Reader} {concept : ConceptId} {model : Model}

/-- An edit keeps heads if the new model does and reveals what was shown. -/
theorem Headed.edited (headed : reader.Headed pinned)
    (kept : model.Headed fun concept => pinned concept ∨ reader.labels.Denotes concept)
    (reveals : reader.model.Reveals model) : (reader.withModel model).Headed pinned :=
  ⟨kept, fun label set bound => Nat.lt_of_lt_of_le (headed.sets label set bound) reveals.sets⟩

theorem Headed.aside (headed : reader.Headed pinned) (aside : reader.model.Aside model) :
    (reader.withModel model).Headed pinned ∧ reader.model.Reveals model :=
  ⟨headed.edited (headed.arena.aside aside) aside.reveals, aside.reveals⟩

theorem Headed.bind (headed : reader.Headed pinned) (label : String) {target : Target}
    (head : ∀ concept, target = .concept concept → reader.model.IsHead concept)
    (known : ∀ set, target = .set set → set.index < reader.model.corefSets.size) :
    (reader.withLabels (reader.labels.bind label target)).Headed pinned where
  arena := { headed.arena with
    claimed := by
      rintro concept (pin | denotes)
      · exact headed.arena.claimed concept (.inl pin)
      · exact denotes.of_bind.elim (head concept) fun former =>
          headed.arena.claimed concept (.inr former) }
  sets bound set member := by
    rcases LabelTable.mem_scope_bind member with ⟨-, same⟩ | former
    · exact known set same.symm
    · exact headed.sets bound set former

/-- A concept that has just been made stays out of all sets while edits keep aside of them. -/
theorem Fresh.aside (fresh : reader.Fresh pinned concept) (aside : reader.model.Aside model) :
    (reader.withModel model).Fresh pinned concept where
  shown := aside.shown concept fresh.shown
  unclaimed := fresh.unclaimed
  undefining set inside := by
    rw [withModel_model, aside.corefSet]
    exact fresh.undefining set (aside.sets ▸ inside)
  unlisted set := by
    rw [withModel_model, aside.corefSet]
    exact fresh.unlisted set

/-- A set that begins with what a label denotes is not defined by a follower. -/
theorem Follower.promoted {defining : ConceptId} {label : String}
    (follower : reader.Follower pinned concept) (bound : reader.labels.Denotes defining)
    (reveals : reader.model.Reveals (reader.model.newCorefSet defining).2) :
    ((reader.withModel (reader.model.newCorefSet defining).2).withLabels (reader.labels.bind label
      (.set (reader.model.newCorefSet defining).1))).Follower pinned concept where
  shown := reveals.shown concept follower.shown
  unclaimed := by
    rintro (pin | denotes)
    · exact follower.unclaimed (.inl pin)
    · exact follower.unclaimed (.inr (denotes.of_bind.resolve_left nofun))
  undefining set inside same := by
    rw [withLabels_model, withModel_model, Model.corefSet_newCorefSet] at same
    split at same
    · exact follower.unclaimed (.inr (same ▸ bound))
    · next old =>
      refine follower.undefining set ?_ same
      rw [withLabels_model, withModel_model, Model.size_newCorefSet] at inside
      omega

/-- A set has the defining concept that it had, whoever joins it. -/
theorem Follower.joined {set : CorefSetId} {other : ConceptId}
    (follower : reader.Follower pinned concept) (known : set.index < reader.model.corefSets.size)
    (added : reader.model.addToCorefSet set other = .ok model)
    (reveals : reader.model.Reveals model) :
    (reader.withModel model).Follower pinned concept where
  shown := reveals.shown concept follower.shown
  unclaimed := follower.unclaimed
  undefining another inside same := by
    rw [withModel_model, Model.corefSet_addToCorefSet known added] at same
    split at same
    · exact follower.undefining set known same
    · refine follower.undefining another ?_ same
      rwa [withModel_model, Model.size_corefSets_addToCorefSet added] at inside

/-- A concept that has just been made is fresh. -/
theorem Headed.newConcept (headed : reader.Headed pinned) (type : Option ConceptType) :
    (reader.withModel (reader.model.newConcept type).2).Fresh pinned
      ⟨reader.model.concepts.size⟩ where
  shown := ⟨by simp, by rw [withModel_model, Model.concept_newConcept]⟩
  unclaimed claim := Nat.lt_irrefl _ (headed.arena.claimed _ claim).inside
  undefining set inside same :=
    Nat.lt_irrefl _ (same ▸ (headed.arena.defining set inside).inside)
  unlisted set member := Nat.lt_irrefl _ (headed.arena.members set _ member).inside

theorem Follower.past (follower : reader.Follower pinned concept) (rest : List Located) :
    (reader.withRest rest).Follower pinned concept := { follower with }

theorem Fresh.past (fresh : reader.Fresh pinned concept) (rest : List Located) :
    (reader.withRest rest).Fresh pinned concept := { fresh with }

/-- A fresh concept may become a head. -/
theorem Fresh.isHead (fresh : reader.Fresh pinned concept) : reader.model.IsHead concept :=
  ⟨fresh.shown, fun set member => absurd member (fresh.unlisted set)⟩

end Reader

namespace Read

variable {α β : Type} {pinned : ConceptId → Prop} {step other : Read α} {next : α → Read β}
  {reader : Reader} {post weaker : α → Reader → Prop} {last : β → Reader → Prop}

/-! ## Steps that keep arenas headed -/

/-- A step keeps the arena headed however it ends; if it succeeds, its result has a property. -/
def StaysHeaded (pinned : ConceptId → Prop) (step : Read α) (reader : Reader)
    (post : α → Reader → Prop) : Prop :=
  reader.Headed pinned → (final step reader).Headed pinned ∧
    reader.model.Reveals (final step reader).model ∧ Ensures step reader post

namespace StaysHeaded

theorem mono (keeps : StaysHeaded pinned step reader post)
    (weaken : ∀ value later, reader.model.Reveals later.model → post value later →
      weaker value later) : StaysHeaded pinned step reader weaker := fun headed =>
  have ⟨kept, reveals, holds⟩ := keeps headed
  ⟨kept, reveals, .intro fun value later ran =>
    weaken value later (final_of_ok ran ▸ reveals) (holds.of_ok ran)⟩

theorem bind (first : StaysHeaded pinned step reader post)
    (others : ∀ value later, reader.model.Reveals later.model → post value later →
      StaysHeaded pinned (next value) later last) :
    StaysHeaded pinned (step >>= next) reader last := by
  intro headed
  obtain ⟨kept, reveals, holds⟩ := first headed
  cases ran : step reader with
  | ok value later =>
      rw [final_of_ok ran] at kept reveals
      obtain ⟨ends, further, result⟩ := others value later reveals (holds.of_ok ran) kept
      refine ⟨?_, ?_, ?_⟩
      · rwa [final_bind_of_ok ran]
      · rw [final_bind_of_ok ran]
        exact reveals.trans further
      · simpa only [Ensures, Bind.bind, EStateM.bind, ran] using result
  | error error later =>
      rw [final_of_error ran] at kept reveals
      refine ⟨?_, ?_, ?_⟩
      · rwa [final_bind_of_error ran]
      · rwa [final_bind_of_error ran]
      · simp only [Ensures, Bind.bind, EStateM.bind, ran]

/-- Whatever is only known of a headed arena. -/
theorem assuming (keeps : reader.Headed pinned → StaysHeaded pinned step reader post) :
    StaysHeaded pinned step reader post := fun headed => keeps headed headed

theorem pure {value : α} (holds : post value reader) :
    StaysHeaded pinned (pure value) reader post := fun headed => ⟨headed, .refl _, holds⟩

theorem throw {error : Error} : StaysHeaded pinned (throw error) reader post :=
  fun headed => ⟨headed, .refl _, True.intro⟩

theorem failAt {found : Located} {fault : ParseFault} :
    StaysHeaded pinned (failAt found fault) reader post := throw

theorem fail {fault : ParseFault} : StaysHeaded pinned (fail fault) reader post :=
  fun headed => ⟨headed, .refl _, True.intro⟩

/-- A step that only goes past tokens leaves what is known of the arena and the labels. -/
theorem passes (passes : Passes step) :
    StaysHeaded pinned step reader fun _ later => ∃ rest, later = reader.withRest rest := by
  intro headed
  obtain ⟨rest, -, same⟩ := passes.final_eq reader
  refine ⟨?_, ?_, .intro fun value later ran => ⟨rest, (final_of_ok ran).symm.trans same⟩⟩
  · rw [same]
    exact headed
  · rw [same]
    exact .refl _

/-- Steps that only pass tokens keep heads as they are. -/
theorem past (passes : Passes step)
    (others : ∀ value rest, StaysHeaded pinned (next value) (reader.withRest rest) last) :
    StaysHeaded pinned (step >>= next) reader last := by
  refine (StaysHeaded.passes passes).bind fun value later _ gone => ?_
  obtain ⟨rest, rfl⟩ := gone
  exact others value rest

theorem edit {change : Model → Model} (kept : reader.Headed pinned →
      (reader.withModel (change reader.model)).Headed pinned ∧
        reader.model.Reveals (change reader.model)) :
    StaysHeaded pinned (edit change) reader fun _ later =>
      later = reader.withModel (change reader.model) :=
  fun headed => ⟨(kept headed).1, (kept headed).2, rfl⟩

theorem make {change : Model → α × Model} (kept : reader.Headed pinned →
      (reader.withModel (change reader.model).2).Headed pinned ∧
        reader.model.Reveals (change reader.model).2) :
    StaysHeaded pinned (make change) reader fun value later =>
      value = (change reader.model).1 ∧ later = reader.withModel (change reader.model).2 :=
  fun headed => ⟨(kept headed).1, (kept headed).2, rfl, rfl⟩

theorem bindLabel {label : String} {target : Target} (kept : reader.Headed pinned →
      (reader.withLabels (reader.labels.bind label target)).Headed pinned) :
    StaysHeaded pinned (bindLabel label target) reader fun _ later =>
      later = reader.withLabels (reader.labels.bind label target) :=
  fun headed => ⟨kept headed, .refl _, rfl⟩

/-- What a context binds is forgotten when it is closed. -/
theorem inContext {entered : α → Reader → Prop}
    (keeps : StaysHeaded pinned step (reader.withLabels reader.labels.push) entered)
    (left : ∀ value later, entered value later →
      post value (later.withLabels later.labels.pop)) :
    StaysHeaded pinned (inContext step) reader post := by
  intro headed
  obtain ⟨kept, reveals, holds⟩ := keeps headed.push
  unfold final Ensures Read.inContext at *
  unfold Reader.withLabels at kept reveals holds
  cases ran : step { reader with labels := reader.labels.push } with
  | ok value later =>
      simp only [ran] at kept reveals holds ⊢
      exact ⟨kept.pop, reveals, left value later holds⟩
  | error error later =>
      simp only [ran] at kept reveals ⊢
      exact ⟨kept.pop, reveals, True.intro⟩

/-- A bracket keeps heads if what it encloses does. -/
theorem descend {setting : Setting} {room : Option Inside} {next : Inside → Read β}
    (others : ∀ inside, room = some inside → StaysHeaded pinned (next inside) reader last) :
    StaysHeaded pinned (descend setting room >>= next) reader last := by
  cases room with
  | none => exact fail
  | some inside => exact others inside rfl

theorem model {next : Model → Read β} (keeps : StaysHeaded pinned (next reader.model) reader last) :
    StaysHeaded pinned (Read.model >>= next) reader last := keeps

theorem labels {next : LabelTable → Read β}
    (keeps : StaysHeaded pinned (next reader.labels) reader last) :
    StaysHeaded pinned (Read.labels >>= next) reader last := keeps

end StaysHeaded

/-! ## Coreference -/

section Followers

variable {concept : ConceptId}

/-- The set of a label begins with the head that the label denotes. -/
theorem staysHeaded_setFor (found : Located) (label : String)
    (follower : reader.Follower pinned concept) :
    StaysHeaded pinned (setFor found label) reader fun set later =>
      later.Follower pinned concept ∧ set.index < later.model.corefSets.size := by
  refine .assuming fun headed => .labels ?_
  split
  · next set denotes =>
    exact .pure ⟨follower, headed.sets label set (LabelTable.mem_of_target? denotes)⟩
  · next defining denotes =>
    have bound : reader.labels.Denotes defining := ⟨label, LabelTable.mem_of_target? denotes⟩
    have head : reader.model.IsHead defining := headed.arena.claimed defining (.inr bound)
    refine (StaysHeaded.make fun _ => ?_).bind fun set middle _ made => ?_
    · exact ⟨headed.edited (headed.arena.newCorefSet head).1 (headed.arena.newCorefSet head).2,
        (headed.arena.newCorefSet head).2⟩
    · obtain ⟨rfl, rfl⟩ := made
      refine (StaysHeaded.bindLabel fun kept => kept.bind label ?_ ?_).bind
        fun _ later _ same => .pure ?_
      · rintro concept ⟨⟩
      · rintro set ⟨⟩
        simp
      · subst same
        exact ⟨follower.promoted bound (headed.arena.newCorefSet head).2, by simp⟩
  · exact .failAt

/-- A follower that joins a set stays one. -/
theorem staysHeaded_join (found : Located) (label : String)
    (follower : reader.Follower pinned concept) :
    StaysHeaded pinned (join found label concept) reader fun _ later =>
      later.Follower pinned concept := by
  refine (staysHeaded_setFor found label follower).bind fun set middle _ facts => ?_
  obtain ⟨follower, known⟩ := facts
  refine .assuming fun headed => .model ?_
  split
  · next model added =>
    have joined := headed.arena.addToCorefSet known follower.shown follower.unclaimed
      follower.undefining added
    refine (StaysHeaded.edit fun _ => ⟨headed.edited joined.1 joined.2, joined.2⟩).mono
      fun _ later _ same => ?_
    subst same
    exact follower.joined known added joined.2
  · exact .failAt

end Followers

/-! ## Steps that show concepts -/

/-- A step keeps the arena headed, and shows the concepts of its result, provided that some
concepts are shown. -/
def Presents (pinned : ConceptId → Prop) (known : List ConceptId) (step : Read α)
    (shows : α → List ConceptId) : Prop :=
  ∀ reader : Reader, (∀ concept ∈ known, reader.model.IsShown concept) →
    StaysHeaded pinned step reader fun value later =>
      ∀ concept ∈ shows value, later.model.IsShown concept

variable {known : List ConceptId} {shows : α → List ConceptId} {showsNext : β → List ConceptId}

namespace Presents

theorem bind (first : Presents pinned known step shows)
    (others : ∀ value, Presents pinned (shows value ++ known) (next value) showsNext) :
    Presents pinned known (step >>= next) showsNext := fun reader shown =>
  (first reader shown).bind fun value later reveals fresh =>
    others value later fun concept member => (List.mem_append.mp member).elim (fresh concept)
      fun old => reveals.shown concept (shown concept old)

theorem pure {value : α} (among : shows value ⊆ known) :
    Presents pinned known (pure value) shows :=
  fun _ shown => .pure fun concept member => shown concept (among member)

theorem nothing {value : α} : Presents pinned known (Pure.pure value) fun _ => [] :=
  pure (List.nil_subset _)

theorem throw {error : Error} : Presents pinned known (throw error) shows := fun _ _ => .throw

theorem failAt {found : Located} {fault : ParseFault} :
    Presents pinned known (failAt found fault) shows := fun _ _ => .failAt

theorem fail {fault : ParseFault} : Presents pinned known (fail fault) shows := fun _ _ => .fail

theorem ite {condition : Prop} [Decidable condition] (yes : Presents pinned known step shows)
    (no : Presents pinned known other shows) :
    Presents pinned known (if condition then step else other) shows := by
  split
  · exact yes
  · exact no

theorem hide (keeps : Presents pinned known step shows) :
    Presents pinned known step fun _ => [] := fun reader shown =>
  (keeps reader shown).mono fun _ _ _ _ => by simp

/-- A step that only goes past tokens comes first. -/
theorem past (passes : Passes step)
    (others : ∀ value, Presents pinned known (next value) showsNext) :
    Presents pinned known (step >>= next) showsNext := fun _ shown =>
  .past passes fun value _ => others value _ shown

theorem edit {change : Model → Model} (aside : ∀ model : Model,
      (∀ concept ∈ known, model.IsShown concept) → model.Aside (change model)) :
    Presents pinned known (edit change) fun _ => [] := fun _ shown =>
  (StaysHeaded.edit fun headed => headed.aside (aside _ shown)).mono fun _ _ _ _ => by simp

theorem make {change : Model → α × Model} (aside : ∀ model : Model,
      (∀ concept ∈ known, model.IsShown concept) → model.Aside (change model).2) :
    Presents pinned known (make change) fun _ => [] := fun _ shown =>
  (StaysHeaded.make fun headed => headed.aside (aside _ shown)).mono fun _ _ _ _ => by simp

theorem inContext (keeps : Presents pinned known step shows) :
    Presents pinned known (inContext step) shows := fun _ shown =>
  StaysHeaded.inContext (keeps _ shown) fun _ _ fresh => fresh

theorem descend {setting : Setting} {room : Option Inside} {next : Inside → Read β}
    (others : ∀ inside, room = some inside → Presents pinned known (next inside) showsNext) :
    Presents pinned known (descend setting room >>= next) showsNext := fun reader shown =>
  .descend fun inside entered => others inside entered reader shown

/-- A concept is made, hidden and put into a graph in three edits that nothing can see. -/
theorem conceal {next : ConceptId → Read β} {graph : GraphId}
    (others : ∀ concept, Presents pinned known (next concept) showsNext) :
    Presents pinned known (do
      let concept ← Read.make (·.newConcept none)
      Read.edit (·.modifyConcept concept fun data => { data with hidden := true })
      Read.edit (·.addConcept graph concept)
      next concept) showsNext := by
  intro reader shown headed
  let concealed := (reader.model.newConcept none).2.modifyConcept ⟨reader.model.concepts.size⟩
    fun data => { data with hidden := true }
  have hid : reader.model.Aside concealed := .conceal
  have put : concealed.Aside (concealed.addConcept graph ⟨reader.model.concepts.size⟩) :=
    .addConcept
  obtain ⟨placed, reveals⟩ := headed.aside (hid.trans put)
  obtain ⟨ends, further, fresh⟩ := others ⟨reader.model.concepts.size⟩ _
    (fun concept member => reveals.shown concept (shown concept member)) placed
  exact ⟨ends, reveals.trans further, fresh⟩

end Presents

/-! ## New concepts -/

variable {setting : Setting} {room : Option Inside} {graph : GraphId} {home : Option GraphId}

section Labels

variable {concept : ConceptId}

theorem staysHeaded_newConcept (type : Option ConceptType) :
    StaysHeaded pinned (make (·.newConcept type)) reader fun concept later =>
      later.Fresh pinned concept := by
  refine .assuming fun headed =>
    (StaysHeaded.make fun _ => headed.aside (.newConcept type)).mono fun concept later _ made => ?_
  obtain ⟨rfl, rfl⟩ := made
  exact headed.newConcept type

theorem staysHeaded_addConcept (fresh : reader.Fresh pinned concept) :
    StaysHeaded pinned (edit (·.addConcept graph concept)) reader fun _ later =>
      later.Fresh pinned concept := by
  refine (StaysHeaded.edit fun headed => headed.aside .addConcept).mono fun _ later _ same => ?_
  subst same
  exact fresh.aside .addConcept

/-! ## Labels -/

theorem presents_definingConcept? (label : String) :
    Presents pinned known (definingConcept? label) Option.toList := by
  intro reader shown
  refine .assuming fun headed => .labels ?_
  split
  · next concept denotes =>
    have bound : reader.labels.Denotes concept := ⟨label, LabelTable.mem_of_target? denotes⟩
    exact .pure (by simpa using (headed.arena.claimed concept (.inr bound)).toIsShown)
  · next set denotes =>
    have inside := headed.sets label set (LabelTable.mem_of_target? denotes)
    exact .model (.pure (by simpa using (headed.arena.defining set inside).toIsShown))
  · exact .pure (by simp)

theorem presents_representative? (label : String) {defining : ConceptId}
    (among : defining ∈ known) :
    Presents pinned known (representative? label defining graph) Option.toList := by
  intro reader shown
  refine .assuming fun headed => .model ?_
  split
  · exact .pure (by simpa using shown defining among)
  · refine .labels ?_
    split
    · next set _ =>
      refine .pure fun concept found => ?_
      have member : concept ∈ (reader.model.corefSet set).members :=
        List.mem_of_find?_eq_some (Option.mem_toList.mp found)
      exact headed.arena.members set concept member
    · exact .pure (by simp)

/-- What stands for a label is shown, though it may have to be made. -/
theorem presents_resolve (found : Located) (label : String) (home : Option GraphId) :
    Presents pinned known (resolve found label home) fun concept => [concept] := by
  refine (presents_definingConcept? label).bind fun defining => ?_
  split
  · exact .failAt
  · exact .pure (by simp)
  · next defining graph =>
    refine (presents_representative? label (by simp)).bind fun known => ?_
    split
    · exact .pure (by simp)
    · refine .past .model fun model reader _ => ?_
      refine (staysHeaded_newConcept _).bind fun concept _ _ fresh => ?_
      refine (staysHeaded_addConcept fresh).bind fun _ _ _ fresh => ?_
      refine (staysHeaded_join found label fresh.toFollower).bind fun _ _ _ follower => .pure ?_
      simpa using follower.shown

/-- A new concept joins the sets of its labels. -/
theorem staysHeaded_boundLabels (follower : reader.Follower pinned concept) (tokens : Nat) :
    StaysHeaded pinned (boundLabels concept tokens) reader fun _ later =>
      later.model.IsShown concept := by
  induction tokens generalizing reader with
  | zero => exact .pure follower.shown
  | succ tokens ih =>
      refine .past .peek fun token _ => ?_
      split
      · refine .past (.located 0) fun _ _ => .past .advance fun _ _ => ?_
        refine (staysHeaded_join _ _ (((follower.past _).past _).past _)).bind
          fun _ _ _ follower => ih follower
      · exact .pure follower.shown

/-- A new concept is denoted by a label of its own, or joins the sets of others. -/
theorem staysHeaded_conceptLabels (fresh : reader.Fresh pinned concept) :
    StaysHeaded pinned (conceptLabels concept) reader fun _ later =>
      later.model.IsShown concept := by
  refine .past .peek fun token rest => ?_
  split
  · next label =>
    refine .labels ?_
    split
    · exact .fail
    · refine .past .advance fun _ _ => ?_
      refine (StaysHeaded.bindLabel fun headed => headed.bind label ?_ ?_).mono
        fun _ later _ same => ?_
      · rintro _ ⟨⟩
        exact ((fresh.past _).past _).isHead
      · rintro _ ⟨⟩
      · subst same
        exact fresh.shown
  · exact .past .get fun _ _ => staysHeaded_boundLabels ((fresh.past _).past _).toFollower _

end Labels

/-! ## Types -/

theorem presents_conceptTypeNamed (found : Located) (label : String) :
    Presents pinned known (conceptTypeNamed setting found label) fun _ => [] := by
  refine .past .model fun model => ?_
  dsimp only
  split
  · exact .nothing
  · refine .ite ?_ .failAt
    split
    · exact .bind (.edit fun _ _ => .of_eq rfl rfl rfl) fun _ => .nothing
    · exact .throw

theorem presents_relationTypeNamed (found : Located) (label : String) :
    Presents pinned known (relationTypeNamed setting found label) fun _ => [] := by
  refine .past .model fun model => ?_
  dsimp only
  split
  · exact .nothing
  · refine .ite ?_ .failAt
    split
    · exact .bind (.edit fun _ _ => .of_eq rfl rfl rfl) fun _ => .nothing
    · exact .throw

theorem presents_parameter : Presents pinned known (parameter setting) fun _ => [] := by
  refine .past .peek fun token => ?_
  split
  · refine .past (.located 0) fun _ => .past .advance fun _ =>
      (presents_conceptTypeNamed _ _).bind fun _ => .past .peek fun token => ?_
    split
    · exact .past (.located 0) fun _ => .past .advance fun _ => .nothing
    · exact .fail
  · exact .fail

theorem presents_parameters (tokens : Nat) :
    Presents pinned known (parameters setting tokens) fun _ => [] := by
  induction tokens with
  | zero => exact presents_parameter.bind fun _ => .nothing
  | succ tokens ih =>
      exact presents_parameter.bind fun _ => .past (.eat _) fun _ =>
        .ite (ih.bind fun _ => .nothing) .nothing

/-- What is read inside a bracket keeps the arena headed. -/
structure InsidePresents (pinned : ConceptId → Prop) (inside : Inside) : Prop where
  concept : ∀ home known, Presents pinned known (inside.concept home) Option.toList
  lambda : ∀ known, Presents pinned known inside.lambda fun _ => []
  items : ∀ graph known, Presents pinned known (inside.items graph) fun _ => []

/-- What is read where there is room keeps the arena headed. -/
def RoomPresents (pinned : ConceptId → Prop) (room : Option Inside) : Prop :=
  ∀ inside, room = some inside → InsidePresents pinned inside

theorem presents_newGraph (owner : Option ConceptId) :
    Presents pinned known (make (·.newGraph owner)) fun _ => [] :=
  .make fun _ _ => .of_eq rfl rfl rfl

theorem presents_definitionBody {inside : Inside} (presents : InsidePresents pinned inside)
    (declared : List Declared) :
    Presents pinned known (definitionBody inside declared) fun _ => [] := by
  refine .past .peek fun _ => .ite ?_ ?_
  · exact (presents_newGraph none).bind fun graph => (presents.items graph _).bind fun _ =>
      .past (.mapM _ fun _ => passes_linkParameter _ _) fun _ => .nothing
  · exact .past (.mapM _ fun _ => passes_linkParameter _ _) fun _ => .nothing

theorem presents_lambda (presents : RoomPresents pinned room) :
    Presents pinned known (lambda setting room) fun _ => [] :=
  .descend fun inside entered => .past (.expect _ _) fun _ => .past (.expect _ _) fun _ =>
    .past (.expect _ _) fun _ => .past .get fun _ => (presents_parameters _).bind fun _ =>
      .past (.expect _ _) fun _ =>
        (Presents.inContext (presents_definitionBody (presents inside entered) _)).bind fun _ =>
          .past (.expect _ _) fun _ => .nothing

theorem presents_conceptType {lambda : Read Definition}
    (presents : ∀ known, Presents pinned known lambda fun _ => []) :
    Presents pinned known (conceptType setting lambda) fun _ => [] := by
  refine .past .peek fun token => ?_
  split
  · exact .past (.located 0) fun _ => .past .advance fun _ =>
      (presents_conceptTypeNamed _ _).bind fun _ => .nothing
  · refine .past (passes_lambdaAhead 0) fun _ => .ite ?_ .nothing
    exact .past (.located 0) fun _ => (presents _).bind fun _ => .ite .failAt
      (.bind (.make fun _ _ => .of_eq rfl rfl rfl) fun _ => .nothing)

theorem presents_relationType {lambda : Read Definition}
    (presents : ∀ known, Presents pinned known lambda fun _ => []) :
    Presents pinned known (relationType setting lambda) fun _ => [] := by
  refine .past .peek fun token => ?_
  split
  · exact .past (.located 0) fun _ => .past .advance fun _ => presents_relationTypeNamed _ _
  · exact (presents _).bind fun _ => .make fun _ _ => .of_eq rfl rfl rfl

/-! ## Concepts -/

theorem presents_markerOf (digits : Option String) :
    Presents pinned known (markerOf digits) fun _ => [] := by
  cases digits with
  | none =>
      have fresh : Presents pinned known (make Model.newMarker) fun _ => [] :=
        .make fun _ _ => .of_eq rfl rfl rfl
      exact fresh
  | some foreign =>
      intro reader _ headed
      have aside : reader.model.Aside (reader.markers.markerFor foreign reader.model).2.2 := by
        unfold MarkerTable.markerFor
        split
        · exact .of_eq rfl rfl rfl
        · exact .of_eq rfl rfl rfl
      obtain ⟨kept, reveals⟩ := headed.aside aside
      exact ⟨{ kept with }, reveals, .intro fun _ _ _ => by simp⟩

theorem presents_designatorOf (found : Located) :
    Presents pinned known (designatorOf found) fun _ => [] := by
  unfold designatorOf
  split
  · exact .nothing
  · exact .nothing
  · exact .nothing
  · exact .nothing
  · exact .nothing
  · exact (presents_markerOf _).bind fun _ => .nothing
  · refine .past (passes_definingConcept? _) fun concept => ?_
    split
    · exact .nothing
    · exact .failAt
  · exact .nothing

theorem presents_designator : Presents pinned known designator fun _ => [] :=
  .past (.eat _) fun _ => .ite (.past passes_encodedLiteral fun _ => .nothing)
    (.past (.located 0) fun _ => (presents_designatorOf _).bind fun _ =>
      .ite (.past .advance fun _ => .nothing) .nothing)

theorem presents_descriptor {inside : Inside} (presents : InsidePresents pinned inside)
    (owner : ConceptId) : Presents pinned known (descriptor inside owner) fun _ => [] :=
  .past .peek fun _ => .ite
    ((presents_newGraph _).bind fun graph =>
      (Presents.inContext (presents.items graph _)).bind fun _ => .nothing)
    .nothing

theorem presents_referent {inside : Inside} (presents : InsidePresents pinned inside)
    (concept : ConceptId) : Presents pinned known (referent inside concept) fun _ => [] :=
  .past passes_quantifier fun _ => presents_designator.bind fun _ =>
    (presents_descriptor presents concept).bind fun _ =>
      .ite .nothing (.edit fun _ _ => .setReferent)

/-- A concept after its labels. -/
theorem presents_closes {inside : Inside} (presents : InsidePresents pinned inside)
    (concept : ConceptId) :
    Presents pinned [concept] (do
      referent inside concept
      if let some comment ← nodeComment .concept then
        edit (·.modifyConcept concept fun data => { data with comment := some comment })
      expect (.punct .rightBracket) .conceptClosing
      return concept) fun concept => [concept] := by
  refine (presents_referent presents concept).bind fun _ =>
    .past (passes_nodeComment _) fun comment => ?_
  split
  · exact .bind (.edit fun _ _ => .modifyConcept fun _ => rfl) fun _ =>
      .past (.expect _ _) fun _ => .pure (by simp)
  · exact .past (.expect _ _) fun _ => .pure (by simp)

theorem presents_conceptBody {inside : Inside} (presents : InsidePresents pinned inside)
    (home : Option GraphId) :
    Presents pinned known (conceptBody setting inside home) fun concept => [concept] := by
  refine (presents_conceptType presents.lambda).bind fun type reader _ => ?_
  refine (staysHeaded_newConcept type).bind fun concept _ _ fresh => ?_
  cases home
  case' some graph => refine (staysHeaded_addConcept fresh).bind fun _ _ _ fresh => ?_
  all_goals
    refine .past (.eat _) fun _ _ => (staysHeaded_conceptLabels (fresh.past _)).bind
      fun _ later _ shown => ?_
    exact presents_closes presents concept later (by simpa using shown)

theorem presents_concept (presents : RoomPresents pinned room) (home : Option GraphId) :
    Presents pinned known (concept setting room home) Option.toList := by
  refine .past .peek fun token => .past (.ahead 1) fun second => ?_
  split
  · exact .pure (by simp)
  · exact .past (.located 1) fun _ => .failAt
  · exact .past (.located 1) fun _ => .failAt
  · exact .descend fun inside entered => .past .advance fun _ =>
      (presents_conceptBody (presents inside entered) home).bind fun _ => .pure (by simp)
  · exact .pure (by simp)

/-! ## Relations and actors -/

section Arguments

variable {concept : Option GraphId → Read (Option ConceptId)}

theorem presents_arc (presents : ∀ home known, Presents pinned known (concept home) Option.toList)
    (home : Option GraphId) : Presents pinned known (arc concept home) Option.toList := by
  refine .past .peek fun token => ?_
  split
  · exact .past (.located 0) fun _ => .past .advance fun _ =>
      (presents_resolve _ _ _).bind fun _ => .pure (by simp)
  · exact presents home known
  · exact .pure (by simp)

theorem presents_arcs (presents : ∀ home known, Presents pinned known (concept home) Option.toList)
    (home : Option GraphId) (tokens : Nat) :
    Presents pinned known (arcs concept home tokens) fun arguments => arguments := by
  induction tokens generalizing known with
  | zero => exact .pure (by simp)
  | succ tokens ih =>
      refine (presents_arc presents home).bind fun argument => ?_
      split
      · exact ih.bind fun others => .pure (by simp)
      · exact .pure (by simp)

end Arguments

/-- An actor takes what is shown. -/
theorem presents_makeRelation (found : Located) (type : RelationType) {args : List ConceptId}
    {role : RelationRole} (comment : Option String) (among : role ≠ .relation → args ⊆ known) :
    Presents pinned known (makeRelation found type args role comment) fun _ => [] :=
  .past (passes_checkValence _ _ _) fun _ =>
    .bind (.make fun _ shown => .newRelation fun active argument member =>
      shown argument (among active member)) fun _ =>
        .bind (.edit fun _ _ => .modifyRelation (fun _ => rfl) fun _ => rfl) fun _ => .nothing

theorem presents_relation (presents : RoomPresents pinned room) (home : Option GraphId) :
    Presents pinned known (relation setting room home) fun _ => [] := by
  refine .past .peek fun token => .past (passes_relationTypeAhead 1) fun _ => .ite ?_ .nothing
  exact .descend fun inside entered => .past (.located 0) fun _ => .past .advance fun _ =>
    (presents_relationType (presents inside entered).lambda).bind fun _ => .past .get fun _ =>
      (presents_arcs (presents inside entered).concept _ _).bind fun _ =>
        .past (passes_nodeComment _) fun _ => .past (.expect _ _) fun _ =>
          (presents_makeRelation _ _ _ (absurd rfl)).bind fun _ => .nothing

theorem presents_actorBody {inside : Inside} (presents : InsidePresents pinned inside)
    (found : Located) (home : Option GraphId) :
    Presents pinned known (actorBody setting inside found home) fun _ => [] := by
  have body : Presents pinned known (do
      let type ← relationType setting inside.lambda
      let inputs ← arcs inside.concept home (← get).rest.length
      expect (.punct .bar) .actorBar
      let outputs ← arcs inside.concept home (← get).rest.length
      let comment ← nodeComment .actor
      expect (.punct .rightAngle) .actorClosing
      makeRelation found type (inputs ++ outputs) (.actor inputs.length) comment) fun _ => [] :=
    (presents_relationType presents.lambda).bind fun _ => .past .get fun _ =>
      (presents_arcs presents.concept _ _).bind fun _ => .past (.expect _ _) fun _ =>
        .past .get fun _ => (presents_arcs presents.concept _ _).bind fun _ =>
          .past (passes_nodeComment _) fun _ => .past (.expect _ _) fun _ =>
            presents_makeRelation _ _ _ fun _ => by
              intro argument member
              simp only [List.mem_append] at member ⊢
              exact member.elim (fun input => .inr (.inl input)) .inl
  exact .past (passes_relationTypeAhead 0) fun _ =>
    .ite body (.past (.fail nofun) fun _ => body)

theorem presents_actor (presents : RoomPresents pinned room) (home : Option GraphId) :
    Presents pinned known (actor setting room home) fun _ => [] :=
  .past .peek fun _ => .ite
    (.descend fun inside entered => .past (.located 0) fun _ => .past .advance fun _ =>
      (presents_actorBody (presents inside entered) _ _).bind fun _ => .nothing)
    .nothing

/-! ## Items of the interchange form -/

theorem presents_contextBody {inside : Inside} (presents : InsidePresents pinned inside)
    (graph : GraphId) (label : ContextLabel) :
    Presents pinned known (contextBody inside graph label) fun _ => [] := by
  refine .past (.eat _) fun _ => .bind (.make fun _ _ => .newConcept none) fun concept =>
    .bind (.edit fun _ _ => .addConcept) fun _ =>
      .bind (.edit fun _ _ => .modifyConcept fun _ => rfl) fun _ =>
        (presents_descriptor presents _).bind fun body => ?_
  split
  · exact .bind (.edit fun _ _ => .setReferent) fun _ => .past (.expect _ _) fun _ => .nothing
  · exact .past (.expect _ _) fun _ => .nothing

theorem presents_specialContext (presents : RoomPresents pinned room) (graph : GraphId) :
    Presents pinned known (specialContext setting room graph) fun _ => [] := by
  refine .past .peek fun token => .past (.ahead 1) fun second => ?_
  split
  · exact .past (.located 1) fun _ => .failAt
  · exact .descend fun inside entered => .past .advance fun _ => .past .advance fun _ =>
      (presents_contextBody (presents inside entered) _ _).bind fun _ => .nothing
  · exact .nothing

theorem presents_negationType : Presents pinned known negationType fun _ => [] := by
  refine .past .model fun model => ?_
  dsimp only
  split
  · exact .nothing
  · split
    · exact .bind (.edit fun _ _ => .of_eq rfl rfl rfl) fun _ => .nothing
    · exact .throw

theorem presents_negationBody {inside : Inside} (presents : InsidePresents pinned inside)
    (graph : GraphId) : Presents pinned known (negationBody inside graph) fun _ => [] := by
  refine .conceal fun concept => (presents_descriptor presents concept).bind fun body => ?_
  have rest (body : GraphId) : Presents pinned known (do
      edit (·.setReferent concept { descriptor := some body })
      expect (.punct .rightBracket) .negationClosing
      let type ← negationType
      make (·.newRelation (some type) [concept] .relation)) fun _ => [] :=
    .bind (.edit fun _ _ => .setReferent) fun _ => .past (.expect _ _) fun _ =>
      presents_negationType.bind fun _ => .make fun _ _ => .newRelation (absurd rfl)
  split
  · exact rest _
  · exact (presents_newGraph _).bind fun _ => rest _

theorem presents_negation (presents : RoomPresents pinned room) (graph : GraphId) :
    Presents pinned known (negation setting room graph) fun _ => [] := by
  refine .past .peek fun token => .past (.ahead 1) fun second => ?_
  split
  · exact .descend fun inside entered => .past .advance fun _ => .past .advance fun _ =>
      (presents_negationBody (presents inside entered) _).bind fun _ => .nothing
  · exact .past (.located 1) fun _ => .failAt
  · exact .nothing

theorem presents_relationInto {production : Read (Option RelationId)}
    (presents : Presents pinned known production fun _ => []) (graph : GraphId) :
    Presents pinned known (relationInto graph production) fun _ => [] := by
  refine presents.bind fun relation => ?_
  split
  · exact .bind (.edit fun _ _ => .addRelation) fun _ => .nothing
  · exact .nothing

theorem presents_graphComment (graph : GraphId) :
    Presents pinned known (graphComment graph) fun _ => [] := by
  refine .past .peek fun token => ?_
  split
  · exact .past .advance fun _ => .bind (.edit fun _ _ => .of_eq rfl rfl rfl) fun _ => .nothing
  · exact .nothing

/-- The alternatives keep heads together. -/
theorem presents_firstOf {productions : List (Read Bool)}
    (presents : ∀ production ∈ productions, Presents pinned known production fun _ => []) :
    Presents pinned known (firstOf productions) fun _ => [] := by
  induction productions with
  | nil => exact .nothing
  | cons production others ih =>
      exact (presents _ List.mem_cons_self).bind fun _ =>
        .ite .nothing (ih fun other member => presents other (List.mem_cons_of_mem _ member))

theorem presents_bracketItems (presents : RoomPresents pinned room) (graph : GraphId)
    (tokens : Nat) :
    Presents pinned known (bracketItems setting room graph tokens) fun _ => [] := by
  have productions : ∀ production ∈ bracketProductions setting room graph,
      Presents pinned known production fun _ => [] := by
    simp only [bracketProductions, List.forall_mem_cons, List.not_mem_nil, false_implies,
      implies_true, and_true]
    exact ⟨(presents_concept presents _).bind fun _ => .nothing,
      (presents_specialContext presents _).bind fun _ => .nothing,
      presents_relationInto (presents_negation presents _) _,
      presents_relationInto (presents_relation presents _) _,
      presents_relationInto (presents_actor presents _) _, presents_graphComment _⟩
  induction tokens with
  | zero => exact .nothing
  | succ tokens ih => exact (presents_firstOf productions).bind fun _ => .ite ih .nothing

/-! ## Statements of the linear form -/

theorem presents_target (presents : RoomPresents pinned room) (graph : GraphId) :
    Presents pinned known (target setting room graph) fun _ => [] := by
  refine (presents_arc (fun _ _ => presents_concept presents _) _).bind fun concept => ?_
  split
  · exact .nothing
  · exact .fail

theorem presents_relationNode (presents : RoomPresents pinned room) :
    Presents pinned known (relationNode setting room) fun _ => [] :=
  .past passes_relationNodeAhead fun _ => .ite
    (.past (.located 0) fun _ => .past .advance fun _ =>
      (presents_relationType fun _ => presents_lambda presents).bind fun _ =>
        .past (passes_nodeComment _) fun _ => .past (.expect _ _) fun _ => .nothing)
    .fail

theorem presents_connect (graph : GraphId) (node : RelationNode) (args : List ConceptId) :
    Presents pinned known (connect graph node args) fun _ => [] :=
  (presents_makeRelation _ _ _ (absurd rfl)).bind fun _ => .edit fun _ _ => .addRelation

/-- Chains and the fans in them keep heads together, since each goes on with the other. -/
theorem presents_chains (presents : RoomPresents pinned room) (graph : GraphId) (steps : Nat) :
    (∀ known head, Presents pinned known (chainTail setting room graph steps head) fun _ => []) ∧
      ∀ known head first,
        Presents pinned known (fan setting room graph steps head first) fun _ => [] := by
  -- The fuel is that of chains and fans together, since either may go on with the other.
  induction steps with
  | zero =>
      constructor
      · intro known head
        unfold chainTail
        exact .nothing
      · intro known head first
        unfold fan
        exact .nothing
  | succ steps ih =>
      obtain ⟨tails, fans⟩ := ih
      constructor
      · intro known head
        unfold chainTail
        refine .past passes_refuseNumberedArc fun _ => .past passes_arrowAhead fun arrow => ?_
        split
        · refine .past .advance fun _ => (presents_relationNode presents).bind fun _ =>
            .past passes_refuseNumberedArc fun _ => .past passes_arrowAhead fun arrow => ?_
          split
          · exact presents_connect _ _ _
          · next into _ node _ _ _ =>
            have goesOn : Presents pinned ([] ++ known) (do
                let next ← target setting room graph
                connect graph node (into.order head next)
                chainTail setting room graph steps next) fun _ => [] :=
              (presents_target presents _).bind fun next =>
                (presents_connect _ _ _).bind fun _ => tails _ next
            exact .past (.located 0) fun _ => .past .advance fun _ =>
              .ite (.past (Looks.failAt _ (by decide)).passes fun _ => goesOn) goesOn
        · exact .past (.eat _) fun _ => .ite (fans _ _ _) .nothing
      · intro known head first
        unfold fan
        refine .past passes_refuseNumberedArc fun _ => .past passes_relationNodeAhead fun _ =>
          .ite ((presents_relationNode presents).bind fun node =>
            .past passes_refuseNumberedArc fun _ => .past passes_arrowAhead fun arrow => ?_)
            (.ite .fail (.past (.eat _) fun _ => .nothing))
        split
        · exact .past .advance fun _ => (presents_target presents _).bind fun next =>
            (presents_connect _ _ _).bind fun _ => (tails _ next).bind fun _ => fans _ _ _
        · exact (presents_connect _ _ _).bind fun _ => fans _ _ _

theorem presents_tail (presents : RoomPresents pinned room) (graph : GraphId) (head : ConceptId) :
    Presents pinned known (tail setting room graph head) fun _ => [] :=
  .past .get fun _ => (presents_chains presents graph _).1 _ head

theorem presents_chain (presents : RoomPresents pinned room) (graph : GraphId) :
    Presents pinned known (chain setting room graph) fun _ => [] :=
  (presents_target presents graph).bind fun _ => presents_tail presents _ _

theorem presents_relationChain (presents : RoomPresents pinned room) (graph : GraphId) :
    Presents pinned known (relationChain setting room graph) fun _ => [] := by
  refine (presents_relationNode presents).bind fun node => .past passes_refuseNumberedArc fun _ =>
    .past passes_arrowAhead fun arrow => ?_
  split
  · exact presents_connect _ _ _
  · exact .past .advance fun _ => (presents_target presents _).bind fun _ =>
      (presents_connect _ _ _).bind fun _ => presents_tail presents _ _

theorem presents_statement (presents : RoomPresents pinned room) (graph : GraphId) :
    Presents pinned known (statement setting room graph) fun _ => [] := by
  refine .past .peek fun token => ?_
  split
  · exact (presents_chain presents _).bind fun _ => .nothing
  · exact (presents_chain presents _).bind fun _ => .nothing
  · exact presents_relationInto (presents_negation presents _) _
  · exact .past passes_relationNodeAhead fun _ =>
      .ite ((presents_relationChain presents _).bind fun _ => .nothing) .nothing
  · exact presents_relationInto (presents_actor presents _) _
  · exact .nothing

theorem presents_statements (presents : RoomPresents pinned room) (graph : GraphId)
    (tokens : Nat) :
    Presents pinned known (statements setting room graph tokens) fun _ => [] := by
  induction tokens with
  | zero => exact .nothing
  | succ tokens ih =>
      exact (presents_graphComment _).bind fun _ => .ite ih
        ((presents_statement presents _).bind fun _ =>
          .ite (.past passes_statementEnd fun _ => ih) .nothing)

/-! ## Nesting -/

theorem presents_items (presents : RoomPresents pinned room) (graph : GraphId) :
    Presents pinned known (items setting room graph) fun _ => [] := by
  refine .past .get fun reader => ?_
  dsimp only
  split
  · exact presents_bracketItems presents _ _
  · exact presents_statements presents _ _

theorem roomPresents (brackets : Nat) : RoomPresents pinned (roomFor setting brackets) := by
  induction brackets with
  | zero => exact nofun
  | succ brackets ih =>
      rintro inside ⟨⟩
      exact ⟨fun home _ => presents_concept ih home, fun _ => presents_lambda ih,
        fun graph _ => presents_items ih graph⟩

theorem presents_graphInto (graph : GraphId) :
    Presents pinned known (graphInto setting graph) fun _ => [] :=
  (presents_items (roomPresents _) graph).bind fun _ reader _ =>
    (StaysHeaded.passes passes_textEnd).mono fun _ _ _ _ => by simp

theorem presents_single {what : Expected} {production : Read (Option α)}
    (presents : Presents pinned known production fun _ => []) :
    Presents pinned known (single setting what production) fun _ => [] := by
  refine presents.bind fun found => ?_
  split
  · exact .past passes_textEnd fun _ => .nothing
  · exact .fail

end Read

/-! ## One reading -/

namespace Session

variable {α : Type} {pinned : ConceptId → Prop} {session : Session} {model : Model}
  {form : Notation} {source : String} {home : Option GraphId}

/-- A reading leaves labels that denote heads and sets, whether it succeeds or fails. -/
theorem heads_read {production : Setting → Read α} (session : Session) (form : Notation)
    (source : String)
    (presents : ∀ setting, Read.Presents pinned [] (production setting) fun _ => [])
    (heads : session.labels.Heads pinned model) :
    let reading := session.read model form source production
    reading.session.labels.Heads pinned reading.model := by
  intro reading
  subst reading
  unfold Session.read
  dsimp only
  split
  · exact heads
  · next stop scanned =>
    let reader : Reader :=
      { rest := (Scan.ofText form source).tokens, stop, model, labels := session.labels,
        markers := session.markers }
    have kept := presents { form, options := session.options } reader (by simp) heads
    split
    · next value later ran =>
      rw [Read.final_of_ok ran] at kept
      exact kept.1
    · next error later ran =>
      rw [Read.final_of_error ran] at kept
      exact kept.1

/-- A text of its own leaves the heads of sets with the labels of the session. -/
theorem heads_parseOutermostGraph (heads : session.labels.Heads pinned model) :
    let reading := session.parseOutermostGraph model form source
    reading.session.labels.Heads pinned reading.model := by
  have made : model.Aside (model.newGraph none).2 := .of_eq rfl rfl rfl
  rw [parseOutermostGraph_scoped]
  exact heads_read session form source
    (fun _ => (Read.presents_graphInto _).bind fun _ => .nothing)
    ⟨heads.arena.aside made, heads.sets⟩

/-- A relation that is put into its graph leaves the heads of sets. -/
theorem heads_into {reading : Reading RelationId}
    (heads : reading.session.labels.Heads pinned reading.model) :
    (reading.into home).session.labels.Heads pinned (reading.into home).model := by
  unfold Reading.into
  split
  · next relation graph result =>
    have put : reading.model.Aside (reading.model.addRelation graph relation) := .addRelation
    exact ⟨heads.arena.aside put, fun label set bound =>
      Nat.lt_of_lt_of_le (heads.sets label set bound) put.reveals.sets⟩
  · exact heads

/-- So does every call that reads a text. -/
theorem Call.heads_after (call : Call) (heads : session.labels.Heads pinned model) :
    (call.after session model form source).1.labels.Heads pinned
      (call.after session model form source).2 := by
  cases call with
  | graph =>
      let inside := { session with labels := session.labels.push }
      have read : (inside.parseOutermostGraph model form source).session.labels.Heads pinned _ :=
        heads_parseOutermostGraph heads.push
      exact read.pop
  | outermostGraph => exact heads_parseOutermostGraph heads
  | concept home =>
      unfold Call.after
      dsimp only
      rw [parseConcept_scoped]
      exact heads_read session form source (fun _ => Read.presents_single
        (Read.presents_concept (Read.roomPresents _) home).hide) heads
  | relation home =>
      unfold Call.after
      dsimp only
      rw [parseRelation_scoped]
      exact heads_into (heads_read session form source (fun _ => Read.presents_single
        (Read.presents_relation (Read.roomPresents _) home)) heads)
  | actor home =>
      unfold Call.after
      dsimp only
      rw [parseActor_scoped]
      exact heads_into (heads_read session form source (fun _ => Read.presents_single
        (Read.presents_actor (Read.roomPresents _) home)) heads)

end Session

/-! ## Any number of readings -/

namespace Model

variable {sessions : Nat → Session} {model : Model}

/-- What readings make of an arena in which there is nothing yet but a hierarchy.  Any number of
sessions share it; a session may get other options or be replaced by a new one, a call may read
into a graph that exists, and readings that fail are among them. -/
inductive ParseBuilt : (Nat → Session) → Model → Prop
  | start (hierarchy : Hierarchy) : ParseBuilt (fun _ => {}) { hierarchy }
  | read {sessions : Nat → Session} {model : Model} (number : Nat) (call : Session.Call)
      (form : Notation) (source : String) (offers : model.Offers call.home)
      (built : ParseBuilt sessions model) :
      ParseBuilt
        (Function.update sessions number (call.after (sessions number) model form source).1)
        (call.after (sessions number) model form source).2
  | configure {sessions : Nat → Session} {model : Model} (number : Nat) (options : Options)
      (built : ParseBuilt sessions model) :
      ParseBuilt (Function.update sessions number { sessions number with options }) model
  | renew {sessions : Nat → Session} {model : Model} (number : Nat) (options : Options)
      (built : ParseBuilt sessions model) :
      ParseBuilt (Function.update sessions number (.withOptions options)) model

/-- What is known of an arena and of the labels of the sessions that share it. -/
structure Shared (sessions : Nat → Session) (model : Model) : Prop where
  wellFormed : model.WellFormed
  agree : model.Mutual
  headed : model.Headed fun concept => ∃ number, (sessions number).labels.Denotes concept
  known : ∀ number, (sessions number).labels.Known model

/-- Sessions that have read nothing share any arena. -/
theorem Shared.start (hierarchy : Hierarchy) : Shared (fun _ => {}) { hierarchy } where
  wellFormed := WellFormed.empty.elsewhere hierarchy 0
  agree := .start hierarchy
  headed := by
    refine ⟨?_, ?_, ?_, ?_⟩
    · rintro concept ⟨_, _, ⟨⟩⟩
    · rintro set ⟨⟩
    · rintro set concept ⟨⟩
    · rintro relation ⟨⟩
  known _ := .empty

/-- A session that goes on from its arena takes the place of the one before. -/
theorem Shared.update {later : Model} (shared : Shared sessions model) (number : Nat)
    {session : Session} (wellFormed : later.WellFormed)
    (onward : model.Onward session.labels later)
    (heads : session.labels.Heads
      (fun concept => ∃ number, (sessions number).labels.Denotes concept) later) :
    Shared (Function.update sessions number session) later where
  wellFormed := wellFormed
  agree := onward.agree
  headed := by
    refine heads.arena.mono ?_
    rintro concept ⟨other, denotes⟩
    by_cases same : other = number
    · subst same
      rw [Function.update_self] at denotes
      exact .inr denotes
    · rw [Function.update_of_ne same] at denotes
      exact .inl ⟨other, denotes⟩
  known other := by
    by_cases same : other = number
    · subst same
      rw [Function.update_self]
      exact onward.known
    · rw [Function.update_of_ne same]
      exact (shared.known other).mono onward.concepts onward.sets

/-- What a session denotes is denoted by one of the sessions. -/
theorem Shared.heads (shared : Shared sessions model) {table : LabelTable} (number : Nat)
    (fewer : table.scope ⊆ (sessions number).labels.scope) :
    table.Heads (fun concept => ∃ number, (sessions number).labels.Denotes concept) model where
  arena := shared.headed.mono fun _ claim => claim.elim id fun ⟨label, member⟩ =>
    ⟨number, label, fewer member⟩
  sets label set member := shared.known number label (.set set) (fewer member)

/-- What is built by readings alone has sessions that share its arena. -/
theorem ParseBuilt.shared (built : ParseBuilt sessions model) : Shared sessions model := by
  induction built with
  | start hierarchy => exact .start hierarchy
  | @read sessions model number call form source offers _ ih =>
      have heads : (sessions number).labels.Heads _ model := ih.heads number (List.Subset.refl _)
      exact ih.update number (call.wellFormed_after ih.wellFormed offers)
        (call.onward_after form source ih.agree (ih.known number)) (call.heads_after heads)
  | @configure sessions model number options _ ih =>
      exact ih.update number ih.wellFormed (.refl ih.agree (ih.known number))
        (ih.heads number (List.Subset.refl _))
  | renew number options _ ih =>
      exact ih.update number ih.wellFormed (.refl ih.agree .empty)
        (ih.heads number (List.nil_subset _))

end Model

end ConceptualGraph
