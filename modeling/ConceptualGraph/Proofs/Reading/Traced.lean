/-
Module: ConceptualGraph.Proofs.Reading.Traced
Purpose: Every production is made of moves, whether it succeeds or fails, and every error comes
  from a juncture where reading is refused to go on.
Main exports: Read.Traced, Read.Traced.bind, Read.traced_items, Read.roomTraced,
  Read.traced_graphInto, Read.traced_single
-/
import ConceptualGraph.Proofs.Label.Names
import ConceptualGraph.Proofs.Lattice.Additions
import ConceptualGraph.Proofs.Reading.Shelter

section

open Relation (ReflTransGen)

namespace ConceptualGraph

/-! ## Texts without definitions -/

/-- Whether a definition begins nowhere among tokens. -/
def Read.DefinitionFree (tokens : List Located) : Prop :=
  ¬[.punct .leftParen, .keyword .lambda] <:+: tokens.map Located.token

instance (tokens : List Located) : Decidable (Read.DefinitionFree tokens) :=
  inferInstanceAs (Decidable ¬_)

theorem Read.DefinitionFree.of_suffix {tokens rest : List Located}
    (free : Read.DefinitionFree tokens) (suffix : rest <:+ tokens) : Read.DefinitionFree rest :=
  fun begins => free (begins.trans (suffix.map _).isInfix)

/-- Whether no definition begins among the tokens of a juncture, and all that labels denote is
anchored in the graphs that are being read. -/
structure Juncture.Plain (juncture : Juncture) : Prop extends juncture.Sheltered where
  free : Read.DefinitionFree juncture.reader.rest

theorem Juncture.Leads.plain {setting : Setting} {defines : Prop} {juncture later : Juncture}
    (leads : Leads setting defines juncture later) (without : ¬defines)
    (plain : juncture.Plain) : later.Plain where
  toSheltered := leads.sheltered without plain.toSheltered
  free := plain.free.of_suffix leads.rest

namespace Read

variable {α β : Type} {step other : Read α} {next : α → Read β}

/-! ## Steps that are made of moves -/

variable {setting : Setting} {defines : Prop} {homes inner : List (Option GraphId)}
  {home : Option GraphId} {reader entered : Reader} {post : α → Reader → Prop}
  {last : β → Reader → Prop}

/-- A step comes to moves that lead back to the graphs that were being read.  If it fails, it
does so at a juncture on the way.  Where definitions may not be entered, none may begin among the
tokens, and labels may denote only what is anchored. -/
def Traced (setting : Setting) (defines : Prop) (homes : List (Option GraphId)) (step : Read α)
    (reader : Reader) (post : α → Reader → Prop) : Prop :=
  (¬defines → Juncture.Plain ⟨homes, reader⟩) →
    match step reader with
    | .ok value later =>
        Juncture.Leads setting defines ⟨homes, reader⟩ ⟨homes, later⟩ ∧ post value later
    | .error error later => ∃ stuck, Juncture.Leads setting defines ⟨homes, reader⟩ stuck ∧
        stuck.Refused setting error ∧ Juncture.Leads setting defines stuck ⟨homes, later⟩

namespace Traced

theorem of_ok (traced : Traced setting defines homes step reader post)
    (plain : ¬defines → Juncture.Plain ⟨homes, reader⟩) {value : α} {later : Reader}
    (ran : step reader = .ok value later) :
    Juncture.Leads setting defines ⟨homes, reader⟩ ⟨homes, later⟩ ∧ post value later := by
  simpa [ran] using traced plain

theorem of_error (traced : Traced setting defines homes step reader post)
    (plain : ¬defines → Juncture.Plain ⟨homes, reader⟩) {error : Error} {later : Reader}
    (ran : step reader = .error error later) :
    ∃ stuck, Juncture.Leads setting defines ⟨homes, reader⟩ stuck ∧
      stuck.Refused setting error ∧ Juncture.Leads setting defines stuck ⟨homes, later⟩ := by
  simpa [ran] using traced plain

/-- A trace has every postcondition that is weaker than its own. -/
theorem mono {weaker : α → Reader → Prop} (traced : Traced setting defines homes step reader post)
    (weaken : ∀ value later, post value later → weaker value later) :
    Traced setting defines homes step reader weaker := by
  intro plain
  cases ran : step reader with
  | ok value later =>
      have ⟨path, holds⟩ := traced.of_ok plain ran
      exact ⟨path, weaken value later holds⟩
  | error error later => exact traced.of_error plain ran

theorem trivial (traced : Traced setting defines homes step reader post) :
    Traced setting defines homes step reader fun _ _ => True :=
  traced.mono fun _ _ _ => True.intro

/-- Steps that are traced one after the other are traced as one, through the moves of both. -/
theorem bind (first : Traced setting defines homes step reader post)
    (others : ∀ value later, reader.model.Endures later.model → post value later →
      Traced setting defines homes (next value) later last) :
    Traced setting defines homes (step >>= next) reader last := by
  intro plain
  cases ran : step reader with
  | error error later =>
      rw [bind_of_error ran]
      exact first.of_error plain ran
  | ok value later =>
      rw [bind_of_ok ran]
      have ⟨path, holds⟩ := first.of_ok plain ran
      have still : ¬defines → Juncture.Plain ⟨homes, later⟩ :=
        fun without => path.plain without (plain without)
      have goesOn := others value later path.endures holds
      cases went : next value later with
      | ok result final =>
          have ⟨further, holds⟩ := goesOn.of_ok still went
          exact ⟨path.trans further, holds⟩
      | error error final =>
          have ⟨stuck, before, refused, after⟩ := goesOn.of_error still went
          exact ⟨stuck, path.trans before, refused, after⟩

/-- Whatever is only known where definitions are excluded. -/
theorem assuming (traced : (¬defines → Juncture.Plain ⟨homes, reader⟩) →
    Traced setting defines homes step reader post) :
    Traced setting defines homes step reader post := fun plain => traced plain plain

/-- The moves to which a step comes when it succeeds. -/
theorem reached (traced : Traced setting defines homes step reader post) :
    Traced setting defines homes step reader fun value later =>
      Juncture.Leads setting defines ⟨homes, reader⟩ ⟨homes, later⟩ ∧ post value later := by
  intro plain
  cases ran : step reader with
  | ok value later =>
      have ⟨path, holds⟩ := traced.of_ok plain ran
      exact ⟨path, path, holds⟩
  | error error later => exact traced.of_error plain ran

/-- What a step ensures when it succeeds holds besides. -/
theorem and {also : α → Reader → Prop} (traced : Traced setting defines homes step reader post)
    (ensures : Ensures step reader also) :
    Traced setting defines homes step reader fun value later =>
      post value later ∧ also value later := by
  intro plain
  cases ran : step reader with
  | ok value later =>
      have ⟨path, holds⟩ := traced.of_ok plain ran
      exact ⟨path, holds, ensures.of_ok ran⟩
  | error error later => exact traced.of_error plain ran

/-- A step that only goes past tokens. -/
theorem of_passes (passes : Passes step) :
    Traced setting defines homes step reader fun _ later =>
      later.model = reader.model ∧ later.labels = reader.labels := by
  intro plain
  cases ran : step reader with
  | ok value later =>
      obtain ⟨rest, further, rfl⟩ := passes.of_ok ran
      exact ⟨.single (.past further), rfl, rfl⟩
  | error error later =>
      obtain ⟨⟨rest, further, rfl⟩, fault, found, rfl, otherwise⟩ := passes.of_error ran
      exact ⟨⟨homes, reader⟩, .refl, .fault otherwise, .single (.past further)⟩

/-- A step that only goes past tokens comes first. -/
theorem past (passes : Passes step)
    (others : ∀ value later, later.model = reader.model → later.labels = reader.labels →
      Traced setting defines homes (next value) later last) :
    Traced setting defines homes (step >>= next) reader last :=
  (of_passes passes).bind fun value later _ same => others value later same.1 same.2

theorem pure {value : α} (holds : post value reader) :
    Traced setting defines homes (pure value) reader post :=
  fun _ => ⟨.refl, holds⟩

theorem failAt {found : Located} {fault : ParseFault} (otherwise : fault.kind ≠ .coreference) :
    Traced setting defines homes (failAt found fault) reader post :=
  fun _ => ⟨_, .refl, .fault otherwise, .refl⟩

theorem fail {fault : ParseFault} (otherwise : fault.kind ≠ .coreference) :
    Traced setting defines homes (fail fault) reader post :=
  fun _ => ⟨_, .refl, .fault otherwise, .refl⟩

theorem refused {error : Error} (refused : Juncture.Refused setting ⟨homes, reader⟩ error) :
    Traced setting defines homes (throw error : Read α) reader post :=
  fun _ => ⟨_, .refl, refused, .refl⟩

theorem ite {condition : Prop} [Decidable condition]
    (yes : condition → Traced setting defines homes step reader post)
    (no : ¬condition → Traced setting defines homes other reader post) :
    Traced setting defines homes (if condition then step else other) reader post := by
  split
  · exact yes ‹_›
  · exact no ‹_›

/-- A step goes on as another one from a state to which moves lead. -/
theorem after (middle : Reader) (same : step reader = other middle)
    (path : Juncture.Leads setting defines ⟨homes, reader⟩ ⟨homes, middle⟩)
    (traced : Traced setting defines homes other middle post) :
    Traced setting defines homes step reader post := by
  intro plain
  have still : ¬defines → Juncture.Plain ⟨homes, middle⟩ :=
    fun without => path.plain without (plain without)
  rw [same]
  cases ran : other middle with
  | ok value later =>
      have ⟨further, holds⟩ := traced.of_ok still ran
      exact ⟨path.trans further, holds⟩
  | error error later =>
      have ⟨stuck, before, refused, after⟩ := traced.of_error still ran
      exact ⟨stuck, path.trans before, refused, after⟩

/-- A step that looks at the state comes first. -/
theorem see {value : α} (same : step reader = .ok value reader)
    (traced : Traced setting defines homes (next value) reader last) :
    Traced setting defines homes (step >>= next) reader last :=
  after reader (bind_of_ok same) .refl traced

theorem edit {change : Model → Model}
    (edited : reader.model.Edited setting home (change reader.model)) :
    Traced setting defines (home :: homes) (edit change) reader fun _ later =>
      later = reader.withModel (change reader.model) :=
  fun _ => ⟨.single (.edit edited), rfl⟩

theorem make {change : Model → α × Model}
    (edited : reader.model.Edited setting home (change reader.model).2) :
    Traced setting defines (home :: homes) (make change) reader fun value later =>
      value = (change reader.model).1 ∧ later = reader.withModel (change reader.model).2 :=
  fun _ => ⟨.single (.edit edited), rfl, rfl⟩

/-- Data that a concept carries are changed. -/
theorem annotate {concept : ConceptId} {change : Concept → Concept}
    (graph : ∀ data, (change data).graph = data.graph)
    (hidden : ∀ data, (change data).hidden = data.hidden)
    (type : ∀ data, (change data).type = data.type)
    (referent : ∀ data, (change data).referent = data.referent) :
    Traced setting defines (home :: homes) (Read.edit (·.modifyConcept concept change)) reader
      fun _ later => later = reader.withModel (reader.model.modifyConcept concept change) :=
  edit (.annotate graph hidden type referent)

/-- A concept of the graph that is being read gets its referent. -/
theorem refer {concept : ConceptId} {referent : Referent}
    (seated : reader.model.Seats home concept)
    (owned : ∀ graph, referent.descriptor = some graph →
      (reader.model.graph graph).owner = some concept)
    (anchored : ¬defines → ∀ target, referent.definedBy? = some target → ∀ graph,
      home = some graph → reader.model.Anchors graph target) :
    Traced setting defines (home :: homes) (Read.edit (·.setReferent concept referent)) reader
      fun _ later => later = reader.withModel (reader.model.setReferent concept referent) :=
  fun _ => ⟨.single (.refer seated owned anchored), rfl⟩

/-- A step runs in a context of its own, which is closed at its end. -/
theorem around {exit : Reader → Reader}
    (opens : Juncture.Leads setting defines ⟨homes, reader⟩ ⟨inner, entered⟩)
    (closes : ∀ later, Juncture.Leads setting defines ⟨inner, later⟩ ⟨homes, exit later⟩)
    (same : step reader = match other entered with
      | .ok value later => .ok value (exit later)
      | .error error later => .error error (exit later))
    (traced : Traced setting defines inner other entered
      fun value later => post value (exit later)) :
    Traced setting defines homes step reader post := by
  intro plain
  have still : ¬defines → Juncture.Plain ⟨inner, entered⟩ :=
    fun without => opens.plain without (plain without)
  rw [same]
  cases ran : other entered with
  | ok value later =>
      have ⟨path, holds⟩ := traced.of_ok still ran
      exact ⟨(opens.trans path).trans (closes later), holds⟩
  | error error later =>
      have ⟨stuck, before, refused, after⟩ := traced.of_error still ran
      exact ⟨stuck, opens.trans before, refused, after.trans (closes later)⟩

/-- What is traced inside a bracket is traced with the bracket. -/
theorem descend {room : Option Inside} {next : Inside → Read β}
    (others : ∀ inside, room = some inside →
      Traced setting defines homes (next inside) reader last) :
    Traced setting defines homes (descend setting room >>= next) reader last := by
  cases room with
  | none => exact fun _ => ⟨_, .refl, .fault nofun, .refl⟩
  | some inside => exact others inside rfl

end Traced

/-! ## Coreference -/

variable {room : Option Inside} {graph : GraphId} {concept : ConceptId}

/-- The set of a label is found, or one move promotes its concept. -/
theorem traced_setFor (found : Located) (label : String) :
    Traced setting defines homes (setFor found label) reader fun set later =>
      later.labels.target? label = some (.set set) := by
  refine .see (rfl : labels reader = .ok reader.labels reader) ?_
  split
  · next denotes => exact .pure denotes
  · next denotes =>
    exact fun _ => ⟨.single (.promote denotes),
      (LabelTable.target?_bind _ _ _ _).trans (if_pos rfl)⟩
  · exact .failAt nofun

theorem traced_join (found : Located) (label : String)
    (seated : reader.model.Seats home concept) :
    Traced setting defines (home :: homes) (join found label concept) reader fun _ _ => True := by
  refine (traced_setFor found label).bind fun set later endures denotes => ?_
  have seated := seated.persists endures.toPersists
  refine .see (rfl : model later = .ok later.model later) ?_
  split
  · next model added => exact fun _ => ⟨.single (.join denotes seated added), True.intro⟩
  · next cause refused => exact .refused (.coreference denotes seated refused)

/-- A concept is made, and put into the graph that is being read. -/
theorem Traced.place {next : ConceptId → Read β} (type : Option ConceptType)
    (others : ∀ concept later, later.model.Seats (some graph) concept →
      Traced setting defines (some graph :: homes) (next concept) later last) :
    Traced setting defines (some graph :: homes) (do
      let concept ← Read.make (·.newConcept type)
      Read.edit (·.addConcept graph concept)
      next concept) reader last := by
  refine (Traced.make (.concept type)).bind fun concept later _ made => ?_
  obtain ⟨rfl, rfl⟩ := made
  refine (Traced.edit (.place rfl ?_)).bind fun _ last _ same => others _ _ ?_
  · simp [Model.concept_newConcept]
  · rw [same]
    rintro _ ⟨⟩
    exact Model.graph_addConcept (by simp)

/-- A member of a set that is found is seated in the graph where it was looked for. -/
theorem traced_representative? (label : String) (defining : ConceptId) :
    Traced setting defines homes (representative? label defining graph) reader fun found later =>
      ∀ concept, found = some concept → later.model.Seats (some graph) concept := by
  have encloses : ∀ {model : Model} {concept : ConceptId}, model.encloses graph concept = true →
      model.Seats (some graph) concept := by
    rintro model concept here _ ⟨⟩
    simpa [Model.encloses] using here
  refine .see (rfl : Read.model reader = .ok reader.model reader) ?_
  refine .ite (fun here => .pure ?_) fun _ => ?_
  · rintro concept ⟨⟩
    exact encloses here
  · refine .see (rfl : labels reader = .ok reader.labels reader) ?_
    split
    · exact .pure fun concept found => encloses (List.find?_some found)
    · refine .pure ?_
      rintro concept ⟨⟩

/-- A label is resolved by looking up, or by the moves that conceive a concept and add it to the
set. -/
theorem traced_resolve (found : Located) (label : String) :
    Traced setting defines (home :: homes) (resolve found label home) reader
      fun concept later => later.model.Seats home concept := by
  refine .past (passes_definingConcept? label) fun defining later _ _ => ?_
  split
  · exact .failAt nofun
  · exact .pure nofun
  · refine (traced_representative? label _).bind fun known after _ stands => ?_
    split
    · exact .pure (stands _ rfl)
    · refine .past .model fun _ _ _ _ => .place _ fun concept joined seated => ?_
      exact (traced_join found label seated).bind fun _ _ endures _ =>
        .pure (seated.persists endures.toPersists)

/-! ## Types -/

theorem traced_conceptTypeNamed (found : Located) (label : String) :
    Traced setting defines (home :: homes) (conceptTypeNamed setting found label) reader
      fun _ _ => True := by
  refine .see (rfl : model reader = .ok reader.model reader) ?_
  dsimp only
  split
  · exact .pure True.intro
  · next missing =>
    refine .ite (fun allowed => ?_) fun _ => .failAt nofun
    split
    · next type concepts created =>
      exact (Traced.edit (.retype (.conceptType allowed created))).bind fun _ _ _ _ =>
        .pure True.intro
    · next error refused => exact .refused (.conceptType missing refused)

/-- A type that is created on demand is one of the lattice that results. -/
theorem lt_size_of_createOnDemand {kind : TypeKind} {lattice later : Lattice kind}
    {label : String} {type : TypeRef kind}
    (created : lattice.createOnDemand label = .ok (type, later)) : type.index < later.size := by
  obtain ⟨rfl, rfl, -⟩ := Lattice.eq_of_createOnDemand created
  simp

theorem traced_relationTypeNamed (found : Located) (label : String) :
    Traced setting defines (home :: homes) (relationTypeNamed setting found label) reader
      fun type later => type.index < later.model.hierarchy.relations.size := by
  refine .see (rfl : model reader = .ok reader.model reader) ?_
  dsimp only
  split
  · next type known => exact .pure (Lattice.lt_size_of_find? known)
  · next missing =>
    refine .ite (fun allowed => ?_) fun _ => .failAt nofun
    split
    · next type relations created =>
      refine (Traced.edit (.retype (.relationType allowed created))).bind fun _ later _ same =>
        .pure ?_
      rw [same]
      exact lt_size_of_createOnDemand created
    · next error refused => exact .refused (.relationType missing refused)

theorem traced_parameter :
    Traced setting defines (home :: homes) (parameter setting) reader fun _ _ => True := by
  refine .past .peek fun token _ _ _ => ?_
  split
  · refine .past (.located 0) fun _ _ _ _ => .past .advance fun _ _ _ _ =>
      (traced_conceptTypeNamed _ _).bind fun _ _ _ _ => .past .peek fun token _ _ _ => ?_
    split
    · exact .past (.located 0) fun _ _ _ _ => .past .advance fun _ _ _ _ => .pure True.intro
    · exact .fail nofun
  · exact .fail nofun

theorem traced_parameters (tokens : Nat) :
    Traced setting defines (home :: homes) (parameters setting tokens) reader fun _ _ => True := by
  induction tokens generalizing reader with
  | zero => exact traced_parameter.bind fun _ _ _ _ => .pure True.intro
  | succ tokens ih =>
      exact traced_parameter.bind fun _ _ _ _ => .past (.eat _) fun _ _ _ _ =>
        .ite (fun _ => ih.bind fun _ _ _ _ => .pure True.intro) fun _ => .pure True.intro

/-- A definition has been read.  Moves lead to where its parameters are linked, in a context of its
own; since then only this context has been closed, and tokens gone past. -/
def Concluded (setting : Setting) (defines : Prop) (homes : List (Option GraphId))
    (reader : Reader) (definition : Definition) (later : Reader) : Prop :=
  ∃ (linking : Reader) (declared : List Declared) (rest : List Located), defines ∧
    Juncture.Leads setting defines ⟨homes, reader⟩ ⟨none :: homes, linking⟩ ∧
    declared.mapM (linkParameter definition.body) linking = .ok definition.parameters linking ∧
    rest <:+ linking.rest ∧ later = (linking.withLabels linking.labels.pop).withRest rest

/-- Moves before a definition belong to what it was concluded from. -/
theorem Concluded.from_ {middle later : Reader} {definition : Definition}
    (path : Juncture.Leads setting defines ⟨homes, reader⟩ ⟨homes, middle⟩)
    (concluded : Concluded setting defines homes middle definition later) :
    Concluded setting defines homes reader definition later := by
  obtain ⟨linking, declared, rest, allowed, further, linked, still, same⟩ := concluded
  exact ⟨linking, declared, rest, allowed, path.trans further, linked, still, same⟩

/-- A definition that has been read may become a type. -/
theorem Concluded.leads {later : Reader} {definition : Definition} {hierarchy : Hierarchy}
    (concluded : Concluded setting defines homes reader definition later)
    (defined : later.model.hierarchy.Defined definition hierarchy) :
    Juncture.Leads setting defines ⟨homes, reader⟩
      ⟨homes, later.withModel { later.model with hierarchy }⟩ := by
  obtain ⟨linking, declared, rest, allowed, path, linked, still, rfl⟩ := concluded
  exact (path.tail (.conclude allowed linked defined)).tail (.past still)

/-- A step that comes before a definition is concluded. -/
theorem Traced.before {next : α → Read Definition}
    (first : Traced setting defines homes step reader post)
    (others : ∀ value later, post value later → Traced setting defines homes (next value) later
      (Concluded setting defines homes later)) :
    Traced setting defines homes (step >>= next) reader
      (Concluded setting defines homes reader) :=
  first.reached.bind fun value later _ ⟨path, holds⟩ =>
    (others value later holds).mono fun _ _ concluded => concluded.from_ path

/-- What is read inside a bracket is made of moves. -/
structure InsideTraced (setting : Setting) (defines : Prop) (inside : Inside) : Prop where
  concept : ∀ home homes reader,
    Traced setting defines (home :: homes) (inside.concept home) reader fun found later =>
      ∀ concept, found = some concept → later.model.Seats home concept
  lambda : ∀ home homes reader,
    Traced setting defines (home :: homes) inside.lambda reader
      (Concluded setting defines (home :: homes) reader)
  items : ∀ graph homes reader,
    Traced setting defines (some graph :: homes) (inside.items graph) reader fun _ _ => True

/-- What is read where there is room is made of moves. -/
def RoomTraced (setting : Setting) (defines : Prop) (room : Option Inside) : Prop :=
  ∀ inside, room = some inside → InsideTraced setting defines inside

/-- A definition begins only where definitions may be entered. -/
theorem traced_opening {next : Read Definition}
    (others : ∀ reader, defines → Traced setting defines homes next reader
      (Concluded setting defines homes reader)) :
    Traced setting defines homes (do
      expect (.punct .leftParen) .lambdaOpening
      expect (.keyword .lambda) .lambdaWord
      next) reader (Concluded setting defines homes reader) := by
  refine .assuming fun plain => ?_
  have first : Ensures (expect (.punct .leftParen) .lambdaOpening) reader fun _ later =>
      reader.tokens = .punct .leftParen :: later.tokens :=
    ensures_expect.mpr fun found => Reader.tokens_eq_cons found (by decide)
  refine ((Traced.of_passes (.expect _ _)).and first).before fun _ between opened => ?_
  have second : Ensures (expect (.keyword .lambda) .lambdaWord) between fun _ _ => defines := by
    refine ensures_expect.mpr fun found => ?_
    by_contra without
    refine (plain without).free (List.IsPrefix.isInfix ⟨between.next.tokens, ?_⟩)
    rw [← Reader.tokens, opened.2, Reader.tokens_eq_cons found (by decide)]
    rfl
  exact ((Traced.of_passes (.expect _ _)).and second).before fun _ _ allowed => others _ allowed.2

/-- A graph that no concept owns is read as the body of a definition. -/
theorem Traced.body {step : GraphId → Read α} (allowed : defines)
    (traced : ∀ graph entered, Traced setting defines (some graph :: homes) (step graph) entered
      post) :
    Traced setting defines homes (do
      let graph ← Read.make (·.newGraph none)
      step graph) reader post := by
  refine .around (.single (.beginBody allowed)) (fun _ => .single (.endBody allowed)) ?_
    (traced _ (reader.withModel (reader.model.newGraph none).2))
  refine (bind_of_ok rfl).trans ?_
  split <;> assumption

/-- Linking parameters changes nothing. -/
theorem traced_linkParameters (body : Option GraphId) (declared : List Declared) :
    Traced setting defines homes (declared.mapM (linkParameter body)) reader
      fun parameters later =>
        declared.mapM (linkParameter body) later = .ok parameters later := by
  have looks : Looks (declared.mapM (linkParameter body)) :=
    .mapM _ fun _ => looks_linkParameter _ _
  have linked : Ensures (declared.mapM (linkParameter body)) reader fun parameters later =>
      declared.mapM (linkParameter body) later = .ok parameters later :=
    .intro fun parameters later ran => by
      obtain rfl := looks.of_ok ran
      exact ran
  exact ((Traced.of_passes looks.passes).and linked).mono fun _ _ facts => facts.2

/-- A definition has its parameters linked when its body has been read, if it has one. -/
theorem traced_definitionBody {inside : Inside} (traced : InsideTraced setting defines inside)
    (allowed : defines) (declared : List Declared) :
    Traced setting defines homes (definitionBody inside declared) reader
      fun definition later =>
        declared.mapM (linkParameter definition.body) later =
          .ok definition.parameters later := by
  refine .past .peek fun _ _ _ _ => .ite (fun _ => ?_) fun _ => ?_
  · exact .body allowed fun graph _ => (traced.items graph _ _).bind fun _ _ _ _ =>
      (traced_linkParameters _ declared).bind fun _ _ _ linked => .pure linked
  · exact (traced_linkParameters _ declared).bind fun _ _ _ linked => .pure linked

/-- A definition is read in a context of its own, and linked before this is closed. -/
theorem Traced.definition {step : Read Definition} {declared : List Declared} (allowed : defines)
    (traced : Traced setting defines (none :: homes) step (reader.withLabels reader.labels.push)
      fun definition later => declared.mapM (linkParameter definition.body) later =
        .ok definition.parameters later) :
    Traced setting defines homes (Read.inContext step) reader
      (Concluded setting defines homes reader) := by
  have opens : Juncture.Leads setting defines ⟨homes, reader⟩
      ⟨none :: homes, reader.withLabels reader.labels.push⟩ :=
    .single (.beginDefinition allowed)
  refine .around opens (fun _ => .single .leave) rfl (traced.reached.mono ?_)
  rintro definition linking ⟨path, linked⟩
  exact ⟨linking, declared, linking.rest, allowed, opens.trans path, linked, List.suffix_rfl, rfl⟩

/-- The end of a definition that has been read. -/
theorem Traced.closing {step : Read Definition}
    (traced : Traced setting defines homes step reader
      (Concluded setting defines homes reader)) :
    Traced setting defines homes (do
      let definition ← step
      expect (.punct .rightParen) .lambdaClosing
      return definition) reader (Concluded setting defines homes reader) := by
  refine traced.bind fun definition later _ concluded => ?_
  have past : Ensures (expect (.punct .rightParen) .lambdaClosing) later fun _ last =>
      last = later.next := ensures_expect.mpr fun _ => rfl
  refine ((Traced.of_passes (.expect _ _)).and past).bind fun _ last _ same => .pure ?_
  obtain ⟨-, rfl⟩ := same
  obtain ⟨linking, declared, rest, allowed, path, linked, still, rfl⟩ := concluded
  exact ⟨linking, declared, rest.tail, allowed, path, linked,
    (List.tail_suffix rest).trans still, rfl⟩

theorem traced_lambda (traced : RoomTraced setting defines room) :
    Traced setting defines (home :: homes) (lambda setting room) reader
      (Concluded setting defines (home :: homes) reader) :=
  .descend fun inside entered => traced_opening fun _ allowed =>
    (Traced.of_passes (.expect _ _)).before fun _ _ _ => (Traced.of_passes .get).before
      fun _ _ _ => (traced_parameters _).before fun _ _ _ =>
        (Traced.of_passes (.expect _ _)).before fun _ _ _ =>
          .closing (.definition allowed (traced_definitionBody (traced inside entered) allowed _))

/-- A definition that has been read becomes a type, or is refused. -/
theorem Traced.register {lambda : Read Definition} {next : Definition → Read β}
    (traced : Traced setting defines homes lambda reader (Concluded setting defines homes reader))
    (others : ∀ definition later,
      (∃ fault found, fault.kind ≠ .coreference ∧
        next definition later = .error (.parse ⟨fault, found⟩) later) ∨
      ∃ value hierarchy, later.model.hierarchy.Defined definition hierarchy ∧
        next definition later = .ok value (later.withModel { later.model with hierarchy }) ∧
        last value (later.withModel { later.model with hierarchy })) :
    Traced setting defines homes (lambda >>= next) reader last := by
  intro plain
  cases ran : lambda reader with
  | error error later =>
      rw [bind_of_error ran]
      exact traced.of_error plain ran
  | ok definition later =>
      have ⟨path, concluded⟩ := traced.of_ok plain ran
      rw [bind_of_ok ran]
      rcases others definition later with
        ⟨fault, found, otherwise, refused⟩ | ⟨value, hierarchy, defined, made, holds⟩
      · rw [refused]
        exact ⟨_, path, .fault otherwise, .refl⟩
      · rw [made]
        exact ⟨concluded.leads defined, holds⟩

/-- A type is named, or the moves of a definition conclude it. -/
theorem traced_conceptType {lambda : Read Definition}
    (traced : ∀ reader, Traced setting defines (home :: homes) lambda reader
      (Concluded setting defines (home :: homes) reader)) :
    Traced setting defines (home :: homes) (conceptType setting lambda) reader fun _ _ => True := by
  refine .past .peek fun token _ _ _ => ?_
  split
  · exact .past (.located 0) fun _ _ _ _ => .past .advance fun _ _ _ _ =>
      (traced_conceptTypeNamed _ _).bind fun _ _ _ _ => .pure True.intro
  · refine .past (passes_lambdaAhead 0) fun _ _ _ _ => .ite (fun _ => ?_) fun _ => .pure True.intro
    refine .past (.located 0) fun found _ _ _ => (traced _).register fun definition later => ?_
    by_cases one : definition.parameters.length = 1
    · refine .inr ⟨some (later.model.hierarchy.concepts.createDefined definition).1, _,
        .concept one, ?_, True.intro⟩
      rw [if_neg (not_not.mpr one)]
      rfl
    · refine .inl ⟨.parameterCount definition.parameters.length, found, nofun, ?_⟩
      rw [if_pos one]
      rfl

theorem traced_relationType {lambda : Read Definition}
    (traced : ∀ reader, Traced setting defines (home :: homes) lambda reader
      (Concluded setting defines (home :: homes) reader)) :
    Traced setting defines (home :: homes) (relationType setting lambda) reader
      fun type later => type.index < later.model.hierarchy.relations.size := by
  refine .past .peek fun token _ _ _ => ?_
  split
  · exact .past (.located 0) fun _ _ _ _ => .past .advance fun _ _ _ _ =>
      traced_relationTypeNamed _ _
  · refine (traced _).register fun definition later => .inr ⟨_, _, .relation, rfl, ?_⟩
    simp

/-! ## Concepts -/

theorem traced_markerOf (digits : Option String) :
    Traced setting defines (home :: homes) (markerOf digits) reader fun _ _ => True := by
  cases digits with
  | none => exact (Traced.make .marker).trivial
  | some foreign => exact fun _ => ⟨.single (.mark foreign), True.intro⟩

/-- Whether the concept that a designator names, if it does so, is anchored where definitions are
excluded. -/
def Cited (defines : Prop) (home : Option GraphId) (designator : Option Designator)
    (model : Model) : Prop :=
  ¬defines → ∀ target, designator = some (.defined target) → ∀ graph, home = some graph →
    model.Anchors graph target

/-- What a designator cites endures. -/
theorem Cited.endures {designator : Option Designator} {model later : Model}
    (cited : Cited defines home designator model) (endures : model.Endures later) :
    Cited defines home designator later := fun without target same graph here =>
  (cited without target same graph here).endures endures

/-- The concept that defines what a label denotes is anchored where definitions are excluded. -/
theorem traced_definingConcept? (label : String) :
    Traced setting defines (home :: homes) (definingConcept? label) reader
      fun defining later => Cited defines home (defining.map .defined) later.model := by
  refine .assuming fun plain => ?_
  have bound {target : Target} (denotes : reader.labels.target? label = some target)
      (without : ¬defines) (graph : GraphId) (here : home = some graph) :
      (ScopeEntry.binding label target).Anchored reader.model graph := by
    obtain ⟨distinct, shelters⟩ := (plain without).toSheltered
    subst here
    exact shelters.anchored _ ((LabelTable.target?_eq_some_iff distinct).mp denotes)
  unfold definingConcept?
  refine .see (rfl : labels reader = .ok reader.labels reader) ?_
  split
  · next concept denotes =>
    refine .pure fun without target same graph here => ?_
    cases same
    exact bound denotes without graph here
  · next set denotes =>
    refine .see (rfl : model reader = .ok reader.model reader) (.pure ?_)
    intro without target same graph here
    cases same
    exact (bound denotes without graph here).2
  · exact .pure nofun

/-- A designator is taken from a token, with one move if it stands for a marker or a label. -/
theorem traced_designatorOf (found : Located) :
    Traced setting defines (home :: homes) (designatorOf found) reader fun designator later =>
      Cited defines home designator later.model := by
  unfold designatorOf
  split
  · exact .pure nofun
  · exact .pure nofun
  · exact .pure nofun
  · exact .pure nofun
  · exact .pure nofun
  · exact (traced_markerOf _).bind fun _ _ _ _ => .pure nofun
  · refine (traced_definingConcept? _).bind fun defining _ _ cited => ?_
    split
    · exact .pure cited
    · exact .failAt nofun
  · exact .pure nofun

theorem traced_designator :
    Traced setting defines (home :: homes) designator reader fun designator later =>
      Cited defines home designator later.model :=
  .past (.eat _) fun _ _ _ _ => .ite
    (fun _ => .past passes_encodedLiteral fun _ _ _ _ => .pure nofun)
    fun _ => .past (.located 0) fun _ _ _ _ => (traced_designatorOf _).bind fun _ _ _ cited =>
      .ite (fun _ => .past .advance fun _ _ same _ => .pure (same ▸ cited)) fun _ => .pure cited

/-- The graph that describes a concept is read in a context of its own, and belongs to it. -/
theorem Traced.nested {owner : ConceptId} {step : GraphId → Read PUnit}
    (seated : reader.model.Seats home owner)
    (traced : ∀ graph entered, Traced setting defines (some graph :: home :: homes) (step graph)
      entered fun _ _ => True) :
    Traced setting defines (home :: homes) (do
      let graph ← Read.make (·.newGraph (some owner))
      Read.inContext (step graph)
      return some graph) reader fun found later =>
        ∀ graph, found = some graph → (later.model.graph graph).owner = some owner := by
  let graph : GraphId := (reader.model.newGraph (some owner)).1
  let entered := (reader.withModel (reader.model.newGraph (some owner)).2).withLabels
    reader.labels.push
  have owned : (entered.model.graph graph).owner = some owner :=
    congrArg Graph.owner Model.graph_newGraph
  have read : Traced setting defines (some graph :: home :: homes) (do
      step graph
      return some graph) entered fun found later =>
        ∀ graph, found = some graph → (later.model.graph graph).owner = some owner := by
    refine (traced graph entered).bind fun _ later endures _ => .pure ?_
    rintro _ ⟨⟩
    exact endures.owner _ _ owned
  refine .around (.single (.enter seated)) (fun _ => .single .leave) ?_ read
  refine (bind_of_ok rfl).trans ?_
  cases ran : step graph entered with
  | ok value later =>
      rw [bind_of_ok ran]
      exact bind_of_ok (inContext_of_ok ran)
  | error error later =>
      rw [bind_of_error ran]
      exact bind_of_error (inContext_of_error ran)

theorem traced_descriptor {inside : Inside} (traced : InsideTraced setting defines inside)
    (seated : reader.model.Seats home concept) :
    Traced setting defines (home :: homes) (descriptor inside concept) reader fun found later =>
      ∀ graph, found = some graph → (later.model.graph graph).owner = some concept := by
  refine .past .peek fun _ _ same _ => .ite (fun _ => ?_) fun _ => .pure nofun
  exact .nested (same ▸ seated) fun graph _ => traced.items graph _ _

/-- A concept of the graph that is being read gets a graph that describes it. -/
theorem Traced.describe {body : GraphId} (seated : reader.model.Seats home concept)
    (owned : (reader.model.graph body).owner = some concept) :
    Traced setting defines (home :: homes)
      (Read.edit (·.setReferent concept { descriptor := some body })) reader fun _ later =>
        later =
          reader.withModel (reader.model.setReferent concept { descriptor := some body }) := by
  refine .refer seated ?_ nofun
  rintro graph ⟨⟩
  exact owned

theorem traced_referent {inside : Inside} (traced : InsideTraced setting defines inside)
    (seated : reader.model.Seats home concept) :
    Traced setting defines (home :: homes) (referent inside concept) reader fun _ _ => True := by
  refine .past passes_quantifier fun _ _ same _ => traced_designator.bind
    fun designator later first cited => ?_
  have seated := (same ▸ seated : Model.Seats _ home concept).persists first.toPersists
  refine (traced_descriptor traced seated).bind fun _ _ second owned =>
    .ite (fun _ => .pure True.intro) fun _ => ?_
  refine (Traced.refer (seated.persists second.toPersists) owned
    fun without target named => ?_).trivial
  refine cited.endures second without target ?_
  unfold Referent.definedBy? at named
  split at named
  · next designates => exact Option.some.inj named ▸ designates
  · cases named

theorem traced_boundLabels (seated : reader.model.Seats home concept) (tokens : Nat) :
    Traced setting defines (home :: homes) (boundLabels concept tokens) reader fun _ _ => True := by
  induction tokens generalizing reader with
  | zero => exact .pure True.intro
  | succ tokens ih =>
      refine .past .peek fun token _ first _ => ?_
      split
      · refine .past (.located 0) fun _ _ second _ => .past .advance fun _ _ third _ => ?_
        have seated : Model.Seats _ home concept := third ▸ second ▸ first ▸ seated
        exact (traced_join _ _ seated).bind fun _ _ endures _ =>
          ih (seated.persists endures.toPersists)
      · exact .pure True.intro

/-- The labels of a concept where none is bound to it. -/
theorem traced_conceptLabels (seated : reader.model.Seats home concept)
    (otherwise : ∀ label, (reader.ahead 0).token = .defLabel label →
      reader.labels.isBound label = true) :
    Traced setting defines (home :: homes) (conceptLabels concept) reader fun _ _ => True := by
  refine .see (rfl : peek reader = .ok _ reader) ?_
  split
  · next label seen =>
    refine .see (rfl : labels reader = .ok reader.labels reader) ?_
    exact .ite (fun _ => .fail nofun) fun free => absurd (otherwise label seen) free
  · exact .past .get fun _ _ same _ => traced_boundLabels (same ▸ seated) _

/-- A defining label that is not bound yet. -/
theorem conceptLabels_of_defLabel {label : String}
    (seen : (reader.ahead 0).token = .defLabel label)
    (unbound : reader.labels.isBound label = false) :
    conceptLabels concept reader =
      .ok () (reader.next.withLabels (reader.labels.bind label (.concept concept))) := by
  have peeked : peek reader = .ok (.defLabel label) reader := seen ▸ rfl
  unfold conceptLabels
  rw [bind_of_ok peeked]
  refine (bind_of_ok (rfl : labels reader = .ok reader.labels reader)).trans ?_
  rw [if_neg (by simp [unbound])]
  rfl

/-- A concept is made, and put into the graph that is being read if there is one, and its labels
are read. -/
theorem Traced.introduce {next : ConceptId → Read β} (type : Option ConceptType)
    (others : ∀ concept later, later.model.Seats home concept →
      Traced setting defines (home :: homes) (next concept) later last) :
    Traced setting defines (home :: homes) (do
      let concept ← Read.make (·.newConcept type)
      if let some graph := home then Read.edit (·.addConcept graph concept)
      let _ ← eat (.punct .colon)
      conceptLabels concept
      next concept) reader last := by
  let concept := (reader.model.newConcept type).1
  let placed := reader.withModel (reader.model.conceive home type)
  obtain ⟨ate, labelling, opened, rest, further, same⟩ : ∃ ate labelling,
      eat (.punct .colon) placed = .ok ate labelling ∧
      ∃ rest, rest <:+ placed.rest ∧ labelling = placed.withRest rest :=
    (achieves_eat.mpr ⟨fun _ => ⟨_, List.tail_suffix _, rfl⟩,
      fun _ => ⟨_, List.suffix_rfl, rfl⟩⟩).exists_ok
  have seated : labelling.model.Seats home concept := same ▸ Model.seats_conceive _ _ _
  have runs : (do
      let concept ← Read.make (·.newConcept type)
      if let some graph := home then Read.edit (·.addConcept graph concept)
      let _ ← eat (.punct .colon)
      conceptLabels concept
      next concept) reader = (conceptLabels concept >>= fun _ => next concept) labelling := by
    have goesOn : (eat (.punct .colon) >>= fun _ => conceptLabels concept >>= fun _ =>
        next concept) placed = _ := bind_of_ok opened
    refine Eq.trans ?_ goesOn
    cases home <;> rfl
  by_cases defining : ∃ label, (labelling.ahead 0).token = .defLabel label ∧
      reader.labels.isBound label = false
  · obtain ⟨label, seen, unbound⟩ := defining
    -- The label is bound in one move with the making of the concept.
    obtain rfl := same
    have path : Juncture.Leads setting defines ⟨home :: homes, reader⟩ ⟨home :: homes,
        (placed.withLabels (reader.labels.bind label (.concept concept))).withRest rest.tail⟩ :=
      (ReflTransGen.single (.define unbound)).tail (.past ((List.tail_suffix _).trans further))
    refine .after _ ?_ path (others concept _ seated)
    exact runs.trans (bind_of_ok (conceptLabels_of_defLabel seen unbound))
  · have path : Juncture.Leads setting defines ⟨home :: homes, reader⟩
        ⟨home :: homes, labelling⟩ := by
      obtain rfl := same
      refine ReflTransGen.tail (b := ⟨home :: homes, placed⟩) ?_ (.past further)
      cases home with
      | none => exact .single (.edit (.concept type))
      | some graph =>
          have made : Juncture.Leads setting defines ⟨some graph :: homes, reader⟩
              ⟨some graph :: homes, reader.withModel (reader.model.newConcept type).2⟩ :=
            .single (.edit (.concept type))
          refine made.tail (.edit (.place rfl ?_))
          simp [Model.concept_newConcept]
    have table : labelling.labels = reader.labels := (congrArg Reader.labels same).trans rfl
    refine .after labelling runs path ((traced_conceptLabels seated fun label seen => ?_).bind
      fun _ later endures _ => others concept later (seated.persists endures.toPersists))
    rw [table]
    exact by_contra fun free => defining ⟨label, seen, Bool.not_eq_true _ ▸ free⟩

/-- A concept after its labels, which has been made and stands where it is read. -/
theorem traced_closes {inside : Inside} (traced : InsideTraced setting defines inside)
    (seated : reader.model.Seats home concept) :
    Traced setting defines (home :: homes) (do
      referent inside concept
      if let some comment ← nodeComment .concept then
        edit (·.modifyConcept concept fun data => { data with comment := some comment })
      expect (.punct .rightBracket) .conceptClosing
      return concept) reader fun concept later => later.model.Seats home concept := by
  refine (traced_referent traced seated).bind fun _ _ second _ => ?_
  have seated := seated.persists second.toPersists
  refine .past (passes_nodeComment _) fun comment _ same _ => ?_
  have seated : Model.Seats _ home concept := same ▸ seated
  split
  · refine .bind (.annotate (fun _ => rfl) (fun _ => rfl) (fun _ => rfl) fun _ => rfl)
      fun _ _ third _ =>
      .past (.expect _ _) fun _ _ same _ => .pure ?_
    exact same ▸ seated.persists third.toPersists
  · exact .past (.expect _ _) fun _ _ same _ => .pure (same ▸ seated)

theorem traced_conceptBody {inside : Inside} (traced : InsideTraced setting defines inside) :
    Traced setting defines (home :: homes) (conceptBody setting inside home) reader
      fun concept later => later.model.Seats home concept :=
  (traced_conceptType (traced.lambda home homes)).bind fun type _ _ _ =>
    .introduce type fun _ _ seated => traced_closes traced seated

theorem traced_concept (traced : RoomTraced setting defines room) :
    Traced setting defines (home :: homes) (Read.concept setting room home) reader
      fun found later => ∀ concept, found = some concept → later.model.Seats home concept := by
  refine .past .peek fun token _ _ _ => .past (.ahead 1) fun second _ _ _ => ?_
  split
  · exact .pure nofun
  · exact .past (.located 1) fun _ _ _ _ => .failAt nofun
  · exact .past (.located 1) fun _ _ _ _ => .failAt nofun
  · refine .descend fun inside entered => .past .advance fun _ _ _ _ =>
      (traced_conceptBody (traced inside entered)).bind fun concept _ _ seated => .pure ?_
    rintro _ ⟨⟩
    exact seated
  · exact .pure nofun

/-! ## Relations and actors -/

section Arguments

variable {concept : Option GraphId → Read (Option ConceptId)}
  (traced : ∀ reader, Traced setting defines (home :: homes) (concept home) reader
    fun found later => ∀ concept, found = some concept → later.model.Seats home concept)

include traced

/-- An argument that is found is seated like the relation that takes it. -/
theorem traced_arc :
    Traced setting defines (home :: homes) (arc concept home) reader fun found later =>
      ∀ argument, found = some argument → later.model.Seats home argument := by
  refine .past .peek fun token _ _ _ => ?_
  split
  · refine .past (.located 0) fun _ _ _ _ => .past .advance fun _ _ _ _ =>
      (traced_resolve _ _).bind fun argument _ _ seated => .pure ?_
    rintro _ ⟨⟩
    exact seated
  · exact traced _
  · exact .pure nofun

theorem traced_arcs (tokens : Nat) :
    Traced setting defines (home :: homes) (arcs concept home tokens) reader fun _ _ => True := by
  induction tokens generalizing reader with
  | zero => exact .pure True.intro
  | succ tokens ih =>
      refine (traced_arc traced).bind fun argument _ _ _ => ?_
      split
      · exact ih.bind fun _ _ _ _ => .pure True.intro
      · exact .pure True.intro

end Arguments

/-- Where the check of the valence succeeds, the type asks for that number of arguments if it asks
for any. -/
theorem ensures_checkValence (found : Located) (type : RelationType) (count : Nat) :
    Ensures (checkValence found type count) reader fun _ _ =>
      ∀ valence, reader.model.hierarchy.relations.valence? type = some valence →
        count = valence := by
  unfold checkValence
  simp only [ensures_bind, ensures_model]
  split
  · next valence asks =>
    refine ensures_ite.mpr ⟨fun _ => True.intro, fun same other asks' => ?_⟩
    rw [asks] at asks'
    cases asks'
    exact (not_not.mp same).symm
  · next asks => exact fun valence asks' => by simp [asks] at asks'

theorem traced_makeRelation (found : Located) {type : RelationType} {args : List ConceptId}
    {role : RelationRole} {comment : Option String}
    (known : type.index < reader.model.hierarchy.relations.size) :
    Traced setting defines (home :: homes) (makeRelation found type args role comment) reader
      fun _ _ => True := by
  refine ((Traced.of_passes (passes_checkValence _ _ _)).and (ensures_checkValence _ _ _)).bind
    fun _ later _ checked => ?_
  obtain ⟨⟨same, -⟩, fits⟩ := checked
  rw [← same] at known fits
  exact (Traced.make (.relation known fits)).bind fun _ _ _ _ =>
    (Traced.edit (.note _ _)).bind fun _ _ _ _ => .pure True.intro

theorem traced_relation (traced : RoomTraced setting defines room) :
    Traced setting defines (home :: homes) (relation setting room home) reader
      fun _ _ => True := by
  refine .past .peek fun token _ _ _ => .past (passes_relationTypeAhead 1) fun _ _ _ _ =>
    .ite (fun _ => ?_) fun _ => .pure True.intro
  refine .descend fun inside entered => .past (.located 0) fun _ _ _ _ =>
    .past .advance fun _ _ _ _ => ?_
  refine (traced_relationType ((traced inside entered).lambda home homes)).bind
    fun type _ _ known => .past .get fun _ _ first _ => ?_
  refine (traced_arcs ((traced inside entered).concept home homes) _).bind fun args _ second _ =>
    .past (passes_nodeComment _) fun comment _ third _ => .past (.expect _ _) fun _ _ fourth _ => ?_
  have known : type.index < _ := Nat.lt_of_lt_of_le (first ▸ known) second.types
  exact (traced_makeRelation _ (fourth ▸ third ▸ known)).bind fun _ _ _ _ => .pure True.intro

/-- An actor is read by moving into its bracket, over its arcs and out again. -/
theorem traced_actorBody {inside : Inside} (traced : InsideTraced setting defines inside)
    (found : Located) :
    Traced setting defines (home :: homes) (actorBody setting inside found home) reader
      fun _ _ => True := by
  have body : ∀ reader, Traced setting defines (home :: homes) (do
      let type ← relationType setting inside.lambda
      let inputs ← arcs inside.concept home (← get).rest.length
      expect (.punct .bar) .actorBar
      let outputs ← arcs inside.concept home (← get).rest.length
      let comment ← nodeComment .actor
      expect (.punct .rightAngle) .actorClosing
      makeRelation found type (inputs ++ outputs) (.actor inputs.length) comment) reader
        fun _ _ => True := by
    intro reader
    refine (traced_relationType (traced.lambda home homes)).bind fun type _ _ known =>
      .past .get fun _ _ first _ => ?_
    refine (traced_arcs (traced.concept home homes) _).bind fun inputs _ second _ =>
      .past (.expect _ _) fun _ _ third _ => .past .get fun _ _ fourth _ => ?_
    refine (traced_arcs (traced.concept home homes) _).bind fun outputs _ fifth _ =>
      .past (passes_nodeComment _) fun comment _ sixth _ =>
        .past (.expect _ _) fun _ _ seventh _ => traced_makeRelation _ ?_
    have known : type.index < _ := Nat.lt_of_lt_of_le (first ▸ known) second.types
    have known : type.index < _ := Nat.lt_of_lt_of_le (fourth ▸ third ▸ known) fifth.types
    exact seventh ▸ sixth ▸ known
  exact .past (passes_relationTypeAhead 0) fun _ _ _ _ =>
    .ite (fun _ => body _) fun _ => .past (.fail nofun) fun _ _ _ _ => body _

theorem traced_actor (traced : RoomTraced setting defines room) :
    Traced setting defines (home :: homes) (actor setting room home) reader fun _ _ => True :=
  .past .peek fun _ _ _ _ => .ite (fun _ => .descend fun inside entered =>
    .past (.located 0) fun _ _ _ _ => .past .advance fun _ _ _ _ =>
      (traced_actorBody (traced inside entered) _).bind fun _ _ _ _ => .pure True.intro)
    fun _ => .pure True.intro

/-! ## Items of the interchange form -/

/-- The body of a context is read by entering it, over its items and leaving it. -/
theorem traced_contextBody {inside : Inside} (traced : InsideTraced setting defines inside)
    (label : ContextLabel) :
    Traced setting defines (some graph :: homes) (contextBody inside graph label) reader
      fun _ _ => True := by
  refine .past (.eat _) fun _ _ _ _ => .place none fun concept _ seated =>
    .bind (.annotate (fun _ => rfl) (fun _ => rfl) (fun _ => rfl) fun _ => rfl)
      fun _ _ first _ => ?_
  have seated := seated.persists first.toPersists
  refine (traced_descriptor traced seated).bind fun body _ second owned => ?_
  split
  · next body =>
    refine (Traced.describe (seated.persists second.toPersists) (owned body rfl)).bind
      fun _ _ _ _ => .past (.expect _ _) fun _ _ _ _ => .pure True.intro
  · exact .past (.expect _ _) fun _ _ _ _ => .pure True.intro

theorem traced_specialContext (traced : RoomTraced setting defines room) :
    Traced setting defines (some graph :: homes) (specialContext setting room graph) reader
      fun _ _ => True := by
  refine .past .peek fun token _ _ _ => .past (.ahead 1) fun second _ _ _ => ?_
  split
  · exact .past (.located 1) fun _ _ _ _ => .failAt nofun
  · exact .descend fun inside entered => .past .advance fun _ _ _ _ =>
      .past .advance fun _ _ _ _ => (traced_contextBody (traced inside entered) _).bind
        fun _ _ _ _ => .pure True.intro
  · exact .pure True.intro

/-- The type of negations is found, or made by one move. -/
theorem traced_negationType :
    Traced setting defines (home :: homes) negationType reader fun type later =>
      later.model.hierarchy.relations.find? negationLabel = some type := by
  refine .see (rfl : model reader = .ok reader.model reader) ?_
  dsimp only
  split
  · next type known => exact .pure known
  · next missing =>
    split
    · next type relations created =>
      refine (Traced.edit (.retype (.negationType created))).bind fun _ later _ same => .pure ?_
      obtain ⟨rfl, rfl, -⟩ := Lattice.eq_of_createOnDemand created
      rw [same]
      exact (Lattice.find?_setValence 1).trans (Lattice.find?_withType.trans (if_pos rfl))
    · next error refused => exact .refused (.relationType missing refused)

/-- The end of a negation, from the time on when its graph is known. -/
theorem traced_negating {body : GraphId} (seated : reader.model.Seats home concept)
    (hidden : (reader.model.concept concept).hidden = true)
    (owned : (reader.model.graph body).owner = some concept) :
    Traced setting defines (home :: homes) (do
      edit (·.setReferent concept { descriptor := some body })
      expect (.punct .rightBracket) .negationClosing
      let type ← negationType
      make (·.newRelation (some type) [concept] .relation)) reader fun _ _ => True := by
  refine (Traced.describe seated owned).bind fun _ _ first _ => .past (.expect _ _)
    fun _ _ same _ => traced_negationType.bind fun type _ second known => ?_
  have hidden := second.hidden _ (same ▸ first.hidden _ hidden)
  exact (Traced.make (.negation known hidden)).trivial

/-- A negation is read by the moves that conceive its wrapper and enter its graph. -/
theorem traced_negationBody {inside : Inside} (traced : InsideTraced setting defines inside) :
    Traced setting defines (some graph :: homes) (negationBody inside graph) reader
      fun _ _ => True := by
  refine (Traced.make (.concept none)).bind fun concept made _ same => ?_
  obtain ⟨rfl, rfl⟩ := same
  refine (Traced.edit (.hide (by simp [Model.concept_newConcept]))).bind fun _ masked _ same => ?_
  have within : reader.model.concepts.size < masked.model.concepts.size := by simp [same]
  have adrift : (masked.model.concept ⟨reader.model.concepts.size⟩).graph = none := by
    rw [same]
    simp [Model.concept_modifyConcept, Model.concept_newConcept]
  have hidden : (masked.model.concept ⟨reader.model.concepts.size⟩).hidden = true := by
    rw [same]
    simp [Model.concept_modifyConcept]
  refine (Traced.edit (.place rfl adrift)).bind fun _ placed endures same => ?_
  have hidden := endures.hidden _ hidden
  have seated : placed.model.Seats (some graph) ⟨reader.model.concepts.size⟩ := by
    rw [same]
    rintro _ ⟨⟩
    exact Model.graph_addConcept within
  refine (traced_descriptor traced seated).bind fun body _ endures owned => ?_
  have seated := seated.persists endures.toPersists
  have hidden := endures.hidden _ hidden
  split
  · next body => exact traced_negating seated hidden (owned body rfl)
  · refine (Traced.make (.graph _)).bind fun body _ endures made => ?_
    refine traced_negating (seated.persists endures.toPersists) (endures.hidden _ hidden) ?_
    obtain ⟨rfl, rfl⟩ := made
    exact congrArg Graph.owner Model.graph_newGraph

theorem traced_negation (traced : RoomTraced setting defines room) :
    Traced setting defines (some graph :: homes) (negation setting room graph) reader
      fun _ _ => True := by
  refine .past .peek fun token _ _ _ => .past (.ahead 1) fun second _ _ _ => ?_
  split
  · exact .descend fun inside entered => .past .advance fun _ _ _ _ =>
      .past .advance fun _ _ _ _ => (traced_negationBody (traced inside entered)).bind
        fun _ _ _ _ => .pure True.intro
  · exact .past (.located 1) fun _ _ _ _ => .failAt nofun
  · exact .pure True.intro

theorem traced_relationInto {production : Read (Option RelationId)}
    (traced : Traced setting defines (home :: homes) production reader fun _ _ => True) :
    Traced setting defines (home :: homes) (relationInto graph production) reader
      fun _ _ => True := by
  refine traced.bind fun found _ _ _ => ?_
  split
  · exact (Traced.edit (.insert _ _)).bind fun _ _ _ _ => .pure True.intro
  · exact .pure True.intro

theorem traced_graphComment :
    Traced setting defines (home :: homes) (graphComment graph) reader fun _ _ => True := by
  refine .past .peek fun token _ _ _ => ?_
  split
  · exact .past .advance fun _ _ _ _ => (Traced.edit (.comment _ _)).bind fun _ _ _ _ =>
      .pure True.intro
  · exact .pure True.intro

/-- The alternatives are traced as the one that is taken. -/
theorem traced_firstOf {productions : List (Read Bool)}
    (traced : ∀ production ∈ productions, ∀ reader,
      Traced setting defines homes production reader fun _ _ => True) :
    Traced setting defines homes (firstOf productions) reader fun _ _ => True := by
  induction productions generalizing reader with
  | nil => exact .pure True.intro
  | cons production others ih =>
      exact (traced _ List.mem_cons_self reader).bind fun _ _ _ _ =>
        .ite (fun _ => .pure True.intro) fun _ =>
          ih fun other member => traced other (List.mem_cons_of_mem _ member)

/-- Item by item, moves lead from each to the next. -/
theorem traced_bracketItems (traced : RoomTraced setting defines room) (tokens : Nat) :
    Traced setting defines (some graph :: homes) (bracketItems setting room graph tokens) reader
      fun _ _ => True := by
  have productions : ∀ production ∈ bracketProductions setting room graph, ∀ reader,
      Traced setting defines (some graph :: homes) production reader fun _ _ => True := by
    simp only [bracketProductions, List.forall_mem_cons, List.not_mem_nil, false_implies,
      implies_true, and_true]
    exact ⟨fun _ => (traced_concept traced).bind fun _ _ _ _ => .pure True.intro,
      fun _ => (traced_specialContext traced).bind fun _ _ _ _ => .pure True.intro,
      fun _ => traced_relationInto (traced_negation traced),
      fun _ => traced_relationInto (traced_relation traced),
      fun _ => traced_relationInto (traced_actor traced), fun _ => traced_graphComment⟩
  induction tokens generalizing reader with
  | zero => exact .pure True.intro
  | succ tokens ih =>
      exact (traced_firstOf productions).bind fun _ _ _ _ =>
        .ite (fun _ => ih) fun _ => .pure True.intro

/-! ## Statements of the linear form -/

section Statements

variable (traced : RoomTraced setting defines room)

include traced

theorem traced_target :
    Traced setting defines (some graph :: homes) (target setting room graph) reader
      fun _ _ => True := by
  refine (traced_arc fun _ => traced_concept traced).bind fun found _ _ _ => ?_
  split
  · exact .pure True.intro
  · exact .fail nofun

theorem traced_relationNode :
    Traced setting defines (home :: homes) (relationNode setting room) reader
      fun node later => node.type.index < later.model.hierarchy.relations.size :=
  .past passes_relationNodeAhead fun _ _ _ _ => .ite
    (fun _ => .past (.located 0) fun _ _ _ _ => .past .advance fun _ _ _ _ =>
      (traced_relationType fun _ => traced_lambda traced).bind fun _ _ _ known =>
        .past (passes_nodeComment _) fun _ _ first _ => .past (.expect _ _) fun _ _ second _ =>
          .pure (second ▸ first ▸ known))
    fun _ => .fail nofun

omit traced in
theorem traced_connect {node : RelationNode} {args : List ConceptId}
    (known : node.type.index < reader.model.hierarchy.relations.size) :
    Traced setting defines (home :: homes) (connect graph node args) reader fun _ _ => True :=
  (traced_makeRelation _ known).bind fun _ _ _ _ => (Traced.edit (.insert _ _)).trivial

/-- Chains and fans, by the number of steps that are left. -/
theorem traced_chains (steps : Nat) :
    (∀ reader head, Traced setting defines (some graph :: homes)
      (chainTail setting room graph steps head) reader fun _ _ => True) ∧
    ∀ reader head first, Traced setting defines (some graph :: homes)
      (fan setting room graph steps head first) reader fun _ _ => True := by
  -- What is carried along is that the type of the relation is known wherever it is connected.
  induction steps with
  | zero => exact ⟨fun _ _ => .pure True.intro, fun _ _ _ => .pure True.intro⟩
  | succ steps ih =>
      obtain ⟨tails, fans⟩ := ih
      constructor
      · intro reader head
        refine .past passes_refuseNumberedArc fun _ _ _ _ => .past passes_arrowAhead
          fun into _ _ _ => ?_
        split
        · refine .past .advance fun _ _ _ _ => (traced_relationNode traced).bind
            fun node _ _ known => .past passes_refuseNumberedArc fun _ _ first _ =>
              .past passes_arrowAhead fun out _ second _ => ?_
          have known : node.type.index < _ := second ▸ first ▸ known
          split
          · exact traced_connect known
          · refine .past (.located 0) fun found _ third _ => .past .advance fun _ _ fourth _ =>
              .ite (fun _ => .failAt nofun) fun _ => ?_
            have known : node.type.index < _ := fourth ▸ third ▸ known
            exact (traced_target traced).bind fun next _ endures _ =>
              (traced_connect (Nat.lt_of_lt_of_le known endures.types)).bind fun _ _ _ _ =>
                tails _ next
        · exact .past (.eat _) fun _ _ _ _ => .ite (fun _ => fans _ _ _) fun _ => .pure True.intro
      · intro reader head begins
        refine .past passes_refuseNumberedArc fun _ _ _ _ =>
          .past passes_relationNodeAhead fun _ _ _ _ => .ite (fun _ => ?_) fun _ =>
            .ite (fun _ => .fail nofun) fun _ => .past (.eat _) fun _ _ _ _ => .pure True.intro
        refine (traced_relationNode traced).bind fun node _ _ known =>
          .past passes_refuseNumberedArc fun _ _ first _ =>
            .past passes_arrowAhead fun direction _ second _ => ?_
        have known : node.type.index < _ := second ▸ first ▸ known
        split
        · refine .past .advance fun _ _ third _ => (traced_target traced).bind
            fun next _ endures _ => ?_
          have known : node.type.index < _ := third ▸ known
          exact (traced_connect (Nat.lt_of_lt_of_le known endures.types)).bind fun _ _ _ _ =>
            (tails _ next).bind fun _ _ _ _ => fans _ _ _
        · exact (traced_connect known).bind fun _ _ _ _ => fans _ _ _

theorem traced_tail (head : ConceptId) :
    Traced setting defines (some graph :: homes) (tail setting room graph head) reader
      fun _ _ => True :=
  .past .get fun _ _ _ _ => (traced_chains traced _).1 _ head

theorem traced_chain :
    Traced setting defines (some graph :: homes) (chain setting room graph) reader
      fun _ _ => True :=
  (traced_target traced).bind fun _ _ _ _ => traced_tail traced _

theorem traced_relationChain :
    Traced setting defines (some graph :: homes) (relationChain setting room graph) reader
      fun _ _ => True := by
  refine (traced_relationNode traced).bind fun node _ _ known =>
    .past passes_refuseNumberedArc fun _ _ first _ => .past passes_arrowAhead fun _ _ second _ => ?_
  have known : node.type.index < _ := second ▸ first ▸ known
  split
  · exact traced_connect known
  · refine .past .advance fun _ _ third _ => (traced_target traced).bind fun head _ endures _ => ?_
    have known : node.type.index < _ := third ▸ known
    exact (traced_connect (Nat.lt_of_lt_of_le known endures.types)).bind fun _ _ _ _ =>
      traced_tail traced _

theorem traced_statement :
    Traced setting defines (some graph :: homes) (statement setting room graph) reader
      fun _ _ => True := by
  refine .past .peek fun token _ _ _ => ?_
  split
  · exact (traced_chain traced).bind fun _ _ _ _ => .pure True.intro
  · exact (traced_chain traced).bind fun _ _ _ _ => .pure True.intro
  · exact traced_relationInto (traced_negation traced)
  · exact .past passes_relationNodeAhead fun _ _ _ _ =>
      .ite (fun _ => (traced_relationChain traced).bind fun _ _ _ _ => .pure True.intro)
        fun _ => .pure True.intro
  · exact traced_relationInto (traced_actor traced)
  · exact .pure True.intro

theorem traced_statements (tokens : Nat) :
    Traced setting defines (some graph :: homes) (statements setting room graph tokens) reader
      fun _ _ => True := by
  induction tokens generalizing reader with
  | zero => exact .pure True.intro
  | succ tokens ih =>
      exact traced_graphComment.bind fun _ _ _ _ => .ite (fun _ => ih) fun _ =>
        (traced_statement traced).bind fun _ _ _ _ => .ite
          (fun _ => .past passes_statementEnd fun _ _ _ _ => ih) fun _ => .pure True.intro

end Statements

/-! ## Nesting -/

theorem traced_items (traced : RoomTraced setting defines room) :
    Traced setting defines (some graph :: homes) (items setting room graph) reader
      fun _ _ => True := by
  refine .past .get fun _ _ _ _ => ?_
  dsimp only
  split
  · exact traced_bracketItems traced _
  · exact traced_statements traced _

/-- Inside of any number of brackets reading is traced. -/
theorem roomTraced (brackets : Nat) : RoomTraced setting defines (roomFor setting brackets) := by
  induction brackets with
  | zero => exact nofun
  | succ brackets ih =>
      rintro inside ⟨⟩
      exact ⟨fun _ _ _ => traced_concept ih, fun _ _ _ => traced_lambda ih,
        fun _ _ _ => traced_items ih⟩

theorem traced_graphInto (graph : GraphId) :
    Traced setting defines (some graph :: homes) (graphInto setting graph) reader
      fun _ _ => True :=
  (traced_items (roomTraced _)).bind fun _ _ _ _ => (Traced.of_passes passes_textEnd).trivial

theorem traced_single {what : Expected} {production : Read (Option α)}
    {holds : Option α → Reader → Prop}
    (traced : Traced setting defines homes production reader holds) :
    Traced setting defines homes (single setting what production) reader fun _ _ => True := by
  refine traced.bind fun found _ _ _ => ?_
  split
  · exact .past passes_textEnd fun _ _ _ _ => .pure True.intro
  · exact .fail nofun

end Read

end ConceptualGraph

end
