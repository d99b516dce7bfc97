/-
Module: ConceptualGraph.Proofs.Reading.Marked
Purpose: The markers of a text are read in the order in which they stand there, for concepts that
  are made in that order, and what is read with digits is paired with them.
Main exports: Token.digits?, Occurrence, Model.marked, Moment.marker?, Moment.Since,
  Moment.Acts.since, Moment.Leads.since, Moment.Since.marked, Moment.Since.marked_eq
-/
import ConceptualGraph.Proofs.Reading.Acts

namespace ConceptualGraph

/-! ## Markers of texts and of arenas -/

/-- The digits of a marker token, if it is one. -/
def Token.digits? : Token → Option (Option String)
  | .marker digits => some digits
  | _ => none

/-- The digits of the markers among tokens. -/
def marks (tokens : List Located) : List (Option String) :=
  tokens.filterMap (·.token.digits?)

/-- A marker in a text, with the digits with which it stands there if there are any. -/
structure Occurrence where
  digits : Option String
  marker : MarkerId

/-- The markers that concepts designate, in the order in which the concepts have been made. -/
def Model.marked (model : Model) : List MarkerId :=
  (List.range model.concepts.size).filterMap fun place => (model.concept ⟨place⟩).marker?

/-- What more is not filtered out. -/
theorem filterMap_sublist_filterMap {α β : Type} {less more : α → Option β} {elements : List α}
    (grows : ∀ element value, less element = some value → more element = some value) :
    (elements.filterMap less).Sublist (elements.filterMap more) := by
  induction elements with
  | nil => exact .refl _
  | cons element elements ih =>
      cases found : less element with
      | none =>
          rw [List.filterMap_cons_none found]
          exact ih.trans ((List.sublist_cons_self _ _).filterMap _)
      | some value =>
          rw [List.filterMap_cons_some found, List.filterMap_cons_some (grows _ _ found)]
          exact ih.cons_cons _

theorem filterMap_range'_succ {α : Type} (value : Nat → Option α) {start last : Nat}
    (reached : start ≤ last) : (List.range' start (last + 1 - start)).filterMap value =
      (List.range' start (last - start)).filterMap value ++ (value last).toList := by
  obtain ⟨more, rfl⟩ := Nat.exists_eq_add_of_le reached
  have count : start + more + 1 - start = more + 1 := by omega
  rw [count, Nat.add_sub_cancel_left, List.range'_1_concat, List.filterMap_append]
  cases found : value (start + more) <;> simp [found]

/-- What is found at the last place only now comes last. -/
theorem filterMap_range'_found {α : Type} {value former : Nat → Option α} {found : α}
    {start last : Nat} (reached : start ≤ last)
    (same : ∀ place, place < last → value place = former place)
    (now : value last = some found) (before : former last = none) :
    (List.range' start (last + 1 - start)).filterMap value =
      (List.range' start (last + 1 - start)).filterMap former ++ [found] := by
  rw [filterMap_range'_succ value reached, filterMap_range'_succ former reached, now, before,
    Option.toList_none, List.append_nil, Option.toList_some]
  refine congrArg (· ++ _) (List.filterMap_congr fun place member => same place ?_)
  have inside := (List.mem_range'_1.mp member).2
  omega

namespace Model

variable {model later : Model} {concept : ConceptId}

/-- A concept designates the marker of the referent that it is given. -/
theorem marker?_setReferent {referent : Referent} (inside : concept.index < model.concepts.size)
    (id : ConceptId) : ((model.setReferent concept referent).concept id).marker? =
      if id = concept then referent.marker? else (model.concept id).marker? := by
  have refers : ((model.modifyConcept concept fun data =>
      { data with referent := some referent }).concept id).marker? =
        if id = concept then referent.marker? else (model.concept id).marker? := by
    split
    · next here =>
      subst here
      rw [concept_modifyConcept inside]
      rfl
    · next apart => rw [concept_modifyConcept_of_ne apart]
  unfold setReferent
  dsimp only
  split <;> exact refers

theorem markers_setReferent {referent : Referent} :
    (model.setReferent concept referent).markers = model.markers := by
  unfold setReferent
  dsimp only
  split <;> rfl

/-- A membership that is noted leaves all markers. -/
theorem marker?_noteMembership {set : CorefSetId} (id : ConceptId) :
    ((model.noteMembership set concept).concept id).marker? = (model.concept id).marker? := by
  have kept (data : Concept) :
    ({ data with corefSets := data.corefSets ++ [set] } : Concept).marker? = data.marker? := rfl
  exact field_modifyConcept model concept Concept.marker? kept id

end Model

/-! ## Readings in progress -/

namespace Moment

variable {start : Reader} {read : List Occurrence} {moment later : Moment}

/-- The number of concepts of the arena. -/
abbrev size (moment : Moment) : Nat := moment.reader.model.concepts.size

/-- The marker of a concept: what has been read for it, as long as it awaits its referent. -/
def marker? (moment : Moment) (concept : ConceptId) : Option MarkerId :=
  (moment.awaiting.lookup concept).getD (moment.reader.model.concept concept).marker?

/-- A concept that waits has the marker that has been read for it, if any has. -/
theorem marker?_cons (reader : Reader) (concept : ConceptId) (marker : Option MarkerId)
    (awaiting : Awaiting) (id : ConceptId) :
    Moment.marker? ⟨reader, (concept, marker) :: awaiting⟩ id =
      if id = concept then marker else Moment.marker? ⟨reader, awaiting⟩ id := by
  unfold Moment.marker?
  rw [List.lookup_cons]
  by_cases here : id = concept
  · subst here
    simp
  · rw [beq_eq_false_iff_ne.mpr here, if_neg here]

/-- A concept that no longer waits has the marker of its designator. -/
theorem marker?_of_not_mem {reader : Reader} {concept : ConceptId} {awaiting : Awaiting}
    (missing : concept ∉ awaiting.map Prod.fst) :
    Moment.marker? ⟨reader, awaiting⟩ concept = (reader.model.concept concept).marker? := by
  have unlisted : awaiting.lookup concept = none := by
    rw [List.lookup_eq_none_iff]
    rintro ⟨id, marker⟩ member
    simp only [bne_iff_ne]
    rintro rfl
    exact missing (List.mem_map_of_mem member)
  rw [Moment.marker?, unlisted, Option.getD_none]

/-- What has been read since a state of reading, in the order of the text: it is designated by the
concepts that have been made since, in the same order. -/
structure Since (start : Reader) (read : List Occurrence) (moment : Moment) : Prop where
  rest : moment.reader.rest <:+ start.rest
  text : marks start.rest = read.map Occurrence.digits ++ marks moment.reader.rest
  grown : start.model.concepts.size ≤ moment.size
  awaited : ∀ concept ∈ moment.awaiting.map Prod.fst,
    start.model.concepts.size ≤ concept.index ∧ concept.index < moment.size ∧
      (moment.reader.model.concept concept).marker? = none
  once : (moment.awaiting.map Prod.fst).Nodup
  former : ∀ concept : ConceptId, concept.index < start.model.concepts.size →
    (moment.reader.model.concept concept).marker? = (start.model.concept concept).marker?
  made : (List.range' start.model.concepts.size (moment.size - start.model.concepts.size)).filterMap
    (fun place => moment.marker? ⟨place⟩) = read.map Occurrence.marker
  sound : moment.reader.markers.Sound moment.reader.model.markers
  pairs : start.markers.pairs <:+ moment.reader.markers.pairs
  paired : ∀ occurrence ∈ read, ∀ foreign, occurrence.digits = some foreign →
    (foreign, occurrence.marker) ∈ moment.reader.markers.pairs
  markers : start.model.markers ≤ moment.reader.model.markers
  inside : ∀ occurrence ∈ read, occurrence.marker.index < moment.reader.model.markers

/-- At the start nothing has been read and no marker been taken. -/
theorem Since.refl (sound : start.markers.Sound start.model.markers) :
    Since start [] ⟨start, []⟩ where
  rest := List.suffix_rfl
  text := rfl
  grown := Nat.le_refl _
  awaited := nofun
  once := List.nodup_nil
  former _ _ := rfl
  made := by simp
  sound := sound
  pairs := List.suffix_rfl
  paired := nofun
  markers := Nat.le_refl _
  inside := nofun

namespace Since

/-- Nothing is read, and no concept is made. -/
theorem still (since : Since start read moment) (rest : later.reader.rest = moment.reader.rest)
    (table : later.reader.markers = moment.reader.markers)
    (markers : later.reader.model.markers = moment.reader.model.markers)
    (size : later.size = moment.size) (awaiting : later.awaiting <:+ moment.awaiting)
    (kept : ∀ concept, concept.index < start.model.concepts.size ∨
      concept ∈ later.awaiting.map Prod.fst →
        (later.reader.model.concept concept).marker? =
          (moment.reader.model.concept concept).marker?)
    (same : ∀ concept, later.marker? concept = moment.marker? concept) :
    Since start read later where
  rest := rest ▸ since.rest
  text := rest ▸ since.text
  grown := size ▸ since.grown
  awaited concept member := by
    have ⟨new, inside, unmarked⟩ := since.awaited concept ((awaiting.map _).subset member)
    exact ⟨new, size ▸ inside, (kept concept (.inr member)).trans unmarked⟩
  once := since.once.sublist (awaiting.sublist.map _)
  former concept old := (kept concept (.inl old)).trans (since.former concept old)
  made := by
    rw [size]
    simpa only [same] using since.made
  sound := by
    rw [table, markers]
    exact since.sound
  pairs := table ▸ since.pairs
  paired := table ▸ since.paired
  markers := markers ▸ since.markers
  inside := markers ▸ since.inside

/-- Neither are concepts edited as far as markers are concerned. -/
theorem quiet (since : Since start read moment) {model : Model} {labels : LabelTable}
    (size : model.concepts.size = moment.size)
    (marker : ∀ concept, (model.concept concept).marker? =
      (moment.reader.model.concept concept).marker?)
    (markers : model.markers = moment.reader.model.markers) :
    Since start read ⟨{ moment.reader with model, labels }, moment.awaiting⟩ :=
  since.still rfl rfl markers size List.suffix_rfl (fun concept _ => marker concept)
    fun concept => by simp only [Moment.marker?, marker]

theorem count (since : Since start read moment) (depth : Nat) :
    Since start read ⟨moment.reader.atDepth depth, moment.awaiting⟩ where
  __ := since

/-- A token that is no marker tells nothing of one. -/
theorem past (since : Since start read moment) {found : Located} {rest : List Located}
    (next : moment.reader.rest = found :: rest) (plain : ∀ digits, found.token ≠ .marker digits) :
    Since start read ⟨moment.reader.withRest rest, moment.awaiting⟩ where
  __ := since
  rest := (next ▸ List.suffix_cons _ _ : rest <:+ moment.reader.rest).trans since.rest
  text := by
    have unmarked : found.token.digits? = none := by
      cases marks : found.token <;> first | rfl | exact absurd marks (plain _)
    have same : marks moment.reader.rest = marks rest := by
      rw [next]
      exact List.filterMap_cons_none unmarked
    exact same ▸ since.text

/-- A concept that is made waits for its designator. -/
theorem conceive (since : Since start read moment) (type : Option ConceptType) :
    Since start read ⟨moment.reader.withModel (moment.reader.model.newConcept type).2,
      ((moment.reader.model.newConcept type).1, none) :: moment.awaiting⟩ := by
  let later : Moment := ⟨moment.reader.withModel (moment.reader.model.newConcept type).2,
    ((moment.reader.model.newConcept type).1, none) :: moment.awaiting⟩
  have size : later.size = moment.size + 1 := Model.size_newConcept
  have old (concept : ConceptId) (inside : concept.index < moment.size) :
      later.reader.model.concept concept = moment.reader.model.concept concept :=
    Model.concept_newConcept_of_lt inside
  have unawaited : (⟨moment.size⟩ : ConceptId) ∉ moment.awaiting.map Prod.fst := fun member =>
    Nat.lt_irrefl _ (since.awaited _ member).2.1
  have grown := since.grown
  refine { since with grown := ?_, awaited := ?_, once := ?_, former := ?_, made := ?_ }
  · change _ ≤ later.size
    omega
  · intro concept member
    rcases List.mem_cons.mp member with rfl | member
    · refine ⟨grown, Nat.lt_of_lt_of_eq (Nat.lt_succ_self _) size.symm, ?_⟩
      exact congrArg Concept.marker? Model.concept_newConcept
    · have ⟨new, inside, unmarked⟩ := since.awaited concept member
      exact ⟨new, Nat.lt_of_lt_of_eq (Nat.lt_succ_of_lt inside) size.symm,
        old concept inside ▸ unmarked⟩
  · exact List.nodup_cons.mpr ⟨unawaited, since.once⟩
  · intro concept here
    have same := old concept (Nat.lt_of_lt_of_le here grown)
    exact (congrArg Concept.marker? same).trans (since.former concept here)
  · have same (concept : ConceptId) (inside : concept.index < moment.size) :
        later.marker? concept = moment.marker? concept := by
      have apart : concept ≠ (moment.reader.model.newConcept type).1 := fun same =>
        Nat.ne_of_lt inside (congrArg _ same)
      rw [Moment.marker?_cons, if_neg apart, Moment.marker?, Moment.marker?, old concept inside]
    have new : later.marker? ⟨moment.size⟩ = none := (Moment.marker?_cons ..).trans (if_pos rfl)
    change (List.range' _ (later.size - _)).filterMap (fun place => later.marker? ⟨place⟩) = _
    rw [size, filterMap_range'_succ _ grown, new, ← since.made]
    refine (List.append_nil _).trans (List.filterMap_congr fun place member => same ⟨place⟩ ?_)
    have := (List.mem_range'_1.mp member).2
    change place < moment.size
    omega

section

variable {reader : Reader} {awaiting : Awaiting} {concept : ConceptId}

/-- The concept whose referent is awaited first is awaited once. -/
theorem unawaited {marker : Option MarkerId}
    (since : Since start read ⟨reader, (concept, marker) :: awaiting⟩) :
    concept ∉ awaiting.map Prod.fst :=
  (List.nodup_cons.mp since.once).1

/-- A marker that is read is the one of its identifier, new where the identifier is new. -/
theorem mark (since : Since start read ⟨reader, (concept, none) :: awaiting⟩)
    {digits : Option String} {found : Located} {rest : List Located}
    (next : reader.rest = found :: rest) (marker : found.token = .marker digits)
    (last : concept.index + 1 = reader.model.concepts.size) :
    Since start (read ++ [⟨digits, (reader.markers.read digits reader.model).1⟩])
      ⟨{ reader with
          rest
          markers := (reader.markers.read digits reader.model).2.1
          model := (reader.markers.read digits reader.model).2.2 },
        (concept, some (reader.markers.read digits reader.model).1) :: awaiting⟩ := by
  have reads := since.sound.read digits
  -- Only the markers may have changed, and from here on they are arbitrary.
  generalize (reader.markers.read digits reader.model).1 = denoted at reads ⊢
  have concepts : (reader.markers.read digits reader.model).2.2.concepts = reader.model.concepts :=
    (reader.markers.model_read digits reader.model).elim
      (congrArg Model.concepts) (congrArg Model.concepts)
  generalize (reader.markers.read digits reader.model).2.2 = model at reads concepts ⊢
  generalize (reader.markers.read digits reader.model).2.1 = table at reads ⊢
  have same (id : ConceptId) : model.concept id = reader.model.concept id := by
    rw [Model.concept, concepts, Model.concept]
  have size : model.concepts.size = reader.model.concepts.size := congrArg Array.size concepts
  have new := (since.awaited concept List.mem_cons_self).1
  refine
    { rest := (next ▸ List.suffix_cons _ _ : rest <:+ reader.rest).trans since.rest
      text := ?_
      grown := since.grown.trans (Nat.le_of_eq size.symm)
      awaited := fun id member => ?_
      once := since.once
      former := fun id old => (congrArg Concept.marker? (same id)).trans (since.former id old)
      made := ?_
      sound := reads.sound
      pairs := since.pairs.trans reads.pairs
      paired := ?_
      markers := Nat.le_trans since.markers reads.markers
      inside := ?_ }
  · have marked : marks reader.rest = digits :: marks rest := by
      rw [next]
      exact List.filterMap_cons_some (by rw [marker]; rfl)
    rw [List.map_append, List.append_assoc, since.text, marked]
    rfl
  · obtain ⟨new, inside, unmarked⟩ := since.awaited id member
    exact ⟨new, Nat.lt_of_lt_of_eq inside size.symm,
      (congrArg Concept.marker? (same id)).trans unmarked⟩
  · -- The concept is the last one, so its marker comes last.
    rw [List.map_append, ← since.made]
    change (List.range' _ (model.concepts.size - _)).filterMap _ =
      (List.range' _ (reader.model.concepts.size - _)).filterMap _ ++ _
    rw [size, ← last]
    refine filterMap_range'_found new (fun place before => ?_)
      ((Moment.marker?_cons ..).trans (if_pos rfl)) ((Moment.marker?_cons ..).trans (if_pos rfl))
    have apart : (⟨place⟩ : ConceptId) ≠ concept := fun same =>
      Nat.ne_of_lt before (congrArg ConceptId.index same)
    rw [Moment.marker?_cons, Moment.marker?_cons, if_neg apart, if_neg apart, Moment.marker?,
      Moment.marker?, same]
  · refine List.forall_mem_append.mpr ⟨fun occurrence member foreign here => ?_, ?_⟩
    · exact reads.pairs.subset (since.paired occurrence member foreign here)
    · exact List.forall_mem_singleton.mpr reads.paired
  · refine List.forall_mem_append.mpr ⟨fun occurrence member => ?_, ?_⟩
    · exact Nat.lt_of_lt_of_le (since.inside occurrence member) reads.markers
    · exact List.forall_mem_singleton.mpr reads.inside

/-- The referent that a concept has awaited shows its marker. -/
theorem refer {marker : Option MarkerId} {referent : Referent}
    (since : Since start read ⟨reader, (concept, marker) :: awaiting⟩)
    (same : referent.marker? = marker) :
    Since start read ⟨reader.withModel (reader.model.setReferent concept referent), awaiting⟩ := by
  have ⟨new, inside, unmarked⟩ := since.awaited concept List.mem_cons_self
  have unawaited := since.unawaited
  have others (id : ConceptId) (apart : id ≠ concept) :
      ((reader.model.setReferent concept referent).concept id).marker? =
        (reader.model.concept id).marker? :=
    (Model.marker?_setReferent inside id).trans (if_neg apart)
  refine since.still rfl rfl Model.markers_setReferent Model.size_setReferent
    (List.suffix_cons _ _) (fun id kept => others id ?_) fun id => ?_
  · rintro rfl
    exact kept.elim (Nat.not_lt_of_le new) unawaited
  · rw [Moment.marker?_cons]
    split
    · next here =>
      subst here
      rw [Moment.marker?_of_not_mem unawaited]
      exact (Model.marker?_setReferent inside id).trans ((if_pos rfl).trans same)
    · next apart =>
      unfold Moment.marker?
      exact congrArg _ (others id apart)

/-- A concept that has waited for nothing waits no longer. -/
theorem leave (since : Since start read ⟨reader, (concept, none) :: awaiting⟩) :
    Since start read ⟨reader, awaiting⟩ := by
  have ⟨_, _, unmarked⟩ := since.awaited concept List.mem_cons_self
  refine since.still rfl rfl rfl rfl (List.suffix_cons _ _) (fun _ _ => rfl) fun id => ?_
  rw [Moment.marker?_cons]
  split
  · next here => rw [here, Moment.marker?_of_not_mem since.unawaited, unmarked]
  · rfl

end

end Since

/-- One more act goes on from what has been read. -/
theorem Acts.since (acts : Acts moment later) (since : Since start read moment) :
    ∃ more, Since start (read ++ more) later := by
  have nothing {moment : Moment} (since : Since start read moment) :
      ∃ more, Since start (read ++ more) moment := ⟨[], (List.append_nil read).symm ▸ since⟩
  cases acts with
  | past next plain => exact nothing (since.past next plain)
  | edit quiet => exact nothing (since.quiet quiet.size quiet.marker quiet.markers)
  | conceive type => exact nothing (since.conceive type)
  | mark next marks last => exact ⟨_, since.mark next marks last⟩
  | refer same => exact nothing (since.refer same)
  | leave => exact nothing since.leave
  | @promote reader _ concept label denotes =>
      exact nothing (since.quiet Model.size_modifyConcept (Model.marker?_noteMembership ·) rfl)
  | join denotes inside added =>
      refine nothing (since.quiet (Model.size_addToCorefSet added) ?_ ?_)
      all_goals rcases Model.eq_of_addToCorefSet added with ⟨-, rfl⟩ | ⟨-, rfl⟩
      · exact fun _ => rfl
      · exact (Model.marker?_noteMembership ·)
      · rfl
      · rfl
  | define | push | pop => exact nothing (since.quiet rfl (fun _ => rfl) rfl)
  | count depth => exact nothing (since.count depth)

/-- So do any number of acts. -/
theorem Leads.since (leads : Leads ⟨start, []⟩ moment)
    (sound : start.markers.Sound start.model.markers) : ∃ read, Since start read moment := by
  induction leads with
  | refl => exact ⟨[], .refl sound⟩
  | tail _ acts ih =>
      obtain ⟨read, since⟩ := ih
      obtain ⟨more, further⟩ := acts.since since
      exact ⟨_, further⟩

namespace Since

/-- The markers of an arena are those that were there and those of the new concepts. -/
theorem marked_split (since : Since start read moment) : moment.reader.model.marked =
    start.model.marked ++
      (List.range' start.model.concepts.size (moment.size - start.model.concepts.size)).filterMap
        fun place => (moment.reader.model.concept ⟨place⟩).marker? := by
  have all : moment.reader.model.concepts.size =
      start.model.concepts.size + (moment.size - start.model.concepts.size) :=
    (Nat.add_sub_of_le since.grown).symm
  unfold Model.marked
  rw [all, List.range_eq_range', ← List.range'_append_1, List.filterMap_append, Nat.zero_add,
    ← List.range_eq_range']
  refine congrArg (· ++ _) (List.filterMap_congr fun place member => ?_)
  exact since.former ⟨place⟩ (List.mem_range.mp member)

/-- Of what has been read some is designated by the new concepts, in its order. -/
theorem marked (since : Since start read moment) : ∃ kept : List MarkerId,
    kept.Sublist (read.map Occurrence.marker) ∧
      moment.reader.model.marked = start.model.marked ++ kept := by
  refine ⟨_, ?_, since.marked_split⟩
  rw [← since.made]
  refine filterMap_sublist_filterMap fun place marker found => ?_
  by_cases awaits : (⟨place⟩ : ConceptId) ∈ moment.awaiting.map Prod.fst
  · rw [(since.awaited _ awaits).2.2] at found
    cases found
  · exact (Moment.marker?_of_not_mem awaits).trans found

/-- All that has been read is designated by the new concepts where none awaits its referent. -/
theorem marked_eq {reader : Reader} (since : Since start read ⟨reader, []⟩) :
    reader.model.marked = start.model.marked ++ read.map Occurrence.marker := by
  rw [← since.made]
  exact since.marked_split

/-- What has been read are the markers of the text, up to those that are left of it. -/
theorem digits_isPrefix (since : Since start read moment) :
    read.map Occurrence.digits <+: marks start.rest :=
  ⟨_, since.text.symm⟩

/-- All markers of a text have been read where no token is left. -/
theorem digits_eq (since : Since start read moment)
    (going : ∀ located ∈ start.rest, located.token ≠ .endOfInput)
    (ended : (moment.reader.ahead 0).token = .endOfInput) :
    read.map Occurrence.digits = marks start.rest := by
  have exhausted : moment.reader.rest = [] := by
    cases left : moment.reader.rest with
    | nil => rfl
    | cons found rest =>
        have member : found ∈ start.rest := since.rest.subset (left ▸ List.mem_cons_self)
        rw [Reader.ahead, left] at ended
        exact absurd ended (going found member)
  rw [since.text, exhausted]
  exact (List.append_nil _).symm

end Since

end Moment

end ConceptualGraph
