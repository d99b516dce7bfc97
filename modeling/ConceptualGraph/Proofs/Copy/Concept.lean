/-
Module: ConceptualGraph.Proofs.Copy.Concept
Purpose: A concept that is not a context is read back.
Main exports: Read.typePart_achieves, Read.conceptBody_outcome, Read.concept_outcome
-/
import ConceptualGraph.Proofs.Copy.Nested

namespace ConceptualGraph.Read

open Write

variable {model : Model} {source form : Notation} {setting : Setting} {inner : Inner}
  {unfinished : Unfinished} {writer opened after : Writer} {reader : Reader} {graph place : GraphId}
  {outer : List GraphId} {concept : ConceptId} {inside : Inside} {brackets : Nat}
  {use : Option LabelUse} {rest colon : List Token} {lambda : Read Definition}

/-! ## The type -/

/-- A label comes before what a concept refers to. -/
theorem rank_label {first : Token} {others : List Token}
    (starts : labelTokens use = first :: others) :
    first.rank = 2 := by
  cases use with
  | none => cases starts
  | some use =>
      cases use with
      | defining label =>
          cases starts
          rfl
      | bound label =>
          cases starts
          rfl

theorem rank_quantifier {value : Option Quantifier} {first : Token} {others : List Token}
    (starts : partTokens form Write.quantifier value = first :: others) : first.rank = 3 := by
  cases value with
  | none => cases starts
  | some value => cases value <;> cases starts <;> rfl

theorem rank_colon {first : Token} {others : List Token}
    (optional : colon = [] ∨ colon = [.punct .colon]) (starts : colon = first :: others) :
    first.rank = 1 := by
  rcases optional with rfl | rfl
  · cases starts
  · cases starts
    rfl

/-- The tokens with which a bracket without a type begins. -/
theorem first_of_parts {value : Option Quantifier} {first : Token} {others more : List Token}
    (optional : colon = [] ∨ colon = [.punct .colon])
    (starts : colon ++ (labelTokens use ++ (partTokens form Write.quantifier value ++ more)) =
      first :: others) :
    first.rank ≤ 3 ∨ colon = [] ∧ labelTokens use = [] ∧
      partTokens form Write.quantifier value = [] ∧ more = first :: others := by
  rcases List.append_eq_cons_iff.mp starts with ⟨noColon, starts⟩ | ⟨back, starts, -⟩
  · rcases List.append_eq_cons_iff.mp starts with ⟨noLabel, starts⟩ | ⟨back, starts, -⟩
    · rcases List.append_eq_cons_iff.mp starts with ⟨noQuantifier, starts⟩ | ⟨back, starts, -⟩
      · exact .inr ⟨noColon, noLabel, noQuantifier, starts⟩
      · exact .inl (Nat.le_of_eq (rank_quantifier starts))
    · exact .inl (by rw [rank_label starts]; decide)
  · exact .inl (by rw [rank_colon optional starts]; decide)

/-- The type of a concept is read back, or with a number that is written as a word the number
is taken for one. -/
theorem typePart_achieves (copyable : model.Copyable source form)
    (tracks : Tracks model unfinished writer reader)
    (onDemand : setting.options.createTypesOnDemand = true)
    (optional : colon = [] ∨ colon = [.punct .colon])
    (starts : reader.tokens = typeTokens model (model.concept concept).type ++ (colon ++
      (labelTokens use ++
        (partTokens form Write.quantifier (conceptQuantifier (model.concept concept)) ++
        (designatorTokens form writer.markers (conceptDesignator (model.concept concept)) ++
          rest)))))
    (next : From 5 rest) (bare : ∀ others, rest ≠ .punct .leftParen :: .keyword .lambda :: others) :
    Achieves (conceptType setting lambda) reader fun type later => ∃ remaining,
      (remaining =
        designatorTokens form writer.markers (conceptDesignator (model.concept concept)) ∨
        IsFraction (conceptDesignator (model.concept concept)) ∧ remaining = []) ∧
      Reads model unfinished writer reader (colon ++ (labelTokens use ++
        (partTokens form Write.quantifier (conceptQuantifier (model.concept concept)) ++
          (remaining ++ rest)))) later ∧
      (¬IsFraction (conceptDesignator (model.concept concept)) →
        Option.Rel (model.hierarchy.concepts.Alike later.model.hierarchy.concepts)
          (model.concept concept).type type) := by
  cases typed : (model.concept concept).type with
  | some known =>
      obtain ⟨label, named, -⟩ := copyable.conceptType concept known typed
      have tokens := starts
      simp only [typed, typeTokens, Option.elim_some, named, Option.getD_some,
        List.singleton_append] at tokens
      refine (conceptType_achieves tracks onDemand tokens).mono fun type later facts => ?_
      obtain ⟨reads, copy, same, copied⟩ := facts
      refine ⟨_, .inl rfl, reads, fun _ => ?_⟩
      rw [same]
      exact .some ⟨label, named, copied⟩
  | none =>
      have tokens : reader.tokens = colon ++ (labelTokens use ++
          (partTokens form Write.quantifier (conceptQuantifier (model.concept concept)) ++
            (designatorTokens form writer.markers (conceptDesignator (model.concept concept)) ++
              rest))) := by
        rw [starts, typed]
        rfl
      -- Without a type the first word may only be that of a number with a fraction, which is then
      -- read as the type.
      by_cases worded : ∃ word others, reader.tokens = .ident word :: others
      · obtain ⟨word, others, begins⟩ := worded
        rcases first_of_parts optional (tokens.symm.trans begins) with early | ⟨rfl, noLabel,
          noQuantifier, starts⟩
        · exact absurd early (by simp [Token.rank])
        · rw [noLabel, noQuantifier]
          rcases List.append_eq_cons_iff.mp starts with ⟨-, later⟩ | ⟨back, number, same⟩
          · obtain ⟨first, more, same, high⟩ := next
            rw [later] at same
            cases same
            exact absurd high (by simp [Token.rank])
          · obtain ⟨fraction, rfl⟩ := isFraction_of_ident number
            subst same
            exact (conceptType_achieves tracks onDemand begins).mono fun type later facts =>
              ⟨[], .inr ⟨fraction, rfl⟩, facts.1, fun whole => absurd fraction whole⟩
      · have untyped : Untyped reader.tokens := by
          refine ⟨fun word others same => worded ⟨word, others, same⟩, fun others same => ?_⟩
          rcases first_of_parts optional (tokens.symm.trans same) with early | ⟨-, -, -, starts⟩
          · exact absurd early (by decide)
          · rcases List.append_eq_cons_iff.mp starts with ⟨-, later⟩ | ⟨back, number, -⟩
            · exact bare others later
            · exact absurd (designatorTokens_rank number) (by decide)
        obtain ⟨first, others, begins⟩ : ∃ first others, reader.tokens = first :: others := by
          obtain ⟨first, more, same, -⟩ := next
          refine List.exists_cons_of_ne_nil ?_
          rw [tokens, same]
          simp
        refine (conceptType_achieves_none begins untyped).mono fun type later facts => ?_
        obtain ⟨missing, same⟩ := facts
        refine ⟨_, .inl rfl, ?_, fun _ => ?_⟩
        · subst same
          exact .of_past tracks (.refl _) tokens
        · rw [missing]
          exact .none

/-! ## The referent -/

/-- Where nothing was read of a designator, it was a number taken for a type. -/
theorem designatorPart_achieves (copyable : model.Copyable source form) {remaining : List Token}
    (tracks : Tracks model unfinished writer reader)
    (inside : concept.index < model.concepts.size)
    (which : remaining =
        designatorTokens form writer.markers (conceptDesignator (model.concept concept)) ∨
      IsFraction (conceptDesignator (model.concept concept)) ∧ remaining = [])
    (starts : reader.tokens = remaining ++ rest) (next : From 5 rest) :
    Achieves designator reader fun read later =>
      Reads model unfinished (writer.withMarkers
          (designated writer.markers (conceptDesignator (model.concept concept))).2)
        reader rest later ∧
      writer.Onward (writer.withMarkers
        (designated writer.markers (conceptDesignator (model.concept concept))).2) ∧
      (¬IsFraction (conceptDesignator (model.concept concept)) →
        Option.Rel (Designator.Copied ((writer.withMarkers
          (designated writer.markers (conceptDesignator (model.concept concept))).2).ledger model))
          (conceptDesignator (model.concept concept)) read) := by
  -- A fraction has been read as the type by now and leaves no designator.
  rcases which with rfl | ⟨⟨number, fraction⟩, rfl⟩
  · cases described : (model.concept concept).referent with
    | none =>
        have nothing : conceptDesignator (model.concept concept) = none := by
          simp [conceptDesignator, described]
        rw [nothing] at starts ⊢
        refine (designator_achieves_none (starts ▸ next)).mono fun read later facts => ?_
        obtain ⟨rfl, rfl⟩ := facts
        exact ⟨.of_past tracks (.refl _) starts, .refl _, fun _ => .none⟩
    | some referent =>
        have named : conceptDesignator (model.concept concept) = referent.designator := by
          simp [conceptDesignator, described]
        have sound := (copyable.conceptSound inside).referent referent described
        rw [named] at starts ⊢
        refine designator_achieves tracks copyable.markers sound.designator (fun id same => ?_)
          (fun encoding payload same => copyable.encoding concept referent encoding payload
            described same) starts next
        have undefined := copyable.undefined concept
        simp [Model.designates?, described, Referent.definedBy?, same] at undefined
  · rw [fraction]
    refine (designator_achieves_none (starts ▸ next)).mono fun read later facts => ?_
    obtain ⟨-, rfl⟩ := facts
    exact ⟨.of_past tracks (.refl _) starts, .refl _, fun whole => absurd ⟨number, rfl⟩ whole⟩

/-- The parts of a referent that have been read back make up a copy of it. -/
theorem referentCopied (copyable : model.Copyable source form)
    (inside : concept.index < model.concepts.size) {ledger : Ledger}
    {quantifier : Option Quantifier}
    {designator : Option Designator} {descriptor : Option GraphId}
    (quantified : quantifier = conceptQuantifier (model.concept concept))
    (designated : Option.Rel (Designator.Copied ledger)
      (conceptDesignator (model.concept concept)) designator)
    (described : Option.Rel ledger.Graph (model.descriptor? concept) descriptor) :
    Option.Rel (Referent.Copied ledger) (model.concept concept).referent
      (if ({ quantifier, designator, descriptor } : Referent).isEmpty then none
        else some { quantifier, designator, descriptor }) := by
  subst quantified
  cases known : (model.concept concept).referent with
  | none =>
      have nothing : model.descriptor? concept = none := by simp [Model.descriptor?, known]
      simp only [conceptDesignator, known, Option.bind_none, nothing] at designated described
      cases designated
      cases described
      simp only [conceptQuantifier, known, Option.bind_none]
      exact .none
  | some referent =>
      have describes : model.descriptor? concept = referent.descriptor := by
        simp [Model.descriptor?, known]
      have nonempty := ((copyable.conceptSound inside).referent referent known).nonempty
      simp only [conceptDesignator, conceptQuantifier, known, Option.bind_some, describes]
        at designated described ⊢
      have full :
        ({ quantifier := referent.quantifier, designator, descriptor } : Referent).isEmpty =
          false := by
        simpa only [Referent.isEmpty, isNone_of_rel designated, isNone_of_rel described]
          using nonempty
      rw [full]
      exact .some ⟨rfl, designated, described⟩

/-- What a concept refers to is read back part by part: its quantifier, its designator and the graph
that it describes. -/
theorem referent_achieves (copyable : model.Copyable source form) {copy : ConceptId}
    {data : Concept} {drafts : List (ConceptId × Concept)} {nested : List Phrase}
    {remaining : List Token}
    (mirrors : Mirrors model form setting inner (graph :: outer))
    (tracks : Tracks model unfinished writer reader) (within : unfinished.graphs = graph :: outer)
    (stands : (model.concept concept).graph = some graph)
    (visible : (model.concept concept).hidden = false)
    (waits : unfinished.waiting = (model.descriptor? concept).toList)
    (open_ : unfinished.drafts = (copy, data) :: drafts) (blank : data.referent = none)
    (copies : (writer.ledger model).Concept concept copy)
    (untouched : ∀ id, model.descriptor? concept = some id → model.Untouched writer id)
    (room : ∀ id, inside.items id = items setting (roomFor setting brackets) id)
    (ran : nestedGraphs inner (model.descriptor? concept) (writer.withMarkers
      (designated writer.markers (conceptDesignator (model.concept concept))).2) = .ok nested after)
    (which : remaining =
        designatorTokens form writer.markers (conceptDesignator (model.concept concept)) ∨
      IsFraction (conceptDesignator (model.concept concept)) ∧ remaining = [])
    (starts : reader.tokens =
      partTokens form Write.quantifier (conceptQuantifier (model.concept concept)) ++
        (remaining ++ (nested.flatMap (Phrase.reread form) ++ rest)))
    (later : From 4 (remaining ++ (nested.flatMap (Phrase.reread form) ++ rest)))
    (part : From 5 (nested.flatMap (Phrase.reread form) ++ rest)) (next : From 6 rest)
    (fits : reader.tokens.length ≤ brackets) :
    Achieves (referent inside copy) reader fun _ later => ∃ referent,
      Reads model
        { unfinished with waiting := [], drafts := (copy, { data with referent }) :: drafts }
        after reader rest later ∧ writer.Onward after ∧
      (¬IsFraction (conceptDesignator (model.concept concept)) →
        Option.Rel (Referent.Copied (after.ledger model)) (model.concept concept).referent
          referent) := by
  have known := Model.lt_of_graph stands
  have sound : ∀ value, conceptQuantifier (model.concept concept) = some value →
      value.Sound source := by
    intro value same
    obtain ⟨referent, described, quantified⟩ := Option.bind_eq_some_iff.mp same
    exact ((copyable.conceptSound known).referent referent described).quantifier value quantified
  have name : ∀ word, conceptQuantifier (model.concept concept) = some (.named word) →
      Token.IsName form word := by
    intro word same
    obtain ⟨referent, described, quantified⟩ := Option.bind_eq_some_iff.mp same
    exact copyable.quantifier concept referent word described quantified
  unfold referent
  rw [achieves_bind]
  refine (quantifier_achieves sound name starts later).mono
    fun quantifier first ⟨quantified, left, past⟩ => ?_
  rw [achieves_bind]
  refine (designatorPart_achieves copyable (tracks.past past) known which left part).mono
    fun designator second ⟨reads, marked, designated⟩ => ?_
  rw [achieves_bind]
  have shorter : second.tokens.length ≤ brackets := by
    refine Nat.le_trans ?_ fits
    rw [reads.tokens, starts]
    simp only [List.length_append]
    omega
  refine (descriptor_achieves copyable mirrors reads.tracks within stands visible waits copies
    (fun id describes => ⟨(untouched id describes).concepts, (untouched id describes).relations⟩)
    room ran reads.tokens next shorter).mono
      fun descriptor third ⟨nested, grown, described, owned⟩ => ?_
  have onward : writer.Onward after := marked.trans grown
  have types : reader.model.hierarchy.Extends third.model.hierarchy := by
    have kept : first.model.hierarchy = reader.model.hierarchy := by rw [past.model]
    exact kept ▸ reads.types.trans nested.types
  have copied : ¬IsFraction (conceptDesignator (model.concept concept)) →
      Option.Rel (Referent.Copied (after.ledger model)) (model.concept concept).referent
        (if ({ quantifier, designator, descriptor } : Referent).isEmpty then none
          else some { quantifier, designator, descriptor }) := fun whole =>
    referentCopied copyable known quantified
      (rel_mono (designated whole) fun _ _ copies => copies.mono (grown.continues model)) described
  -- An empty referent is not stored, and neither is one that the original lacks.
  cases empty : ({ quantifier, designator, descriptor } : Referent).isEmpty with
  | true =>
      rw [empty] at copied
      simp only [empty, if_true, achieves_pure]
      refine ⟨none, ⟨nested.tokens, ?_, types⟩, onward, copied⟩
      have same : ({ unfinished with waiting := [] } : Unfinished) = { unfinished with
          waiting := [], drafts := (copy, { data with referent := none }) :: drafts } := by
        rw [open_, ← blank]
      exact same ▸ nested.tracks
  | false =>
      rw [empty] at copied
      simp only [empty, Bool.false_eq_true, if_false, achieves_edit]
      refine ⟨some { quantifier, designator, descriptor }, ⟨nested.tokens, ?_, ?_⟩, onward, copied⟩
      · rw [Model.setReferent_eq owned]
        exact nested.tracks.redrafted (fun data => { data with
            referent := some { quantifier, designator, descriptor } }) open_
          (fun _ => rfl) (fun _ => rfl) (fun _ => rfl) fun _ => rfl
      · rw [Model.setReferent_eq owned]
        exact types

/-! ## The whole concept -/

/-- The end of a concept, after its referent. -/
theorem conceptEnd_achieves {copy : ConceptId} {data : Concept}
    {drafts : List (ConceptId × Concept)} (tracks : Tracks model unfinished writer reader)
    (open_ : unfinished.drafts = (copy, data) :: drafts) (silent : data.comment = none)
    (copies : (writer.ledger model).Concept concept copy)
    (type : ¬(model.concept concept).IsFractional → Option.Rel
      (model.hierarchy.concepts.Alike reader.model.hierarchy.concepts)
      (model.concept concept).type data.type)
    (referent : ¬(model.concept concept).IsFractional → Option.Rel
      (Referent.Copied (writer.ledger model)) (model.concept concept).referent data.referent)
    (plain : (model.concept concept).IsPlain) (shown : data.hidden = false ∧ data.special = none)
    (starts : reader.tokens =
      (Write.comment .concept (model.concept concept).comment).reread form ++
        .punct .rightBracket :: rest) :
    Achieves (do
      if let some comment ← nodeComment .concept then
        edit (·.modifyConcept copy fun data => { data with comment := some comment })
      expect (.punct .rightBracket) .conceptClosing
      return copy) reader fun value later =>
        value = copy ∧ Reads model { unfinished with drafts } writer reader rest later := by
  have bracket : From 7 (.punct .rightBracket :: rest) := ⟨_, _, rfl, Nat.le_refl 7⟩
  rw [achieves_bind]
  refine (nodeComment_achieves starts bracket).mono fun comment later ⟨same, left, past⟩ => ?_
  subst same
  have former := tracks.past past
  have types : reader.model.hierarchy.Extends later.model.hierarchy := by
    rw [past.model]
    exact .refl _
  -- The comment is put into the draft before the concept is settled.
  cases commented : (model.concept concept).comment with
  | none =>
      have bare := (former.nodes.draft (copy, data) (by rw [open_]; exact List.mem_cons_self ..)).2
      simp only [achieves_bind, achieves_expect, achieves_pure, Reader.token_ahead_zero left]
      refine ⟨trivial, trivial, Reader.tail_tokens left, ?_, types⟩
      refine (former.settled open_ copies ?_).past (.next later)
      exact .of_bare bare (fun whole => rel_mono (type whole) fun _ _ alike =>
        alike.mono types.concepts) referent (silent.trans commented.symm)
          (shown.2.trans plain.2.symm) (shown.1.trans plain.1.symm)
  | some text =>
      have edited := former.redrafted (fun data => { data with comment := some text }) open_
        (fun _ => rfl) (fun _ => rfl) (fun _ => rfl) fun _ => rfl
      have bare := (edited.nodes.draft (copy, { data with comment := some text })
        (List.mem_cons_self ..)).2
      dsimp only
      rw [achieves_bind, achieves_edit]
      simp only [achieves_bind, achieves_expect, achieves_pure, Reader.ahead_withModel,
        Reader.token_ahead_zero left]
      refine ⟨trivial, trivial, Reader.tail_tokens left, ?_, types⟩
      refine (edited.settled rfl copies ?_).past (.next _)
      exact .of_bare bare (fun whole => rel_mono (type whole) fun _ _ alike =>
        alike.mono types.concepts) referent commented.symm (shown.2.trans plain.2.symm)
          (shown.1.trans plain.1.symm)

/-- A nested graph begins after the other parts of a referent. -/
theorem nested_from {nested tail : List Token} (nests : nested = [] ∨ OpensGraph nested)
    (next : From 6 tail) : From 5 (nested ++ tail) := by
  rcases nests with rfl | ⟨first, others, rfl, opens, -⟩
  · exact next.mono (by decide)
  · exact ⟨first, others ++ tail, rfl, Nat.le_of_eq (rank_of_startsItem opens).symm⟩

/-- The comment of a concept, or else its bracket, comes after all parts. -/
theorem comment_from (form : Notation) (comment : Option String) (rest : List Token) :
    From 6 ((Write.comment .concept comment).reread form ++ .punct .rightBracket :: rest) := by
  refine From.part (fun first others same => ?_) ⟨_, _, rfl, by decide⟩
  cases comment with
  | none => cases same
  | some text =>
      cases same
      exact Nat.le_refl 6

theorem quantifier_from {value : Option Quantifier} {tail : List Token}
    (next : From 4 tail) : From 3 (partTokens form Write.quantifier value ++ tail) :=
  .part (fun _ _ same => Nat.le_of_eq (rank_quantifier same).symm) (next.mono (by decide))

/-- Before a nested graph, definitions have come first if they have after it. -/
theorem definedFirst_nested (copyable : model.Copyable source form) {nested : List Phrase}
    (ran : nestedGraphs inner (model.descriptor? concept) writer = .ok nested after) :
    model.DefinedFirst writer.order ↔ model.DefinedFirst after.order := by
  cases describes : model.descriptor? concept with
  | none =>
      rw [describes] at ran
      cases ran
      exact Iff.rfl
  | some id =>
      have setless := copyable.setless_of_descriptor? describes
      exact iff_of_true (Model.definedFirst_of_setless setless _)
        (Model.definedFirst_of_setless setless _)

/-- A concept after its type and its colon. -/
theorem conceptRest_outcome (copyable : model.Copyable source form) {nested : List Phrase}
    {remaining : List Token} {type : Option ConceptType}
    (mirrors : Mirrors model form setting inner (graph :: outer))
    (tracks : Tracks model unfinished writer reader) (within : unfinished.graphs = graph :: outer)
    (ready : unfinished.waiting = []) (fresh : concept ∉ writer.order)
    (stands : (model.concept concept).graph = some graph)
    (plain : (model.concept concept).IsPlain)
    (there : (writer.ledger model).Graph graph place)
    (opens : model.Opens writer concept use opened)
    (untouched : ∀ id, model.descriptor? concept = some id →
      model.Untouched (opened.emit concept (use.map LabelUse.label)) id)
    (room : ∀ id, inside.items id = items setting (roomFor setting brackets) id)
    (ran : nestedGraphs inner (model.descriptor? concept)
      ((opened.emit concept (use.map LabelUse.label)).withMarkers
        (designated opened.markers (conceptDesignator (model.concept concept))).2) =
          .ok nested after)
    (which : remaining =
        designatorTokens form opened.markers (conceptDesignator (model.concept concept)) ∨
      IsFraction (conceptDesignator (model.concept concept)) ∧ remaining = [])
    (typed : ¬IsFraction (conceptDesignator (model.concept concept)) → Option.Rel
      (model.hierarchy.concepts.Alike reader.model.hierarchy.concepts)
      (model.concept concept).type type)
    (nests : nested.flatMap (Phrase.reread form) = [] ∨
      OpensGraph (nested.flatMap (Phrase.reread form)))
    (starts : reader.tokens = labelTokens use ++
      (partTokens form Write.quantifier (conceptQuantifier (model.concept concept)) ++
        (remaining ++ (nested.flatMap (Phrase.reread form) ++
          ((Write.comment .concept (model.concept concept).comment).reread form ++
            .punct .rightBracket :: rest)))))
    (fits : reader.tokens.length ≤ brackets) :
    Outcome (model.DefinedFirst after.order) (do
      conceptLabels ⟨reader.model.concepts.size⟩
      referent inside ⟨reader.model.concepts.size⟩
      if let some comment ← nodeComment .concept then
        edit (·.modifyConcept ⟨reader.model.concepts.size⟩ fun data =>
          { data with comment := some comment })
      expect (.punct .rightBracket) .conceptClosing
      return ⟨reader.model.concepts.size⟩)
      (reader.withModel (reader.model.placed { type } place)) fun copy later =>
        Reads model unfinished after reader rest later ∧ writer.Onward after ∧
          (after.ledger model).Concept concept copy := by
  -- Each part is told from the next by its first token.
  have last := comment_from form (model.concept concept).comment rest
  have part := nested_from nests last
  have mostly : From 4 (remaining ++ (nested.flatMap (Phrase.reread form) ++
      ((Write.comment .concept (model.concept concept).comment).reread form ++
        .punct .rightBracket :: rest))) := by
    refine From.part (fun first others same => ?_) (part.mono (by decide))
    rcases which with rfl | ⟨-, rfl⟩
    · exact Nat.le_of_eq (designatorTokens_rank same).symm
    · cases same
  obtain ⟨labels, left⟩ := opens.exists_labels
  have copies := tracks.names_opened opens
  have sameFirst := definedFirst_nested copyable ran
  rw [Writer.order_withMarkers, opens.order_emit] at sameFirst
  refine Outcome.bind (conceptLabels_outcome copyable tracks within ready fresh stands plain there
    opens starts (quantifier_from mostly)) sameFirst.mpr fun _ labelled first reads => ?_
  refine .of_achieves (sameFirst.mp first) ?_
  have shorter : labelled.tokens.length ≤ brackets := by
    refine Nat.le_trans ?_ fits
    rw [reads.tokens, starts]
    simp only [List.length_append]
    omega
  rw [achieves_bind]
  refine (referent_achieves copyable mirrors reads.tracks within stands plain.1 rfl rfl rfl copies
    untouched room ran which reads.tokens mostly part last shorter).mono
      fun _ described ⟨referent, parts, onward, copied⟩ => ?_
  refine (conceptEnd_achieves parts.tracks rfl rfl (copies.mono (onward.continues model))
    (fun whole => rel_mono (typed (isFractional_iff.not.mp whole)) fun _ _ alike => alike.mono
      (reads.types.trans parts.types).concepts)
    (fun whole => copied (isFractional_iff.not.mp whole)) plain ⟨rfl, rfl⟩ parts.tokens).mono
      fun copy later ⟨same, ended⟩ => ?_
  subst same
  refine ⟨⟨ended.tokens, ?_, reads.types.trans (parts.types.trans ended.types)⟩, ?_,
    copies.mono (onward.continues model)⟩
  -- The concept is no draft any more, so that what is unfinished is as it was.
  · have same : ({ unfinished.begin model reader.model concept { type } place with
        waiting := [], drafts := unfinished.drafts } : Unfinished) = unfinished := by
      cases unfinished; cases ready; rfl
    exact same ▸ ended.tracks
  · rw [left] at onward
    exact (Writer.Onward.emit writer concept _).trans
      ⟨onward.emitted, onward.markers, onward.written⟩

/-- A concept after its opening bracket. -/
theorem conceptBody_outcome (copyable : model.Copyable source form) {nested : List Phrase}
    (mirrors : Mirrors model form setting inner (graph :: outer))
    (tracks : Tracks model unfinished writer reader) (within : unfinished.graphs = graph :: outer)
    (ready : unfinished.waiting = []) (fresh : concept ∉ writer.order)
    (stands : (model.concept concept).graph = some graph)
    (plain : (model.concept concept).IsPlain)
    (there : (writer.ledger model).Graph graph place)
    (onDemand : setting.options.createTypesOnDemand = true)
    (opens : model.Opens writer concept use opened)
    (untouched : ∀ id, model.descriptor? concept = some id →
      model.Untouched (opened.emit concept (use.map LabelUse.label)) id)
    (room : ∀ id, inside.items id = items setting (roomFor setting brackets) id)
    (ran : nestedGraphs inner (model.descriptor? concept)
      ((opened.emit concept (use.map LabelUse.label)).withMarkers
        (designated opened.markers (conceptDesignator (model.concept concept))).2) =
          .ok nested after)
    (nests : nested.flatMap (Phrase.reread form) = [] ∨
      OpensGraph (nested.flatMap (Phrase.reread form)))
    (optional : colon = [] ∨ colon = [.punct .colon])
    (starts : reader.tokens = typeTokens model (model.concept concept).type ++ (colon ++
      (labelTokens use ++
        (partTokens form Write.quantifier (conceptQuantifier (model.concept concept)) ++
          (designatorTokens form opened.markers (conceptDesignator (model.concept concept)) ++
            (nested.flatMap (Phrase.reread form) ++
              ((Write.comment .concept (model.concept concept).comment).reread form ++
                .punct .rightBracket :: rest)))))))
    (fits : reader.tokens.length ≤ brackets) :
    Outcome (model.DefinedFirst after.order) (conceptBody setting inside (some place)) reader
      fun copy later => Reads model unfinished after reader rest later ∧ writer.Onward after ∧
        (after.ledger model).Concept concept copy := by
  obtain ⟨labels, left⟩ := opens.exists_labels
  have markers : opened.markers = writer.markers := by rw [left, Writer.markers_withLabels]
  have last := comment_from form (model.concept concept).comment rest
  have part := nested_from nests last
  have bare : ∀ others, nested.flatMap (Phrase.reread form) ++
      ((Write.comment .concept (model.concept concept).comment).reread form ++
        .punct .rightBracket :: rest) ≠ .punct .leftParen :: .keyword .lambda :: others := by
    intro others same
    -- No lambda is taken for the type, because what follows does not open one.
    rcases nests with empty | ⟨first, more, opening, -, typed⟩
    · obtain ⟨token, more, begins, high⟩ := last
      rw [empty, List.nil_append, begins] at same
      cases same
      exact absurd high (by decide)
    · rw [opening] at same
      obtain ⟨rfl, same⟩ := List.cons.inj same
      obtain ⟨word, further, rfl⟩ := typed rfl
      cases same
  unfold conceptBody
  refine Outcome.after (typePart_achieves copyable tracks onDemand optional (markers ▸ starts) part
    bare) fun type first facts => ?_
  obtain ⟨remaining, which, reads, typed⟩ := facts
  have made := Model.addConcept_newConcept reads.tracks.nodes.listed place type
  simp only [outcome_make, Model.newConcept_fst]
  rw [outcome_edit]
  change Outcome _ _ (first.withModel
    ((first.model.newConcept type).2.addConcept place ⟨first.model.concepts.size⟩)) _
  rw [made]
  -- Whether the colon is there or not, the rest of the concept is read by one lemma.
  have follows : ∀ next : Reader, first.Past next → next.tokens = labelTokens use ++
      (partTokens form Write.quantifier (conceptQuantifier (model.concept concept)) ++
        (remaining ++ (nested.flatMap (Phrase.reread form) ++
          ((Write.comment .concept (model.concept concept).comment).reread form ++
            .punct .rightBracket :: rest)))) →
      Outcome (model.DefinedFirst after.order) (do
        conceptLabels ⟨next.model.concepts.size⟩
        referent inside ⟨next.model.concepts.size⟩
        if let some comment ← nodeComment .concept then
          edit (·.modifyConcept ⟨next.model.concepts.size⟩ fun data =>
            { data with comment := some comment })
        expect (.punct .rightBracket) .conceptClosing
        return ⟨next.model.concepts.size⟩)
        (next.withModel (next.model.placed { type } place)) fun copy later =>
          Reads model unfinished after reader rest later ∧ writer.Onward after ∧
            (after.ledger model).Concept concept copy := by
    intro next past tokens
    have types : reader.model.hierarchy.Extends next.model.hierarchy := by
      rw [past.model]
      exact reads.types
    refine (conceptRest_outcome copyable mirrors (reads.tracks.past past) within ready fresh stands
      plain there opens untouched room ran (markers ▸ which) (by rw [past.model]; exact typed) nests
      tokens ?_).mono fun copy later _ facts => ⟨facts.1.from_earlier types, facts.2⟩
    refine Nat.le_trans ?_ fits
    rw [tokens, starts]
    simp only [List.length_append]
    rcases which with rfl | ⟨-, rfl⟩
    · rw [markers]
      omega
    · simp only [List.length_nil]
      omega
  have mostly : From 2 (labelTokens use ++
      (partTokens form Write.quantifier (conceptQuantifier (model.concept concept)) ++
        (remaining ++ (nested.flatMap (Phrase.reread form) ++
          ((Write.comment .concept (model.concept concept).comment).reread form ++
            .punct .rightBracket :: rest))))) := by
    refine From.part (fun _ _ same => Nat.le_of_eq (rank_label same).symm)
      ((quantifier_from ?_).mono (by decide))
    refine From.part (fun _ _ same => ?_) (part.mono (by decide))
    rcases which with rfl | ⟨-, rfl⟩
    · exact Nat.le_of_eq (designatorTokens_rank same).symm
    · cases same
  rcases optional with rfl | rfl
  · obtain ⟨token, others, begins, high⟩ := mostly
    have here : first.tokens = token :: others := by
      rw [reads.tokens, List.nil_append, begins]
    refine Outcome.after (achieves_eat.mpr ⟨fun found => ?_, fun _ => rfl⟩ : Achieves
      (eat (.punct .colon)) _ fun _ later =>
        later = first.withModel (first.model.placed { type } place)) fun _ later same => ?_
    · rw [Reader.ahead_withModel, Reader.token_ahead_zero here] at found
      rw [found] at high
      exact absurd high (by decide)
    · subst same
      exact follows first (.refl first) reads.tokens
  · refine Outcome.after (achieves_eat.mpr ⟨fun _ => rfl, fun missing => ?_⟩ : Achieves
      (eat (.punct .colon)) _ fun _ later =>
        later = first.next.withModel (first.model.placed { type } place)) fun _ later same => ?_
    · rw [Reader.ahead_withModel, Reader.token_ahead_zero reads.tokens] at missing
      exact absurd rfl missing
    · subst same
      exact follows first.next (.next first) (Reader.tail_tokens reads.tokens)

/-! ## Concepts as they are written -/

/-- The graph that describes a concept begins as an item. -/
theorem opens_of_nestedGraphs {nested : List Phrase}
    (mirrors : Mirrors model form setting inner (graph :: outer))
    (houses : model.Houses (graph :: outer) writer.order writer.written)
    (member : concept ∈ writer.order) (stands : (model.concept concept).graph = some graph)
    (untouched : ∀ id, model.descriptor? concept = some id → model.Untouched writer id)
    (ran : nestedGraphs inner (model.descriptor? concept) writer = .ok nested after) :
    nested.flatMap (Phrase.reread form) = [] ∨
      OpensGraph (nested.flatMap (Phrase.reread form)) := by
  cases describes : model.descriptor? concept with
  | none =>
      rw [describes] at ran
      cases ran
      exact .inl rfl
  | some id =>
      rw [describes] at ran
      obtain ⟨items, last, wrote, rfl, -⟩ := Write.nestedGraphs_ensures.of_ok ran
      rw [List.flatMap_singleton, Phrase.reread_join]
      refine ((mirrors.opens id (writer.withLabels writer.labels.push)
        (houses.enter member stands describes)
        ⟨(untouched id describes).concepts, (untouched id describes).relations⟩).of_ok wrote).imp
          (fun empty => empty.2) fun opening => opening

/-- Nothing has been written of the graph that describes a concept when it is begun. -/
theorem untouched_of_houses (rooted : model.Rooted source) {id : GraphId}
    (label : Option String)
    (houses : model.Houses (graph :: outer) writer.order writer.written)
    (fresh : concept ∉ writer.order) (stands : (model.concept concept).graph = some graph)
    (describes : model.descriptor? concept = some id) :
    model.Untouched (writer.emit concept label) id := by
  obtain ⟨concepts, relations⟩ := houses.untouched rooted fresh describes
  refine ⟨fun other member => ?_, relations⟩
  rcases List.mem_cons.mp member with rfl | member
  · intro here
    exact Nat.lt_irrefl _ ((rooted.describedBy describes).later _ here)
  · exact concepts other member

/-- Nothing of a graph has been written where the concept that it describes is opened. -/
theorem untouched_of_opens (copyable : model.Copyable source form)
    (tracks : Tracks model unfinished writer reader) (within : unfinished.graphs = graph :: outer)
    (fresh : concept ∉ writer.order) (stands : (model.concept concept).graph = some graph)
    (opens : model.Opens writer concept use opened) (id : GraphId)
    (describes : model.descriptor? concept = some id) :
    model.Untouched (opened.emit concept (use.map LabelUse.label)) id := by
  have before := untouched_of_houses copyable.toRooted (use.map LabelUse.label)
    (within ▸ tracks.houses) fresh stands describes
  obtain ⟨labels, rfl⟩ := opens.exists_labels
  exact ⟨before.concepts, before.relations⟩

theorem ne_keyword_of_rank {token : Token} {word : Keyword} (low : token.rank ≤ 6) :
    token ≠ .keyword word := by
  rintro rfl
  exact absurd low (by simp [Token.rank])

/-- No reserved word stands at the beginning of a concept that is not a context. -/
theorem ne_keyword_of_parts {type : Option ConceptType} {value : Option Quantifier}
    {markers : MarkerTable} {known : Option Designator} {comment : Option String}
    {nested : List Token} (optional : colon = [] ∨ colon = [.punct .colon])
    (nests : nested = [] ∨ OpensGraph nested) (word : Keyword) :
    ((typeTokens model type ++ (colon ++ (labelTokens use ++
      (partTokens form Write.quantifier value ++ (designatorTokens form markers known ++
        (nested ++ ((Write.comment .concept comment).reread form ++
          .punct .rightBracket :: rest)))))))[0]?).getD .endOfInput ≠ .keyword word := by
  have append : ∀ front back : List Token,
      (∀ first others, front = first :: others → first.rank ≤ 6) →
      back[0]?.getD .endOfInput ≠ .keyword word →
      (front ++ back)[0]?.getD .endOfInput ≠ .keyword word := by
    intro front back low others
    cases front with
    | nil => exact others
    | cons first front => exact ne_keyword_of_rank (low first front rfl)
  refine append _ _ (fun first others same => ?_) (append _ _ (fun first others same => ?_)
    (append _ _ (fun first others same => ?_) (append _ _ (fun first others same => ?_)
      (append _ _ (fun first others same => ?_) (append _ _ (fun first others same => ?_)
        (append _ _ (fun first others same => ?_) ?_))))))
  · cases type <;> cases same
    exact (by decide : 4 ≤ 6)
  · rw [rank_colon optional same]
    decide
  · rw [rank_label same]
    decide
  · rw [rank_quantifier same]
    decide
  · rw [designatorTokens_rank same]
    decide
  · rcases nests with rfl | ⟨token, more, rfl, opens, -⟩
    · cases same
    · cases same
      rw [rank_of_startsItem opens]
      decide
  · cases comment <;> cases same
    exact Nat.le_refl 6
  · exact nofun

/-- A concept that is written out is read back. -/
theorem concept_outcome (copyable : model.Copyable source form) {phrase : Phrase}
    (mirrors : Mirrors model form setting inner (graph :: outer))
    (tracks : Tracks model unfinished writer reader) (within : unfinished.graphs = graph :: outer)
    (ready : unfinished.waiting = []) (fresh : concept ∉ writer.order)
    (stands : (model.concept concept).graph = some graph)
    (plain : (model.concept concept).IsPlain)
    (there : (writer.ledger model).Graph graph place)
    (onDemand : setting.options.createTypesOnDemand = true)
    (opens : model.Opens writer concept use opened)
    (ran : emitConcept model inner concept use opened = .ok phrase after)
    (starts : reader.tokens = phrase.reread form ++ rest)
    (fits : reader.tokens.length ≤ brackets) :
    Outcome (model.DefinedFirst after.order)
      (Read.concept setting (roomFor setting brackets) (some place)) reader
      fun copy later => ∃ id, copy = some id ∧ Reads model unfinished after reader rest later ∧
        writer.Onward after ∧ (after.ledger model).Concept concept id := by
  obtain ⟨nested, wrote, rfl⟩ := (emitConcept_ensures copyable plain.2).of_ok ran
  obtain ⟨colon, optional, tokens⟩ := reread_conceptPhrase copyable concept use
    (designated opened.markers (conceptDesignator (model.concept concept))).1 nested
  obtain ⟨labels, left⟩ := opens.exists_labels
  have order := opens.order_emit
  have untouched := untouched_of_opens copyable tracks within fresh stands opens
  have nests : nested.flatMap (Phrase.reread form) = [] ∨
      OpensGraph (nested.flatMap (Phrase.reread form)) := by
    have still : ∀ id, model.descriptor? concept = some id → model.Untouched
        ((opened.emit concept (use.map LabelUse.label)).withMarkers
          (designated opened.markers (conceptDesignator (model.concept concept))).2) id :=
      fun id describes => ⟨(untouched id describes).concepts, (untouched id describes).relations⟩
    refine opens_of_nestedGraphs mirrors ?_ ?_ stands still wrote
    · rw [Writer.order_withMarkers, order, Writer.written_withMarkers, Writer.written_emit, left,
        Writer.written_withLabels]
      exact (within ▸ tracks.houses).emit fresh stands plain.not_hidden
    · rw [Writer.order_withMarkers, order]
      exact List.mem_cons_self ..
  rw [tokens] at starts
  have bracket : reader.tokens = .punct .leftBracket :: (typeTokens model
      (model.concept concept).type ++ (colon ++ (labelTokens use ++
        (partTokens form Write.quantifier (conceptQuantifier (model.concept concept)) ++
          (designatorTokens form opened.markers (conceptDesignator (model.concept concept)) ++
            (nested.flatMap (Phrase.reread form) ++
              ((Write.comment .concept (model.concept concept).comment).reread form ++
                .punct .rightBracket :: rest))))))) := by
    rw [starts]
    simp [designatorTokens]
  clear starts tokens
  -- The fuel for brackets is at least the number of tokens, and there is an opening bracket.
  cases brackets with
  | zero =>
      rw [bracket] at fits
      exact absurd fits (Nat.not_succ_le_zero _)
  | succ brackets =>
      have unreserved : ∀ word, (reader.ahead 1).token ≠ .keyword word := by
        intro word
        rw [Reader.token_ahead_succ, Reader.token_ahead, Reader.tail_tokens bracket]
        exact ne_keyword_of_parts optional nests word
      unfold Read.concept
      simp only [outcome_peek, outcome_ahead, Reader.token_ahead_zero bracket]
      split
      -- The first word in the bracket is no keyword, so that no other production takes it.
      · next found => exact absurd found (unreserved _)
      · next found => exact absurd found (unreserved _)
      · next found => exact absurd found (unreserved _)
      · rw [roomFor_succ, outcome_descend, outcome_advance]
        have shorter : reader.next.tokens.length ≤ brackets := by
          rw [Reader.tail_tokens bracket]
          rw [bracket, List.length_cons] at fits
          exact Nat.le_of_succ_le_succ fits
        refine Outcome.before (conceptBody_outcome copyable mirrors (tracks.past (.next reader))
          within ready fresh stands plain there onDemand opens untouched (fun _ => rfl) wrote nests
          optional (Reader.tail_tokens bracket) shorter)
            fun copy later _ facts => ?_
        obtain ⟨ended, onward, copies⟩ := facts
        rw [ascend_scoped, pure_bind, achieves_pure]
        exact ⟨copy, rfl, ⟨ended.tokens, ended.tracks, ended.types⟩, onward, copies⟩
      · next unbracketed _ _ _ => exact absurd rfl unbracketed

end ConceptualGraph.Read
