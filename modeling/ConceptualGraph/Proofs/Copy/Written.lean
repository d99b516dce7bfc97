/-
Module: ConceptualGraph.Proofs.Copy.Written
Purpose: What is written for a concept, apart from the graph that describes it.
Main exports: Write.designated, Write.conceptPhrase, Write.plainConcept_eq,
  Write.reread_conceptPhrase
-/
import ConceptualGraph.Proofs.Copy.Parts

namespace ConceptualGraph.Write

open Phrase (join mark ofToken space)

variable {model : Model} {source form : Notation} {inner : Inner} {writer : Writer}
  {concept : ConceptId} {use : Option LabelUse}

/-! ## Parts -/

/-- The label of a type. -/
def typeName (model : Model) (type : Option ConceptType) : Phrase :=
  type.elim [] fun type => ofToken (.ident ((model.hierarchy.concepts.label? type).getD ""))

/-- What is written for a designator that refers to no concept, and the markers after it. -/
def designated (markers : MarkerTable) : Option Designator → List Phrase × MarkerTable
  | some (.literal value) => ([literal value], markers)
  | some (.name name) => ([ofToken (.name name)], markers)
  | some (.marker marker) =>
      ([ofToken (.marker (some (markers.foreignIdFor marker).1))],
        (markers.foreignIdFor marker).2)
  | some (.defined _) => ([], markers)
  | none => ([], markers)

/-- The quantifier of a concept. -/
def conceptQuantifier (data : Concept) : Option Quantifier :=
  data.referent.bind Referent.quantifier

/-- The designator of a concept. -/
def conceptDesignator (data : Concept) : Option Designator :=
  data.referent.bind Referent.designator

/-- What is written for a concept that is not a context. -/
def conceptPhrase (model : Model) (concept : ConceptId) (use : Option LabelUse)
    (designators nested : List Phrase) : Phrase :=
  let data := model.concept concept
  let referent := ((conceptQuantifier data).map quantifier).toList ++ designators ++ nested
  let parts := (use.map fun use => ofToken use.token).toList ++ referent
  let colon := if data.type.isSome && !parts.isEmpty then mark .colon ++ space else []
  mark .leftBracket ++ typeName model data.type ++ colon ++ join " " parts
    ++ comment .concept data.comment ++ mark .rightBracket

/-- A nested graph, if there is one. -/
def nestedGraphs (inner : Inner) (graph : Option GraphId) : Write (List Phrase) :=
  concat (fun graph => return [← nestedGraph inner graph]) graph.toList

/-! ## Writing a concept -/

theorem bind_of_ok {α β : Type} {step : Write α} {next : α → Write β} {later : Writer} {value : α}
    (ran : step writer = .ok value later) : (step >>= next) writer = next value later := by
  simp only [Bind.bind, EStateM.bind, ran]

theorem concat_singleton {α β : Type} (step : α → Write (List β)) (argument : α) :
    concat step [argument] = step argument := by
  simp only [concat, pure_bind, List.append_nil]
  exact bind_pure _

/-- A concept type without a definition is written by its name. -/
theorem concat_conceptType (named : model.TypesNamed) :
    concat (conceptType model inner) (model.concept concept).type.toList =
      pure (typeName model (model.concept concept).type) := by
  cases typed : (model.concept concept).type with
  | none => rfl
  | some type =>
      obtain ⟨label, known⟩ := named.conceptType concept type typed
      rw [Option.toList_some, concat_singleton]
      simp only [conceptType, known, typeName, Option.elim_some, Option.getD_some]

/-- A designator other than one that stands for a defined concept is written from the table of
markers alone. -/
theorem concat_designator {value : Option Designator}
    (undefined : ∀ id, value ≠ some (.defined id)) :
    concat (fun value => return [← designator model value]) value.toList writer =
      .ok (designated writer.markers value).1
        (writer.withMarkers (designated writer.markers value).2) := by
  cases value with
  | none => rfl
  | some value =>
      rw [Option.toList_some, concat_singleton]
      cases value with
      | defined id => exact absurd rfl (undefined id)
      | literal _ | name _ | marker _ => rfl

/-- Of all parts of a concept, only the nested graph is written step by step. -/
theorem plainConcept_eq (copyable : model.Copyable source form) :
    plainConcept model inner concept use writer =
      (do
        let nested ← nestedGraphs inner (model.descriptor? concept)
        return conceptPhrase model concept use
          (designated writer.markers (conceptDesignator (model.concept concept))).1 nested :
            Write _)
        (writer.withMarkers
          (designated writer.markers (conceptDesignator (model.concept concept))).2) := by
  have undefined := copyable.undefined concept
  unfold plainConcept
  rw [undefined]
  simp only [Option.isSome_none, Bool.false_and, Bool.false_eq_true, if_false, pure_bind,
    concat_conceptType copyable.typesNamed]
  cases described : (model.concept concept).referent with
  | none =>
      have nothing : model.descriptor? concept = none := by simp [Model.descriptor?, described]
      simp only [nothing, conceptPhrase, conceptDesignator, conceptQuantifier, described]
      rfl
  | some referent =>
      have describes : model.descriptor? concept = referent.descriptor := by
        simp [Model.descriptor?, described]
      have unnamed : ∀ id, referent.designator ≠ some (.defined id) := by
        intro id same
        simp [Model.designates?, described, Referent.definedBy?, same] at undefined
      rw [Option.toList_some, concat_singleton]
      simp only [referentParts, describes, conceptDesignator, conceptQuantifier, conceptPhrase,
        described, Option.bind_some, bind_assoc, pure_bind]
      exact bind_of_ok (concat_designator unnamed)

/-- A concept that is not a context is written in its parts. -/
theorem emitConcept_ensures (copyable : model.Copyable source form)
    (plain : (model.concept concept).special = none) :
    Ensures (emitConcept model inner concept use) writer fun phrase after => ∃ nested,
      nestedGraphs inner (model.descriptor? concept)
        ((writer.emit concept (use.map LabelUse.label)).withMarkers
          (designated writer.markers (conceptDesignator (model.concept concept))).2) =
            .ok nested after ∧
        phrase = conceptPhrase model concept use
          (designated writer.markers (conceptDesignator (model.concept concept))).1 nested := by
  simp only [emitConcept, ensures_bind, emit, ensures_modify, plain]
  unfold Ensures
  rw [plainConcept_eq copyable]
  refine (ensures_bind).mpr (.intro fun nested after ran => ?_)
  exact ⟨nested, ran, rfl⟩

/-! ## Tokens -/

/-- The token of the label of a type. -/
def typeTokens (model : Model) (type : Option ConceptType) : List Token :=
  type.elim [] fun type => [.ident ((model.hierarchy.concepts.label? type).getD "")]

/-- The name of a concept type is read back as the tokens of the type. -/
theorem reread_typeName (copyable : model.Copyable source form) :
    (typeName model (model.concept concept).type).reread form =
      typeTokens model (model.concept concept).type := by
  cases typed : (model.concept concept).type with
  | none => rfl
  | some type =>
      obtain ⟨label, named, name⟩ := copyable.conceptType concept type typed
      simp [typeName, typeTokens, named, name.reread]

/-- The tokens of the label of a concept. -/
def labelTokens (use : Option LabelUse) : List Token :=
  (use.map LabelUse.token).toList

/-- The tokens of a concept that is not a context, part by part. -/
theorem reread_conceptPhrase (copyable : model.Copyable source form) (concept : ConceptId)
    (use : Option LabelUse) (designators nested : List Phrase) :
    ∃ colon, (colon = [] ∨ colon = [.punct .colon]) ∧
      (conceptPhrase model concept use designators nested).reread form =
        .punct .leftBracket :: (typeTokens model (model.concept concept).type ++ (colon ++
          (labelTokens use ++ (Read.partTokens form quantifier
              (conceptQuantifier (model.concept concept)) ++
            (designators.flatMap (Phrase.reread form) ++ (nested.flatMap (Phrase.reread form) ++
              ((comment .concept (model.concept concept).comment).reread form ++
                [.punct .rightBracket]))))))) := by
  have labelled : ((use.map fun use => ofToken use.token).toList).flatMap (Phrase.reread form) =
      labelTokens use := by
    cases use with
    | none => rfl
    | some use => cases use <;> rfl
  have quantified : (((conceptQuantifier (model.concept concept)).map quantifier).toList).flatMap
      (Phrase.reread form) =
        Read.partTokens form quantifier (conceptQuantifier (model.concept concept)) := by
    cases conceptQuantifier (model.concept concept) <;> simp [Read.partTokens]
  unfold conceptPhrase
  simp only [Phrase.reread_append, Phrase.reread_mark, Phrase.reread_join, reread_typeName copyable,
    List.flatMap_append, labelled, quantified]
  split
  · exact ⟨[.punct .colon], .inr rfl, by simp⟩
  · exact ⟨[], .inl rfl, by simp⟩

/-! ## Designators -/

/-- Whether a designator is a number with a fraction. -/
def IsFraction (value : Option Designator) : Prop :=
  ∃ number, value = some (.literal (.number (.float number)))

theorem isFractional_iff {data : Concept} :
    data.IsFractional ↔ IsFraction (conceptDesignator data) := by
  unfold Concept.IsFractional IsFraction conceptDesignator
  cases data.referent <;> simp

/-- The tokens of a designator. -/
def designatorTokens (form : Notation) (markers : MarkerTable) (value : Option Designator) :
    List Token :=
  (designated markers value).1.flatMap (Phrase.reread form)

/-- A designator begins with a token of its own kind. -/
theorem designatorTokens_rank {markers : MarkerTable} {value : Option Designator} {first : Token}
    {others : List Token} (starts : designatorTokens form markers value = first :: others) :
    first.rank = 4 := by
  cases value with
  | none => cases starts
  | some value =>
      cases value with
      | defined id => cases starts
      | name text =>
          cases starts
          rfl
      | marker id =>
          cases starts
          rfl
      | literal literal =>
          cases literal with
          | string text =>
              cases starts
              rfl
          | encoded encoding payload =>
              cases starts
              rfl
          | number number =>
              cases number with
              | int value =>
                  cases starts
                  rfl
              | float value =>
                  have same : Token.reread form (.float value.text) = first :=
                    (List.cons.inj starts).1
                  rw [← same, Token.reread]
                  split <;> rfl

/-- A designator begins with a word only if it is a number with a fraction, of which nothing
else is written. -/
theorem isFraction_of_ident {markers : MarkerTable} {value : Option Designator} {word : String}
    {others : List Token} (starts : designatorTokens form markers value = .ident word :: others) :
    IsFraction value ∧ others = [] := by
  cases value with
  | none => cases starts
  | some value =>
      cases value with
      | defined id => cases starts
      | name text => cases starts
      | marker id => cases starts
      | literal literal =>
          cases literal with
          | string text => cases starts
          | encoded encoding payload => cases starts
          | number number =>
              cases number with
              | int value => cases starts
              | float value => exact ⟨⟨value, rfl⟩, (List.cons.inj starts).2.symm⟩

end ConceptualGraph.Write

namespace ConceptualGraph.Read

open Write

variable {model : Model} {source form : Notation} {unfinished : Unfinished} {writer : Writer}
  {reader : Reader} {rest : List Token} {value : Option Designator}

/-- A designator is read back. -/
theorem designator_achieves (tracks : Tracks model unfinished writer reader)
    (few : model.markers < UInt64.size)
    (sound : ∀ known, value = some known → known.Sound source model.markers)
    (undefined : ∀ id, value ≠ some (.defined id))
    (name : ∀ encoding payload, value = some (.literal (.encoded encoding payload)) →
      Token.IsName form encoding)
    (starts : reader.tokens = designatorTokens form writer.markers value ++ rest)
    (next : From 5 rest) :
    Achieves designator reader fun read later =>
      Reads model unfinished (writer.withMarkers (designated writer.markers value).2) reader rest
          later ∧
        writer.Onward (writer.withMarkers (designated writer.markers value).2) ∧
        (¬IsFraction value → Option.Rel (Designator.Copied
          ((writer.withMarkers (designated writer.markers value).2).ledger model)) value read) := by
  -- Most designators are one token that is read back as it is.
  have whole : ∀ (token : Token) (known read : Designator),
      reader.tokens = token :: rest → token ≠ .punct .percent →
      (∀ found : Located, found.token = token → designatorOf found = pure (some read)) →
      (designated writer.markers (some known)).2 = writer.markers →
      (¬IsFraction (some known) →
        known.Copied ((writer.withMarkers writer.markers).ledger model) read) →
      Achieves designator reader fun read later =>
        Reads model unfinished (writer.withMarkers (designated writer.markers (some known)).2)
            reader rest later ∧
          writer.Onward (writer.withMarkers (designated writer.markers (some known)).2) ∧
          (¬IsFraction (some known) → Option.Rel (Designator.Copied
            ((writer.withMarkers (designated writer.markers (some known)).2).ledger model))
              (some known) read) := by
    intro token known read tokens apart reads same copied
    rw [same]
    refine (designator_achieves_token tokens apart reads).mono fun value later facts => ?_
    obtain ⟨rfl, left, past⟩ := facts
    refine ⟨.of_past tracks past left, .refl _, fun fraction => ?_⟩
    exact .some (copied fraction)
  cases value with
  | none =>
      refine (designator_achieves_none (starts ▸ next)).mono fun read later facts => ?_
      obtain ⟨rfl, rfl⟩ := facts
      exact ⟨.of_past tracks (.refl _) starts, .refl _, fun _ => .none⟩
  | some value =>
      cases value with
      | defined id => exact absurd rfl (undefined id)
      | name text =>
          exact whole (.name text) _ (.name text) starts (by simp) (fun found same => by
            simp only [designatorOf, same]) rfl fun _ => rfl
      | marker id =>
          refine (designator_achieves_marker tracks (sound _ rfl) few starts).mono
            fun value later facts => ?_
          obtain ⟨reads, onward, copy, rfl, copies⟩ := facts
          refine ⟨reads, onward, fun _ => ?_⟩
          exact .some ⟨copy, rfl, copies⟩
      | literal literal =>
          cases literal with
          | string text =>
              exact whole (.str text) _ (.literal (.string text)) starts (by simp)
                (fun found same => by simp only [designatorOf, same]) rfl fun _ => rfl
          | encoded encoding payload =>
              have tokens : reader.tokens = .punct .percent ::
                  .ident encoding :: .str payload :: rest := by
                have word := (name _ _ rfl).reread
                rw [starts, ← word]
                rfl
              refine (designator_achieves_encoded tokens).mono fun value later facts => ?_
              obtain ⟨rfl, left, past⟩ := facts
              exact ⟨.of_past tracks past left, .refl _, fun _ => .some rfl⟩
          | number number =>
              cases number with
              | int value =>
                  exact whole (.int value) _ (.literal (.number (.int value)))
                    starts (by simp) (fun found same => by simp only [designatorOf, same]) rfl
                    fun _ => rfl
              | float value =>
                  have tokens : reader.tokens = Token.reread form (.float value.text) :: rest :=
                    starts
                  rw [Token.reread] at tokens
                  have fraction : IsFraction (some (.literal (.number (.float value)))) :=
                    ⟨value, rfl⟩
                  split at tokens
                  · exact whole (.ident value.text) _ (.name value.text) tokens (by simp)
                      (fun found same => by simp only [designatorOf, same]) rfl
                      fun whole => absurd fraction whole
                  · exact whole (.float value.text) _
                      (.literal (.number (.float (.ofDecimal value.text)))) tokens (by simp)
                      (fun found same => by simp only [designatorOf, same]) rfl
                      fun whole => absurd fraction whole

end ConceptualGraph.Read
