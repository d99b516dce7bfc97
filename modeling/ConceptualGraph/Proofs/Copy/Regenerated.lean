/-
Module: ConceptualGraph.Proofs.Copy.Regenerated
Purpose: How many brackets must be allowed to be open to read a text that is written for a graph,
  compared with how many were allowed when the graph itself was read.
Main exports: Model.PlainNodes, Session.nesting_generateGraph_le,
  Session.generateGraph_reads_within, Session.generateGraph_needs_more
-/
import ConceptualGraph.Proofs.Copy.RoundTrip
import ConceptualGraph.Proofs.Reading.Depth
import ConceptualGraph.Proofs.Reading.Shallow
import ConceptualGraph.Proofs.Writing.Census
import ConceptualGraph.Proofs.Writing.Nesting

namespace ConceptualGraph

/-! ## The fragment -/

namespace Model

/-- A model that is plain but for its words, which may be any. -/
structure PlainNodes (model : Model) : Prop where
  setless : model.corefSets = #[]
  undefined : ∀ data ∈ model.concepts.toList, data.referent.bind Referent.definedBy? = none
  whole : ∀ data ∈ model.concepts.toList,
    (data.referent.bind Referent.designator).any Designator.isFraction = false
  conceptTypes : ∀ data ∈ model.concepts.toList, ∀ type ∈ data.type,
    (model.hierarchy.concepts.node type).definition.isNone = true
  relationTypes : ∀ data ∈ model.relations.toList, ∀ type ∈ data.type,
    (model.hierarchy.relations.node type).definition.isNone = true
  negations : ∀ index < model.relations.size,
    (model.relation ⟨index⟩).type.bind model.hierarchy.relations.label? =
      some Read.negationLabel → model.isNegation ⟨index⟩ = true

instance (model : Model) : Decidable model.PlainNodes :=
  decidable_of_iff
    (model.corefSets = #[] ∧
      (∀ data ∈ model.concepts.toList, data.referent.bind Referent.definedBy? = none) ∧
      (∀ data ∈ model.concepts.toList,
        (data.referent.bind Referent.designator).any Designator.isFraction = false) ∧
      (∀ data ∈ model.concepts.toList, ∀ type ∈ data.type,
        (model.hierarchy.concepts.node type).definition.isNone = true) ∧
      (∀ data ∈ model.relations.toList, ∀ type ∈ data.type,
        (model.hierarchy.relations.node type).definition.isNone = true) ∧
      ∀ index < model.relations.size,
        (model.relation ⟨index⟩).type.bind model.hierarchy.relations.label? =
          some Read.negationLabel → model.isNegation ⟨index⟩ = true)
    ⟨fun ⟨setless, undefined, whole, concepts, relations, negations⟩ =>
        ⟨setless, undefined, whole, concepts, relations, negations⟩,
      fun plain => ⟨plain.setless, plain.undefined, plain.whole, plain.conceptTypes,
        plain.relationTypes, plain.negations⟩⟩

variable {model : Model} {form : Notation} {word : String}

/-- A model is plain if its nodes are and no notation reserves its words. -/
theorem plain_iff (form : Notation) : model.Plain form ↔
    model.PlainNodes ∧ ∀ word ∈ model.words, Keyword.ofWord? form word.toList = none :=
  ⟨fun plain => ⟨⟨plain.setless, plain.undefined, plain.whole, plain.conceptTypes,
      plain.relationTypes, plain.negations⟩, plain.unreserved⟩,
    fun ⟨plain, unreserved⟩ => ⟨plain.setless, plain.undefined, plain.whole, plain.conceptTypes,
      plain.relationTypes, plain.negations, unreserved⟩⟩

/-! ## Words that have been read -/

/-- The words of a concept are names in the notation from which it has been read. -/
theorem Sound.isName_of_mem_conceptWords (sound : model.Sound form []) {data : Concept}
    (known : ∀ referent, data.referent = some referent → referent.Sound form model.markers)
    (member : word ∈ model.conceptWords data) : Token.IsName form word := by
  simp only [conceptWords, List.mem_append, Option.mem_toList,
    Option.bind_eq_some_iff] at member
  rcases member with
    (⟨type, -, labelled⟩ | ⟨quantifier, ⟨referent, described, quantified⟩, named⟩) |
    ⟨designator, ⟨referent, described, designated⟩, encoded⟩
  · exact sound.conceptTypes.label type word labelled
  · have readable := (known referent described).quantifier quantifier quantified
    cases quantifier <;> cases named
    exact readable.1
  · have readable := (known referent described).designator designator designated
    cases designator with
    | literal value => cases value <;> cases encoded; exact readable
    | _ => cases encoded

/-- No word that has been read in a notation is reserved in it. -/
theorem Sound.unreserved (sound : model.Sound form []) (member : word ∈ model.words) :
    Keyword.ofWord? form word.toList = none := by
  rcases List.mem_append.mp member with member | member
  · obtain ⟨data, here, member⟩ := List.mem_flatMap.mp member
    obtain ⟨index, inside, rfl⟩ := List.mem_iff_getElem.mp here
    have same : model.concept ⟨index⟩ = model.concepts.toList[index] := by
      rw [Array.length_toList] at inside
      simp [Model.concept, inside]
    refine (sound.isName_of_mem_conceptWords (fun referent described => ?_) member).2
    exact sound.referentSound (same ▸ described : (model.concept ⟨index⟩).referent = some referent)
  · obtain ⟨data, -, member⟩ := List.mem_flatMap.mp member
    simp only [relationWords, Option.mem_toList, Option.bind_eq_some_iff] at member
    obtain ⟨type, -, labelled⟩ := member
    exact (sound.relationTypes.label type word labelled).2

namespace PlainNodes

variable (plain : model.PlainNodes)

include plain

/-- A model with plain nodes is plain in the notation from which it has been read. -/
theorem toPlain (sound : model.Sound form []) : model.Plain form :=
  (plain_iff form).mpr ⟨plain, fun _ => sound.unreserved⟩

/-- What has been read can be spelled out again. -/
theorem spellable : model.Spellable where
  conceptTypes := plain.conceptTypes
  relationTypes := plain.relationTypes
  bounded data member := by
    have whole := plain.whole data member
    cases designated : data.referent.bind Referent.designator with
    | none => rfl
    | some designator =>
        simp only [designated, Option.any_some] at whole ⊢
        unfold Designator.isInfinite
        split
        · cases whole
        · rfl

end PlainNodes

end Model

/-! ## Texts that are written -/

namespace Session

variable {options writing : Options} {depth limit : Nat} {source text : String} {graph : GraphId}

/-- The text of a graph has at most twice as many brackets open at once as were allowed when the
graph was read: every concept around a node may have been moved into a relation, which has its
own. -/
theorem nesting_generateGraph_le
    (parsed : ((withOptions options).parseGraph {} .cgif source).result = .ok graph)
    (spellable : ((withOptions options).parseGraph {} .cgif source).model.Spellable)
    (wrote : ((withOptions writing).generateGraph
      ((withOptions options).parseGraph {} .cgif source).model .cgif graph).1 = .ok text) :
    Scan.nesting .cgif text ≤ 2 * options.maxDepth := by
  have sound := sound_parseGraph parsed
  obtain ⟨deep, shallow⟩ := shallow_parseGraph parsed
  obtain ⟨-, -, -, rfl, -⟩ := exists_of_parseGraph parsed
  have legible := spellable.legible ⟨sound.sound, sound.owner⟩
  obtain ⟨items, after, ran, rfl⟩ := exists_of_generateGraph wrote
  obtain ⟨located, stop, scanned, tokens⟩ := Write.scanned_items legible nofun ran
  have stacked : Model.Stacked .cgif options.maxDepth _ :=
    { legible.toRooted, legible.toTypesNamed with shallow }
  have within := ((Write.yields_graphItems stacked _ deep _ trivial).of_ok ran).2
  obtain ⟨levels, few, matched⟩ := Phrase.Within.join "\n" within
  rw [Scan.nesting, scanned, tokens]
  exact matched.nesting_reread_le.trans few

/-- A text that is written for a plain graph has at most twice as many brackets open at once as were
allowed when the graph was read.  It is read again, by a new session into a new model, with every
limit to brackets that is not below its own nesting, and its nesting is refused with every other. -/
theorem generateGraph_reads_within
    (parsed : ((({} : Session).within depth).parseGraph {} .cgif source).result = .ok graph)
    (fits : source.length < UInt64.size)
    (plain : ((({} : Session).within depth).parseGraph {} .cgif source).model.PlainNodes) :
    ∃ text, (({} : Session).generateGraph
        ((({} : Session).within depth).parseGraph {} .cgif source).model .cgif graph).1 = .ok text ∧
      Scan.nesting .cgif text ≤ 2 * depth ∧
      ∀ limit,
        let again := (({} : Session).within limit).parseGraph {} .cgif text
        (Scan.nesting .cgif text ≤ limit → again.result = .ok graph) ∧
          (limit < Scan.nesting .cgif text → ∃ found,
            again.result = .error (.parse ⟨.nestingTooDeep limit, found⟩)) := by
  have read : ((withOptions { maxDepth := depth }).parseGraph {} .cgif source).result =
      .ok graph := parsed
  have sound : SoundAt .cgif source
      ((({} : Session).within depth).parseGraph {} .cgif source).model := sound_parseGraph read
  have copyable := (plain.toPlain sound.sound).copyable sound.sound sound.owner
    (Nat.lt_of_le_of_lt sound.markers fits) nofun nofun
  obtain ⟨-, -, -, rfl, -⟩ := exists_of_parseGraph read
  obtain ⟨items, after, wrote, -, -, enough, readings⟩ := tracks_of_copyable copyable plain.setless
    (plain.toPlain sound.sound).not_isFractional
  have written := generateGraph_eq wrote
  refine ⟨_, written, nesting_generateGraph_le read plain.spellable written, fun limit => ?_⟩
  -- With enough brackets the text is read, so that only its nesting can be refused.
  have accepted : ((({} : Session).within enough).parseGraph {} .cgif
      (Phrase.join "\n" items).text).result = .ok ⟨0⟩ :=
    (readings { maxDepth := enough } rfl (Nat.le_refl _)).1
  obtain ⟨same, stops⟩ := limits_parseGraph accepted limit
  refine ⟨fun deep => ?_, stops⟩
  rw [same deep]
  exact accepted

/-- A negation in a context, with a concept that is written inside its relation. -/
theorem generateGraph_reads_within_context :
    let source := "[Prop: ~[[A: *x] (R ?x)]] [Cat: 'Tom']"
    let model := ((({} : Session).within 3).parseGraph {} .cgif source).model
    ((({} : Session).within 3).parseGraph {} .cgif source).result = .ok ⟨0⟩ ∧
      (({} : Session).generateGraph model .cgif ⟨0⟩).1 =
        .ok "[Prop: ~[(R [A])]]\n[Cat: 'Tom']" ∧
      ((({} : Session).within 4).parseGraph {} .cgif "[Prop: ~[(R [A])]]\n[Cat: 'Tom']").result =
        .ok ⟨0⟩ := by
  intro source model
  have parsed : ((({} : Session).within 3).parseGraph {} .cgif source).result = .ok ⟨0⟩ := by
    decide +kernel
  have written : (({} : Session).generateGraph model .cgif ⟨0⟩).1 =
      .ok "[Prop: ~[(R [A])]]\n[Cat: 'Tom']" := by decide +kernel
  obtain ⟨text, wrote, -, limits⟩ :=
    generateGraph_reads_within parsed (by decide +kernel) (by decide +kernel)
  obtain rfl : "[Prop: ~[(R [A])]]\n[Cat: 'Tom']" = text := Except.ok.inj (written.symm.trans wrote)
  exact ⟨parsed, written, (limits 4).1 (by decide +kernel)⟩

/-- A graph that is read with one bracket at a time is written with two, as many as the bound
allows: the concept is written where its relation needs it.  So its text is not read with the same
limit. -/
theorem generateGraph_needs_more :
    let source := "[A: *x] (R ?x)"
    let model := ((({} : Session).within 1).parseGraph {} .cgif source).model
    ((({} : Session).within 1).parseGraph {} .cgif source).result = .ok ⟨0⟩ ∧ model.PlainNodes ∧
      (({} : Session).generateGraph model .cgif ⟨0⟩).1 = .ok "(R [A])" ∧
      ((({} : Session).within 1).parseGraph {} .cgif "(R [A])").result.isOk = false := by
  decide +kernel

end Session

end ConceptualGraph
