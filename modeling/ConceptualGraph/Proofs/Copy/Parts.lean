/-
Module: ConceptualGraph.Proofs.Copy.Parts
Purpose: Types, quantifiers, designators and comments are read back.
Main exports: Phrase.reread, Read.conceptType_achieves, Read.relationType_achieves,
  Read.quantifier_achieves, Read.designator_achieves_token, Read.nodeComment_achieves
-/
import ConceptualGraph.Proofs.Copy.Tracks
import ConceptualGraph.Proofs.Token.Phrase
import ConceptualGraph.Writing.Node

namespace ConceptualGraph

/-! ## Phrases -/

/-- The tokens of a phrase as they are read back. -/
def Phrase.reread (form : Notation) (phrase : Phrase) : List Token :=
  phrase.tokens.map (Token.reread form)

namespace Phrase

variable {form : Notation}

@[simp] theorem reread_nil : reread form [] = [] := rfl

@[simp] theorem reread_append (front back : Phrase) :
    reread form (front ++ back) = front.reread form ++ back.reread form := by
  simp [reread]

@[simp] theorem reread_mark (mark : Punct) : (Phrase.mark mark).reread form = [.punct mark] := rfl

@[simp] theorem reread_ofToken (token : Token) :
    (ofToken token).reread form = [token.reread form] := rfl

@[simp] theorem reread_space : space.reread form = [] := rfl

/-- What joins phrases is not read back. -/
theorem reread_join (separator : String) (phrases : List Phrase) :
    (join separator phrases).reread form = phrases.flatMap (reread form) := by
  simp only [reread, tokens_join, List.map_flatMap]
  rfl

end Phrase

theorem Token.IsName.reread {form : Notation} {word : String} (name : Token.IsName form word) :
    Token.reread form (.ident word) = .ident word := by
  simp [Token.reread, name.2]

/-! ## The order of parts -/

/-- The place that a token has among the tokens with which the parts of a concept begin after
its type, in the order in which they stand in its bracket. -/
def Token.rank : Token → Nat
  | .punct .colon => 1
  | .defLabel _ | .boundLabel _ => 2
  | .punct .atSign => 3
  | .punct .percent | .int _ | .float _ | .str _ | .name _ | .ident _ | .marker _ => 4
  | .punct .leftBracket | .punct .leftParen | .punct .leftAngle | .punct .tilde => 5
  | .formalComment _ => 5
  | .nodeComment _ _ => 6
  | _ => 7

/-- Whether tokens follow that begin at a rank or after it. -/
def From (rank : Nat) (tokens : List Token) : Prop :=
  ∃ first others, tokens = first :: others ∧ rank ≤ first.rank

theorem From.mono {rank lower : Nat} {tokens : List Token} (from_ : From rank tokens)
    (le : lower ≤ rank) : From lower tokens := by
  obtain ⟨first, others, starts, high⟩ := from_
  exact ⟨first, others, starts, Nat.le_trans le high⟩

/-- A part that may be missing begins at its rank, if what follows begins later. -/
theorem From.part {rank : Nat} {part rest : List Token}
    (starts : ∀ first others, part = first :: others → rank ≤ first.rank)
    (next : From rank rest) : From rank (part ++ rest) := by
  cases part with
  | nil => exact next
  | cons first others => exact ⟨first, others ++ rest, rfl, starts first others rfl⟩

/-! ## Types -/

section Types

variable {model : Model} {setting : Setting} {unfinished : Unfinished} {writer : Writer}
  {reader : Reader} {rest : List Token} {found : Located} {label : String}
  {lambda : Read Definition}

/-- New types leave what has been read back as it is. -/
theorem Tracks.retyped {hierarchy : Hierarchy} (tracks : Tracks model unfinished writer reader)
    (types : reader.model.hierarchy.Extends hierarchy)
    (ready : hierarchy.Ready (model.graphs.size ≤ 1)) :
    Tracks model unfinished writer (reader.withModel { reader.model with hierarchy }) where
  first := tracks.first
  houses := tracks.houses
  nodes := tracks.nodes.elsewhere rfl rfl List.prefix_rfl (Nat.le_refl _) types.concepts
    types.relations
  labels := ⟨tracks.labels.labelled, tracks.labels.bound,
    tracks.labels.framed.mono (.refl _) (.of_eq rfl)⟩
  markers := tracks.markers
  ready := ready
  setless := tracks.setless

namespace Read

/-- A concept type is found or made. -/
theorem conceptTypeNamed_ready {flat : Prop} (ready : reader.model.hierarchy.Ready flat)
    (onDemand : setting.options.createTypesOnDemand = true) :
    Achieves (conceptTypeNamed setting found label) reader fun type later => ∃ hierarchy,
      later = reader.withModel { reader.model with hierarchy } ∧
        reader.model.hierarchy.Extends hierarchy ∧ hierarchy.Ready flat ∧
        hierarchy.concepts.label? type = some label := by
  simp only [conceptTypeNamed, achieves_bind, achieves_model, onDemand, if_true]
  cases known : reader.model.hierarchy.concepts.find? label with
  | some type =>
      exact ⟨reader.model.hierarchy, rfl, .refl _, ready, Lattice.find?_eq_some known⟩
  | none =>
      simp only [Lattice.createOnDemand_eq known ready.concepts, achieves_bind, achieves_edit,
        achieves_pure]
      exact ⟨_, rfl, ⟨.withType, .refl _⟩, ⟨ready.concepts.withType, ready.relations,
        ready.valence⟩, Lattice.label?_withType⟩

/-- A label for a concept type is read as the type with that label. -/
theorem conceptTypeNamed_achieves (tracks : Tracks model unfinished writer reader)
    (onDemand : setting.options.createTypesOnDemand = true) :
    Achieves (conceptTypeNamed setting found label) reader fun type later =>
      Reads model unfinished writer reader reader.tokens later ∧
        later.model.hierarchy.concepts.label? type = some label := by
  refine (conceptTypeNamed_ready tracks.ready onDemand).mono fun type later read => ?_
  obtain ⟨hierarchy, rfl, types, ready, named⟩ := read
  exact ⟨⟨rfl, tracks.retyped types ready, types⟩, named⟩

/-- Relation types made on demand take any number of arguments. -/
theorem Ready.withType {hierarchy : Hierarchy} {flat : Prop} (ready : hierarchy.Ready flat) :
    ({ hierarchy with relations := hierarchy.relations.withType label } : Hierarchy).Ready
      flat where
  concepts := ready.concepts
  relations := ready.relations.withType
  valence type valence fixed := by
    by_cases last : type.index = hierarchy.relations.size
    · obtain rfl : type = ⟨hierarchy.relations.size⟩ := congrArg TypeRef.mk last
      rw [Lattice.valence?_withType_self] at fixed
      cases fixed
    · rw [Lattice.valence?_withType last] at fixed
      obtain ⟨nested, named⟩ := ready.valence type valence fixed
      refine ⟨nested, ?_⟩
      rw [Lattice.Extends.withType.label type (Lattice.label?_of_lt named), named]

/-- The type of negations may fix its number of arguments. -/
theorem Ready.setValence {hierarchy : Hierarchy} {flat : Prop} {type : RelationType}
    (ready : hierarchy.Ready flat) (nested : ¬flat)
    (named : hierarchy.relations.label? type = some negationLabel) (valence : Nat) :
    ({ hierarchy with relations := hierarchy.relations.setValence type valence } :
      Hierarchy).Ready flat where
  concepts := ready.concepts
  relations := ready.relations.setValence valence
  valence other fixed known := by
    refine ⟨nested, ?_⟩
    rw [Lattice.label?_setValence]
    by_cases same : other = type
    · rw [same, named]
    · rw [Lattice.valence?_setValence_of_ne (Lattice.label?_of_lt named) same] at known
      exact (ready.valence other fixed known).2

/-- A relation type is found or made. -/
theorem relationTypeNamed_ready {flat : Prop} (ready : reader.model.hierarchy.Ready flat)
    (onDemand : setting.options.createTypesOnDemand = true) :
    Achieves (relationTypeNamed setting found label) reader fun type later => ∃ hierarchy,
      later = reader.withModel { reader.model with hierarchy } ∧
        reader.model.hierarchy.Extends hierarchy ∧ hierarchy.Ready flat ∧
        hierarchy.relations.label? type = some label := by
  simp only [relationTypeNamed, achieves_bind, achieves_model, onDemand, if_true]
  cases known : reader.model.hierarchy.relations.find? label with
  | some type =>
      exact ⟨reader.model.hierarchy, rfl, .refl _, ready, Lattice.find?_eq_some known⟩
  | none =>
      simp only [Lattice.createOnDemand_eq known ready.relations, achieves_bind, achieves_edit,
        achieves_pure]
      exact ⟨_, rfl, ⟨.refl _, .withType⟩, Ready.withType ready, Lattice.label?_withType⟩

/-- A label for a relation type is read as the type with that label. -/
theorem relationTypeNamed_achieves (tracks : Tracks model unfinished writer reader)
    (onDemand : setting.options.createTypesOnDemand = true) :
    Achieves (relationTypeNamed setting found label) reader fun type later =>
      Reads model unfinished writer reader reader.tokens later ∧
        later.model.hierarchy.relations.label? type = some label := by
  refine (relationTypeNamed_ready tracks.ready onDemand).mono fun type later read => ?_
  obtain ⟨hierarchy, rfl, types, ready, named⟩ := read
  exact ⟨⟨rfl, tracks.retyped types ready, types⟩, named⟩

/-- The label of a concept type is read back. -/
theorem conceptType_achieves (tracks : Tracks model unfinished writer reader)
    (onDemand : setting.options.createTypesOnDemand = true)
    (starts : reader.tokens = .ident label :: rest) :
    Achieves (conceptType setting lambda) reader fun type later =>
      Reads model unfinished writer reader rest later ∧
        ∃ known, type = some known ∧
          later.model.hierarchy.concepts.label? known = some label := by
  simp only [conceptType, achieves_bind, achieves_peek, Reader.token_ahead_zero starts,
    achieves_located, achieves_advance, achieves_pure]
  refine (conceptTypeNamed_achieves (tracks.past (.next reader)) onDemand).mono
    fun type later both => ?_
  obtain ⟨reads, named⟩ := both
  refine ⟨⟨?_, reads.tracks, reads.types⟩, type, rfl, named⟩
  rw [reads.tokens, Reader.tail_tokens starts]

/-- Whether no type of a concept follows. -/
structure Untyped (tokens : List Token) : Prop where
  label : ∀ word others, tokens ≠ .ident word :: others
  definition : ∀ others, tokens ≠ .punct .leftParen :: .keyword .lambda :: others

/-- Where no type is given, none is read. -/
theorem conceptType_achieves_none {first : Token} (starts : reader.tokens = first :: rest)
    (untyped : Untyped reader.tokens) :
    Achieves (conceptType setting lambda) reader fun type later =>
      type = none ∧ later = reader := by
  unfold conceptType
  rw [achieves_bind, achieves_peek, Reader.token_ahead_zero starts]
  split
  · next word => exact absurd starts (untyped.label word rest)
  · simp only [lambdaAhead, achieves_bind, achieves_ahead, achieves_pure]
    split
    · next both =>
      simp only [Reader.token_ahead, decide_eq_true_eq, Bool.and_eq_true, Nat.zero_add] at both
      rw [starts] at both
      cases rest with
      | nil => simp at both
      | cons second others =>
          simp only [List.getElem?_cons_zero, List.getElem?_cons_succ, Option.getD_some] at both
          exact absurd (by rw [starts, both.1, both.2]) (untyped.definition others)
    · exact ⟨rfl, rfl⟩

/-- The label of a relation type is read back. -/
theorem relationType_achieves (tracks : Tracks model unfinished writer reader)
    (onDemand : setting.options.createTypesOnDemand = true)
    (starts : reader.tokens = .ident label :: rest) :
    Achieves (relationType setting lambda) reader fun type later =>
      Reads model unfinished writer reader rest later ∧
        later.model.hierarchy.relations.label? type = some label := by
  simp only [relationType, achieves_bind, achieves_peek, Reader.token_ahead_zero starts,
    achieves_located, achieves_advance]
  refine (relationTypeNamed_achieves (tracks.past (.next reader)) onDemand).mono
    fun type later both => ?_
  obtain ⟨reads, named⟩ := both
  refine ⟨⟨?_, reads.tracks, reads.types⟩, named⟩
  rw [reads.tokens, Reader.tail_tokens starts]

end Read

end Types

/-! ## Quantifiers -/

/-- The state of writing with other markers. -/
def Writer.withMarkers (writer : Writer) (markers : MarkerTable) : Writer :=
  { writer with markers }

section

variable {model : Model} {unfinished : Unfinished} {writer : Writer} {reader : Reader}
  {markers : MarkerTable}

@[simp] theorem Writer.emitted_withMarkers :
    (writer.withMarkers markers).emitted = writer.emitted := rfl
@[simp] theorem Writer.order_withMarkers : (writer.withMarkers markers).order = writer.order :=
  rfl
@[simp] theorem Writer.labels_withMarkers :
    (writer.withMarkers markers).labels = writer.labels := rfl
@[simp] theorem Writer.markers_withMarkers :
    (writer.withMarkers markers).markers = markers := rfl
@[simp] theorem Writer.written_withMarkers :
    (writer.withMarkers markers).written = writer.written := rfl

/-- New markers leave what has been read back as it is. -/
theorem Tracks.marked {table : MarkerTable} {count : Nat}
    (tracks : Tracks model unfinished writer reader)
    (grown : writer.markers.pairs <:+ markers.pairs)
    (paired : MarkerTable.Paired model.markers markers table count)
    (more : reader.model.markers ≤ count) :
    Tracks model unfinished (writer.withMarkers markers)
      { reader with markers := table, model := { reader.model with markers := count } } := by
  have continues : (writer.ledger model).Continues ((writer.withMarkers markers).ledger model) :=
    Writer.continues List.suffix_rfl grown
  exact
    { first := tracks.first
      houses := tracks.houses
      nodes := tracks.nodes.elsewhere (by rfl) (by rfl) continues.markers more (.refl _) (.refl _)
      labels := ⟨⟨tracks.labels.labelled.own, tracks.labels.labelled.named,
        tracks.labels.labelled.shared⟩, tracks.labels.bound,
        tracks.labels.framed.mono continues (.of_eq rfl)⟩
      markers := paired
      ready := tracks.ready
      setless := tracks.setless }

end

namespace Read

variable {source form : Notation} {reader : Reader} {rest : List Token}

/-- No quantifier is read where what follows begins none. -/
theorem quantifier_achieves_none (next : From 4 reader.tokens) :
    Achieves quantifier reader fun value later => value = none ∧ later = reader := by
  obtain ⟨first, others, starts, high⟩ := next
  simp only [quantifier, achieves_bind, achieves_eat, Reader.token_ahead_zero starts]
  refine ⟨fun found => ?_, fun _ => ?_⟩
  · subst found
    exact absurd high (by decide)
  · simp only [Bool.false_eq_true, if_false, achieves_pure]
    exact ⟨trivial, trivial⟩

/-- A word after the sign of a quantifier is gone past. -/
theorem quantifier_achieves_word {word : String}
    (starts : reader.tokens = .punct .atSign :: .ident word :: rest) :
    Achieves quantifier reader fun read later =>
      read = some (quantifierOfWord word) ∧ later.tokens = rest ∧ reader.Past later := by
  have second : reader.next.tokens = .ident word :: rest := Reader.tail_tokens starts
  simp only [quantifier, achieves_bind, achieves_eat, Reader.token_ahead_zero starts]
  refine ⟨fun _ => ?_, fun other => absurd rfl other⟩
  simp only [if_true, achieves_bind, achieves_peek, Reader.token_ahead_zero second,
    achieves_advance, achieves_pure]
  exact ⟨trivial, Reader.tail_tokens second, (Reader.Past.next _).trans (.next _)⟩

/-- A quantifier with a number is read. -/
theorem quantifier_achieves_count {number : Nat}
    (starts : reader.tokens = .punct .atSign :: .int number :: rest) :
    Achieves quantifier reader fun read later =>
      read = some (.count number) ∧ later.tokens = rest ∧ reader.Past later := by
  have second : reader.next.tokens = .int number :: rest := Reader.tail_tokens starts
  simp only [quantifier, achieves_bind, achieves_eat, Reader.token_ahead_zero starts]
  refine ⟨fun _ => ?_, fun other => absurd rfl other⟩
  simp only [if_true, achieves_bind, achieves_peek, Reader.token_ahead_zero second]
  exact ⟨rfl, Reader.tail_tokens second, (Reader.Past.next _).trans (.next _)⟩

/-- A quantifier is read back as it has been written. -/
theorem quantifier_achieves_some {value : Quantifier} (sound : value.Sound source)
    (name : ∀ word, value = .named word → Token.IsName form word)
    (starts : reader.tokens = (Write.quantifier value).reread form ++ rest) :
    Achieves quantifier reader fun read later =>
      read = some value ∧ later.tokens = rest ∧ reader.Past later := by
  have word (word) (kept : Token.reread form (.ident word) = .ident word)
      (reads : quantifierOfWord word = value)
      (tokens : reader.tokens = .punct .atSign :: Token.reread form (.ident word) :: rest) :
      Achieves quantifier reader fun read later =>
        read = some value ∧ later.tokens = rest ∧ reader.Past later :=
    reads ▸ quantifier_achieves_word (kept ▸ tokens)
  cases value with
  | every => exact word "every" (by cases form <;> decide +kernel) (by decide +kernel) starts
  | some => exact word "some" (by cases form <;> decide +kernel) (by decide +kernel) starts
  | named text => exact word text (name text rfl).reread sound.2 starts
  | count number => exact quantifier_achieves_count starts

/-- The tokens of a part that may be missing. -/
def partTokens {α : Type} (form : Notation) (write : α → Phrase) (part : Option α) : List Token :=
  part.elim [] fun value => (write value).reread form

/-- A quantifier is read back where one has been written, and none elsewhere. -/
theorem quantifier_achieves {value : Option Quantifier}
    (sound : ∀ quantifier, value = some quantifier → quantifier.Sound source)
    (name : ∀ word, value = some (.named word) → Token.IsName form word)
    (starts : reader.tokens = partTokens form Write.quantifier value ++ rest)
    (next : From 4 rest) :
    Achieves quantifier reader fun read later =>
      read = value ∧ later.tokens = rest ∧ reader.Past later := by
  cases value with
  | some quantifier =>
      exact quantifier_achieves_some (sound quantifier rfl)
        (fun word same => name word (congrArg some same)) starts
  | none =>
      have tokens : reader.tokens = rest := starts
      refine (quantifier_achieves_none (tokens ▸ next)).mono fun read later ⟨missing, same⟩ => ?_
      subst same
      exact ⟨missing, tokens, .refl _⟩

/-! ## Designators -/

section Designators

variable {model : Model} {unfinished : Unfinished} {writer : Writer} {value : Designator}

/-- No designator is read where what follows begins none. -/
theorem designator_achieves_none (next : From 5 reader.tokens) :
    Achieves designator reader fun value later => value = none ∧ later = reader := by
  obtain ⟨first, others, starts, high⟩ := next
  simp only [designator, achieves_bind, achieves_eat, Reader.token_ahead_zero starts]
  refine ⟨fun found => ?_, fun _ => ?_⟩
  · subst found
    exact absurd high (by decide)
  · simp only [Bool.false_eq_true, if_false, achieves_bind, achieves_located, designatorOf,
      Reader.token_ahead_zero starts]
    cases first <;>
      first
      | exact ⟨rfl, rfl⟩
      | exact absurd high (by simp [Token.rank])

/-- A token that is a designator by itself is gone past. -/
theorem designator_achieves_token {token : Token} {read : Designator}
    (starts : reader.tokens = token :: rest) (apart : token ≠ .punct .percent)
    (reads : ∀ found : Located, found.token = token → designatorOf found = pure (some read)) :
    Achieves designator reader fun value later =>
      value = some read ∧ later.tokens = rest ∧ reader.Past later := by
  simp only [designator, achieves_bind, achieves_eat, Reader.token_ahead_zero starts]
  refine ⟨fun found => absurd found apart, fun _ => ?_⟩
  simp only [Bool.false_eq_true, if_false, achieves_bind, achieves_located,
    reads _ (Reader.token_ahead_zero starts), achieves_pure, Option.isSome_some, if_true,
    achieves_advance]
  exact ⟨trivial, Reader.tail_tokens starts, .next _⟩

/-- An encoded literal is read back with its encoding and its payload. -/
theorem designator_achieves_encoded {encoding payload : String}
    (starts : reader.tokens = .punct .percent :: .ident encoding :: .str payload :: rest) :
    Achieves designator reader fun value later =>
      value = some (.literal (.encoded encoding payload)) ∧ later.tokens = rest ∧
        reader.Past later := by
  have second := Reader.tail_tokens starts
  have third := Reader.tail_tokens second
  simp only [designator, achieves_bind, achieves_eat, Reader.token_ahead_zero starts]
  refine ⟨fun _ => ?_, fun other => absurd rfl other⟩
  simp only [if_true, achieves_bind, encodedLiteral, achieves_peek,
    Reader.token_ahead_zero second, achieves_advance, Reader.token_ahead_zero third,
    achieves_pure]
  exact ⟨trivial, Reader.tail_tokens third, ((Reader.Past.next _).trans (.next _)).trans (.next _)⟩

/-- A marker is read back as its copy. -/
theorem designator_achieves_marker {marker : MarkerId}
    (tracks : Tracks model unfinished writer reader) (inside : marker.index < model.markers)
    (few : model.markers < UInt64.size)
    (starts : reader.tokens =
      .marker (some (writer.markers.foreignIdFor marker).1) :: rest) :
    Achieves designator reader fun value later =>
      Reads model unfinished (writer.withMarkers (writer.markers.foreignIdFor marker).2) reader
          rest later ∧
        writer.Onward (writer.withMarkers (writer.markers.foreignIdFor marker).2) ∧
          ∃ copy, value = some (.marker copy) ∧
          ((writer.withMarkers (writer.markers.foreignIdFor marker).2).ledger model).Marker
            marker copy := by
  obtain ⟨place, count, table, ran, paired, more, grown, copies, -⟩ :=
    tracks.markers.step inside few rfl
  simp only [designator, achieves_bind, achieves_eat, Reader.token_ahead_zero starts]
  refine ⟨fun found => (by cases found), fun _ => ?_⟩
  simp only [Bool.false_eq_true, if_false, achieves_bind, achieves_located, designatorOf,
    Reader.token_ahead_zero starts, markerOf, achieves_get, ran, achieves_set, achieves_pure,
    Option.isSome_some, if_true, achieves_advance]
  refine ⟨⟨Reader.tail_tokens starts, ?_, .refl _⟩,
    ⟨List.suffix_rfl, grown, List.Subset.refl _⟩, ⟨place⟩, rfl, copies⟩
  exact (tracks.marked grown paired more).past ⟨rfl, rfl, rfl, rfl⟩

end Designators

/-! ## Comments -/

/-- The comment of a node is read back, and none where none has been written. -/
theorem nodeComment_achieves {node : NodeKind} {text : Option String}
    (starts : reader.tokens = (Write.comment node text).reread form ++ rest)
    (next : From 7 rest) :
    Achieves (nodeComment node) reader fun value later =>
      value = text ∧ later.tokens = rest ∧ reader.Past later := by
  cases text with
  | some text =>
      have tokens : reader.tokens = .nodeComment node text :: rest := starts
      simp only [nodeComment, achieves_bind, achieves_peek, Reader.token_ahead_zero tokens,
        if_true, achieves_advance, achieves_pure]
      exact ⟨trivial, Reader.tail_tokens tokens, .next _⟩
  | none =>
      have tokens : reader.tokens = rest := starts
      obtain ⟨first, others, same, high⟩ := next
      simp only [nodeComment, achieves_bind, achieves_peek,
        Reader.token_ahead_zero (tokens.trans same)]
      split
      · exact absurd high (by simp [Token.rank])
      · exact ⟨rfl, tokens, .refl _⟩

end Read

end ConceptualGraph
