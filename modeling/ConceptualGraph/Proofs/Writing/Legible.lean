/-
Module: ConceptualGraph.Proofs.Writing.Legible
Purpose: What is written for a graph is legible: labels are words, identifiers of markers are
  numerals, and every token ends before the next one begins.
Main exports: Phrase.Clear, Writer.Worded, Write.Words, Model.Legible, Write.words_emitConcept,
  Write.words_actor, Write.words_negation
-/
import ConceptualGraph.Proofs.Copy.Nested
import ConceptualGraph.Proofs.Token.Decimal

namespace ConceptualGraph

open Phrase (join mark ofToken space)

/-- The mark that closes a node. -/
def NodeKind.closer : NodeKind → Punct
  | .concept => .rightBracket
  | .relation => .rightParen
  | .actor => .rightAngle

/-! ## Clear phrases -/

/-- Whether no word goes on into a text. -/
def Delimits (rest : List Char) : Prop :=
  ∀ char ∈ rest.head?, Scan.continuesWord char = false

/-- The characters that follow words in what is written. -/
def delimiters : List Char := [' ', '\n', ':', ',', '.', '-', ']', ')', '>']

/-- A delimiter does not continue a word. -/
theorem continuesWord_of_mem {char : Char} (delimiter : char ∈ delimiters) :
    Scan.continuesWord char = false := by
  have none : delimiters.all (fun char => !Scan.continuesWord char) = true := by decide
  simpa using List.all_eq_true.mp none char delimiter

theorem isBlank_space : ∀ char ∈ " ".toList, Text.isBlank char = true :=
  List.forall_mem_singleton.mpr (by decide : Text.isBlank ' ' = true)

theorem isBlank_newline : ∀ char ∈ "\n".toList, Text.isBlank char = true :=
  List.forall_mem_singleton.mpr (by decide : Text.isBlank '\n' = true)

/-- A text that begins with a delimiter delimits. -/
theorem delimits_cons {char : Char} (delimiter : char ∈ delimiters) (rest : List Char) :
    Delimits (char :: rest) := by
  rintro next ⟨⟩
  exact continuesWord_of_mem delimiter

/-- Whether a text may follow a part of a concept. -/
def FollowsPart (rest : List Char) : Prop :=
  ∀ char ∈ rest.head?, char = ' ' ∨ char = ']'

/-- Neither a word nor a number goes on into a part that follows. -/
theorem FollowsPart.ends {rest : List Char} (follows : FollowsPart rest) :
    ∀ char ∈ rest.head?, Scan.continuesWord char = false ∧ char ≠ '.' := by
  intro char first
  rcases follows char first with rfl | rfl <;>
    exact ⟨continuesWord_of_mem (by decide), by decide⟩

theorem FollowsPart.delimits {rest : List Char} (follows : FollowsPart rest) : Delimits rest :=
  fun char first => (follows.ends char first).1

theorem followsPart_blank (rest : List Char) : FollowsPart (' ' :: rest) := by
  rintro char ⟨⟩
  exact .inl rfl

namespace Phrase

variable {form : Notation} {sign : Bool} {rest : List Char} {phrase front back : Phrase}
  {phrases : List Phrase}

/-- Whether a phrase is legible wherever no word goes on after it. -/
def Clear (form : Notation) (phrase : Phrase) : Prop :=
  ∀ sign rest, Delimits rest → phrase.Legible form sign rest

theorem clear_nil : Clear form [] := fun _ _ _ => trivial

/-- Whether a phrase may also follow a word. -/
structure Trails (form : Notation) (phrase : Phrase) : Prop where
  clear : phrase.Clear form
  delimits : ∀ rest, Delimits rest → Delimits (phrase.chars ++ rest)

theorem trails_nil : Trails form [] := ⟨clear_nil, fun _ next => next⟩

/-- A clear phrase is clear before one that may follow a word. -/
theorem Clear.append (clear : front.Clear form) (trails : back.Trails form) :
    (front ++ back).Clear form :=
  fun sign rest next =>
    (clear sign _ (trails.delimits rest next)).append (trails.clear _ rest next)

theorem Trails.append (first : front.Trails form) (second : back.Trails form) :
    (front ++ back).Trails form where
  clear := first.clear.append second
  delimits rest next := by
    rw [chars_append, List.append_assoc]
    exact first.delimits _ (second.delimits rest next)

theorem Clear.spaced (clear : phrase.Clear form) : (space ++ phrase).Trails form where
  clear sign rest next := ⟨isBlank_space, clear sign rest next⟩
  delimits rest _ := delimits_cons (by decide) _

/-- Phrases that begin with blanks. -/
theorem trails_flatMap {α : Type} {elements : List α} {step : α → Phrase}
    (trails : ∀ element ∈ elements, (step element).Trails form) :
    Trails form (elements.flatMap step) := by
  induction elements with
  | nil => exact trails_nil
  | cons element elements ih =>
      rw [List.flatMap_cons]
      exact (trails element (List.mem_cons_self ..)).append
        (ih fun other member => trails other (List.mem_cons_of_mem _ member))

/-- Phrases with blanks between them: the first one and the others. -/
theorem legible_join_cons (first : ∀ rest, FollowsPart rest → phrase.Legible form sign rest)
    (others : (join " " phrases).Legible form (phrase.signThrough form sign) rest)
    (follows : FollowsPart rest) : (join " " (phrase :: phrases)).Legible form sign rest := by
  cases phrases with
  | nil =>
      rw [join_singleton]
      exact first rest follows
  | cons second phrases =>
      rw [join_cons_cons]
      exact (first _ (followsPart_blank _)).append ⟨isBlank_space, others⟩

/-- Clear phrases with blanks between them are clear. -/
theorem clear_join {separator : String} {char : Char} {more : List Char}
    (separates : separator.toList = char :: more)
    (blank : ∀ char ∈ separator.toList, Text.isBlank char = true)
    (delimits : char ∈ delimiters) (clear : ∀ phrase ∈ phrases, phrase.Clear form) :
    (join separator phrases).Clear form := by
  induction phrases with
  | nil => exact clear_nil
  | cons phrase phrases ih =>
      have others := ih fun other member => clear other (List.mem_cons_of_mem _ member)
      have first := clear phrase (List.mem_cons_self ..)
      cases phrases with
      | nil =>
          rw [join_singleton]
          exact first
      | cons second phrases =>
          rw [join_cons_cons]
          refine first.append ⟨fun sign rest next => ⟨blank, others sign rest next⟩,
            fun rest _ => ?_⟩
          rw [chars_cons, Piece.text, separates]
          exact delimits_cons delimits _

theorem clear_lines (clear : ∀ phrase ∈ phrases, phrase.Clear form) :
    (join "\n" phrases).Clear form :=
  clear_join rfl isBlank_newline (by decide) clear

theorem clear_line (clear : ∀ phrase ∈ phrases, phrase.Clear form) :
    (join " " phrases).Clear form :=
  clear_join rfl isBlank_space (by decide) clear

/-! ### Tokens and brackets -/

theorem clear_word {token : Token} (legible : ∀ sign, token.Legible form sign)
    (ends : ∀ rest, Delimits rest → token.EndsBefore form rest) : (ofToken token).Clear form :=
  fun sign rest next => ⟨legible sign, ends rest next, trivial⟩

theorem clear_ident {word : String} (worded : Token.IsWord word) :
    (ofToken (.ident word)).Clear form :=
  clear_word (fun _ => worded) fun _ next => next

theorem clear_boundLabel {label : String} (worded : Token.IsWord label) :
    (ofToken (.boundLabel label)).Clear form :=
  clear_word (fun _ => worded) fun _ next => next

theorem clear_formalComment {text : String} (spoken : Token.IsGraphComment text) :
    (ofToken (.formalComment text)).Clear form :=
  clear_word (fun _ => spoken) fun _ _ => trivial

/-- The end of a node: its comment, and the bracket that closes it. -/
def closing (node : NodeKind) (comment : Option String) : Phrase :=
  Write.comment node comment ++ mark node.closer

/-- The end of a node may follow a word. -/
theorem trails_closing {node : NodeKind} {comment : Option String}
    (sound : ∀ text, comment = some text → Token.IsNodeComment text) :
    (closing node comment).Trails form where
  clear sign rest _ := by
    cases comment with
    | none => cases node <;> exact ⟨trivial, trivial, trivial⟩
    | some text =>
        refine ⟨isBlank_space, sound text rfl, ?_, ?_⟩
        · cases node <;> rfl
        · cases node <;> exact ⟨trivial, trivial, trivial⟩
  delimits rest _ := by
    cases comment <;> cases node <;> exact delimits_cons (by decide) _

/-- The end of a concept may follow a part of it. -/
theorem followsPart_closing (comment : Option String) (rest : List Char) :
    FollowsPart ((closing .concept comment).chars ++ rest) := by
  cases comment with
  | none =>
      rintro char ⟨⟩
      exact .inr rfl
  | some text => exact followsPart_blank _

end Phrase

/-! ## Labels and identifiers -/

/-- A numbered label is a word. -/
theorem LabelTable.isWord_numbered (number : Nat) : Token.IsWord (numbered number) := by
  have chars : (numbered number).toList = 'x' :: number.repr.toList := by
    simp [numbered, String.toList_append]
  have digits : ∀ char ∈ number.repr.toList, Scan.continuesWord char = true := by
    intro char member
    rw [Nat.toList_repr] at member
    exact Scan.continuesWord_of_isDigit (Scan.all_isDigit_toDigits number char member)
  have letter : Scan.startsWord 'x' = true ∧ Scan.continuesWord 'x' = true := by decide
  unfold Token.IsWord
  rw [chars, List.head?_cons, Option.any_some, letter.1, List.all_cons, letter.2, Bool.true_and,
    Bool.true_and]
  exact List.all_eq_true.mpr digits

/-- Whether an identifier is a numeral. -/
def IsNumeral (identifier : String) : Prop :=
  identifier ≠ "" ∧ identifier.toList.all Char.isDigit = true

/-- A number in decimal is a numeral that can be read. -/
theorem isNumeral_repr (number : Nat) : IsNumeral number.repr := by
  constructor
  · intro empty
    have chars := congrArg String.toList empty
    rw [Nat.toList_repr] at chars
    exact Nat.toDigits_ne_nil chars
  · rw [Nat.toList_repr]
    exact List.all_eq_true.mpr (Scan.all_isDigit_toDigits number)

/-- Whether the labels that have been given out are words, and the identifiers of markers
numerals. -/
structure Writer.Worded (writer : Writer) : Prop where
  names : ∀ entry ∈ writer.labels.names, Token.IsWord entry.2
  emitted : ∀ entry ∈ writer.emitted, ∀ label, entry.2 = some label → Token.IsWord label
  markers : ∀ pair ∈ writer.markers.pairs, IsNumeral pair.1

namespace Writer.Worded

variable {writer : Writer}

theorem withLabels (worded : writer.Worded) {labels : LabelTable}
    (names : ∀ entry ∈ labels.names, Token.IsWord entry.2) : (writer.withLabels labels).Worded :=
  ⟨names, worded.emitted, worded.markers⟩

theorem push (worded : writer.Worded) : (writer.withLabels writer.labels.push).Worded :=
  worded.withLabels worded.names

theorem pop (worded : writer.Worded) : (writer.withLabels writer.labels.pop).Worded :=
  worded.withLabels fun entry member => worded.names entry (LabelTable.mem_names_pop member)

theorem begin (worded : writer.Worded) (relation : RelationId) : (writer.begin relation).Worded :=
  ⟨worded.names, worded.emitted, worded.markers⟩

/-- A writer goes on with words for labels when a concept is written with one. -/
theorem emit (worded : writer.Worded) (concept : ConceptId) {use : Option LabelUse}
    (word : ∀ known ∈ use, Token.IsWord known.label) :
    (writer.emit concept (use.map LabelUse.label)).Worded where
  names := worded.names
  emitted entry member label same := by
    rcases List.mem_cons.mp member with rfl | member
    · obtain ⟨known, used, rfl⟩ := Option.map_eq_some_iff.mp same
      exact word known used
    · exact worded.emitted entry member label same
  markers := worded.markers

/-- The names that a writer has given are words. -/
theorem name (worded : writer.Worded) {target : Target} {label : String}
    (named : writer.labels.name? target = some label) : Token.IsWord label := by
  obtain ⟨front, back, split, -⟩ := List.lookup_eq_some_iff.mp named
  exact worded.names (target, label) (by simp [split])

/-- A fresh label is a word like all others. -/
theorem fresh (worded : writer.Worded) (target : Target) :
    (writer.withLabels
      (writer.labels.freshLabel.2.bind writer.labels.freshLabel.1 target)).Worded := by
  have kept : ∀ removed, ∀ entry ∈ LabelTable.forget writer.labels.names removed,
      Token.IsWord entry.2 := fun removed entry member =>
    worded.names entry (List.mem_of_mem_filter member)
  refine worded.withLabels fun entry member => ?_
  unfold LabelTable.bind at member
  split at member
  · rcases List.mem_cons.mp member with rfl | member
    · exact LabelTable.isWord_numbered _
    · exact kept _ entry member
  · rcases List.mem_cons.mp member with rfl | member
    · exact LabelTable.isWord_numbered _
    · exact kept _ entry (List.mem_of_mem_filter member)

/-- The identifier of a marker is a numeral. -/
theorem identified (worded : writer.Worded) (marker : MarkerId) :
    IsNumeral (writer.markers.foreignIdFor marker).1 ∧
      (writer.withMarkers (writer.markers.foreignIdFor marker).2).Worded := by
  unfold MarkerTable.foreignIdFor
  cases known : writer.markers.foreignId? marker with
  | some foreign =>
      obtain ⟨pair, found, rfl⟩ := Option.map_eq_some_iff.mp known
      exact ⟨worded.markers pair (List.mem_of_find?_eq_some found), worded⟩
  | none =>
      refine ⟨isNumeral_repr _, worded.names, worded.emitted, fun pair member => ?_⟩
      rcases List.mem_cons.mp member with rfl | member
      · exact isNumeral_repr _
      · exact worded.markers pair (List.mem_of_mem_filter member)

end Writer.Worded

/-! ## Steps that give out words -/

namespace Write

/-- Whether a step gives out nothing but words as labels, and results of a certain kind. -/
abbrev Words {α : Type} (step : Write α) (post : α → Prop) : Prop :=
  Maintains Writer.Worded step post

theorem words_inContext {α : Type} {step : Write α} {post : α → Prop} (words : Words step post) :
    Words (inContext step) post :=
  fun _ worded => ensures_inContext.mpr <| (words _ worded.push).mono fun _ _ facts =>
    ⟨facts.1.pop, facts.2⟩

variable {model : Model} {form : Notation} {inner : Inner} {concept : ConceptId}
  {relation : RelationId}

/-! ### Labels -/

theorem words_labelFor (target : Target) : Words (labelFor target) Token.IsWord := by
  intro writer worded
  unfold labelFor
  rw [ensures_bind, ensures_get]
  cases named : writer.labels.name? target with
  | some label => exact ⟨worded, worded.name named⟩
  | none => exact ⟨worded.fresh target, LabelTable.isWord_numbered _⟩

/-- The label with which a concept opens is a word. -/
theorem words_openLabel (concept : ConceptId) (needed : Bool) :
    Words (openLabel model concept needed) fun use => ∀ known ∈ use, Token.IsWord known.label := by
  unfold openLabel
  cases model.sharedSet? concept with
  | some set =>
      refine (words_labelFor _).bind fun label word => .pure ?_
      rintro known ⟨⟩
      split <;> exact word
  | none =>
      refine .get fun _ => .ite ?_ (.pure (by simp))
      refine (words_labelFor _).bind fun label word => .pure ?_
      rintro known ⟨⟩
      exact word

/-- The label by which a concept is known is a word. -/
theorem words_knownLabel (concept : ConceptId) : Words (knownLabel model concept) Token.IsWord := by
  intro writer worded
  unfold knownLabel
  rw [ensures_bind, ensures_get]
  cases (model.concept concept).corefSets.head? with
  | some set =>
      cases named : writer.labels.name? (.set set) with
      | some label =>
          simp only [named, ensures_pure]
          exact ⟨worded, worded.name named⟩
      | none => simp only [named, ensures_throw]
  | none =>
      cases named : writer.labels.name? (.concept concept) with
      | some label =>
          simp only [named, ensures_pure]
          exact ⟨worded, worded.name named⟩
      | none => simp only [named, ensures_throw]

/-- A reference is one label, or the concept in full. -/
theorem words_reference (concept : ConceptId) :
    Words (reference model concept) (Phrase.Clear form) := by
  intro writer worded
  unfold reference
  rw [ensures_bind, ensures_get]
  cases found : writer.emitted.lookup concept with
  | some label =>
      obtain ⟨front, back, split, -⟩ := List.lookup_eq_some_iff.mp found
      cases label with
      | some label =>
          exact ⟨worded, Phrase.clear_boundLabel
            (worded.emitted (concept, some label) (by simp [split]) label rfl)⟩
      | none => trivial
  | none =>
      exact (words_knownLabel concept writer worded).bind fun label after facts =>
        ⟨facts.1, Phrase.clear_boundLabel facts.2⟩

/-! ### Parts of concepts -/

/-- Whether a phrase is legible where a sign may stand, before another part of a concept. -/
def IsPart (form : Notation) (phrase : Phrase) : Prop :=
  ∀ sign rest, Scan.AllowsMinus form sign → FollowsPart rest → phrase.Legible form sign rest

/-- After a label a number may have a sign. -/
theorem legible_label {use : LabelUse} (word : Token.IsWord use.label) {sign : Bool}
    {rest : List Char} (follows : FollowsPart rest) : (ofToken use.token).Legible form sign rest ∧
      Scan.AllowsMinus form ((ofToken use.token).signThrough form sign) := by
  cases use <;> exact ⟨⟨word, follows.delimits, trivial⟩, .inr rfl⟩

/-- After a quantifier a number may have a sign, unless the word of the quantifier is reserved. -/
theorem legible_quantifier {source : Notation} {value : Quantifier} (sound : value.Sound source)
    (named : form = .linear → ∀ word, value = .named word → Token.IsName form word) {sign : Bool}
    {rest : List Char} (follows : FollowsPart rest) : (quantifier value).Legible form sign rest ∧
      Scan.AllowsMinus form ((quantifier value).signThrough form sign) := by
  cases value with
  | every =>
      exact ⟨⟨trivial, trivial, (by decide : Token.IsWord "every"), follows.delimits, trivial⟩,
        .inr (by cases form <;> cases sign <;> decide)⟩
  | some =>
      exact ⟨⟨trivial, trivial, (by decide : Token.IsWord "some"), follows.delimits, trivial⟩,
        .inr (by cases form <;> cases sign <;> decide)⟩
  | count number =>
      exact ⟨⟨trivial, trivial, ⟨sound, fun negative => absurd negative (by omega)⟩,
        follows.ends, trivial⟩, .inr rfl⟩
  | named word =>
      refine ⟨⟨trivial, trivial, sound.1.1, follows.delimits, trivial⟩, ?_⟩
      cases form with
      | cgif => exact .inl rfl
      | linear =>
          refine .inr ?_
          simp [quantifier, mark, ofToken, Phrase.signThrough, (named rfl word rfl).reread,
            Scan.signAfter, Scan.allowsSign]

/-- A literal is legible as a part of a concept, given that it is no infinite number. -/
theorem isPart_literal {source : Notation} {markers : Nat} {value : Literal}
    (sound : (Designator.literal value).Sound source markers)
    (bounded : ∀ number, value = .number (.float number) → number.magnitude ≠ .infinite) :
    IsPart form (literal value) := by
  intro sign rest minus follows
  cases value with
  | number value =>
      cases value with
      | int value => exact ⟨⟨sound, fun _ => minus⟩, follows.ends, trivial⟩
      | float value =>
          exact ⟨Binary64.legible_text (bounded value rfl) minus, follows.ends, trivial⟩
  | string text => exact ⟨trivial, trivial, trivial⟩
  | encoded encoding payload =>
      exact ⟨trivial, trivial, sound.1, delimits_cons (by decide) _, isBlank_space,
        trivial, trivial,
        trivial⟩

end Write

/-! ### Models with legible nodes -/

/-- A model of which every node can be written so that it is scanned: no number is infinite, and
no reserved word stands before a number with a sign. -/
structure Model.Legible (source form : Notation) (model : Model) : Prop extends
    model.Rooted source, model.TypesNamed where
  quantifier : form = .linear → ∀ concept referent word,
    (model.concept concept).referent = some referent →
    referent.quantifier = some (.named word) → Token.IsName form word
  bounded : ∀ concept referent number, (model.concept concept).referent = some referent →
    referent.designator = some (.literal (.number (.float number))) →
    number.magnitude ≠ .infinite

namespace Model.Legible

variable {model : Model} {source form : Notation} {concept : ConceptId} {relation : RelationId}

/-- The label of the type of a concept is a word. -/
theorem isWord_conceptType (legible : model.Legible source form) {type : ConceptType}
    (typed : (model.concept concept).type = some type) :
    ∃ label, model.hierarchy.concepts.label? type = some label ∧ Token.IsWord label := by
  obtain ⟨label, known⟩ := legible.conceptType concept type typed
  exact ⟨label, known, (legible.sound.conceptTypes.label type label known).1⟩

/-- The type of a relation has a label that is a word. -/
theorem isWord_relationType (legible : model.Legible source form) {type : RelationType}
    (typed : (model.relation relation).type = some type) :
    ∃ label, model.hierarchy.relations.label? type = some label ∧ Token.IsWord label := by
  obtain ⟨label, known⟩ := legible.relationType relation type typed
  exact ⟨label, known, (legible.sound.relationTypes.label type label known).1⟩

end Model.Legible

/-- A model that can be copied and has no fractional numbers is legible. -/
theorem Model.Copyable.legible {model : Model} {source form : Notation}
    (copyable : model.Copyable source form)
    (whole : ∀ concept, ¬(model.concept concept).IsFractional) : model.Legible source form where
  toRooted := copyable.toRooted
  toTypesNamed := copyable.typesNamed
  quantifier _ := copyable.quantifier
  bounded concept referent number described same :=
    absurd ⟨referent, number, described, same⟩ (whole concept)

/-! ### Whole concepts -/

namespace Write

variable {model : Model} {source form : Notation} {inner : Inner} {concept : ConceptId}
  {relation : RelationId} {use : Option LabelUse} {designators nested : List Phrase}

/-- The parts of a concept after its type. -/
theorem legible_parts (legible : model.Legible source form) (concept : ConceptId)
    (word : ∀ known ∈ use, Token.IsWord known.label)
    (named : ∀ phrase ∈ designators, IsPart form phrase) (single : designators.length ≤ 1)
    (clear : ∀ phrase ∈ nested, phrase.Clear form) {sign : Bool} {rest : List Char}
    (minus : Scan.AllowsMinus form sign) (follows : FollowsPart rest) :
    (join " " ((use.map fun use => ofToken use.token).toList ++
      (((conceptQuantifier (model.concept concept)).map quantifier).toList ++ designators ++
        nested))).Legible form sign rest := by
  -- Each part is legible before those that follow it, from the last to the first.
  have last : ∀ sign, (join " " nested).Legible form sign rest := fun sign =>
    Phrase.clear_line clear sign rest follows.delimits
  have later : ∀ sign, Scan.AllowsMinus form sign →
      (join " " (designators ++ nested)).Legible form sign rest := by
    intro sign minus
    cases designators with
    | nil => exact last sign
    | cons phrase others =>
        obtain rfl : others = [] := by simpa using single
        exact Phrase.legible_join_cons (fun rest => named phrase (List.mem_cons_self ..) sign rest
          minus) (last _) follows
  have counted : ∀ sign, Scan.AllowsMinus form sign →
      (join " " (((conceptQuantifier (model.concept concept)).map quantifier).toList ++
        designators ++ nested)).Legible form sign rest := by
    intro sign minus
    rw [List.append_assoc]
    cases quantified : conceptQuantifier (model.concept concept) with
    | none => exact later sign minus
    | some value =>
        obtain ⟨referent, described, same⟩ := Option.bind_eq_some_iff.mp quantified
        have sound := (legible.sound.referentSound described).quantifier value same
        have spelled : ∀ rest, FollowsPart rest → (quantifier value).Legible form sign rest ∧
            Scan.AllowsMinus form ((quantifier value).signThrough form sign) := fun rest follows =>
          legible_quantifier sound (fun linear word is =>
            legible.quantifier linear concept referent word described (is ▸ same)) follows
        exact Phrase.legible_join_cons (fun rest follows => (spelled rest follows).1)
          (later _ (spelled rest follows).2) follows
  cases use with
  | none => exact counted sign minus
  | some known =>
      have spelled : ∀ rest, FollowsPart rest → (ofToken known.token).Legible form sign rest ∧
          Scan.AllowsMinus form ((ofToken known.token).signThrough form sign) :=
        fun rest follows => legible_label (word known rfl) follows
      exact Phrase.legible_join_cons (fun rest follows => (spelled rest follows).1)
        (counted _ (spelled rest follows).2) follows

/-- A concept with its type, its parts and its comment. -/
theorem clear_conceptPhrase (legible : model.Legible source form)
    (word : ∀ known ∈ use, Token.IsWord known.label)
    (named : ∀ phrase ∈ designators, IsPart form phrase) (single : designators.length ≤ 1)
    (clear : ∀ phrase ∈ nested, phrase.Clear form) :
    (conceptPhrase model concept use designators nested).Clear form := by
  intro sign rest next
  have follows := Phrase.followsPart_closing (model.concept concept).comment rest
  have closes : (Phrase.closing .concept (model.concept concept).comment).Trails form :=
    Phrase.trails_closing fun text spoken => legible.sound.isNodeComment_concept spoken
  have body := fun (sign : Bool) (minus : Scan.AllowsMinus form sign) =>
    (legible_parts legible concept word named single clear minus follows).append
      (closes.clear _ _ next)
  unfold conceptPhrase
  extract_lets data referent parts colon
  have split : mark .leftBracket ++ typeName model data.type ++ colon ++ join " " parts ++
      comment .concept data.comment ++ mark .rightBracket = mark .leftBracket ++
        (typeName model data.type ++ (colon ++ (join " " parts ++
          Phrase.closing .concept data.comment))) := by
    simp [Phrase.closing, NodeKind.closer]
  -- A colon stands between the type and the parts, so the type matters only if no part follows.
  have headed : ∀ sign, (data.type = none → Scan.AllowsMinus form sign) →
      (colon ++ (join " " parts ++ Phrase.closing .concept data.comment)).Legible form sign
        rest := by
    intro sign minus
    by_cases empty : parts = []
    · have none : colon = [] := by simp [colon, empty]
      rw [none, empty]
      exact closes.clear sign rest next
    · by_cases typed : data.type = none
      · have none : colon = [] := by simp [colon, typed]
        rw [none]
        exact body sign (minus typed)
      · have some : colon = mark .colon ++ space := by
          simp [colon, Option.isSome_iff_ne_none.mpr typed, empty]
        rw [some]
        exact ⟨trivial, trivial, isBlank_space, body true (.inr rfl)⟩
  rw [split]
  refine ⟨trivial, trivial, ?_⟩
  cases typed : data.type with
  | none => exact headed true fun _ => .inr rfl
  | some type =>
      obtain ⟨label, known, worded⟩ := legible.isWord_conceptType typed
      have delimits : Delimits ((colon ++ (join " " parts ++
          Phrase.closing .concept data.comment)).chars ++ rest) := by
        by_cases empty : parts = []
        · have none : colon = [] := by simp [colon, empty]
          rw [none, empty]
          exact closes.delimits rest next
        · have some : colon = mark .colon ++ space := by simp [colon, typed, empty]
          rw [some]
          exact delimits_cons (by decide) _
      simp only [typeName, Option.elim_some, known, Option.getD_some]
      exact ⟨worded, delimits, headed _ fun none => by simp [typed] at none⟩

/-! ### Designators and nested graphs -/

theorem words_markerId (marker : MarkerId) : Words (markerId marker) IsNumeral :=
  fun _ worded => (worded.identified marker).symm

/-- A designator is legible as a part of a concept. -/
theorem words_designator (legible : model.Legible source form) {referent : Referent}
    {value : Designator} (described : (model.concept concept).referent = some referent)
    (same : referent.designator = some value) :
    Words (designator model value) (IsPart form) := by
  have sound := (legible.sound.referentSound described).designator value same
  cases value with
  | literal value =>
      exact .pure (isPart_literal sound fun number is =>
        legible.bounded concept referent number described (is ▸ same))
  | name name => exact .pure fun _ _ _ _ => ⟨trivial, trivial, trivial⟩
  | marker id =>
      exact (words_markerId id).bind fun numeral known => .pure fun _ _ _ follows =>
        ⟨⟨_, rfl, known⟩, Scan.not_isDigit_of_next follows.delimits, trivial⟩
  | defined id =>
      exact (words_reference id).mono fun phrase clear sign rest _ follows =>
        clear sign rest follows.delimits

variable {graph : GraphId}

theorem words_nestedGraph
    (clear : ∀ graph, Words (inner graph) fun items => ∀ item ∈ items, item.Clear form)
    (graph : GraphId) : Words (nestedGraph inner graph) (Phrase.Clear form) :=
  words_inContext <| (clear graph).bind fun _ items => .pure (Phrase.clear_line items)

/-- A context under a label. -/
theorem words_specialContext
    (clear : ∀ graph, Words (inner graph) fun items => ∀ item ∈ items, item.Clear form)
    {label : String} (worded : Token.IsWord label) (descriptor : Option GraphId) :
    Words (specialContext inner label descriptor) (Phrase.Clear form) := by
  have closes : (Phrase.closing .concept none).Trails form := Phrase.trails_closing (by simp)
  have bracketed : ∀ body : Phrase, body.Trails form →
      (mark .leftBracket ++ ofToken (.ident label) ++ body ++ mark .rightBracket).Clear form :=
    fun body legible sign rest next => by
      rw [List.append_assoc, List.append_assoc]
      exact ⟨trivial, trivial, (Phrase.clear_ident worded).append (legible.append closes) _ _ next⟩
  cases descriptor with
  | none => exact .pure (bracketed [] Phrase.trails_nil)
  | some graph =>
      exact (words_nestedGraph clear graph).bind fun _ legible => .pure (bracketed _ legible.spaced)

/-- A concept has at most one designator among the parts that it refers by. -/
theorem words_referentParts (legible : model.Legible source form)
    (clear : ∀ graph, Words (inner graph) fun items => ∀ item ∈ items, item.Clear form)
    {referent : Referent} (described : (model.concept concept).referent = some referent) :
    Words (referentParts model inner referent) fun parts => ∃ designators nested,
      parts = (referent.quantifier.map quantifier).toList ++ designators ++ nested ∧
        (∀ phrase ∈ designators, IsPart form phrase) ∧ designators.length ≤ 1 ∧
          ∀ phrase ∈ nested, phrase.Clear form := by
  have named : Words (concat (fun value => return [← designator model value])
      referent.designator.toList) fun phrases =>
        (∀ phrase ∈ phrases, IsPart form phrase) ∧ phrases.length ≤ 1 := by
    cases same : referent.designator with
    | none => exact .pure (by simp)
    | some value =>
        rw [Option.toList_some, concat_singleton]
        exact (words_designator legible described same).bind fun phrase part => .pure (by simpa)
  have nested : Words (concat (fun graph => return [← nestedGraph inner graph])
      referent.descriptor.toList) fun phrases => ∀ phrase ∈ phrases, phrase.Clear form :=
    maintains_concat fun graph _ => (words_nestedGraph clear graph).bind fun _ clear =>
      .pure (by simpa using clear)
  exact named.bind fun designators parts => nested.bind fun nested clear =>
    .pure ⟨designators, nested, rfl, parts.1, parts.2, clear⟩

/-- A concept that is no context is legible in full. -/
theorem words_plainConcept (legible : model.Legible source form)
    (clear : ∀ graph, Words (inner graph) fun items => ∀ item ∈ items, item.Clear form)
    (word : ∀ known ∈ use, Token.IsWord known.label) :
    Words (plainConcept model inner concept use) (Phrase.Clear form) := by
  have written : ∀ designators nested, (∀ phrase ∈ designators, IsPart form phrase) →
      designators.length ≤ 1 → (∀ phrase ∈ nested, phrase.Clear form) →
      (conceptPhrase model concept use designators nested).Clear form :=
    fun _ _ named single clear => clear_conceptPhrase legible word named single clear
  unfold plainConcept
  simp only [concat_conceptType legible.toTypesNamed, pure_bind]
  refine .ite (.bind (.throw : Words _ fun _ => False) fun _ => False.elim) ?_
  cases described : (model.concept concept).referent with
  | none =>
      have phrase := written [] [] (by simp) (Nat.zero_le _) (by simp)
      refine .pure ?_
      simpa [conceptPhrase, conceptQuantifier, described] using phrase
  | some referent =>
      rw [Option.toList_some, concat_singleton]
      refine (words_referentParts legible clear described).bind fun parts shape => .pure ?_
      obtain ⟨designators, nested, rfl, named, single, clear⟩ := shape
      have phrase := written designators nested named single clear
      simpa [conceptPhrase, conceptQuantifier, described] using phrase

/-- A concept is legible in full, as a context or otherwise. -/
theorem words_emitConcept (legible : model.Legible source form)
    (clear : ∀ graph, Words (inner graph) fun items => ∀ item ∈ items, item.Clear form)
    (word : ∀ known ∈ use, Token.IsWord known.label) :
    Words (emitConcept model inner concept use) (Phrase.Clear form) := by
  intro writer worded
  have emitted := worded.emit concept word
  simp only [emitConcept, ensures_bind, Write.emit, ensures_modify]
  cases context : (model.concept concept).special with
  | none => exact words_plainConcept legible clear word _ emitted
  | some special =>
      obtain ⟨label, rfl, -⟩ := (legible.conceptSound (by
        by_contra outside
        rw [Model.concept_of_le (Nat.le_of_not_lt outside)] at context
        cases context)).special special context
      exact words_specialContext clear (by cases label <;> decide) _ _ emitted

theorem words_firstEmission (legible : model.Legible source form)
    (clear : ∀ graph, Words (inner graph) fun items => ∀ item ∈ items, item.Clear form)
    (plan : Plan) (concept : ConceptId) :
    Words (firstEmission model inner plan concept) (Phrase.Clear form) :=
  (words_openLabel _ _).bind fun _ word => words_emitConcept legible clear word

/-! ### Actors and negations -/

/-- The type of a relation is written as its label. -/
theorem words_relationType (legible : model.Legible source form) (relation : RelationId) :
    Words (relationType model inner relation) fun phrase =>
      ∃ label, Token.IsWord label ∧ phrase = ofToken (.ident label) := by
  unfold relationType
  cases typed : (model.relation relation).type with
  | none => exact .throw
  | some type =>
      obtain ⟨label, known, worded⟩ := legible.isWord_relationType typed
      simp only [known]
      exact .pure ⟨label, worded, rfl⟩

theorem words_markWritten {post : Unit → Prop} (holds : post ()) (relation : RelationId) :
    Words (markWritten relation) post :=
  fun _ worded => ⟨worded.begin relation, holds⟩

/-- References are written after blanks. -/
theorem words_actorArgs (args : List ConceptId) :
    Words (actorArgs model args) (Phrase.Trails form) := by
  unfold actorArgs
  induction args with
  | nil => exact .pure Phrase.trails_nil
  | cons argument others ih =>
      unfold concat
      refine .bind (.bind (words_reference argument) fun _ clear => .pure clear.spaced)
        fun _ first => ih.bind fun _ rest => .pure (first.append rest)

/-- The brackets of a node that is no concept. -/
theorem clear_bracketed {opener : Punct} {label : String} {body : Phrase} {node : NodeKind}
    {comment : Option String} (opens : opener = .leftParen ∨ opener = .leftAngle)
    (worded : Token.IsWord label) (trails : body.Trails form)
    (sound : ∀ text, comment = some text → Token.IsNodeComment text) :
    (mark opener ++ (ofToken (.ident label) ++ (body ++ Phrase.closing node comment))).Clear
    form := by
  intro sign rest next
  have closes : (Phrase.closing node comment).Trails form := Phrase.trails_closing sound
  have bodied := (Phrase.clear_ident worded).append (trails.append closes)
  obtain ⟨char, front, chars, starts, -⟩ := Scan.exists_of_isWord worded
  have arrowless : char ≠ '-' := Scan.ne_of_startsWord _ starts (by decide)
  rcases opens with rfl | rfl
  · exact ⟨trivial, trivial, bodied _ rest next⟩
  · refine ⟨trivial, fun _ => ?_, bodied _ rest next⟩
    simp [ofToken, Piece.text, Token.spelling, chars, arrowless]

/-- An actor is legible in full, with its inputs and outputs apart. -/
theorem words_actor (legible : model.Legible source form) (relation : RelationId) :
    Words (actor model inner relation) (Phrase.Clear form) := by
  have args : ∀ args, Words (actorArgs model args) (Phrase.Trails form) := words_actorArgs
  unfold actor
  refine (words_markWritten trivial relation : Words _ fun _ => True).bind fun _ _ =>
    (words_relationType legible relation).bind fun type named =>
      (args _).bind fun inputs before => (args _).bind fun outputs after => .pure ?_
  obtain ⟨label, worded, rfl⟩ := named
  have bar : (space ++ mark .bar).Trails form :=
    Phrase.Clear.spaced fun _ _ _ => ⟨trivial, trivial, trivial⟩
  have split :
    mark .leftAngle ++ ofToken (.ident label) ++ inputs ++ space ++ mark .bar ++ outputs ++
      comment .actor (model.relation relation).comment ++ mark .rightAngle = mark .leftAngle ++
        (ofToken (.ident label) ++ (inputs ++ ((space ++ mark .bar) ++ outputs) ++
          Phrase.closing .actor (model.relation relation).comment)) := by
    simp [Phrase.closing, NodeKind.closer]
  rw [split]
  exact clear_bracketed (.inr rfl) worded (before.append (bar.append after))
    fun text spoken => legible.sound.isNodeComment_relation spoken

/-- A negation is legible in full. -/
theorem words_negation
    (clear : ∀ graph, Words (inner graph) fun items => ∀ item ∈ items, item.Clear form)
    (relation : RelationId) : Words (negation model inner relation) (Phrase.Clear form) := by
  have closes : (Phrase.closing .concept none).Trails form := Phrase.trails_closing (by simp)
  have bracketed : ∀ body : Phrase, body.Clear form →
      (mark .tilde ++ mark .leftBracket ++ body ++ mark .rightBracket).Clear form :=
    fun body legible sign rest next =>
      ⟨trivial, trivial, trivial, trivial, legible.append closes _ rest next⟩
  have wrapped : ∀ wrapper, Words (do
      emit wrapper none
      concat (nestedGraph inner) (model.descriptor? wrapper).toList) (Phrase.Clear form) :=
    fun wrapper writer worded => by
      have emitted : (writer.emit wrapper none).Worded :=
        worded.emit wrapper (by simp : ∀ known ∈ (none : Option LabelUse), Token.IsWord known.label)
      rw [ensures_bind]
      refine (show Words _ (Phrase.Clear form) from ?_) _ emitted
      cases model.descriptor? wrapper with
      | none => exact .pure Phrase.clear_nil
      | some graph =>
          rw [Option.toList_some, concat_singleton]
          exact words_nestedGraph clear graph
  unfold negation
  refine (words_markWritten trivial relation : Words _ fun _ => True).bind fun _ _ =>
    Maintains.bind (?_ : Words _ (Phrase.Clear form)) fun body legible =>
      .pure (bracketed body legible)
  cases (model.relation relation).args with
  | nil => exact .pure Phrase.clear_nil
  | cons wrapper others =>
      rw [List.take_succ_cons, List.take_zero, concat_singleton]
      exact wrapped wrapper

/-! ### Comments -/

/-- The comments of a graph are legible wherever no word goes on after them. -/
theorem clear_comments (legible : model.Legible source form) (graph : GraphId) :
    ∀ item ∈ comments model graph, item.Clear form := by
  intro item member
  obtain ⟨text, spoken, rfl⟩ := List.mem_map.mp member
  exact Phrase.clear_formalComment (legible.sound.comments graph text spoken)

end Write

end ConceptualGraph
