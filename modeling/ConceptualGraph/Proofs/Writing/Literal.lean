/-
Module: ConceptualGraph.Proofs.Writing.Literal
Purpose: A number is written where a sign may stand, and its text is scanned as one number of the
  same kind, unless the number is infinite.
Main exports: Scan.prepend, Phrase.Legible.onward, Binary64.magnitude_ofDecimal, Number.Rereads,
  Number.rereads_iff, Write.Places, Write.places_number, Session.number_rereads
-/
import ConceptualGraph.Proofs.Reading.Sound.Graphs
import ConceptualGraph.Proofs.Token.Quotation
import ConceptualGraph.Proofs.Writing.Legible

namespace ConceptualGraph

open Phrase (join mark ofToken space)
open Scan (AllowsMinus onward prepend signAfter)

/-! ## Scanning a phrase before a text -/

namespace Scan

variable {form : Notation} {signAllowed : Bool} {position : Position} {rest : List Char}

/-- White space before a text only moves the place where it begins. -/
theorem onward_blanks {blanks : List Char} (blank : ∀ char ∈ blanks, Text.isBlank char = true) :
    onward form position signAllowed (blanks ++ rest) =
      onward form (position.advance blanks) signAllowed rest := by
  induction blanks generalizing position with
  | nil => rfl
  | cons char blanks ih =>
      have first := blank char (List.mem_cons_self ..)
      have others : onward form (position.next char) signAllowed (blanks ++ rest) =
          onward form ((position.next char).advance blanks) signAllowed rest :=
        ih fun other member => blank other (List.mem_cons_of_mem _ member)
      have one : onward form position signAllowed (char :: (blanks ++ rest)) =
          onward form (position.next char) signAllowed (blanks ++ rest) := by
        simp only [onward, List.length_cons, scanFrom_blank first]
        cases blanks ++ rest with
        | nil => rfl
        | cons next more =>
            by_cases again : Text.isBlank next = true
            · rw [List.takeWhile_cons_of_pos again, List.dropWhile_cons_of_pos again,
                List.length_cons, scanFrom_blank again]
              apply scanFrom_of_enough
              · exact Nat.le_succ_of_le (List.dropWhile_suffix _).length_le
              · exact (List.dropWhile_suffix _).length_le
            · rw [List.takeWhile_cons_of_neg again, List.dropWhile_cons_of_neg again]
              rfl
      rw [List.cons_append, one, others]
      rfl

end Scan

namespace Phrase

variable {form : Notation} {signAllowed : Bool} {rest : List Char}

/-- Whether a sign is allowed is passed on through both phrases. -/
theorem signThrough_append (front back : Phrase) :
    signThrough form signAllowed (front ++ back) =
      signThrough form (signThrough form signAllowed front) back := by
  induction front generalizing signAllowed with
  | nil => rfl
  | cons piece front ih => cases piece <;> exact ih

/-- A legible phrase is scanned into its tokens, and scanning goes on after it. -/
theorem Legible.onward {phrase : Phrase} (legible : phrase.Legible form signAllowed rest)
    (position : Position) :
    ∃ located, located.map Located.token = phrase.tokens.map (Token.reread form) ∧
      Scan.onward form position signAllowed (phrase.chars ++ rest) =
        Scan.prepend located (Scan.onward form (position.advance phrase.chars)
          (phrase.signThrough form signAllowed) rest) := by
  induction phrase generalizing signAllowed position with
  | nil => exact ⟨[], rfl, rfl⟩
  | cons piece phrase ih =>
      cases piece with
      | blank space =>
          obtain ⟨located, tokens, scanned⟩ := ih legible.2 (position.advance space.toList)
          refine ⟨located, tokens, ?_⟩
          rw [chars_cons, List.append_assoc, Piece.text, Scan.onward_blanks legible.1, scanned,
            Position.advance_append]
          rfl
      | token token =>
          obtain ⟨legible, ends, others⟩ := legible
          have opened := Scan.opens_spelling legible ends
          obtain ⟨located, tokens, scanned⟩ :=
            ih others (position.advance token.spelling.toList)
          refine ⟨⟨token.reread form, ⟨position, position.advance token.spelling.toList⟩⟩
            :: located,
            by rw [List.map_cons, tokens, tokens_cons_token, List.map_cons], ?_⟩
          rw [chars_cons, List.append_assoc, Piece.text, Scan.onward_of_opens opened, scanned,
            Position.advance_append]
          rfl

/-- Phrases with a blank after each of them. -/
def spaced (phrases : List Phrase) : Phrase :=
  phrases.flatMap (· ++ space)

/-- A phrase among others that are written with blanks between them. -/
theorem join_around (front back : List Phrase) (phrase : Phrase) :
    join " " (front ++ phrase :: back) =
      spaced front ++ (phrase ++ back.flatMap (space ++ ·)) := by
  have last : join " " (phrase :: back) = phrase ++ back.flatMap (space ++ ·) := by
    induction back generalizing phrase with
    | nil => simp
    | cons second back ih =>
        rw [join_cons_cons, ih second]
        rfl
  induction front with
  | nil => exact last
  | cons first front ih =>
      have more : ∃ second others, front ++ phrase :: back = second :: others := by
        cases front <;> exact ⟨_, _, rfl⟩
      obtain ⟨second, others, split⟩ := more
      rw [List.cons_append, split, join_cons_cons, ← split, ih]
      simp [spaced, space]

end Phrase

/-! ## The text of a number -/

namespace Binary64

/-- Bits up to those of the infinite number stand for a number or for it. -/
theorem magnitude_ofSignAndBits (negative : Bool) {lower : Nat} (within : lower ≤ infiniteBits) :
    (ofSignAndBits negative lower).magnitude ≠ .undefined := by
  have bits : (ofSignAndBits negative lower).bits.toNat =
      if negative then Nat.pow 2 63 + lower else lower := by
    unfold infiniteBits at within
    simp only [ofSignAndBits]
    cases negative <;> simp at within ⊢ <;> omega
  unfold magnitude
  rw [bits]
  unfold infiniteBits at within
  cases negative <;> simp at within ⊢ <;> (repeat' split) <;> simp_all <;> omega

/-- No decimal text stands for a number without value. -/
theorem magnitude_ofDecimal (text : String) : (ofDecimal text).magnitude ≠ .undefined := by
  have nearest : ∀ negative dividend divisor,
      (ofFraction negative dividend divisor).magnitude ≠ .undefined :=
        fun negative dividend divisor =>
    magnitude_ofSignAndBits negative (Nat.min_le_left _ _)
  have scaled : ∀ negative digits power,
      (ofScaled negative digits power).magnitude ≠ .undefined := by
    intro negative digits power
    unfold ofScaled
    dsimp only
    split
    · exact magnitude_ofSignAndBits negative (Nat.zero_le _)
    split
    · exact magnitude_ofSignAndBits negative (Nat.le_refl _)
    split
    · exact magnitude_ofSignAndBits negative (Nat.zero_le _)
    split
    · exact nearest _ _ _
    · exact nearest _ _ _
  unfold ofDecimal
  split
  · exact scaled _ _ _
  · exact scaled _ _ _

/-- An infinite number is written as a word. -/
theorem text_of_infinite {number : Binary64} (infinite : number.magnitude = .infinite) :
    number.text = if number.isNegative then "-inf" else "inf" := by
  unfold text
  rw [infinite]
  cases number.isNegative <;> rfl

end Binary64

namespace Number

variable {form : Notation} {signAllowed : Bool} {rest : List Char} {number : Number}

/-- Whether a number is not beyond the range of its format. -/
def IsBounded (number : Number) : Prop :=
  ∀ value, number = .float value → value.magnitude ≠ .infinite

/-- Whether a number is the value of a token. -/
def IsRead (number : Number) : Prop :=
  match number with
  | .int value => value.natAbs ≤ Text.largestSigned
  | .float value => value.magnitude ≠ .undefined

/-- Whether the text of a number, where a text follows it, is scanned as the one token that the
number is written with, so that scanning goes on with what follows. -/
def Rereads (form : Notation) (signAllowed : Bool) (rest : List Char) (number : Number) : Prop :=
  let token := Write.numberToken number
  ∀ position : Position,
    onward form position signAllowed (token.spelling.toList ++ rest) =
      prepend [⟨token, ⟨position, position.advance token.spelling.toList⟩⟩]
        (onward form (position.advance token.spelling.toList) (signAfter signAllowed token) rest)

/-- A number that has been read opens a text again as the token that it was. -/
theorem opens (read : number.IsRead) (bounded : number.IsBounded)
    (minus : AllowsMinus form signAllowed) (follows : FollowsPart rest) :
    Scan.Opens form signAllowed (Write.numberToken number).spelling.toList rest
      (Write.numberToken number) := by
  cases number with
  | int value => exact Scan.opens_int read (fun _ => minus) follows.ends
  | float value =>
      change Scan.Opens form signAllowed value.text.toList rest (.float value.text)
      cases known : value.magnitude with
      | infinite => exact absurd known (bounded value rfl)
      | undefined => exact absurd known read
      | finite significand exponent =>
          have pointed := Binary64.isPointed_text significand exponent
          have spelled : value.text = (if value.isNegative then "-" else "") ++
              (Binary64.Magnitude.finite significand exponent).text := by
            unfold Binary64.text
            rw [known]
          cases sign : value.isNegative with
          | false =>
              rw [sign] at spelled
              apply Scan.opens_float
              · simpa [spelled] using pointed
              · exact follows.delimits
          | true =>
              rw [sign] at spelled
              have chars : value.text.toList =
                  '-' :: (Binary64.Magnitude.finite significand exponent).text.toList := by
                simp [spelled, String.toList_append]
              exact Scan.opens_negativeFloat chars pointed minus follows.delimits

/-- The text of an infinite number is scanned as a word, or as nothing that begins with a number. -/
theorem not_rereads_of_infinite {value : Binary64} (infinite : value.magnitude = .infinite)
    (follows : FollowsPart rest) : ¬(Number.float value).Rereads form signAllowed rest := by
  intro rereads
  have scanned := rereads {}
  change onward form {} signAllowed (value.text.toList ++ rest) =
    prepend [⟨.float value.text, _⟩] _ at scanned
  have first := congrArg (fun scan => scan.tokens.head?.map Located.token) scanned
  rw [Binary64.text_of_infinite infinite] at first
  cases sign : value.isNegative with
  | false =>
      have word : Token.IsWord "inf" := by decide
      have opened :
        Scan.Opens form signAllowed "inf".toList rest ((Token.ident "inf").reread form) :=
        Scan.opens_word word follows.delimits
      have named : (Token.ident "inf").reread form = .ident "inf" := by cases form <;> decide
      rw [named] at opened
      simp only [sign, Bool.false_eq_true, if_false, Scan.onward_of_opens opened] at first
      simp [prepend] at first
  | true =>
      have blank : Text.isBlank '-' = false := by decide
      have letter : Scan.startsWord '-' = false := by decide
      have digit : 'i'.isDigit = false := by decide
      cases form <;> simp [sign, onward, Scan.scanFrom, Scan.step, blank, Scan.token, letter,
        Scan.minus, Scan.digitFollows, digit, Scan.Attempt.after, prepend] at first

/-- The text of a number is scanned as a number exactly if the number is not infinite. -/
theorem rereads_iff (read : number.IsRead) (minus : AllowsMinus form signAllowed)
    (follows : FollowsPart rest) : number.Rereads form signAllowed rest ↔ number.IsBounded := by
  constructor
  · rintro rereads value rfl infinite
    exact not_rereads_of_infinite infinite follows rereads
  · intro bounded position
    exact Scan.onward_of_opens (opens read bounded minus follows)

end Number

/-! ## The place of a number -/

namespace Write

variable {form : Notation} {model : Model} {inner : Inner} {concept : ConceptId}
  {use : Option LabelUse} {writer after : Writer} {phrase : Phrase} {referent : Referent}
  {number : Number}

/-- What is written of a referent before its designator, part by part. -/
def leadingParts (use : Option LabelUse) (value : Option Quantifier) : List Phrase :=
  (use.map fun use => ofToken use.token).toList ++ (value.map quantifier).toList

/-- The parts before a designator are legible, and a number with a sign may stand after them. -/
theorem legible_leadingParts (word : ∀ known ∈ use, Token.IsWord known.label)
    {value : Option Quantifier} (sound : ∀ quantifier, value = some quantifier →
      quantifier.Sound form) {signAllowed : Bool} (minus : AllowsMinus form signAllowed)
    (rest : List Char) :
    (Phrase.spaced (leadingParts use value)).Legible form signAllowed rest ∧
      AllowsMinus form ((Phrase.spaced (leadingParts use value)).signThrough form
        signAllowed) := by
  have parts : ∀ part ∈ leadingParts use value, ∀ signAllowed rest, FollowsPart rest →
      part.Legible form signAllowed rest ∧
        AllowsMinus form (part.signThrough form signAllowed) := by
    intro part member signAllowed rest follows
    rcases List.mem_append.mp member with labelled | quantified
    · obtain ⟨known, used, rfl⟩ : ∃ known, use = some known ∧ ofToken known.token = part := by
        simpa using labelled
      exact legible_label (word known used) follows
    · obtain ⟨known, counted, rfl⟩ : ∃ known, value = some known ∧ quantifier known = part := by
        simpa using quantified
      exact legible_quantifier (sound known counted)
        (fun _ word named => (named ▸ sound known counted).1) follows
  generalize leadingParts use value = all at parts
  induction all generalizing signAllowed with
  | nil => exact ⟨trivial, minus⟩
  | cons part others ih =>
      have spelled := parts part (List.mem_cons_self ..) signAllowed _ (followsPart_blank
        ((Phrase.spaced others).chars ++ rest))
      have remaining := ih spelled.2 fun other member =>
        parts other (List.mem_cons_of_mem _ member)
      have split : Phrase.spaced (part :: others) = part ++ (space ++ Phrase.spaced others) := by
        simp [Phrase.spaced]
      rw [split]
      constructor
      · exact spelled.1.append ⟨isBlank_space, remaining.1⟩
      · rw [Phrase.signThrough_append]
        exact remaining.2

/-- What opens the referent of a concept: the colon after its type, or its bracket if it has none.
-/
def IsOpening (phrase : Phrase) : Prop :=
  phrase = mark .colon ++ space ∨ phrase = mark .leftBracket

/-- After the opening of a referent a number may have a sign, whatever stands before it. -/
theorem legible_opening {opening : Phrase} (opens : IsOpening opening) (signAllowed : Bool)
    (rest : List Char) : opening.Legible form signAllowed rest ∧
      opening.signThrough form signAllowed = true := by
  rcases opens with rfl | rfl
  · exact ⟨⟨trivial, trivial, isBlank_space, trivial⟩, rfl⟩
  · exact ⟨⟨trivial, trivial, trivial⟩, rfl⟩

/-- Where a token stands in a phrase: after an opening, from which scanning reaches it with only the
tokens between the two before it, whatever has been scanned before the opening. -/
structure Site (form : Notation) (phrase : Phrase) (token : Token) where
  front : Phrase
  opening : Phrase
  lead : Phrase
  back : Phrase
  /-- Whether a number may have a sign where the token stands. -/
  signAllowed : Bool
  opens : IsOpening opening
  split : phrase = front ++ (opening ++ lead) ++ .token token :: back
  reached : ∀ (position : Position) (before : Bool) (rest : List Char), ∃ located,
    located.map Located.token = (opening ++ lead).tokens.map (Token.reread form) ∧
      Scan.onward form position before ((opening ++ lead).chars ++
          (token.spelling.toList ++ (back.chars ++ rest))) =
        Scan.prepend located
          (Scan.onward form (position.advance (opening ++ lead).chars) signAllowed
          (token.spelling.toList ++ (back.chars ++ rest)))

/-- A literal stands after the opening of the referent, the label and the quantifier; a blank or the
end of the concept follows it. -/
theorem ensures_plainConcept {value : Literal}
    (described : (model.concept concept).referent = some referent)
    (designates : referent.designator = some (.literal value)) :
    Ensures (plainConcept model inner concept use) writer fun phrase _ =>
      ∃ front opening back, IsOpening opening ∧
        phrase = front ++ (opening ++ Phrase.spaced (leadingParts use referent.quantifier)) ++
          (literal value ++ back) ∧ ∀ rest, FollowsPart (back.chars ++ rest) := by
  have undefined : model.designates? concept = none := by
    simp [Model.designates?, described, Referent.definedBy?, designates]
  have typed : Ensures (concat (conceptType model inner) (model.concept concept).type.toList) writer
      fun type _ => (model.concept concept).type = none → type = [] := by
    cases (model.concept concept).type with
    | none => exact fun _ => rfl
    | some type => exact .intro fun _ _ _ untyped => absurd untyped (Option.some_ne_none type)
  unfold plainConcept
  rw [undefined]
  simp only [Option.isSome_none, Bool.false_and, Bool.false_eq_true, if_false]
  refine typed.bind fun type middle untyped => ?_
  rw [described, Option.toList_some, concat_singleton]
  simp only [referentParts, designates, Option.toList_some, concat_singleton, designator, pure_bind,
    bind_assoc, ensures_bind]
  refine (Ensures.trivial _ _).mono fun descriptors later _ => ?_
  have parts : (use.map fun use => ofToken use.token).toList ++
      ((referent.quantifier.map quantifier).toList ++ [literal value] ++ descriptors) =
        leadingParts use referent.quantifier ++ literal value :: descriptors := by
    simp [leadingParts]
  have filled : (leadingParts use referent.quantifier ++ literal value :: descriptors).isEmpty =
      false := by simp
  have follows : ∀ rest, FollowsPart (Phrase.chars (descriptors.flatMap (space ++ ·) ++
      Phrase.closing .concept (model.concept concept).comment) ++ rest) := by
    intro rest
    cases descriptors with
    | nil => exact Phrase.followsPart_closing _ rest
    | cons descriptor others => exact followsPart_blank _
  rw [ensures_pure, parts, filled, Phrase.join_around]
  -- A type stands before a colon, and where there is none the bracket opens the referent.
  cases kind : (model.concept concept).type with
  | none =>
      obtain rfl := untyped kind
      refine ⟨[], mark .leftBracket, _, .inr rfl, ?_, follows⟩
      simp [Phrase.closing, NodeKind.closer]
  | some _ =>
      refine ⟨mark .leftBracket ++ type, mark .colon ++ space, _, .inl rfl, ?_, follows⟩
      simp [Phrase.closing, NodeKind.closer]

/-- Where a concept has a number for a designator, the number is reached by scanning where it may
have a sign, and no word goes on after it. -/
theorem ensures_site (word : ∀ known ∈ use, Token.IsWord known.label)
    (sound : ∀ quantifier, referent.quantifier = some quantifier → quantifier.Sound form)
    (described : (model.concept concept).referent = some referent)
    (designates : referent.designator = some (.literal (.number number))) :
    Ensures (plainConcept model inner concept use) writer fun phrase _ =>
      ∃ site : Site form phrase (numberToken number), AllowsMinus form site.signAllowed ∧
        ∀ rest, FollowsPart (site.back.chars ++ rest) := by
  refine (ensures_plainConcept described designates).mono fun phrase _ shape => ?_
  obtain ⟨front, opening, back, opens, rfl, follows⟩ := shape
  have lead : ∀ rest, _ := legible_leadingParts word sound (.inr rfl)
  have legible : ∀ before rest,
      (opening ++ Phrase.spaced (leadingParts use referent.quantifier)).Legible form before
        rest := by
    intro before rest
    apply (legible_opening opens before _).1.append
    rw [(legible_opening opens before []).2]
    exact (lead rest).1
  have through : ∀ before,
      (opening ++ Phrase.spaced (leadingParts use referent.quantifier)).signThrough form before =
        (Phrase.spaced (leadingParts use referent.quantifier)).signThrough form true := by
    intro before
    rw [Phrase.signThrough_append, (legible_opening opens before []).2]
  refine ⟨⟨front, opening, _, back, _, opens, rfl, fun position before rest => ?_⟩, (lead []).2,
    follows⟩
  rw [← through before]
  exact (legible before _).onward position

end Write

/-! ## Numbers that are read -/

/-- Whether a token writes a number of the same kind as another one, and the same whole number. -/
def Token.SameNumber (token other : Token) : Prop :=
  match token, other with
  | .int value, .int other => value = other
  | .float _, .float _ => True
  | _, _ => False

namespace Read

variable {form : Notation} {source : String} {located : Located} {reader later : Reader}
  {number : Number}

/-- Only the token of a number is read as a number. -/
theorem cases_of_designatorOf
    (accepted : designatorOf located reader = .ok (some (.literal (.number number))) later) :
    (∃ value, located.token = .int value ∧ number = .int value) ∨
      ∃ text, located.token = .float text ∧ number = .float (.ofDecimal text) := by
  have shape : Ensures (designatorOf located) reader fun value _ =>
      value = some (.literal (.number number)) →
        (∃ value, located.token = .int value ∧ number = .int value) ∨
          ∃ text, located.token = .float text ∧ number = .float (.ofDecimal text) := by
    unfold designatorOf
    cases located.token with
    | int value =>
        rintro ⟨⟩
        exact .inl ⟨value, rfl, rfl⟩
    | float text =>
        rintro ⟨⟩
        exact .inr ⟨text, rfl, rfl⟩
    | marker digits => exact (Ensures.trivial _ _).bind fun _ _ _ => nofun
    | boundLabel label =>
        refine (Ensures.trivial _ _).bind fun concept _ _ => ?_
        cases concept with
        | some concept => exact nofun
        | none => exact .intro nofun
    | _ => exact nofun
  exact shape.of_ok accepted rfl

/-- A number that is read from a token of a text is written as a token of the same kind. -/
theorem sameNumber_of_designatorOf (member : located ∈ (Scan.ofText form source).tokens)
    (accepted : designatorOf located reader = .ok (some (.literal (.number number))) later) :
    number.IsRead ∧ located.token.SameNumber (Write.numberToken number) := by
  rcases cases_of_designatorOf accepted with ⟨value, token, rfl⟩ | ⟨text, token, rfl⟩
  · have scanned := Scan.scanned_of_mem member
    rw [token] at scanned ⊢
    exact ⟨scanned, rfl⟩
  · rw [token]
    exact ⟨Binary64.magnitude_ofDecimal text, trivial⟩

end Read

namespace Session

variable {options : Options} {form : Notation} {source : String} {graph : GraphId}

/-- Where a concept is written with a number that a token of the same notation was read as, the text
of the number is reached by scanning from the colon or the bracket that opens the referent, and is
scanned there as one number of the same kind, after which scanning goes on with what follows it,
exactly if the number is not infinite. -/
theorem number_rereads
    (parsed : ((withOptions options).parseGraph {} form source).result = .ok graph)
    {located : Located} {reader later : Reader} {number : Number}
    (member : located ∈ (Scan.ofText form source).tokens)
    (accepted : Read.designatorOf located reader = .ok (some (.literal (.number number))) later)
    {concept : ConceptId} {referent : Referent}
    (described :
    (((withOptions options).parseGraph {} form source).model.concept concept).referent =
      some referent)
    (designates : referent.designator = some (.literal (.number number)))
    {inner : Inner} {plan : Plan} {writer after : Writer} {phrase : Phrase} (worded : writer.Worded)
    (written :
    Write.firstEmission ((withOptions options).parseGraph {} form source).model inner plan
      concept writer = .ok phrase after) :
    located.token.SameNumber (Write.numberToken number) ∧
      ∃ site : Write.Site form phrase (Write.numberToken number), ∀ rest,
        number.Rereads form site.signAllowed (site.back.chars ++ rest) ↔ number.IsBounded := by
  obtain ⟨sound, -, -, -⟩ := sound_parseGraph parsed
  generalize ((withOptions options).parseGraph {} form source).model = model at *
  obtain ⟨read, same⟩ := Read.sameNumber_of_designatorOf member accepted
  have inside : concept.index < model.concepts.size := by
    by_contra outside
    rw [Model.concept_of_le (Nat.le_of_not_lt outside)] at described
    cases described
  have known := sound.concepts concept inside List.not_mem_nil
  -- A context has no designator, so that the concept is written with its parts.
  have plain : (model.concept concept).special = none := by
    by_contra special
    obtain ⟨special, named⟩ := Option.ne_none_iff_exists'.mp special
    obtain ⟨label, -, context⟩ := known.special special named
    rw [context.designator referent described] at designates
    cases designates
  obtain ⟨use, middle, labelled, emitted⟩ := exists_of_bind_ok written
  obtain ⟨-, begun, -, body⟩ := exists_of_bind_ok emitted
  rw [plain] at body
  have word := ((Write.words_openLabel concept _ writer worded).of_ok labelled).2
  have quantified := (known.referent referent described).quantifier
  obtain ⟨site, minus, follows⟩ :=
    (Write.ensures_site word quantified described designates).of_ok body
  exact ⟨same, site, fun rest => Number.rereads_iff read minus (follows rest)⟩

/-- A negative number after a quantifier, in the linear form, written with its exponent. -/
theorem number_rereads_negative :
    (Token.float "-2.50e1").SameNumber (.float "-25.0") ∧
      ∃ site : Write.Site .linear [.token (.punct .leftBracket), .token (.ident "T"),
          .token (.punct .colon), .blank " ", .token (.punct .atSign), .token (.int 3), .blank " ",
          .token (.float "-25.0"), .token (.punct .rightBracket)] (.float "-25.0"),
        ∀ rest, (Number.float (.ofDecimal "-2.50e1")).Rereads .linear site.signAllowed
          (site.back.chars ++ rest) ↔ (Number.float (.ofDecimal "-2.50e1")).IsBounded := by
  have parsed : ((withOptions {}).parseGraph {} .linear "[T: @3 -2.50e1].").result = .ok ⟨0⟩ := by
    decide +kernel
  have member : ⟨.float "-2.50e1", ⟨⟨1, 8⟩, ⟨1, 15⟩⟩⟩ ∈
      (Scan.ofText .linear "[T: @3 -2.50e1].").tokens := by
    decide +kernel
  have described : (((withOptions {}).parseGraph {} .linear "[T: @3 -2.50e1].").model.concept
      ⟨0⟩).referent = some ⟨some (.count 3),
        some (.literal (.number (.float (.ofDecimal "-2.50e1")))), none⟩ := by
    decide +kernel
  have ran : (Write.firstEmission ((withOptions {}).parseGraph {} .linear "[T: @3 -2.50e1].").model
      (fun _ => pure []) {} ⟨0⟩).run' ⟨{}, {}, [], []⟩ = some [.token (.punct .leftBracket),
        .token (.ident "T"), .token (.punct .colon), .blank " ", .token (.punct .atSign),
        .token (.int 3), .blank " ", .token (.float "-25.0"), .token (.punct .rightBracket)] := by
    decide +kernel
  have worded : Writer.Worded ⟨{}, {}, [], []⟩ := ⟨nofun, nofun, nofun⟩
  have accepted : Read.designatorOf ⟨.float "-2.50e1", ⟨⟨1, 8⟩, ⟨1, 15⟩⟩⟩ ⟨[], {}, {}, {}, {}, 0⟩ =
      .ok (some (.literal (.number (.float (.ofDecimal "-2.50e1"))))) ⟨[], {}, {}, {}, {}, 0⟩ := rfl
  unfold EStateM.run' at ran
  split at ran
  · next phrase after written =>
    cases ran
    have same : (Binary64.ofDecimal "-2.50e1").text = "-25.0" := by decide +kernel
    have rereads := number_rereads parsed member accepted described rfl worded written
    simp only [Write.numberToken, same] at rereads
    exact rereads
  · cases ran

/-- A number beyond the range of its format is written as a word, which is scanned as such. -/
theorem number_beyond_range :
    let reading := (withOptions {}).parseGraph {} .cgif "[T: 1e400]"
    reading.result = .ok ⟨0⟩ ∧
      ((withOptions {}).generateGraph reading.model .cgif ⟨0⟩).1 = .ok "[T: inf]" ∧
      (Scan.ofText .cgif "[T: inf]").tokens.map Located.token =
        [.punct .leftBracket, .ident "T", .punct .colon, .ident "inf", .punct .rightBracket] := by
  decide +kernel

end Session

end ConceptualGraph
