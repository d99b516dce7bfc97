/-
Module: ConceptualGraph.Proofs.Reading.Depth
Purpose: The limit to nested brackets bounds just these: what is read with any limit is read with
  every limit that is not less than its nesting, and with the others its nesting is refused.
Main exports: Read.limits_graphInto, Scan.nesting, Session.limits_parseGraph,
  Session.parseGraph_within
-/
import ConceptualGraph.Proofs.Reading.Blind
import ConceptualGraph.Proofs.Reading.Declines
import ConceptualGraph.Proofs.Reading.Limits
import ConceptualGraph.Proofs.Reading.Whole

namespace ConceptualGraph

namespace Read

open Token (Brackets isFlat)

variable {α : Type} {reader : Reader} {setting : Setting} {depth room : Nat}
  {roomy tight : Option Inside} {inside smaller : Inside} {graph : GraphId}

/-! ## What needs no room -/

/-- A step that does not look at tokens goes past none. -/
theorem Blind.still {step step' : Read α} (blind : Blind (.below 0) step step') : Still step :=
  fun _ => .intro fun _ _ ran => congrArg (List.map Located.token) (blind.of_ok ran).1.1

/-! ## What has no brackets -/

theorem flat_parameter : Flat (parameter setting) reader := by
  refine .see rfl ?_
  split
  · next label token =>
    refine .see rfl (.bind (.advance (by rw [token]; rfl)) fun _ named _ =>
      .bind (.of_still (blind_conceptTypeNamed _ _).still) fun type later _ => .see rfl ?_)
    split
    · next token => exact .see rfl (.bind (.advance (by rw [token]; rfl)) fun _ _ _ => .pure _)
    · exact .of_still (.fail _)
  · exact .of_still (.fail _)

theorem flat_parameters (tokens : Nat) : Flat (parameters setting tokens) reader := by
  induction tokens generalizing reader with
  | zero => exact flat_parameter.bind fun _ _ _ => .pure _
  | succ tokens ih =>
      exact flat_parameter.bind fun _ _ _ => .bind (.eat rfl) fun _ _ _ =>
        .ite (fun _ => ih.bind fun _ _ _ => .pure _) fun _ => .pure _

theorem flat_quantifier : Flat quantifier reader := by
  refine .bind (.eat rfl) fun _ later _ => .ite (fun _ => .see rfl ?_) fun _ => .pure _
  split
  · next token => exact .bind (.advance (by rw [token]; rfl)) fun _ _ _ => .pure _
  · next token => exact .bind (.advance (by rw [token]; rfl)) fun _ _ _ => .pure _
  · exact .of_still (.fail _)

theorem flat_encodedLiteral : Flat encodedLiteral reader := by
  refine .see rfl ?_
  split
  · next token =>
    refine .bind (.advance (by rw [token]; rfl)) fun _ later _ => .see rfl ?_
    split
    · next token => exact .bind (.advance (by rw [token]; rfl)) fun _ _ _ => .pure _
    · exact .of_still (.fail _)
  · exact .of_still (.fail _)

/-- Only flat tokens give a designator. -/
theorem isFlat_of_designatorOf (found : Located) :
    Ensures (designatorOf found) reader fun designator _ =>
      designator.isSome = true → isFlat found.token = true := by
  unfold designatorOf
  split
  case h_8 => exact nofun
  all_goals
    next token => exact .intro fun _ _ _ _ => by rw [token]; rfl

theorem flat_designator : Flat designator reader := by
  refine .bind (.eat rfl) fun _ later _ => .ite (fun _ => ?_) fun _ => ?_
  · exact flat_encodedLiteral.bind fun _ _ _ => .pure _
  · refine .see rfl (.bind (.of_still (blind_designatorOf _).still) fun designator after ran => ?_)
    have unmoved : after.tokens = later.tokens := ((blind_designatorOf _).still later).of_ok ran
    have token : (after.ahead 0).token = (later.ahead 0).token := by
      rw [Reader.token_ahead, Reader.token_ahead, unmoved]
    refine .ite (fun given => ?_) fun _ => .pure _
    refine .bind (.advance ?_) fun _ _ _ => .pure _
    rw [token]
    exact (isFlat_of_designatorOf _).of_ok ran given

theorem flat_boundLabels (concept : ConceptId) (tokens : Nat) :
    Flat (boundLabels concept tokens) reader := by
  induction tokens generalizing reader with
  | zero => exact .pure _
  | succ tokens ih =>
      refine .see rfl ?_
      split
      · next token =>
        exact .see rfl (.bind (.advance (by rw [token]; rfl)) fun _ _ _ =>
          .bind (.of_still (blind_join _ _ _).still) fun _ _ _ => ih)
      · exact .pure _

theorem flat_conceptLabels (concept : ConceptId) : Flat (conceptLabels concept) reader := by
  refine .see rfl ?_
  split
  · next token =>
    exact .see rfl (.ite (fun _ => .of_still (.fail _)) fun _ =>
      .bind (.advance (by rw [token]; rfl)) fun _ _ _ => .of_still (.bindLabel _ _))
  · exact .see rfl (flat_boundLabels _ _)

theorem flat_nodeComment (node : NodeKind) : Flat (nodeComment node) reader := by
  refine .see rfl ?_
  split
  · next token =>
    exact .ite (fun _ => .bind (.advance (by rw [token]; rfl)) fun _ _ _ => .pure _)
      fun _ => .pure _
  · exact .pure _

theorem flat_graphComment : Flat (graphComment graph) reader := by
  refine .see rfl ?_
  split
  · next token =>
    exact .bind (.advance (by rw [token]; rfl)) fun _ _ _ => .of_still
      (.bind (.edit _) fun _ => .pure _)
  · exact .pure _

/-! ## Types -/

section Inner

variable (insides : InsideLimits (.nestingTooDeep depth) room inside smaller)

include insides

theorem limits_definitionBody (declared : List Declared) :
    Limits (.nestingTooDeep depth) room Brackets (definitionBody inside declared)
      (definitionBody smaller declared) reader := by
  have linked (body : Option GraphId) : Still (declared.mapM (linkParameter body)) :=
    (blind_linkParameters body declared).still
  refine .see rfl (.ite (fun _ => ?_) fun _ => ?_)
  · exact .past (.of_still (.make _)) fun graph later _ =>
      (insides.items graph later).before fun _ => .bind (linked _) fun _ => .pure _
  · exact .same (.of_still (.bind (linked _) fun _ => .pure _))

end Inner

/-- The parameters of a lambda do not depend on the limit. -/
theorem parameters_within (tokens : Nat) :
    parameters (setting.within depth) tokens = parameters setting tokens := by
  induction tokens with
  | zero => rfl
  | succ tokens ih =>
      unfold parameters
      rw [ih]
      rfl

section Room

variable (rooms : RoomLimits (.nestingTooDeep depth) room roomy tight)

include rooms

/-- The parentheses of a definition are two pairs inside each other, but of the parameters and the
body only the latter stands in brackets that count. -/
theorem limits_lambda : Limits (.nestingTooDeep depth) room Brackets (lambda setting roomy)
    (lambda (setting.within depth) tight) reader := by
  refine .descend rooms fun inside smaller insides => .expect (by simp) <| .expect (by simp) <|
    .expect (by simp) <| .see rfl ?_
  rw [parameters_within]
  refine .flatly (flat_parameters _) fun declared later front _ flats => .expect (by simp) ?_
  refine Limits.mono (.bind (.inContext (limits_definitionBody insides declared)) fun _ _ _ =>
    .close (.pure _)) ?_
  rintro levels _ ⟨body, matched, rfl⟩
  exact .lambda flats matched

end Room

section Types

variable {full few : Read Definition}
  (lambdas : ∀ reader, Limits (.nestingTooDeep depth) room Brackets full few reader)

include lambdas

theorem limits_conceptType : Limits (.nestingTooDeep depth) room Brackets
    (conceptType setting full) (conceptType (setting.within depth) few) reader := by
  refine .see rfl ?_
  split
  · next token =>
    exact .see rfl (.same (.bind (.advance (by rw [token]; rfl)) fun _ _ _ =>
      .of_still (.bind (blind_conceptTypeNamed _ _).still fun _ => .pure _)))
  · refine .see rfl (.ite (fun _ => .see rfl ((lambdas _).before fun definition => ?_))
      fun _ => .pure _)
    exact .ite (.failAt _ _) (.bind (.make _) fun _ => .pure _)

theorem limits_relationType : Limits (.nestingTooDeep depth) room Brackets
    (relationType setting full) (relationType (setting.within depth) few) reader := by
  refine .see rfl ?_
  split
  · next token =>
    exact .see rfl (.same (.bind (.advance (by rw [token]; rfl)) fun _ _ _ =>
      .of_still (blind_relationTypeNamed _ _).still))
  · exact (lambdas _).before fun definition => .make _

end Types

/-! ## Concepts -/

section Inner

variable (insides : InsideLimits (.nestingTooDeep depth) room inside smaller)

include insides

theorem limits_descriptor (owner : ConceptId) : Limits (.nestingTooDeep depth) room Brackets
    (descriptor inside owner) (descriptor smaller owner) reader :=
  .see rfl (.ite (fun _ => .past (.of_still (.make _)) fun graph _ _ =>
    (Limits.inContext (insides.items graph _)).before fun _ => .pure _) fun _ => .pure _)

theorem limits_referent (concept : ConceptId) : Limits (.nestingTooDeep depth) room Brackets
    (referent inside concept) (referent smaller concept) reader :=
  .past flat_quantifier fun _ _ _ => .past flat_designator fun _ _ _ =>
    (limits_descriptor insides concept).before fun _ => .ite (.pure _) (.edit _)

/-- The body of a concept is read alike under a tighter limit, or the limit stops it. -/
theorem limits_conceptBody (home : Option GraphId) :
    Limits (.nestingTooDeep depth) room (Closing .rightBracket)
      (conceptBody setting inside home) (conceptBody (setting.within depth) smaller home)
      reader := by
  refine (limits_conceptType insides.lambda).bind fun type _ _ =>
    .past (.of_still (.make _)) fun concept _ _ => ?_
  cases home
  case' some graph => refine .past (.of_still (.edit _)) fun _ _ _ => ?_
  -- Whether or not it has been put into a graph, the rest of the concept is read.
  all_goals
    refine .past (.eat rfl) fun _ _ _ => .past (flat_conceptLabels _) fun _ _ _ =>
      (limits_referent insides concept).bind fun _ _ _ =>
        .past (flat_nodeComment _) fun comment _ _ => ?_
    cases comment with
    | some comment => exact .past (.of_still (.edit _)) fun _ _ _ => .close (.pure _)
    | none => exact .close (.pure _)

end Inner

theorem limits_concept (rooms : RoomLimits (.nestingTooDeep depth) room roomy tight)
    (home : Option GraphId) : Limits (.nestingTooDeep depth) room Brackets
      (concept setting roomy home) (concept (setting.within depth) tight home) reader := by
  refine .see rfl (.see rfl ?_)
  split
  · exact .pure _
  · exact .same (.of_still (.bind (.located 1) fun _ => .failAt _ _))
  · exact .same (.of_still (.bind (.located 1) fun _ => .failAt _ _))
  · next token _ _ _ =>
    exact .descend rooms fun inside smaller insides =>
      .opened token rfl ((limits_conceptBody insides home).before fun _ => .pure _)
  · exact .pure _

/-! ## Relations and actors -/

section Arguments

variable {full few : Option GraphId → Read (Option ConceptId)}
  (concepts : ∀ home reader,
    Limits (.nestingTooDeep depth) room Brackets (full home) (few home) reader)

include concepts

theorem limits_arc (home : Option GraphId) : Limits (.nestingTooDeep depth) room Brackets
    (arc full home) (arc few home) reader := by
  refine .see rfl ?_
  split
  · next token =>
    exact .see rfl (.same (.bind (.advance (by rw [token]; rfl)) fun _ _ _ =>
      .of_still (.bind (blind_resolve _ _ _).still fun _ => .pure _)))
  · exact concepts _ _
  · exact .pure _

/-- Arguments are read alike under a tighter limit, or the limit stops one of them. -/
theorem limits_arcs (home : Option GraphId) (tokens : Nat) :
    Limits (.nestingTooDeep depth) room Brackets (arcs full home tokens) (arcs few home tokens)
      reader := by
  induction tokens generalizing reader with
  | zero => exact .pure _
  | succ tokens ih =>
      refine (limits_arc concepts home).bind fun argument _ _ => ?_
      cases argument with
      | some argument => exact ih.before fun _ => .pure _
      | none => exact .pure _

end Arguments

/-- Looking for a type of a relation changes nothing. -/
theorem see_relationTypeAhead (places : Nat) (reader : Reader) :
    ∃ answer, relationTypeAhead places reader = .ok answer reader := by
  obtain ⟨answer, declines⟩ : ∃ answer, Declines (relationTypeAhead places) answer reader :=
    relationTypeAhead_declines places
  obtain ⟨_, _, ran, rfl, rfl⟩ := declines.exists_ok
  exact ⟨_, ran⟩

/-- A relation is read alike under a tighter limit, or the limit stops it. -/
theorem limits_relation (rooms : RoomLimits (.nestingTooDeep depth) room roomy tight)
    (home : Option GraphId) : Limits (.nestingTooDeep depth) room Brackets
      (relation setting roomy home) (relation (setting.within depth) tight home) reader := by
  obtain ⟨answer, ahead⟩ := see_relationTypeAhead 1 reader
  refine .see rfl (.see ahead (.ite (fun begins => ?_) fun _ => .pure _))
  have token : (reader.ahead 0).token = .punct .leftParen := by simp_all
  exact .descend rooms fun inside smaller insides => .see rfl (.opened token rfl
    ((limits_relationType insides.lambda).bind fun _ _ _ => .see rfl
      ((limits_arcs insides.concept home _).bind fun _ _ _ => .past (flat_nodeComment _)
        fun _ _ _ => .close (.bind (blind_makeRelation _ _ _ _ _).still fun _ => .pure _))))

/-- An actor is read alike under a tighter limit, or the limit stops it. -/
theorem limits_actor (rooms : RoomLimits (.nestingTooDeep depth) room roomy tight)
    (home : Option GraphId) : Limits (.nestingTooDeep depth) room Brackets
      (actor setting roomy home) (actor (setting.within depth) tight home) reader := by
  refine .see rfl (.ite (fun token => ?_) fun _ => .pure _)
  refine .descend rooms fun inside smaller insides => .see rfl (.opened token rfl
    (Limits.before ?_ fun _ => .pure _))
  obtain ⟨answer, ahead⟩ := see_relationTypeAhead 0 reader.next
  refine .see ahead (.ite (fun _ => ?_) fun _ => .of_fails ?_)
  · exact (limits_relationType insides.lambda).bind fun _ _ _ => .see rfl
      ((limits_arcs insides.concept home _).bind fun _ _ _ => .past (.expect rfl) fun _ _ _ =>
        .see rfl ((limits_arcs insides.concept home _).bind fun _ _ _ =>
          .past (flat_nodeComment _) fun _ _ _ => .close (blind_makeRelation _ _ _ _ _).still))
  · have refused : Ensures (fail (.expected .actorType) : Read Unit) reader.next
        fun _ _ => False := trivial
    exact refused.bind fun _ _ => False.elim

/-! ## Contexts and negations -/

theorem limits_contextBody (insides : InsideLimits (.nestingTooDeep depth) room inside smaller)
    (label : ContextLabel) : Limits (.nestingTooDeep depth) room (Closing .rightBracket)
      (contextBody inside graph label) (contextBody smaller graph label) reader := by
  refine .past (.eat rfl) fun _ _ _ => .past (.of_still (.make _)) fun concept _ _ =>
    .past (.of_still (.edit _)) fun _ _ _ => .past (.of_still (.edit _)) fun _ _ _ =>
      (limits_descriptor insides concept).bind fun body _ _ => ?_
  cases body with
  | some body => exact .past (.of_still (.edit _)) fun _ _ _ => .close (.pure _)
  | none => exact .close (.pure _)

theorem limits_specialContext (rooms : RoomLimits (.nestingTooDeep depth) room roomy tight) :
    Limits (.nestingTooDeep depth) room Brackets (specialContext setting roomy graph)
      (specialContext (setting.within depth) tight graph) reader := by
  refine .see rfl (.see rfl ?_)
  split
  · exact .same (.of_still (.bind (.located 1) fun _ => .failAt _ _))
  · next label _ token word =>
    rw [Reader.token_ahead_succ] at word
    exact .descend rooms fun inside smaller insides => .opened token rfl
      (.past (.advance (by rw [word]; rfl)) fun _ _ _ =>
        (limits_contextBody insides label).before fun _ => .pure _)
  · exact .pure _

/-- What is negated is read alike under a tighter limit, or the limit stops it. -/
theorem limits_negationBody (insides : InsideLimits (.nestingTooDeep depth) room inside smaller) :
    Limits (.nestingTooDeep depth) room (Closing .rightBracket)
      (negationBody inside graph) (negationBody smaller graph) reader := by
  have negated (concept : ConceptId) (body : GraphId) (later : Reader) :
      Limits (.nestingTooDeep depth) room (Closing .rightBracket)
        (do
          edit (·.setReferent concept { descriptor := some body })
          expect (.punct .rightBracket) .negationClosing
          let type ← negationType
          make (·.newRelation (some type) [concept] .relation))
        (do
          edit (·.setReferent concept { descriptor := some body })
          expect (.punct .rightBracket) .negationClosing
          let type ← negationType
          make (·.newRelation (some type) [concept] .relation)) later :=
    .past (.of_still (.edit _)) fun _ _ _ =>
      .close (.bind blind_negationType.still fun _ => .make _)
  refine .past (.of_still (.make _)) fun concept _ _ => .past (.of_still (.edit _)) fun _ _ _ =>
    .past (.of_still (.edit _)) fun _ _ _ =>
      (limits_descriptor insides concept).bind fun body _ _ => ?_
  cases body with
  | some body => exact negated _ _ _
  | none => exact .past (.of_still (.make _)) fun _ _ _ => negated _ _ _

theorem limits_negation (rooms : RoomLimits (.nestingTooDeep depth) room roomy tight) :
    Limits (.nestingTooDeep depth) room Brackets (negation setting roomy graph)
      (negation (setting.within depth) tight graph) reader := by
  refine .see rfl (.see rfl ?_)
  split
  · next sign token =>
    rw [Reader.token_ahead_succ] at token
    refine .descend rooms fun inside smaller insides => .flatly (.advance (by rw [sign]; rfl))
      fun _ later front ran flats => ?_
    obtain rfl : reader.next = later := by
      cases ran
      rfl
    refine (Limits.opened token rfl ((limits_negationBody insides).before fun _ => .pure _)).mono ?_
    exact fun levels _ matched => Nat.zero_max (levels + 1) ▸ .append (.of_flat flats) matched
  · exact .same (.of_still (.bind (.located 1) fun _ => .failAt _ _))
  · exact .pure _

/-! ## Items -/

theorem limits_relationInto {full few : Read (Option RelationId)}
    (limits : Limits (.nestingTooDeep depth) room Brackets full few reader) :
    Limits (.nestingTooDeep depth) room Brackets (relationInto graph full)
      (relationInto graph few) reader := by
  refine limits.before fun found => ?_
  cases found with
  | some relation => exact .bind (.edit _) fun _ => .pure _
  | none => exact .pure _

theorem limits_firstOf {full few : List (Read Bool)}
    (limits : List.Forall₂ (fun full few => ∀ reader,
      Limits (.nestingTooDeep depth) room Brackets full few reader) full few) :
    Limits (.nestingTooDeep depth) room Brackets (firstOf full) (firstOf few) reader := by
  induction limits generalizing reader with
  | nil => exact .pure _
  | cons first _ ih => exact (first _).bind fun _ _ _ => .ite (fun _ => .pure _) fun _ => ih

/-- Items are read alike under a tighter limit, or the limit stops one of them. -/
theorem limits_bracketItems (rooms : RoomLimits (.nestingTooDeep depth) room roomy tight)
    (tokens : Nat) : Limits (.nestingTooDeep depth) room Brackets
      (bracketItems setting roomy graph tokens)
      (bracketItems (setting.within depth) tight graph tokens) reader := by
  have productions : List.Forall₂ (fun full few => ∀ reader,
      Limits (.nestingTooDeep depth) room Brackets full few reader)
      (bracketProductions setting roomy graph)
      (bracketProductions (setting.within depth) tight graph) :=
    .cons (fun _ => (limits_concept rooms _).before fun _ => .pure _) <|
    .cons (fun _ => (limits_specialContext rooms).before fun _ => .pure _) <|
    .cons (fun _ => limits_relationInto (limits_negation rooms)) <|
    .cons (fun _ => limits_relationInto (limits_relation rooms _)) <|
    .cons (fun _ => limits_relationInto (limits_actor rooms _)) <|
    .cons (fun _ => .same flat_graphComment) .nil
  induction tokens generalizing reader with
  | zero => exact .pure _
  | succ tokens ih =>
      exact (limits_firstOf productions).bind fun _ _ _ => .ite (fun _ => ih) fun _ => .pure _

/-- In the interchange form a graph is read item by item, as long as tokens are left. -/
theorem items_cgif (cgif : setting.form = .cgif) : items setting roomy graph =
    (do bracketItems setting roomy graph (← get).rest.length) := by
  unfold items
  rw [cgif]

theorem limits_items (cgif : setting.form = .cgif)
    (rooms : RoomLimits (.nestingTooDeep depth) room roomy tight) :
    Limits (.nestingTooDeep depth) room Brackets (items setting roomy graph)
      (items (setting.within depth) tight graph) reader := by
  rw [items_cgif cgif, items_cgif (show (setting.within depth).form = .cgif from cgif)]
  exact .see rfl (limits_bracketItems rooms _)

/-! ## Any depth -/

/-- A reading with any room compared with one that has room for a number of brackets, however the
two numbers compare. -/
theorem roomLimits (cgif : setting.form = .cgif) (brackets room : Nat) :
    RoomLimits (.nestingTooDeep depth) room (roomFor setting brackets)
      (roomFor (setting.within depth) room) := by
  induction brackets generalizing room with
  | zero => exact nofun
  | succ brackets ih =>
      rintro inside ⟨⟩
      have inner := ih (room - 1)
      let smaller : Inside :=
        { concept := fun graph reader =>
            concept (setting.within depth) (roomFor (setting.within depth) (room - 1)) graph reader
          lambda := fun reader =>
            lambda (setting.within depth) (roomFor (setting.within depth) (room - 1)) reader
          items := fun graph reader =>
            items (setting.within depth) (roomFor (setting.within depth) (room - 1)) graph reader }
      refine ⟨smaller, ⟨fun _ _ => limits_concept inner _, fun _ => limits_lambda inner,
        fun _ _ => limits_items cgif inner⟩, ?_⟩
      cases room <;> rfl

/-- The end of a text in the form with brackets. -/
theorem textEnd_cgif (cgif : setting.form = .cgif) : textEnd setting = (do
    if (← peek) ≠ .endOfInput then fail .unexpected) := by
  unfold textEnd
  rw [if_neg (by simp [cgif])]

/-- With a limit to brackets a text is read as with any other limit, or its nesting is refused. -/
theorem limits_graphInto (depth : Nat) (cgif : setting.form = .cgif) :
    Limits (.nestingTooDeep depth) depth Brackets (graphInto setting graph)
      (graphInto (setting.within depth) graph) reader := by
  unfold graphInto graphText
  rw [textEnd_cgif cgif, textEnd_cgif (show (setting.within depth).form = .cgif from cgif)]
  exact (limits_items cgif (roomLimits cgif _ _)).before fun _ =>
    .bind .peek fun _ => .ite (.fail _) (.pure _)

/-- A text is read up to the end of input. -/
theorem ensures_graphInto_ends (cgif : setting.form = .cgif) :
    Ensures (graphInto setting graph) reader fun _ later =>
      (later.ahead 0).token = .endOfInput := by
  unfold graphInto graphText
  rw [textEnd_cgif cgif]
  refine (Ensures.trivial _ reader).bind fun _ later _ => ?_
  simp [ensures_bind, ensures_ite]

end Read

/-! ## Sessions -/

/-- How many brackets are open at once in a text, with the parameters of definitions left out. -/
def Scan.nesting (form : Notation) (source : String) : Nat :=
  Token.nesting ((Scan.ofText form source).tokens.map Located.token)

namespace Session

variable {session : Session} {model : Model} {source : String} {limit : Nat} {graph : GraphId}

/-- A session with another limit to the brackets that may be open at once. -/
def within (session : Session) (depth : Nat) : Session :=
  { session with options := { session.options with maxDepth := depth } }

/-- A text that is read with any limit to brackets is read in the same way with every limit that is
not below its nesting, and its nesting is refused with every other. -/
theorem limits_parseGraph
    (accepted : ((session.within limit).parseGraph model .cgif source).result = .ok graph)
    (depth : Nat) :
    (Scan.nesting .cgif source ≤ depth →
      (session.within depth).parseGraph model .cgif source =
        { (session.within limit).parseGraph model .cgif source with
          session :=
            ((session.within limit).parseGraph model .cgif source).session.within depth }) ∧
    (depth < Scan.nesting .cgif source → ∃ found,
      ((session.within depth).parseGraph model .cgif source).result =
        .error (.parse ⟨.nestingTooDeep depth, found⟩)) := by
  obtain ⟨stop, later, scanned, ran⟩ := exists_of_parsed accepted
  obtain ⟨levels, tokens, split, matched, same, stops⟩ :=
    Read.limits_graphInto depth rfl () later ran
  have ended : (later.ahead 0).token = .endOfInput := (Read.ensures_graphInto_ends rfl).of_ok ran
  have nested : Scan.nesting .cgif source = levels := by
    have whole : (Scan.ofText .cgif source).tokens.map Located.token = tokens ++ later.tokens :=
      split
    rw [Scan.nesting, whole]
    exact matched.nesting_append ((later.token_ahead 0).symm.trans ended)
  rw [nested]
  constructor
  · intro enough
    rw [parseGraph_of_ok scanned ran]
    exact parseGraph_of_ok scanned (same enough)
  · intro short
    obtain ⟨found, last, failed⟩ := stops short
    have refused : (session.within depth).parseGraph model .cgif source = _ :=
      parseGraph_of_error scanned failed
    exact ⟨found, by rw [refused]⟩

/-- The limit to brackets bounds the nesting of a text and nothing else.  A text that is read with
some limit is read with just the limits that are not below its nesting, always as the same model and
with the same labels and markers; with every other limit it is its nesting that is refused.  For
whatever has been read, or has been declined, leaves the count of open brackets as it was. -/
theorem parseGraph_within
    (accepted : ((session.within limit).parseGraph model .cgif source).result = .ok graph)
    (depth : Nat) :
    let full := (session.within limit).parseGraph model .cgif source
    let few := (session.within depth).parseGraph model .cgif source
    (few.result.isOk = true ↔ Scan.nesting .cgif source ≤ depth) ∧
      (few.result.isOk = true → few = { full with session := full.session.within depth }) ∧
      (few.result.isOk = false →
        ∃ found, few.result = .error (.parse ⟨.nestingTooDeep depth, found⟩)) ∧
      ∀ setting levels, Read.Balances setting (.counted (Read.level setting .counted levels)) := by
  intro full few
  have full_ok : full.result.isOk = true := by
    rw [accepted]
    rfl
  obtain ⟨same, stops⟩ := limits_parseGraph accepted depth
  -- The text nests more deeply than the limit allows, or it is read as with the full one.
  rcases Nat.lt_or_ge depth (Scan.nesting .cgif source) with short | enough
  · obtain ⟨found, refused⟩ := stops short
    have few_failed : few.result.isOk = false := by
      rw [refused]
      rfl
    exact ⟨by simp [few_failed, short], by simp [few_failed], fun _ => ⟨found, refused⟩,
      Read.balances_counted⟩
  · have few_ok : few.result.isOk = true := by
      rw [show few = _ from same enough]
      exact full_ok
    exact ⟨by simp [few_ok, enough], fun _ => same enough, by simp [few_ok], Read.balances_counted⟩

/-- A concept of a defined type next to a negation and an actor.  Only with the parenthesis of the
parameters would three brackets be open at once. -/
theorem parseGraph_within_definition :
    let text := "[(lambda (A *x)): *y] ~[[B] [C]] <S ?y | [D]>"
    ((({} : Session).within 256).parseGraph {} .cgif text).result = .ok ⟨0⟩ ∧
      Scan.nesting .cgif text = 2 ∧
      ((({} : Session).within 2).parseGraph {} .cgif text).model =
        ((({} : Session).within 256).parseGraph {} .cgif text).model ∧
      ∃ found, ((({} : Session).within 1).parseGraph {} .cgif text).result =
        .error (.parse ⟨.nestingTooDeep 1, found⟩) := by
  intro text
  have accepted : ((({} : Session).within 256).parseGraph {} .cgif text).result = .ok ⟨0⟩ := by
    decide +kernel
  have nested : Scan.nesting .cgif text = 2 := by decide +kernel
  obtain ⟨enough, same, -⟩ := parseGraph_within accepted 2
  obtain ⟨short, -, refused, -⟩ := parseGraph_within accepted 1
  refine ⟨accepted, nested, ?_, refused ?_⟩
  · rw [same (enough.mpr (Nat.le_of_eq nested))]
  · exact Bool.eq_false_iff.mpr fun ok => absurd (short.mp ok) (by rw [nested]; decide)

end Session

end ConceptualGraph
