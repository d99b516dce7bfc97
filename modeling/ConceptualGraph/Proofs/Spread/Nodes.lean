/-
Module: ConceptualGraph.Proofs.Spread.Nodes
Purpose: Types, concepts, relations and negations are read in the same way in front of different
  tokens.
Main exports: Read.InsideAgrees, Read.agree_lambda, Read.agree_conceptBody, Read.agree_arc
-/
import ConceptualGraph.Proofs.Reading.Depth
import ConceptualGraph.Proofs.Spread.Beside

namespace ConceptualGraph.Read

variable {after after' : List Token} {levels most : Nat} {setting : Setting} {reader other : Reader}
  {room : Option Inside} {inside : Inside} {graph : GraphId} {home : Option GraphId}

/-! ## Types -/

/-- Two declared parameters differ only in the place of their labels. -/
structure Declared.Same (declared declared' : Declared) : Prop where
  found : declared'.found.token = declared.found.token
  type : declared'.type = declared.type
  label : declared'.label = declared.label

theorem Declared.Same.moved {declared declared' : Declared} (same : declared.Same declared') :
    declared.moved (.to declared'.found) = declared' := by
  obtain ⟨found, type, label⟩ := declared'
  obtain ⟨token, rfl, rfl⟩ := same
  rw [Declared.moved, Located.moved_to token]

/-- What is read inside a bracket is read in the same way in front of different tokens. -/
structure InsideAgrees (after after' : List Token) (inside : Inside) : Prop where
  concept : ∀ {levels most reader other} home, Beside after after' (levels + 1) most reader other →
    Agree (inside.concept home) (inside.concept home) reader other
      (Stays after after' (levels + 1) fun found => if found.isSome then most - 1 else most)
  lambda : ∀ {levels most reader other}, Beside after after' (levels + 1) most reader other →
    Agree inside.lambda inside.lambda reader other (Stays after after' (levels + 1) fun _ => most)
  items : ∀ {levels most reader other} graph,
    Beside after after' (levels + 1) most reader other →
      Agree (inside.items graph) (inside.items graph) reader other
        (Stays after after' (levels + 1) fun _ => most)

/-- What is read where there is room is read in the same way in front of different tokens. -/
def RoomAgrees (after after' : List Token) (room : Option Inside) : Prop :=
  ∀ inside, room = some inside → InsideAgrees after after' inside

section Types

variable (beside : Beside after after' (levels + 1) most reader other)

include beside

/-- A formal parameter is read alike beside other items. -/
theorem agree_parameter :
    Agree (parameter setting) (parameter setting) reader other
      fun declared later declared' later' => declared.Same declared' ∧
        Beside after after' (levels + 1) most later later' := by
  unfold parameter
  rw [agree_peek, beside.same]
  split
  · next label here =>
    rw [agree_located, agree_advance]
    refine ((beside.past here).blindAt beside.same fun _ found =>
      blind_conceptTypeNamed found label).stay fun type later later' beside => ?_
    rw [agree_peek, beside.same]
    split
    · next label here =>
      rw [agree_located, agree_advance]
      exact ⟨⟨beside.same, rfl, rfl⟩, beside.past here⟩
    · exact agree_fail
  · exact agree_fail

/-- Formal parameters are read alike beside other items, one after the other. -/
theorem agree_parameters {tokens more : Nat} (enough : most ≤ tokens) (enough' : most ≤ more) :
    Agree (parameters setting tokens) (parameters setting more) reader other
      fun declared later declared' later' => List.Forall₂ Declared.Same declared declared' ∧
        Beside after after' (levels + 1) most later later' := by
  induction tokens generalizing more most reader other with
  | zero => exact absurd enough (Nat.not_le_of_gt beside.pos)
  | succ tokens ih =>
      obtain ⟨more, rfl⟩ : ∃ count, more = count + 1 :=
        Nat.exists_eq_succ_of_ne_zero (Nat.ne_of_gt (Nat.lt_of_lt_of_le beside.pos enough'))
      unfold parameters
      refine (agree_parameter beside).bind fun declared _ declared' _ facts => ?_
      obtain ⟨same, beside⟩ := facts
      refine (agree_eat_less beside rfl).stay fun ate _ _ beside => ?_
      cases ate with
      | false => exact ⟨.cons same .nil, beside⟩
      | true =>
          refine (ih beside (Nat.sub_le_of_le_add enough) (Nat.sub_le_of_le_add enough')).bind
            fun others _ others' _ facts => ?_
          obtain ⟨all, beside⟩ := facts
          exact ⟨.cons same all, beside.mono (Nat.sub_le _ _)⟩

end Types

theorem agree_linkParameters {body : Option GraphId} {declared declared' : List Declared}
    (same : List.Forall₂ Declared.Same declared declared')
    (beside : Beside after after' levels most reader other) :
    Agree (declared.mapM (linkParameter body)) (declared'.mapM (linkParameter body)) reader other
      (Stays after after' levels fun _ => most) := by
  refine .mapM same (fun parameter parameter' reader other same beside => ?_) beside
  have goes := Beside.blind (.to parameter'.found) beside (blind_linkParameter body parameter)
  rwa [same.moved] at goes

theorem agree_definitionBody (agrees : InsideAgrees after after' inside)
    {declared declared' : List Declared} (same : List.Forall₂ Declared.Same declared declared')
    (beside : Beside after after' (levels + 1) most reader other) :
    Agree (definitionBody inside declared) (definitionBody inside declared') reader other
      (Stays after after' (levels + 1) fun _ => most) := by
  unfold definitionBody
  rw [agree_peek, beside.same]
  refine .ite (fun _ => ?_) fun _ => ?_
  · refine (Beside.blind (.below 0) beside (.make _)).stay fun graph _ _ beside => ?_
    refine (agrees.items graph beside).stay fun _ _ _ beside => ?_
    exact (agree_linkParameters same beside).stay fun _ _ _ beside => ⟨rfl, beside⟩
  · exact (agree_linkParameters same beside).stay fun _ _ _ beside => ⟨rfl, beside⟩

/-- A definition after its opening bracket. -/
theorem agree_lambdaRest (agrees : InsideAgrees after after' inside)
    (beside : Beside after after' (levels + 1) most reader other) :
    Agree (do
      expect (.keyword .lambda) .lambdaWord
      expect (.punct .leftParen) .parametersOpening
      let declared ← parameters setting (← get).rest.length
      expect (.punct .rightParen) .parametersClosing
      let definition ← inContext (definitionBody inside declared)
      expect (.punct .rightParen) .lambdaClosing
      return definition) (do
      expect (.keyword .lambda) .lambdaWord
      expect (.punct .leftParen) .parametersOpening
      let declared ← parameters setting (← get).rest.length
      expect (.punct .rightParen) .parametersClosing
      let definition ← inContext (definitionBody inside declared)
      expect (.punct .rightParen) .lambdaClosing
      return definition) reader other (Stays after after' levels fun _ => most) := by
  refine (agree_expect beside _ _).stay fun _ _ _ beside => ?_
  refine (agree_expect beside _ _).stay fun _ first first' beside => ?_
  obtain ⟨least, le, enough, enough', beside⟩ := beside.exact
  rw [agree_get]
  refine (agree_parameters beside enough enough').bind fun declared _ declared' _ facts => ?_
  obtain ⟨same, beside⟩ := facts
  refine (agree_expect beside _ _).stay fun _ _ _ beside => ?_
  refine (Beside.inContext beside fun beside => agree_definitionBody agrees same beside).stay
    fun definition _ _ beside => ?_
  exact (agree_expect beside _ _).stay fun _ _ _ beside => ⟨rfl, beside.mono le⟩

theorem agree_lambda (agrees : RoomAgrees after after' room)
    (beside : Beside after after' (levels + 1) most reader other) :
    Agree (lambda setting room) (lambda setting room) reader other
      (Stays after after' (levels + 1) fun _ => most) :=
  agree_descend fun inside entered => (agree_expect beside _ _).stay fun _ _ _ beside =>
    agree_lambdaRest (agrees inside entered) beside

/-! ## What is seen ahead -/

/-- Whether two tokens begin a definition. -/
def beginsLambda (first second : Token) : Bool :=
  first = .punct .leftParen && second = .keyword .lambda

/-- Whether two tokens begin the type of a relation. -/
def beginsType : (first second : Token) → Bool
  | .ident _, _ => true
  | first, second => beginsLambda first second

/-- A word begins a type on its own; anything else has to begin a lambda. -/
theorem beginsType_of_ne {first : Token} (apart : ¬∃ word, first = .ident word)
    (second : Token) : beginsType first second = beginsLambda first second := by
  cases first with
  | ident word => exact absurd ⟨word, rfl⟩ apart
  | _ => rfl

theorem lambdaAhead_eq (places : Nat) (reader : Reader) :
    lambdaAhead places reader = .ok (beginsLambda (reader.ahead places).token
      (reader.ahead (places + 1)).token) reader := rfl

/-- Whether a type of relations lies ahead is seen from two tokens. -/
theorem relationTypeAhead_eq (places : Nat) (reader : Reader) :
    relationTypeAhead places reader = .ok (beginsType (reader.ahead places).token
      (reader.ahead (places + 1)).token) reader := by
  unfold relationTypeAhead
  rw [bind_of_ok (rfl : ahead places reader = .ok (reader.ahead places).token reader)]
  by_cases word : ∃ word, (reader.ahead places).token = .ident word
  · obtain ⟨word, here⟩ := word
    rw [here]
    rfl
  · rw [beginsType_of_ne word, ← lambdaAhead_eq]
    generalize (reader.ahead places).token = token at word
    cases token with
    | ident text => exact absurd ⟨text, rfl⟩ word
    | _ => rfl

/-- Whether a relation is ahead is seen from three tokens. -/
theorem relationNodeAhead_eq (reader : Reader) : relationNodeAhead reader =
    .ok ((reader.ahead 0).token = .punct .leftParen &&
      beginsType (reader.ahead 1).token (reader.ahead 2).token) reader := by
  unfold relationNodeAhead
  rw [bind_of_ok (rfl : peek reader = .ok _ reader), bind_of_ok (relationTypeAhead_eq 1 reader)]
  rfl

section Ahead

variable (beside : Beside after after' (levels + 1) most reader other)

include beside

/-- A lambda begins on both sides or on neither. -/
theorem same_beginsLambda :
    beginsLambda (other.ahead 0).token (other.ahead 1).token =
      beginsLambda (reader.ahead 0).token (reader.ahead 1).token := by
  rw [beside.same]
  by_cases opens : (reader.ahead 0).token = .punct .leftParen
  · rw [beside.second opens (Nat.succ_ne_zero _)]
  · simp [beginsLambda, opens]

/-- The same two tokens say on both sides whether a type begins. -/
theorem same_beginsType :
    beginsType (other.ahead 0).token (other.ahead 1).token =
      beginsType (reader.ahead 0).token (reader.ahead 1).token := by
  by_cases word : ∃ word, (reader.ahead 0).token = .ident word
  · obtain ⟨word, here⟩ := word
    rw [beside.same, here]
    rfl
  · rw [beginsType_of_ne word, ← same_beginsLambda beside]
    rw [← beside.same] at word
    exact beginsType_of_ne word _

theorem agree_lambdaAhead :
    Agree (lambdaAhead 0) (lambdaAhead 0) reader other
      (Stays after after' (levels + 1) fun _ => most) :=
  .of_ok (lambdaAhead_eq 0 reader) (lambdaAhead_eq 0 other)
    ⟨(same_beginsLambda beside).symm, beside⟩

theorem agree_relationTypeAhead :
    Agree (relationTypeAhead 0) (relationTypeAhead 0) reader other
      (Stays after after' (levels + 1) fun _ => most) :=
  .of_ok (relationTypeAhead_eq 0 reader) (relationTypeAhead_eq 0 other)
    ⟨(same_beginsType beside).symm, beside⟩

/-- A relation of a chain begins with a parenthesis. -/
theorem agree_relationNodeAhead {β : Type} {next next' : Bool → Read β}
    {post : β → Reader → β → Reader → Prop}
    (some_ : (reader.ahead 0).token = .punct .leftParen →
      Agree (next true) (next' true) reader other post)
    (none_ : Agree (next false) (next' false) reader other post) :
    Agree (relationNodeAhead >>= next) (relationNodeAhead >>= next') reader other post := by
  by_cases opens : (reader.ahead 0).token = .punct .leftParen
  · have further := same_beginsType (beside.next opens)
    simp only [← Reader.token_ahead_succ] at further
    refine .skip (relationNodeAhead_eq reader) (.skip' (relationNodeAhead_eq other) ?_)
    rw [beside.same, further, opens]
    cases beginsType (reader.ahead 1).token (reader.ahead 2).token with
    | true => exact some_ opens
    | false => exact none_
  · refine .skip (relationNodeAhead_eq reader) (.skip' (relationNodeAhead_eq other) ?_)
    rw [beside.same, decide_eq_false opens]
    exact none_

end Ahead

section Types

variable (beside : Beside after after' (levels + 1) most reader other)

include beside

/-- A concept type is read alike beside other items, whether it is named or defined. -/
theorem agree_conceptType {lambda : Read Definition}
    (agrees : ∀ {reader other}, Beside after after' (levels + 1) most reader other →
      Agree lambda lambda reader other (Stays after after' (levels + 1) fun _ => most)) :
    Agree (conceptType setting lambda) (conceptType setting lambda) reader other
      (Stays after after' (levels + 1) fun _ => most) := by
  unfold conceptType
  rw [agree_peek, beside.same]
  split
  · next label here =>
    rw [agree_located, agree_advance]
    exact ((beside.past here).blindAt beside.same fun _ found =>
      blind_conceptTypeNamed found label).stay fun _ _ _ beside => ⟨rfl, beside⟩
  · refine (agree_lambdaAhead beside).stay fun begins _ _ beside => .ite (fun _ => ?_) fun _ => ?_
    · rw [agree_located]
      refine (agrees beside).stay fun definition _ _ beside => .ite (fun _ => agree_failAt)
        fun _ => ?_
      exact (Beside.blind (.below 0) beside (.make _)).stay fun _ _ _ beside => ⟨rfl, beside⟩
    · exact ⟨rfl, beside⟩

theorem agree_relationType {lambda : Read Definition}
    (agrees : ∀ {reader other}, Beside after after' (levels + 1) most reader other →
      Agree lambda lambda reader other (Stays after after' (levels + 1) fun _ => most)) :
    Agree (relationType setting lambda) (relationType setting lambda) reader other
      (Stays after after' (levels + 1) fun _ => most) := by
  unfold relationType
  rw [agree_peek, beside.same]
  split
  · next label here =>
    rw [agree_located, agree_advance]
    exact (beside.past here).blindAt beside.same fun _ found => blind_relationTypeNamed found label
  · exact (agrees beside).stay fun _ _ _ beside => Beside.blind (.below 0) beside (.make _)

/-! ## Concepts -/

theorem agree_quantifier : Agree quantifier quantifier reader other
    (Stays after after' (levels + 1) fun _ => most) := by
  refine (agree_eat_flat beside rfl).stay fun ate _ _ beside => ?_
  refine .ite (fun _ => ?_) fun _ => ⟨rfl, beside⟩
  rw [agree_peek, beside.same]
  split
  · next here => exact ⟨rfl, beside.past here⟩
  · next here => exact ⟨rfl, beside.past here⟩
  · exact agree_fail

theorem agree_encodedLiteral : Agree encodedLiteral encodedLiteral reader other
    (Stays after after' (levels + 1) fun _ => most) := by
  unfold encodedLiteral
  rw [agree_peek, beside.same]
  split
  · next here =>
    have beside := beside.past here
    rw [agree_advance, agree_peek, beside.same]
    split
    · next here => exact ⟨rfl, beside.past here⟩
    · exact agree_fail
  · exact agree_fail

theorem agree_designator : Agree designator designator reader other
    (Stays after after' (levels + 1) fun _ => most) := by
  refine (agree_eat_flat beside rfl).stay fun ate later later' beside => ?_
  refine .ite (fun _ => ?_) fun _ => ?_
  · exact (agree_encodedLiteral beside).stay fun _ _ _ beside => ⟨rfl, beside⟩
  · rw [agree_located]
    have reads := beside.blindAt beside.same fun _ found => blind_designatorOf found
    have still : Still (designatorOf (later.ahead 0)) := (blind_designatorOf _).still
    refine ((reads.and (isFlat_of_designatorOf _)).and (still later)).bind
      fun designator last _ last' facts => ?_
    obtain ⟨⟨⟨rfl, further⟩, flat⟩, unmoved⟩ := facts
    refine .ite (fun given => ?_) fun _ => ⟨rfl, further⟩
    have here : (last.ahead 0).token = (later.ahead 0).token := by
      rw [Reader.token_ahead, Reader.token_ahead, unmoved]
    rw [agree_advance]
    exact ⟨rfl, Token.levelsAfter_of_isFlat (flat given) levels ▸ further.past here⟩

theorem agree_nodeComment (node : NodeKind) : Agree (nodeComment node) (nodeComment node) reader
    other (Stays after after' (levels + 1) fun _ => most) := by
  unfold nodeComment
  rw [agree_peek, beside.same]
  split
  · next here => exact .ite (fun _ => ⟨rfl, beside.past here⟩) fun _ => ⟨rfl, beside⟩
  · exact ⟨rfl, beside⟩

theorem agree_descriptor (agrees : InsideAgrees after after' inside) (owner : ConceptId) :
    Agree (descriptor inside owner) (descriptor inside owner) reader other
      (Stays after after' (levels + 1) fun _ => most) := by
  unfold descriptor
  rw [agree_peek, beside.same]
  refine .ite (fun _ => ?_) fun _ => ⟨rfl, beside⟩
  refine (Beside.blind (.below 0) beside (.make _)).stay fun graph _ _ beside => ?_
  exact (Beside.inContext beside fun beside => agrees.items graph beside).stay
    fun _ _ _ beside => ⟨rfl, beside⟩

theorem agree_referent (agrees : InsideAgrees after after' inside) (concept : ConceptId) :
    Agree (referent inside concept) (referent inside concept) reader other
      (Stays after after' (levels + 1) fun _ => most) := by
  refine (agree_quantifier beside).stay fun _ _ _ beside => ?_
  refine (agree_designator beside).stay fun _ _ _ beside => ?_
  refine (agree_descriptor beside agrees concept).stay fun _ _ _ beside => ?_
  exact .ite (fun _ => ⟨rfl, beside⟩) fun _ => Beside.blind (.below 0) beside (.edit _)

/-- Labels are read alike as long as either side has tokens enough. -/
theorem agree_boundLabels (concept : ConceptId) {tokens more : Nat} (enough : most ≤ tokens)
    (enough' : most ≤ more) :
    Agree (boundLabels concept tokens) (boundLabels concept more) reader other
      (Stays after after' (levels + 1) fun _ => most) := by
  induction tokens generalizing more most reader other with
  | zero => exact absurd enough (Nat.not_le_of_gt beside.pos)
  | succ tokens ih =>
      obtain ⟨more, rfl⟩ : ∃ count, more = count + 1 :=
        Nat.exists_eq_succ_of_ne_zero (Nat.ne_of_gt (Nat.lt_of_lt_of_le beside.pos enough'))
      unfold boundLabels
      rw [agree_peek, beside.same]
      split
      · next label here =>
        rw [agree_located, agree_advance]
        refine ((beside.next here).blindAt beside.same fun _ found =>
          blind_join found label concept).stay fun _ _ _ beside => ?_
        exact (ih beside (Nat.sub_le_of_le_add enough) (Nat.sub_le_of_le_add enough')).less
          (Nat.sub_le _ _)
      · exact ⟨rfl, beside⟩

theorem agree_conceptLabels (concept : ConceptId) :
    Agree (conceptLabels concept) (conceptLabels concept) reader other
      (Stays after after' (levels + 1) fun _ => most) := by
  unfold conceptLabels
  rw [agree_peek, beside.same]
  split
  · next label here =>
    refine .skip rfl (.skip' rfl ?_)
    rw [beside.alike.labels]
    refine .ite (fun _ => agree_fail) fun _ => ?_
    rw [agree_advance]
    exact Beside.blind (.below 0) (beside.past here) (.bindLabel _ _)
  · obtain ⟨least, le, enough, enough', beside⟩ := beside.exact
    exact (agree_boundLabels beside concept enough enough').less le

/-- A concept after its opening bracket. -/
theorem agree_conceptBody (agrees : InsideAgrees after after' inside) (home : Option GraphId) :
    Agree (conceptBody setting inside home) (conceptBody setting inside home) reader other
      (Stays after after' levels fun _ => most) := by
  refine (agree_conceptType beside agrees.lambda).stay fun type _ _ beside => ?_
  refine (Beside.blind (.below 0) beside (.make _)).stay fun concept _ _ beside => ?_
  cases home
  case' some graph => refine (Beside.blind (.below 0) beside (.edit _)).stay fun _ _ _ beside => ?_
  -- Whether or not it has been put into a graph, the rest of the concept is read.
  all_goals
    refine (agree_eat_flat beside rfl).stay fun _ _ _ beside => ?_
    refine (agree_conceptLabels beside concept).stay fun _ _ _ beside => ?_
    refine (agree_referent beside agrees concept).stay fun _ _ _ beside => ?_
    refine (agree_nodeComment beside _).stay fun comment _ _ beside => ?_
    split
    · exact (Beside.blind (.below 0) beside (.edit _)).stay fun _ _ _ beside =>
        (agree_expect beside _ _).stay fun _ _ _ beside => ⟨rfl, beside⟩
    · exact (agree_expect beside _ _).stay fun _ _ _ beside => ⟨rfl, beside⟩

omit beside in
/-- What begins with a bracket is a concept or is left as it is. -/
theorem agree_bracket (agrees : RoomAgrees after after' room) (home : Option GraphId)
    (opens : (reader.ahead 0).token = .punct .leftBracket)
    (opens' : (other.ahead 0).token = .punct .leftBracket)
    (second : (other.ahead 1).token = (reader.ahead 1).token)
    (inner : Beside after after' (levels + 1) most reader.next other.next) :
    Agree (concept setting room home) (concept setting room home) reader other
      fun found later found' later' => found = found' ∧
        (found.isSome = true → Beside after after' levels most later later') ∧
          (found = none → later = reader ∧ later' = other) := by
  unfold concept
  rw [agree_peek, agree_ahead, opens, opens', second]
  split
  · exact ⟨rfl, by simp, fun _ => ⟨rfl, rfl⟩⟩
  · exact agree_located.mpr agree_failAt
  · exact agree_located.mpr agree_failAt
  · refine agree_descend fun inside entered => ?_
    rw [agree_advance]
    exact (agree_conceptBody inner (agrees inside entered) home).stay
      fun _ _ _ beside => ⟨rfl, fun _ => beside, by simp⟩
  · exact ⟨rfl, by simp, fun _ => ⟨rfl, rfl⟩⟩

/-- A concept is read alike beside other items, and takes tokens from both sides. -/
theorem agree_concept (agrees : RoomAgrees after after' room) (home : Option GraphId) :
    Agree (concept setting room home) (concept setting room home) reader other
      (Stays after after' (levels + 1) fun found => if found.isSome then most - 1 else most) := by
  by_cases opens : (reader.ahead 0).token = .punct .leftBracket
  · refine (agree_bracket agrees home opens (beside.same.trans opens)
      (beside.second opens (Nat.succ_ne_zero _)) (beside.next opens)).mono
        fun found later found' later' facts => ?_
    obtain ⟨same, read, left⟩ := facts
    cases found with
    | some concept => exact ⟨same, read rfl⟩
    | none =>
        obtain ⟨rfl, rfl⟩ := left rfl
        exact ⟨same, beside⟩
  · exact agree_of_declines (concept_declines opens home)
      (concept_declines (beside.same ▸ opens) home) ⟨rfl, beside⟩

/-! ## Relations and actors -/

theorem agree_arc {concept : Option GraphId → Read (Option ConceptId)}
    (agrees : ∀ home, Agree (concept home) (concept home) reader other
      (Stays after after' (levels + 1) fun found => if found.isSome then most - 1 else most))
    (home : Option GraphId) : Agree (arc concept home) (arc concept home) reader other
      (Stays after after' (levels + 1) fun found => if found.isSome then most - 1 else most) := by
  unfold arc
  rw [agree_peek, beside.same]
  split
  · next label here =>
    rw [agree_located, agree_advance]
    exact ((beside.next here).blindAt beside.same fun _ found =>
      blind_resolve found label home).stay fun _ _ _ beside => ⟨rfl, beside⟩
  · exact agrees home
  · exact ⟨rfl, beside⟩

/-- Arguments are read alike as long as either side has tokens enough. -/
theorem agree_arcs (agrees : InsideAgrees after after' inside) (home : Option GraphId)
    {tokens more : Nat} (enough : most ≤ tokens) (enough' : most ≤ more) :
    Agree (arcs inside.concept home tokens) (arcs inside.concept home more) reader other
      (Stays after after' (levels + 1) fun _ => most) := by
  induction tokens generalizing more most reader other with
  | zero => exact absurd enough (Nat.not_le_of_gt beside.pos)
  | succ tokens ih =>
      obtain ⟨more, rfl⟩ : ∃ count, more = count + 1 :=
        Nat.exists_eq_succ_of_ne_zero (Nat.ne_of_gt (Nat.lt_of_lt_of_le beside.pos enough'))
      unfold arcs
      refine (agree_arc beside (fun home => agrees.concept home beside) home).stay
        fun argument _ _ beside => ?_
      cases argument with
      | none => exact ⟨rfl, beside⟩
      | some argument =>
          exact (ih beside (Nat.sub_le_of_le_add enough) (Nat.sub_le_of_le_add enough')).stay
            fun _ _ _ beside => ⟨rfl, beside.mono (Nat.sub_le _ _)⟩

/-- The arguments that are left are at most as many as there are tokens. -/
theorem agree_arcs_left {β : Type} {post : β → Reader → β → Reader → Prop}
    {next next' : List ConceptId → Read β} (agrees : InsideAgrees after after' inside)
    (home : Option GraphId)
    (others : ∀ args later later', Beside after after' (levels + 1) most later later' →
      Agree (next args) (next' args) later later' post) :
    Agree (do next (← arcs inside.concept home (← get).rest.length))
      (do next' (← arcs inside.concept home (← get).rest.length)) reader other post := by
  rw [agree_get]
  obtain ⟨least, le, enough, enough', beside⟩ := beside.exact
  exact (agree_arcs beside agrees home enough enough').stay fun args later later' beside =>
    others args later later' (beside.mono le)

/-- An actor after its opening bracket. -/
theorem agree_actorBody (agrees : InsideAgrees after after' inside) {found found' : Located}
    (same : found'.token = found.token) (home : Option GraphId) :
    Agree (actorBody setting inside found home) (actorBody setting inside found' home) reader other
      (Stays after after' levels fun _ => most) := by
  refine (agree_relationTypeAhead beside).stay fun begins _ _ beside => .ite (fun _ => ?_)
    fun _ => agree_fail
  refine (agree_relationType beside agrees.lambda).stay fun type _ _ beside => ?_
  refine agree_arcs_left beside agrees home fun inputs _ _ beside => ?_
  refine (agree_expect beside _ _).stay fun _ _ _ beside => ?_
  refine agree_arcs_left beside agrees home fun outputs _ _ beside => ?_
  refine (agree_nodeComment beside _).stay fun comment _ _ beside => ?_
  refine (agree_expect beside _ _).stay fun _ _ _ beside => ?_
  exact beside.blindAt same fun _ found => blind_makeRelation found _ _ _ _

theorem agree_actor (agrees : RoomAgrees after after' room) (home : Option GraphId) :
    Agree (actor setting room home) (actor setting room home) reader other
      (Stays after after' (levels + 1) fun found => if found.isSome then most - 1 else most) := by
  unfold actor
  rw [agree_peek, beside.same]
  refine .ite (fun here => agree_descend fun inside entered => ?_) fun _ => ⟨rfl, beside⟩
  rw [agree_located, agree_advance]
  exact (agree_actorBody (beside.next here) (agrees inside entered) beside.same home).stay
    fun _ _ _ beside => ⟨rfl, beside⟩

/-! ## Negations and comments -/

/-- A negation after its opening bracket. -/
theorem agree_negationBody (agrees : InsideAgrees after after' inside) (graph : GraphId) :
    Agree (negationBody inside graph) (negationBody inside graph) reader other
      (Stays after after' levels fun _ => most) := by
  refine (Beside.blind (.below 0) beside (.make _)).stay fun concept _ _ beside => ?_
  refine (Beside.blind (.below 0) beside (.edit _)).stay fun _ _ _ beside => ?_
  refine (Beside.blind (.below 0) beside (.edit _)).stay fun _ _ _ beside => ?_
  refine (agree_descriptor beside agrees concept).stay fun body _ _ beside => ?_
  have closes {reader other : Reader} (body : GraphId)
      (beside : Beside after after' (levels + 1) most reader other) : Agree (do
        edit (·.setReferent concept { descriptor := some body })
        expect (.punct .rightBracket) .negationClosing
        let type ← negationType
        make (·.newRelation (some type) [concept] .relation)) (do
        edit (·.setReferent concept { descriptor := some body })
        expect (.punct .rightBracket) .negationClosing
        let type ← negationType
        make (·.newRelation (some type) [concept] .relation)) reader other
          (Stays after after' levels fun _ => most) :=
    (Beside.blind (.below 0) beside (.edit _)).stay fun _ _ _ beside =>
      (agree_expect beside _ _).stay fun _ _ _ beside =>
        (Beside.blind (.below 0) beside blind_negationType).stay fun _ _ _ beside =>
          Beside.blind (.below 0) beside (.make _)
  cases body with
  | some body => exact closes body beside
  | none => exact (Beside.blind (.below 0) beside (.make _)).stay fun body _ _ beside =>
      closes body beside

theorem agree_negation (agrees : RoomAgrees after after' room) (graph : GraphId) :
    Agree (negation setting room graph) (negation setting room graph) reader other
      (Stays after after' (levels + 1) fun found => if found.isSome then most - 1 else most) := by
  by_cases marked : (reader.ahead 0).token = .punct .tilde
  · unfold negation
    rw [agree_peek, agree_ahead, beside.same, beside.second marked (Nat.succ_ne_zero _), marked]
    split
    · next opens =>
      refine agree_descend fun inside entered => ?_
      rw [agree_advance, agree_advance]
      have inner := beside.next marked
      rw [Reader.token_ahead_succ] at opens
      exact (agree_negationBody (inner.past opens) (agrees inside entered) graph).stay
        fun _ _ _ beside => ⟨rfl, beside⟩
    · exact agree_located.mpr agree_failAt
    · exact ⟨rfl, beside⟩
  · exact agree_of_declines (negation_declines marked) (negation_declines (beside.same ▸ marked))
      ⟨rfl, beside⟩

theorem agree_graphComment (graph : GraphId) :
    Agree (graphComment graph) (graphComment graph) reader other
      (Stays after after' (levels + 1) fun found => if found then most - 1 else most) := by
  unfold graphComment
  rw [agree_peek, beside.same]
  split
  · next here =>
    rw [agree_advance]
    exact (Beside.blind (.below 0) (beside.next here) (.edit _)).stay fun _ _ _ beside =>
      ⟨rfl, beside⟩
  · exact ⟨rfl, beside⟩

end Types

/-- A relation is put into its graph on both sides, or none is found on both. -/
theorem agree_relationInto {production : Read (Option RelationId)}
    (agree : Agree production production reader other
      (Stays after after' levels fun found => if found.isSome then most - 1 else most))
    (graph : GraphId) :
    Agree (relationInto graph production) (relationInto graph production) reader other
      (Stays after after' levels fun found => if found then most - 1 else most) := by
  refine agree.stay fun relation _ _ beside => ?_
  cases relation with
  | some relation => exact (Beside.blind (.below 0) beside (.edit _)).stay fun _ _ _ beside =>
      ⟨rfl, beside⟩
  | none => exact ⟨rfl, beside⟩

end ConceptualGraph.Read
