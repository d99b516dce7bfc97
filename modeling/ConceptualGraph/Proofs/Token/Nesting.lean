/-
Module: ConceptualGraph.Proofs.Token.Nesting
Purpose: How many brackets are open at once in a list of tokens, and how this is found from the
  parts of which the list is made.
Main exports: Token.nesting, Token.Brackets, Token.Brackets.nesting_append,
  Token.Brackets.nesting_reread_le
-/
import ConceptualGraph.Proofs.Token.Spelling

namespace ConceptualGraph

/-- The mark that closes what another one opens. -/
def Punct.closer? : Punct → Option Punct
  | .leftParen => some .rightParen
  | .leftBracket => some .rightBracket
  | .leftAngle => some .rightAngle
  | _ => none

namespace Token

/-! ## Nesting -/

/-- The brackets that are open after a token, the innermost first, each with whether it counts.
The parenthesis of the parameters, which stands right after the word `lambda`, does not. -/
def bracketsAfter (afterLambda : Bool) (brackets : List Bool) : Token → List Bool
  | .punct .leftBracket | .punct .leftAngle => true :: brackets
  | .punct .leftParen => (!afterLambda) :: brackets
  | .punct .rightBracket | .punct .rightParen | .punct .rightAngle => brackets.tail
  | _ => brackets

/-- The largest number of brackets that count and are open at once in tokens that follow on open
brackets, up to the end of input. -/
def nestingFrom : (afterLambda : Bool) → (brackets : List Bool) → List Token → Nat
  | _, brackets, [] => brackets.count true
  | afterLambda, brackets, token :: tokens =>
      if token = .endOfInput then brackets.count true
      else
        max (brackets.count true)
          (nestingFrom (token = .keyword .lambda) (token.bracketsAfter afterLambda brackets) tokens)

/-- The largest number of brackets that are open at once. -/
def nesting (tokens : List Token) : Nat := nestingFrom false [] tokens

variable {form : Notation} {afterLambda : Bool} {brackets : List Bool}
  {tokens inner rest : List Token} {token : Token} {opener closer : Punct} {levels : Nat}

/-- The nesting of a text is at least that of the brackets which are open already. -/
theorem count_le_nestingFrom : brackets.count true ≤ nestingFrom afterLambda brackets tokens := by
  cases tokens with
  | nil => exact Nat.le_refl _
  | cons token tokens =>
      rw [nestingFrom]
      split
      · exact Nat.le_refl _
      · exact Nat.le_max_left _ _

/-- At the end of input nothing is opened any more. -/
theorem nestingFrom_ended (ended : tokens[0]?.getD .endOfInput = .endOfInput) :
    nestingFrom afterLambda brackets tokens = brackets.count true := by
  cases tokens with
  | nil => rfl
  | cons token tokens => exact if_pos ended

/-- A mark is counted with the brackets that are open before it. -/
theorem nestingFrom_punct (mark : Punct) :
    nestingFrom afterLambda brackets (.punct mark :: tokens) = max (brackets.count true)
      (nestingFrom false (bracketsAfter afterLambda brackets (.punct mark)) tokens) := by
  rw [nestingFrom, if_neg (by simp), decide_eq_false (by simp)]

/-- What follows the keyword of a lambda is its list of parameters. -/
theorem nestingFrom_lambda : nestingFrom afterLambda brackets (.keyword .lambda :: tokens) =
    max (brackets.count true) (nestingFrom true brackets tokens) := by
  rw [nestingFrom, if_neg (by simp), decide_eq_true rfl]
  rfl

/-- A bracket opens one more, whichever it is, unless it stands after the word `lambda`. -/
theorem bracketsAfter_opener (afterLambda : Bool) (brackets : List Bool)
    (pair : opener.closer? = some closer) : ∃ counts,
      bracketsAfter afterLambda brackets (.punct opener) = counts :: brackets ∧
        (afterLambda = false → counts = true) := by
  cases opener <;> cases pair
  · exact ⟨!afterLambda, rfl, fun same => by rw [same]; rfl⟩
  · exact ⟨true, rfl, fun _ => rfl⟩
  · exact ⟨true, rfl, fun _ => rfl⟩

/-- A bracket that closes, whichever it is, leaves one open less. -/
theorem bracketsAfter_closer (pair : opener.closer? = some closer) :
    bracketsAfter afterLambda brackets (.punct closer) = brackets.tail := by
  cases opener <;> cases pair <;> rfl

/-! ## Brackets that match -/

/-- Whether a token is neither a bracket nor the word before parameters, nor the end. -/
def isFlat : Token → Bool
  | .punct .leftBracket | .punct .leftParen | .punct .leftAngle => false
  | .punct .rightBracket | .punct .rightParen | .punct .rightAngle => false
  | .keyword .lambda | .endOfInput => false
  | _ => true

/-- A token that is no bracket opens and closes none. -/
theorem bracketsAfter_flat (flat : token.isFlat = true) :
    bracketsAfter afterLambda brackets token = brackets := by
  cases token with
  | punct mark => cases mark <;> first | rfl | cases flat
  | _ => rfl

/-- A token that is no bracket leaves what nests where it is. -/
theorem nestingFrom_cons_flat (flat : token.isFlat = true) :
    nestingFrom afterLambda brackets (token :: tokens) =
      max (brackets.count true) (nestingFrom false brackets tokens) := by
  have going : token ≠ .endOfInput := by
    rintro rfl
    cases flat
  have plain : token ≠ .keyword .lambda := by
    rintro rfl
    cases flat
  rw [nestingFrom, if_neg going, decide_eq_false plain, bracketsAfter_flat flat]

/-- Tokens whose brackets match, with so many brackets inside each other.  The parameters of a
definition stand in a pair of parentheses that does not count. -/
inductive Brackets : (levels : Nat) → List Token → Prop
  | nil : Brackets 0 []
  | flat {token : Token} (flat : token.isFlat = true) : Brackets 0 [token]
  | append {levels more : Nat} {tokens others : List Token} :
      Brackets levels tokens → Brackets more others → Brackets (max levels more) (tokens ++ others)
  | enclose {levels : Nat} {opener closer : Punct} {inner : List Token}
      (pair : opener.closer? = some closer) :
      Brackets levels inner → Brackets (levels + 1) (.punct opener :: (inner ++ [.punct closer]))
  | lambda {levels : Nat} {parameters body : List Token}
      (flat : ∀ token ∈ parameters, token.isFlat = true) :
      Brackets levels body → Brackets (levels + 1)
        (.punct .leftParen :: .keyword .lambda :: .punct .leftParen ::
          (parameters ++ .punct .rightParen :: (body ++ [.punct .rightParen])))

/-- Tokens that are no brackets add nothing. -/
theorem Brackets.of_flat (flat : ∀ token ∈ tokens, token.isFlat = true) : Brackets 0 tokens := by
  induction tokens with
  | nil => exact .nil
  | cons token tokens ih =>
      obtain ⟨here, others⟩ := List.forall_mem_cons.mp flat
      exact .append (.flat here) (ih others)

/-- Tokens that are no brackets nest no deeper than what is open around them. -/
theorem nestingFrom_flat (flat : ∀ token ∈ tokens, token.isFlat = true) :
    nestingFrom false brackets (tokens ++ rest) =
      max (brackets.count true) (nestingFrom false brackets rest) := by
  induction tokens with
  | nil => exact (Nat.max_eq_right count_le_nestingFrom).symm
  | cons token tokens ih =>
      obtain ⟨here, others⟩ := List.forall_mem_cons.mp flat
      rw [List.cons_append, nestingFrom_cons_flat here, ih others, ← Nat.max_assoc, Nat.max_self]

/-- Where brackets match, what has been open before them is open after them, and in between as many
more as they have levels. -/
theorem Brackets.nestingFrom_append (matched : Brackets levels tokens) (brackets : List Bool)
    (rest : List Token) : nestingFrom false brackets (tokens ++ rest) =
      max (brackets.count true + levels) (nestingFrom false brackets rest) := by
  induction matched generalizing brackets rest with
  | nil => exact (Nat.max_eq_right count_le_nestingFrom).symm
  | flat flat =>
      rw [nestingFrom_flat (by simpa using flat), Nat.add_zero]
  | append _ _ first second =>
      rw [List.append_assoc, first, second]
      omega
  | @enclose levels opener closer inner pair _ ih =>
      have shallower : brackets.count true ≤ nestingFrom false brackets rest := count_le_nestingFrom
      obtain ⟨counts, opened, counted⟩ :=
        bracketsAfter_opener false brackets pair
      obtain rfl := counted rfl
      rw [List.cons_append, List.append_assoc, nestingFrom_punct, opened, ih, List.singleton_append,
        nestingFrom_punct, bracketsAfter_closer pair, List.tail_cons, List.count_cons_self]
      omega
  | @lambda levels parameters body flat _ ih =>
      have shallower : brackets.count true ≤ nestingFrom false brackets rest := count_le_nestingFrom
      simp only [List.cons_append, List.append_assoc, List.nil_append, nestingFrom_punct,
        nestingFrom_lambda, nestingFrom_flat flat, ih, bracketsAfter, List.tail_cons,
        Bool.not_false, Bool.not_true, List.count_cons_self,
        List.count_cons_of_ne (Bool.false_ne_true)]
      omega

/-- In tokens whose brackets match up to the end of input, as many are open at once as the tokens
have levels. -/
theorem Brackets.nesting_append (matched : Brackets levels tokens)
    (ended : rest[0]?.getD .endOfInput = .endOfInput) : nesting (tokens ++ rest) = levels := by
  rw [nesting, matched.nestingFrom_append, nestingFrom_ended ended]
  simp

/-! ## Tokens that are read back

A word that is written may be read back as a reserved one.  This makes no bracket, though it may
make one that does not count. -/

/-- A token that is no bracket opens and closes none when it is written. -/
theorem bracketsAfter_reread (flat : token.isFlat = true) :
    bracketsAfter afterLambda brackets (token.reread form) = brackets := by
  cases token with
  | ident word =>
      simp only [reread]
      split <;> rfl
  | float text =>
      simp only [reread]
      split <;> rfl
  | _ => exact bracketsAfter_flat flat

/-- Tokens without brackets nest no deeper than what follows them. -/
theorem nestingFrom_reread_le_of_flat (form : Notation) (afterLambda : Bool) (brackets : List Bool)
    (rest : List Token) (flat : ∀ token ∈ tokens, token.isFlat = true) :
    ∃ before, nestingFrom afterLambda brackets (tokens.map (reread form) ++ rest) ≤
      max (brackets.count true) (nestingFrom before brackets rest) := by
  induction tokens generalizing afterLambda with
  | nil => exact ⟨afterLambda, Nat.le_max_right _ _⟩
  | cons token tokens ih =>
      obtain ⟨here, others⟩ := List.forall_mem_cons.mp flat
      obtain ⟨before, bounded⟩ := ih (token.reread form = .keyword .lambda) others
      refine ⟨before, ?_⟩
      rw [List.map_cons, List.cons_append, nestingFrom, bracketsAfter_reread here]
      split <;> omega

/-- Read back, tokens whose brackets match add at most the levels that they have, whether or not a
word before them has become reserved. -/
theorem Brackets.nestingFrom_reread_le (matched : Brackets levels tokens) (form : Notation)
    (afterLambda : Bool) (brackets : List Bool) (rest : List Token) :
    ∃ before, nestingFrom afterLambda brackets (tokens.map (reread form) ++ rest) ≤
      max (brackets.count true + levels) (nestingFrom before brackets rest) := by
  -- The induction is on how the brackets match; what comes before and after is arbitrary.
  induction matched generalizing afterLambda brackets rest with
  | nil => exact ⟨afterLambda, Nat.le_max_right _ _⟩
  | flat flat => exact nestingFrom_reread_le_of_flat _ _ _ _ (by simpa using flat)
  | @append levels more tokens others _ _ first second =>
      obtain ⟨middle, bounded⟩ := first afterLambda brackets (others.map (reread form) ++ rest)
      obtain ⟨before, further⟩ := second middle brackets rest
      refine ⟨before, ?_⟩
      rw [List.map_append, List.append_assoc]
      omega
  | @enclose levels opener closer inner pair _ ih =>
      obtain ⟨counts, opened, -⟩ :=
        bracketsAfter_opener afterLambda brackets pair
      obtain ⟨middle, bounded⟩ := ih false (counts :: brackets) (.punct closer :: rest)
      have one : (counts :: brackets).count true ≤ brackets.count true + 1 := by
        cases counts <;> simp
      refine ⟨false, ?_⟩
      rw [nestingFrom_punct, bracketsAfter_closer pair, List.tail_cons] at bounded
      simp only [List.map_cons, List.map_append, List.map_nil, reread, List.cons_append,
        List.append_assoc, List.nil_append, nestingFrom_punct, opened]
      omega
  -- The parenthesis of the parameters closes before the body is reached, and so does not count.
  | @lambda levels parameters body flat _ ih =>
      obtain ⟨counts, opened, -⟩ := bracketsAfter_opener afterLambda brackets
        (rfl : Punct.leftParen.closer? = some .rightParen)
      have one : (counts :: brackets).count true ≤ brackets.count true + 1 := by
        cases counts <;> simp
      obtain ⟨between, parametersBounded⟩ := nestingFrom_reread_le_of_flat form false
        (false :: counts :: brackets)
        (.punct .rightParen :: (body.map (reread form) ++ .punct .rightParen :: rest)) flat
      obtain ⟨middle, bounded⟩ := ih false (counts :: brackets) (.punct .rightParen :: rest)
      refine ⟨false, ?_⟩
      simp only [nestingFrom_punct, bracketsAfter, List.tail_cons,
        List.count_cons_of_ne Bool.false_ne_true] at bounded parametersBounded
      simp only [List.map_cons, List.map_append, List.map_nil, reread, List.cons_append,
        List.append_assoc, List.nil_append, nestingFrom_punct, nestingFrom_lambda, opened]
      simp only [bracketsAfter, Bool.not_true]
      omega

/-- Tokens whose brackets match nest no deeper than these do. -/
theorem Brackets.nesting_reread_le (matched : Brackets levels tokens) :
    nesting (tokens.map (reread form)) ≤ levels := by
  obtain ⟨before, bounded⟩ := matched.nestingFrom_reread_le form false [] []
  rw [List.append_nil] at bounded
  simpa [nesting, nestingFrom] using bounded

end Token

end ConceptualGraph
