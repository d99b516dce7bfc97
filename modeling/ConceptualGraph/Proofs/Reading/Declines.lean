/-
Module: ConceptualGraph.Proofs.Reading.Declines
Purpose: Productions that find nothing to read leave everything as it is.
Main exports: Declines, Read.firstOf_outcome, Read.items_declines
-/
import ConceptualGraph.Proofs.Reading.Steps
import ConceptualGraph.Reading.Nesting

namespace ConceptualGraph

/-- A production finds nothing and leaves the state as it is. -/
def Declines {α : Type} (production : Read α) (nothing : α) (reader : Reader) : Prop :=
  Achieves production reader fun value later => value = nothing ∧ later = reader

/-- What declines comes back with nothing, in the state where it began. -/
theorem Declines.ran {α : Type} {production : Read α} {nothing : α} {reader : Reader}
    (declines : Declines production nothing reader) :
    production reader = .ok nothing reader := by
  obtain ⟨_, _, ran, rfl, rfl⟩ := Achieves.exists_ok declines
  exact ran

namespace Read

variable {setting : Setting} {room : Room} {graph : GraphId} {reader : Reader}
  {others : List Token}

/-! ## Nodes -/

theorem concept_declines (apart : (reader.ahead 0).token ≠ .punct .leftBracket)
    (graph : Option GraphId) :
    Declines (concept setting room graph) none reader := by
  unfold Declines concept
  simp only [achieves_bind, achieves_peek, achieves_ahead]
  split <;> first | exact ⟨rfl, rfl⟩ | exact absurd ‹_› apart

/-- A bracket with a context label is no concept. -/
theorem concept_declines_context {label : ContextLabel}
    (starts : reader.tokens = .punct .leftBracket :: .keyword (.context label) :: others)
    (graph : Option GraphId) : Declines (concept setting room graph) none reader := by
  have second : (reader.ahead 1).token = .keyword (.context label) := by
    rw [Reader.token_ahead, starts]
    rfl
  unfold Declines concept
  simp only [achieves_bind, achieves_peek, achieves_ahead, Reader.token_ahead_zero starts, second]
  exact ⟨rfl, rfl⟩

/-- No context is read where no bracket opens. -/
theorem specialContext_declines (apart : (reader.ahead 0).token ≠ .punct .leftBracket) :
    Declines (specialContext setting room graph) none reader := by
  unfold Declines specialContext
  simp only [achieves_bind, achieves_peek, achieves_ahead]
  split <;> first | exact ⟨rfl, rfl⟩ | exact absurd ‹_› apart

/-- No negation is read where there is no tilde. -/
theorem negation_declines (apart : (reader.ahead 0).token ≠ .punct .tilde) :
    Declines (negation setting room graph) none reader := by
  unfold Declines negation
  simp only [achieves_bind, achieves_peek, achieves_ahead]
  split <;> first | exact ⟨rfl, rfl⟩ | exact absurd ‹_› apart

/-- Looking for a type of a relation changes nothing. -/
theorem relationTypeAhead_declines (places : Nat) :
    ∃ answer, Declines (relationTypeAhead places) answer reader := by
  unfold Declines relationTypeAhead
  simp only [achieves_bind, achieves_ahead]
  split
  · exact ⟨true, rfl, rfl⟩
  · simp only [lambdaAhead, achieves_bind, achieves_ahead, achieves_pure]
    exact ⟨_, rfl, trivial⟩

/-- No relation is read where no parenthesis opens one. -/
theorem relation_declines (apart : (reader.ahead 0).token ≠ .punct .leftParen)
    (graph : Option GraphId) :
    Declines (relation setting room graph) none reader := by
  obtain ⟨answer, known⟩ : ∃ answer, Declines (relationTypeAhead 1) answer reader :=
    relationTypeAhead_declines 1
  unfold Declines relation
  simp only [achieves_bind, achieves_peek, apart, decide_false, Bool.false_and]
  refine known.mono fun value later declined => ?_
  obtain ⟨-, rfl⟩ := declined
  exact ⟨rfl, rfl⟩

/-- No actor is read where no angle opens. -/
theorem actor_declines (apart : (reader.ahead 0).token ≠ .punct .leftAngle)
    (graph : Option GraphId) :
    Declines (actor setting room graph) none reader := by
  unfold Declines actor
  simp only [achieves_bind, achieves_peek, apart, if_false]
  exact ⟨rfl, rfl⟩

/-- No comment is read where none is ahead. -/
theorem graphComment_declines (apart : ∀ text, (reader.ahead 0).token ≠ .formalComment text) :
    Declines (graphComment graph) false reader := by
  unfold Declines graphComment
  simp only [achieves_bind, achieves_peek]
  exact ⟨rfl, rfl⟩

/-- Without a relation nothing is put into the graph. -/
theorem relationInto_declines {production : Read (Option RelationId)}
    (declines : Declines production none reader) :
    Declines (relationInto graph production) false reader := by
  unfold Declines relationInto
  rw [achieves_bind]
  refine declines.mono fun value later ⟨missing, same⟩ => ?_
  subst missing same
  exact ⟨rfl, rfl⟩

/-! ## Items -/

/-- The first production that does not decline decides. -/
theorem firstOf_outcome {possible : Prop} (front : List (Read Bool)) {production : Read Bool}
    {back : List (Read Bool)} {post : Reader → Prop}
    (declines : ∀ other ∈ front, Declines other false reader)
    (outcome : Outcome possible production reader fun found later => found = true ∧ post later) :
    Outcome possible (firstOf (front ++ production :: back)) reader
      fun found later => found = true ∧ post later := by
  induction front with
  | nil =>
      rw [List.nil_append, firstOf]
      refine outcome.before fun found later _ facts => ?_
      obtain ⟨rfl, holds⟩ := facts
      exact ⟨rfl, holds⟩
  | cons other front ih =>
      rw [List.cons_append, firstOf]
      refine Outcome.after (declines other (List.mem_cons_self ..)) fun found later ⟨no, same⟩ => ?_
      subst no same
      exact ih fun production member => declines production (List.mem_cons_of_mem _ member)

/-- Where all alternatives decline, so does the first of them that would be taken. -/
theorem firstOf_declines {productions : List (Read Bool)}
    (declines : ∀ other ∈ productions, Declines other false reader) :
    Declines (firstOf productions) false reader := by
  induction productions with
  | nil => exact ⟨rfl, rfl⟩
  | cons other productions ih =>
      unfold Declines firstOf
      rw [achieves_bind]
      refine (declines other (List.mem_cons_self ..)).mono fun found later ⟨no, same⟩ => ?_
      subst no same
      exact ih fun production member => declines production (List.mem_cons_of_mem _ member)

/-- Whether no item and no statement begins with a token. -/
structure EndsItems (token : Token) : Prop where
  item : startsItem token = false
  label : ∀ label, token ≠ .boundLabel label

/-- Where the items end, no mark that begins one is ahead. -/
theorem EndsItems.ne_mark {mark : Punct} (ends : EndsItems (reader.ahead 0).token)
    (starts : startsItem (.punct mark) = true) : (reader.ahead 0).token ≠ .punct mark := by
  intro same
  have item := ends.item
  rw [same, starts] at item
  cases item

/-- Where the items end, no comment is ahead. -/
theorem EndsItems.ne_comment (ends : EndsItems (reader.ahead 0).token) (text : String) :
    (reader.ahead 0).token ≠ .formalComment text := by
  intro same
  have item := ends.item
  rw [same] at item
  cases item

/-- No item is read where the items end. -/
theorem bracketItems_declines (ends : EndsItems (reader.ahead 0).token) (count : Nat) :
    Declines (bracketItems setting room graph count) () reader := by
  cases count with
  | zero => exact ⟨rfl, rfl⟩
  | succ count =>
      have nothing : Declines (firstOf (bracketProductions setting room graph)) false reader := by
        refine firstOf_declines fun production member => ?_
        simp only [bracketProductions, List.mem_cons, List.not_mem_nil, or_false] at member
        rcases member with rfl | rfl | rfl | rfl | rfl | rfl
        · unfold Declines
          rw [achieves_bind]
          refine (concept_declines (ends.ne_mark rfl) _).mono fun found later ⟨no, same⟩ => ?_
          subst no same
          exact ⟨rfl, rfl⟩
        · unfold Declines
          rw [achieves_bind]
          refine (specialContext_declines (ends.ne_mark rfl)).mono fun found later ⟨no, same⟩ => ?_
          subst no same
          exact ⟨rfl, rfl⟩
        · exact relationInto_declines (negation_declines (ends.ne_mark rfl))
        · exact relationInto_declines (relation_declines (ends.ne_mark rfl) _)
        · exact relationInto_declines (actor_declines (ends.ne_mark rfl) _)
        · exact graphComment_declines ends.ne_comment
      unfold Declines bracketItems
      rw [achieves_bind]
      refine nothing.mono fun found later ⟨no, same⟩ => ?_
      subst no same
      exact ⟨rfl, rfl⟩

/-- No statement is read where the statements end. -/
theorem statement_declines (ends : EndsItems (reader.ahead 0).token) :
    Declines (statement setting room graph) false reader := by
  unfold Declines statement
  simp only [achieves_bind, achieves_peek]
  split
  · next found => exact absurd found (ends.ne_mark rfl)
  · next label found => exact absurd found (ends.label label)
  · next found => exact absurd found (ends.ne_mark rfl)
  · next found => exact absurd found (ends.ne_mark rfl)
  · next found => exact absurd found (ends.ne_mark rfl)
  · exact ⟨rfl, rfl⟩

/-- No statement is read where the statements end. -/
theorem statements_declines (ends : EndsItems (reader.ahead 0).token) (count : Nat) :
    Declines (statements setting room graph count) () reader := by
  cases count with
  | zero => exact ⟨rfl, rfl⟩
  | succ count =>
      unfold Declines statements
      rw [achieves_bind]
      refine (graphComment_declines ends.ne_comment).mono fun found later ⟨no, same⟩ => ?_
      subst no same
      rw [if_neg (by decide), achieves_bind]
      refine (statement_declines ends).mono fun found later ⟨no, same⟩ => ?_
      subst no same
      exact ⟨rfl, rfl⟩

/-- Where no item begins, a graph has none. -/
theorem items_declines (ends : EndsItems (reader.ahead 0).token) :
    Declines (items setting room graph) () reader := by
  unfold Declines items
  rw [achieves_bind, achieves_get]
  cases setting.form with
  | cgif => exact bracketItems_declines ends _
  | linear => exact statements_declines ends _

end Read

end ConceptualGraph
