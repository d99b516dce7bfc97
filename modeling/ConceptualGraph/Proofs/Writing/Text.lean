/-
Module: ConceptualGraph.Proofs.Writing.Text
Purpose: The text that is written for a graph is scanned into the tokens that are written.
Main exports: Write.words_bracketGraph, Write.words_linearGraph, Write.words_graphItems,
  Write.scanned_items
-/
import ConceptualGraph.Proofs.Writing.Graph
import ConceptualGraph.Proofs.Writing.Legible

namespace ConceptualGraph.Write

open Phrase (mark ofToken space)

variable {model : Model} {source form : Notation} {inner : Inner} {plan : Plan}

/-! ## The interchange form -/

section Bracket

/-- An argument is legible wherever no word goes on after it. -/
theorem words_argument (legible : model.Legible source form)
    (clear : ∀ graph, Words (inner graph) fun items => ∀ item ∈ items, item.Clear form)
    (concept : ConceptId) :
    Words (argument model inner plan concept) fun argument => argument.phrase.Clear form := by
  unfold argument isEmitted
  refine .get fun writer => .ite ?_ ?_
  · exact (words_reference concept).bind fun _ legible => .pure legible
  · exact (words_firstEmission legible clear plan concept).bind fun _ legible =>
      .pure legible

theorem words_arguments (legible : model.Legible source form)
    (clear : ∀ graph, Words (inner graph) fun items => ∀ item ∈ items, item.Clear form)
    (inlined : Option ConceptId) (args : List ConceptId) :
    Words (arguments model inner plan inlined args) fun args =>
      ∀ argument ∈ args, argument.phrase.Clear form := by
  have each :
    ∀ args, Words (concat (fun concept => return [← argument model inner plan concept]) args)
      fun args => ∀ argument ∈ args, argument.phrase.Clear form := fun args =>
    maintains_concat fun concept _ => (words_argument legible clear concept).bind fun _ legible =>
      .pure (by simpa using legible)
  cases args with
  | nil => exact .pure (by simp)
  | cons first others =>
      unfold arguments
      have both : ∀ written : List Argument, (∀ argument ∈ written, argument.phrase.Clear form) →
          Words (do
            let rest ← concat (fun concept => return [← argument model inner plan concept]) others
            return written ++ rest) fun args => ∀ argument ∈ args, argument.phrase.Clear form :=
        fun written legible => (each others).bind fun rest more =>
          .pure fun argument member => (List.mem_append.mp member).elim (legible argument)
            (more argument)
      refine .ite ?_ ((each [first]).bind both)
      refine (words_emitConcept legible clear (by simp)).bind fun phrase legible => ?_
      exact both _ (by simpa using legible)

/-- The relations that a relation draws along are clear one by one. -/
theorem words_relationItems (legible : model.Legible source form)
    (clear : ∀ graph, Words (inner graph) fun items => ∀ item ∈ items, item.Clear form)
    (steps : Nat) (inlined : Option ConceptId) (relation : RelationId) :
    Words (relationItems model inner plan steps inlined relation) fun items =>
      ∀ item ∈ items, item.Clear form := by
  induction steps generalizing inlined relation with
  | zero => exact .pure (by simp)
  | succ steps ih =>
      unfold relationItems
      refine .get fun writer => .ite (.pure (by simp)) ?_
      refine (words_markWritten trivial relation : Words _ fun _ => True).bind fun _ _ =>
        (words_relationType legible relation).bind fun type named =>
          (words_arguments legible clear inlined _).bind fun args readable => ?_
      refine Maintains.bind (?_ : Words _ fun items => ∀ item ∈ items, item.Clear form)
        fun following more => .pure ?_
      · refine maintains_concat fun concept _ => ?_
        refine .bind
          (.get fun writer => .pure trivial : Words _ fun _ => True) fun relations _ => ?_
        exact maintains_concat fun relation _ => ih none relation
      · obtain ⟨label, worded, rfl⟩ := named
        refine List.forall_mem_cons.mpr ⟨?_, more⟩
        have split : relationPhrase model relation (ofToken (.ident label)) args =
            mark .leftParen ++ (ofToken (.ident label) ++
              (args.flatMap (fun argument => space ++ argument.phrase) ++
                Phrase.closing .relation (model.relation relation).comment)) := by
          simp [relationPhrase, Phrase.closing, NodeKind.closer]
        rw [split]
        exact clear_bracketed (.inl rfl) worded
          (Phrase.trails_flatMap fun argument member => (readable argument member).spaced)
          fun text spoken => legible.sound.isNodeComment_relation spoken

theorem words_conceptItems (legible : model.Legible source form)
    (clear : ∀ graph, Words (inner graph) fun items => ∀ item ∈ items, item.Clear form)
    (concept : ConceptId) :
    Words (conceptItems model inner plan concept) fun items => ∀ item ∈ items, item.Clear form := by
  unfold conceptItems isEmitted
  refine .get fun _ => .ite (.pure (by simp)) ?_
  refine (words_openLabel concept _).bind fun label word => ?_
  refine .bind (.get fun _ => .pure trivial : Words _ fun _ => True) fun primaries _ => ?_
  have separate : Words (do
      let item ← emitConcept model inner concept label
      return item :: (← concat (relationItems model inner plan (relationSteps model) none)
        primaries)) fun items => ∀ item ∈ items, item.Clear form := by
    refine (words_emitConcept legible clear word).bind fun item first => ?_
    refine (maintains_concat fun relation _ =>
      words_relationItems legible clear (relationSteps model) none relation).bind
        fun others rest => .pure (List.forall_mem_cons.mpr ⟨first, rest⟩)
  split
  · exact words_relationItems legible clear _ _ _
  · exact separate

/-- What a relation that is left writes is clear item by item. -/
theorem words_remainingItems (legible : model.Legible source form)
    (clear : ∀ graph, Words (inner graph) fun items => ∀ item ∈ items, item.Clear form)
    (relation : RelationId) :
    Words (remainingItems model inner plan relation) fun items =>
      ∀ item ∈ items, item.Clear form := by
  unfold remainingItems
  refine .get fun _ => .ite (.pure (by simp)) (.ite ?_ (.ite ?_ ?_))
  · exact (words_negation clear relation).bind fun _ legible => .pure (by simpa using legible)
  · exact (words_actor legible relation).bind fun _ legible => .pure (by simpa using legible)
  · exact words_relationItems legible clear _ _ _

theorem words_bracketGraph (legible : model.Legible source form)
    (clear : ∀ graph, Words (inner graph) fun items => ∀ item ∈ items, item.Clear form)
    (graph : GraphId) :
    Words (bracketGraph model inner graph) fun items => ∀ item ∈ items, item.Clear form := by
  unfold bracketGraph
  refine (maintains_concat fun concept _ => words_conceptItems legible clear concept).bind
    fun concepts first => ?_
  refine (maintains_concat fun relation _ => words_remainingItems legible clear relation).bind
    fun relations second => .pure fun item member => ?_
  rcases List.mem_append.mp member with before | after
  · exact (List.mem_append.mp before).elim (clear_comments legible graph item) (first item)
  · exact second item after

end Bracket

/-! ## The linear form -/

section Linear

variable {target : ToTarget} {graph : GraphId}

/-- A clear phrase after an arrow. -/
theorem trails_arrow {phrase : Phrase} (clear : phrase.Clear .linear) :
    (space ++ mark .rightArrow ++ space ++ phrase).Trails .linear := by
  have arrow : (mark .rightArrow).Clear .linear := fun _ _ _ => ⟨rfl, trivial, trivial⟩
  simpa only [List.append_assoc] using (arrow.append clear.spaced).spaced

/-- The indent of a line is blank. -/
theorem isBlank_indent (depth : Nat) :
    ∀ char ∈ ("\n" ++ String.join (List.replicate depth "    ")).toList,
      Text.isBlank char = true := by
  intro char member
  have shape : char = '\n' ∨ depth ≠ 0 ∧ char = ' ' := by simpa using member
  rcases shape with rfl | ⟨_, rfl⟩ <;> decide

/-- Whether a phrase begins on another line. -/
def Breaks (phrase : Phrase) : Prop :=
  phrase.chars.head? = some '\n'

theorem breaks_line (place : Place) (phrase : Phrase) : Breaks (place.line ++ phrase) := by
  simp [Breaks, Place.line, Piece.text, String.toList_append]

/-- A clear phrase on a line of its own. -/
theorem trails_line (place : Place) {phrase : Phrase} (clear : phrase.Clear .linear) :
    (place.line ++ phrase).Trails .linear where
  clear sign rest next := ⟨isBlank_indent place.depth, clear sign rest next⟩
  delimits rest _ := by
    simp only [Place.line, List.cons_append, List.nil_append, Phrase.chars_cons, Piece.text,
      String.toList_append]
    exact delimits_cons (by decide) _

/-- The branches of a fan between a hyphen and the mark that closes the fan. -/
theorem trails_fan (place : Place) {branches : Phrase} (trails : branches.Trails .linear)
    (breaks : Breaks branches) : (mark .hyphen ++ branches ++ place.closing).Trails .linear := by
  have closes : (place.closing).Trails .linear := by
    unfold Place.closing
    split
    · exact ⟨fun _ _ _ => ⟨trivial, trivial, trivial⟩, fun rest _ => delimits_cons (by decide) _⟩
    · exact Phrase.trails_nil
  rw [List.append_assoc]
  refine ⟨fun sign rest next =>
    ⟨rfl, fun char first => ?_, (trails.append closes).clear _ rest next⟩,
    fun rest _ => delimits_cons (by decide) _⟩
  have newline : (Phrase.chars (branches ++ place.closing) ++ rest).head? = some '\n' := by
    rw [Phrase.chars_append, List.append_assoc, List.head?_append, breaks]
    rfl
  obtain rfl : '\n' = char := Option.some.inj (newline.symm.trans first)
  decide

theorem words_relationNode (legible : model.Legible source form) (relation : RelationId) :
    Words (relationNode model inner relation) (Phrase.Clear form) := by
  unfold relationNode
  refine (words_relationType legible relation).bind fun type named => .pure ?_
  obtain ⟨label, worded, rfl⟩ := named
  have split : mark .leftParen ++ ofToken (.ident label) ++
      comment .relation (model.relation relation).comment ++ mark .rightParen =
        mark .leftParen ++ (ofToken (.ident label) ++ ([] ++
          Phrase.closing .relation (model.relation relation).comment)) := by
    simp [Phrase.closing, NodeKind.closer]
  rw [split]
  exact clear_bracketed (.inl rfl) worded Phrase.trails_nil
    fun text spoken => legible.sound.isNodeComment_relation spoken

/-- What comes after the first argument may also follow a word, where there are at most two
arguments. -/
theorem words_laterArgs
    (targets : ∀ place concept, Words (target place concept) (Phrase.Clear .linear))
    (place : Place) {args : List ConceptId} (few : args.length ≤ 2) :
    Words (laterArgs target place args) (Phrase.Trails .linear) := by
  match args with
  | [] | [_] => exact .pure Phrase.trails_nil
  | [_, concept] =>
      exact (targets place concept).bind fun _ clear => .pure (trails_arrow clear)
  | _ :: _ :: _ :: _ => exact absurd few (by simp)

/-- A binary relation with its arguments is legible in linear form wherever no word goes on after
it. -/
theorem words_relationWithArgs (legible : model.Legible source .linear) (binary : model.Binary)
    (targets : ∀ place concept, Words (target place concept) (Phrase.Clear .linear)) (place : Place)
    {relation : RelationId} (passive : (model.relation relation).role = .relation) :
    Words (relationWithArgs model inner target place relation) (Phrase.Clear .linear) := by
  unfold relationWithArgs
  refine (words_markWritten trivial relation : Words _ fun _ => True).bind fun _ _ =>
    (words_relationNode legible relation).bind fun node clear =>
      (words_laterArgs targets place (binary.length_le passive)).bind fun later trails => .pure ?_
  exact clear.append trails

theorem words_link (legible : model.Legible source .linear) (binary : model.Binary)
    (targets : ∀ place concept, Words (target place concept) (Phrase.Clear .linear)) (place : Place)
    {relation : RelationId} (passive : (model.relation relation).role = .relation) :
    Words (link model inner target place relation) (Phrase.Trails .linear) :=
  (words_relationWithArgs legible binary targets place passive).bind fun _ clear =>
    .pure (trails_arrow clear)

/-- Branches stand on lines of their own. -/
theorem words_branches (legible : model.Legible source .linear) (binary : model.Binary)
    (targets : ∀ place concept, Words (target place concept) (Phrase.Clear .linear)) (place : Place)
    {relations : List RelationId}
    (passive : ∀ relation ∈ relations, (model.relation relation).role = .relation) :
    Words (concat (branch model inner target place) relations) fun branches =>
      Phrase.Trails .linear branches ∧ (relations ≠ [] → Breaks branches) := by
  induction relations with
  | nil => exact .pure ⟨Phrase.trails_nil, fun some => absurd rfl some⟩
  | cons relation others ih =>
      unfold concat branch
      simp only [bind_assoc, pure_bind]
      refine (words_relationWithArgs legible binary targets place
        (passive relation (List.mem_cons_self ..))).bind fun phrase clear => ?_
      refine (ih fun other member => passive other (List.mem_cons_of_mem _ member)).bind
        fun rest facts => .pure ⟨(trails_line place clear).append facts.1, fun _ => ?_⟩
      rw [List.append_assoc]
      exact breaks_line place _

/-- The links of a chain trail off as what may be followed by anything. -/
theorem words_chainLinks (legible : model.Legible source .linear) (binary : model.Binary)
    (targets : ∀ place concept, Words (target place concept) (Phrase.Clear .linear)) (place : Place)
    (head : ConceptId) :
    Words (chainLinks model inner (Plan.ofGraph model graph) target place head)
      (Phrase.Trails .linear) := by
  unfold chainLinks unwritten
  simp only [bind_assoc, pure_bind]
  refine .get fun writer => ?_
  have passive : ∀ relation ∈ ((Plan.ofGraph model graph).primary head).filter
      fun relation => !writer.written.contains relation,
      (model.relation relation).role = .relation := fun relation member =>
    (Plan.mem_primary.mp (List.mem_of_mem_filter member)).2.1
  generalize ((Plan.ofGraph model graph).primary head).filter
    (fun relation => !writer.written.contains relation) = relations at passive ⊢
  match relations with
  | [] => exact .pure Phrase.trails_nil
  | [only] => exact words_link legible binary targets place (passive only (by simp))
  | _ :: _ :: _ =>
      exact (words_branches legible binary targets place.branch passive).bind
        fun branches facts => .pure (trails_fan place facts.1 (facts.2 (List.cons_ne_nil _ _)))

theorem words_chainTarget (legible : model.Legible source .linear) (binary : model.Binary)
    (clear : ∀ graph, Words (inner graph) fun items => ∀ item ∈ items, item.Clear .linear)
    (steps : Nat) (place : Place) (concept : ConceptId) :
    Words (chainTarget model inner (Plan.ofGraph model graph) steps place concept)
      (Phrase.Clear .linear) := by
  induction steps generalizing place concept with
  | zero => exact words_reference concept
  | succ steps ih =>
      unfold chainTarget isEmitted
      refine .get fun writer => .ite (words_reference concept) ?_
      exact (words_firstEmission legible clear _ concept).bind fun phrase clear =>
        (words_chainLinks legible binary ih place concept).bind fun links trails =>
          .pure (clear.append trails)

/-- A clear phrase before a dot. -/
theorem clear_statement {phrase : Phrase} (clear : phrase.Clear .linear) :
    (statement phrase).Clear .linear :=
  clear.append ⟨fun _ _ _ => ⟨trivial, trivial, trivial⟩, fun _ _ => delimits_cons (by decide) _⟩

/-- What a concept states is clear item by item. -/
theorem words_conceptStatement (legible : model.Legible source .linear) (binary : model.Binary)
    (clear : ∀ graph, Words (inner graph) fun items => ∀ item ∈ items, item.Clear .linear)
    (concept : ConceptId) :
    Words (conceptStatement model inner (Plan.ofGraph model graph) concept) fun items =>
      ∀ item ∈ items, item.Clear .linear := by
  unfold conceptStatement isEmitted
  refine .get fun writer => .ite (.pure (by simp)) ?_
  exact (words_firstEmission legible clear _ concept).bind fun phrase readable =>
    (words_chainLinks legible binary (words_chainTarget legible binary clear _) {} concept).bind
      fun links trails => .pure (by simpa using clear_statement (readable.append trails))

theorem words_relationFrom (legible : model.Legible source .linear) (binary : model.Binary)
    (clear : ∀ graph, Words (inner graph) fun items => ∀ item ∈ items, item.Clear .linear)
    {relation : RelationId} (passive : (model.relation relation).role = .relation) :
    Words (relationFrom model inner (Plan.ofGraph model graph) relation)
      (Phrase.Clear .linear) := by
  unfold relationFrom isEmitted
  split
  · exact (words_markWritten trivial relation : Words _ fun _ => True).bind fun _ _ =>
      words_relationNode legible relation
  · next head _ _ =>
      have linked : ∀ first : Phrase, first.Clear .linear → Words (do
          return first ++ (← link model inner (anyTarget model inner (Plan.ofGraph model graph)) {}
            relation)) (Phrase.Clear .linear) := fun first readable =>
        (words_link legible binary (words_chainTarget legible binary clear _) {} passive).bind
          fun links trails => .pure (readable.append trails)
      exact .get fun writer => .ite ((words_reference head).bind linked)
        ((words_firstEmission legible clear _ head).bind linked)

/-- What is left is stated as a context, an actor, a negation or a chain. -/
theorem words_remainingStatement (legible : model.Legible source .linear) (binary : model.Binary)
    (clear : ∀ graph, Words (inner graph) fun items => ∀ item ∈ items, item.Clear .linear)
    (relation : RelationId) :
    Words (remainingStatement model inner (Plan.ofGraph model graph) relation) fun items =>
      ∀ item ∈ items, item.Clear .linear := by
  have stated : ∀ {step : Write Phrase}, Words step (Phrase.Clear .linear) →
      Words (do return [statement (← step)]) fun items => ∀ item ∈ items, item.Clear .linear :=
    fun words => words.bind fun _ clear => .pure (by simpa using clear_statement clear)
  unfold remainingStatement
  refine .get fun writer =>
    .ite (.pure (by simp)) (.ite (stated (words_negation clear relation)) ?_)
  split
  · exact stated (words_actor legible relation)
  · next passive =>
      exact stated (words_relationFrom legible binary clear
        (Plan.isActor_eq_false.mp (Bool.eq_false_iff.mpr passive)))

theorem words_linearGraph (legible : model.Legible source .linear) (binary : model.Binary)
    (clear : ∀ graph, Words (inner graph) fun items => ∀ item ∈ items, item.Clear .linear)
    (graph : GraphId) :
    Words (linearGraph model inner graph) fun items => ∀ item ∈ items, item.Clear .linear := by
  unfold linearGraph
  refine (maintains_concat fun concept _ =>
    words_conceptStatement legible binary clear concept).bind
    fun concepts first => ?_
  refine (maintains_concat fun relation _ =>
    words_remainingStatement legible binary clear relation).bind
      fun relations second => .pure fun item member => ?_
  rcases List.mem_append.mp member with before | after
  · exact (List.mem_append.mp before).elim (clear_comments legible graph item) (first item)
  · exact second item after

end Linear

/-! ## Whole graphs -/

/-- All items of a graph are clear, with the graphs nested in it. -/
theorem words_graphItems (legible : model.Legible source form)
    (binary : form = .linear → model.Binary) (levels : Nat) (graph : GraphId) :
    Words (graphItems model form levels graph) fun items => ∀ item ∈ items, item.Clear form := by
  induction levels generalizing graph with
  | zero => exact .pure (by simp)
  | succ levels ih =>
      cases form with
      | cgif => exact words_bracketGraph legible ih graph
      | linear => exact words_linearGraph legible (binary rfl) ih graph

theorem worded_start : start.Worded :=
  ⟨fun _ member => absurd member List.not_mem_nil, fun _ member => absurd member List.not_mem_nil,
    fun _ member => absurd member List.not_mem_nil⟩

/-- The text of a graph is scanned into the tokens with which it is written. -/
theorem scanned_items (legible : model.Legible source form)
    (binary : form = .linear → model.Binary) {graph : GraphId} {written : List Phrase}
    {after : Writer} (wrote : items model form graph start = .ok written after) : ∃ located stop,
      Scan.ofText form (Phrase.join "\n" written).text = ⟨located, .ok stop⟩ ∧
        located.map Located.token =
          (Phrase.join "\n" written).tokens.map (Token.reread form) := by
  have clear := ((words_graphItems legible binary _ graph _ worded_start).of_ok wrote).2
  exact (Phrase.clear_lines clear false [] nofun).ofText

end ConceptualGraph.Write
