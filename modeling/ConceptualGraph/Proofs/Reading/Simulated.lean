/-
Module: ConceptualGraph.Proofs.Reading.Simulated
Purpose: A reading that counts the brackets that are open, and one that takes them from the room
  that is left, compared step by step.
Main exports: Read.Simulates, Read.Simulates.bind, Read.Matches, Read.Admits,
  Read.Simulates.descend, Read.Simulates.ascend
-/
import ConceptualGraph.Proofs.Reading.Steps

namespace ConceptualGraph

namespace Read

variable {α β : Type} {step step' other other' : Read α} {next next' : α → Read β}
  {depth before between after : Nat}

/-! ## Two readings side by side -/

/-- A step that counts does what another one does that does not.  With `before` brackets open it
gives the same result, and then `after` brackets are open, or it fails in the same way. -/
def Simulates (before after : Nat) (step step' : Read α) : Prop :=
  ∀ reader, match step reader with
    | .ok value later => step' (reader.atDepth before) = .ok value (later.atDepth after)
    | .error error later => ∃ last,
        step' (reader.atDepth before) = .error error (later.atDepth last)

namespace Simulates

variable {reader later : Reader}

theorem of_ok (simulates : Simulates before after step step') {value : α}
    (ran : step reader = .ok value later) :
    step' (reader.atDepth before) = .ok value (later.atDepth after) := by
  simpa [ran] using simulates reader

theorem of_error (simulates : Simulates before after step step') {error : Error}
    (failed : step reader = .error error later) :
    ∃ last, step' (reader.atDepth before) = .error error (later.atDepth last) := by
  simpa [failed] using simulates reader

/-- Two steps in a row are simulated with the depth that the first has come to. -/
theorem bind (first : Simulates before between step step')
    (others : ∀ value, Simulates between after (next value) (next' value)) :
    Simulates before after (step >>= next) (step' >>= next') := by
  intro reader
  cases ran : step reader with
  | error error later =>
      obtain ⟨last, failed⟩ := first.of_error ran
      rw [bind_of_error ran]
      exact ⟨last, bind_of_error failed⟩
  | ok value later =>
      rw [bind_of_ok ran, bind_of_ok (first.of_ok ran)]
      exact others value later

theorem pure (value : α) : Simulates depth depth (pure value) (Pure.pure value) :=
  fun _ => rfl

theorem ite {condition : Prop} [Decidable condition] (yes : Simulates before after step step')
    (no : Simulates before after other other') :
    Simulates before after (if condition then step else other)
      (if condition then step' else other') := by
  split
  · exact yes
  · exact no

theorem throw (error : Error) :
    Simulates before after (throw error : Read α) (MonadExcept.throw error) :=
  fun _ => ⟨before, rfl⟩

theorem failAt (found : Located) (fault : ParseFault) :
    Simulates before after (failAt found fault : Read α) (Read.failAt found fault) :=
  throw _

theorem fail (fault : ParseFault) :
    Simulates before after (fail fault : Read α) (Read.fail fault) :=
  fun _ => ⟨before, rfl⟩

theorem get {next next' : Reader → Read β}
    (others : ∀ reader : Reader, Simulates depth after (next reader)
      (next' (reader.atDepth depth))) :
    Simulates depth after (get >>= next) (MonadState.get >>= next') :=
  fun reader => others reader reader

theorem located (places : Nat) : Simulates depth depth (located places) (Read.located places) :=
  fun _ => rfl

theorem ahead (places : Nat) : Simulates depth depth (ahead places) (Read.ahead places) :=
  fun _ => rfl

theorem peek : Simulates depth depth peek peek := ahead 0

theorem advance : Simulates depth depth advance advance := fun _ => rfl

theorem eat (token : Token) : Simulates depth depth (eat token) (Read.eat token) :=
  peek.bind fun _ => ite (advance.bind fun _ => pure _) (pure _)

theorem expect (token : Token) (what : Expected) :
    Simulates depth depth (expect token what) (Read.expect token what) :=
  (eat token).bind fun _ => ite (pure _) (fail _)

theorem model : Simulates depth depth model model := fun _ => rfl

theorem labels : Simulates depth depth labels labels := fun _ => rfl

theorem edit (change : Model → Model) : Simulates depth depth (edit change) (Read.edit change) :=
  fun _ => rfl

theorem make (change : Model → α × Model) :
    Simulates depth depth (make change) (Read.make change) :=
  fun _ => rfl

theorem bindLabel (label : String) (target : Target) :
    Simulates depth depth (bindLabel label target) (Read.bindLabel label target) :=
  fun _ => rfl

/-- A context is opened and closed on both sides. -/
theorem inContext (simulates : Simulates before after step step') :
    Simulates before after (inContext step) (Read.inContext step') := by
  intro reader
  cases ran : step (reader.withLabels reader.labels.push) with
  | ok value later =>
      have counts : step' ((reader.atDepth before).withLabels (reader.atDepth before).labels.push) =
          .ok value (later.atDepth after) := simulates.of_ok ran
      rw [inContext_of_ok ran]
      exact inContext_of_ok counts
  | error error later =>
      obtain ⟨last, failed⟩ := simulates.of_error ran
      have counts : step' ((reader.atDepth before).withLabels (reader.atDepth before).labels.push) =
          .error error (later.atDepth last) := failed
      rw [inContext_of_error ran]
      exact ⟨last, inContext_of_error counts⟩

end Simulates

/-! ## Brackets -/

/-- What is read inside a bracket with room is read inside the one that is counted. -/
structure Matches (depth : Nat) (inside inside' : Inside) : Prop where
  concept (graph : Option GraphId) :
    Simulates depth depth (inside.concept graph) (inside'.concept graph)
  lambda : Simulates depth depth inside.lambda inside'.lambda
  items (graph : GraphId) : Simulates depth depth (inside.items graph) (inside'.items graph)

/-- With `depth` brackets open the count allows one more just if there is room for it, and then the
same can be read inside. -/
def Admits (setting : Setting) (depth : Nat) (room level : Option Inside) : Prop :=
  match room with
  | none => setting.options.maxDepth ≤ depth ∨ level = none
  | some inside => depth < setting.options.maxDepth ∧
      ∃ inside', level = some inside' ∧ Matches (depth + 1) inside inside'

variable {setting : Setting} {room level : Option Inside} {inside inside' : Inside}
  {graph : GraphId} {home : Option GraphId}

/-- A bracket within the limit is counted. -/
theorem countUp_of_lt {reader : Reader} (allowed : reader.depth < setting.options.maxDepth) :
    countUp setting reader = .ok () (reader.atDepth (reader.depth + 1)) := by
  have counts : countUp setting reader =
      (if setting.options.maxDepth < reader.depth + 1 then refuseBracket setting else pure ())
        (reader.atDepth (reader.depth + 1)) := rfl
  rw [counts, if_neg (Nat.not_lt.mpr allowed)]
  rfl

/-- A bracket past the limit is refused. -/
theorem countUp_of_le {reader : Reader} (full : setting.options.maxDepth ≤ reader.depth) :
    countUp setting reader = refuseBracket setting (reader.atDepth (reader.depth + 1)) := by
  have counts : countUp setting reader =
      (if setting.options.maxDepth < reader.depth + 1 then refuseBracket setting else pure ())
        (reader.atDepth (reader.depth + 1)) := rfl
  rw [counts, if_pos (Nat.lt_succ_of_le full)]

/-- A bracket is put on the count, unless both readings refuse it. -/
theorem Simulates.descend {next next' : Inside → Read β}
    (admits : Admits setting depth room level)
    (others : ∀ inside inside', Matches (depth + 1) inside inside' →
      Simulates (depth + 1) after (next inside) (next' inside')) :
    Simulates depth after (descend setting room >>= next)
      (Read.descend setting (.counted level) >>= next') := by
  intro reader
  cases room with
  | some inside =>
      obtain ⟨allowed, inside', rfl, same⟩ := admits
      have enters : Read.descend setting (.counted (some inside')) (reader.atDepth depth) =
          .ok inside' (reader.atDepth (depth + 1)) := bind_of_ok (countUp_of_lt allowed)
      rw [bind_of_ok enters]
      exact others inside inside' same reader
  | none =>
      refine ⟨depth + 1, bind_of_error ?_⟩
      rcases Nat.lt_or_ge depth setting.options.maxDepth with allowed | full
      · obtain rfl : level = none := admits.resolve_left (Nat.not_le.mpr allowed)
        exact bind_of_ok (countUp_of_lt allowed)
      · exact bind_of_error (countUp_of_le full)

/-- A bracket is taken off the count when it closes. -/
theorem Simulates.ascend :
    Simulates (depth + 1) depth (ascend room) (Read.ascend (.counted level)) :=
  fun _ => rfl

/-- Where the bracket closes, what has been read is returned. -/
theorem Simulates.closing {result : α → β} (read : Simulates (depth + 1) (depth + 1) step step') :
    Simulates (depth + 1) depth
      (do
        let value ← step
        Read.ascend room
        return result value)
      (do
        let value ← step'
        Read.ascend (.counted level)
        return result value) :=
  read.bind fun _ => ascend.bind fun _ => pure _

/-! ## Steps without brackets

They neither look at the count nor change it. -/

theorem simulates_definingConcept? (label : String) :
    Simulates depth depth (definingConcept? label) (definingConcept? label) := by
  refine Simulates.labels.bind fun labels => ?_
  split
  · exact .pure _
  · exact Simulates.model.bind fun _ => .pure _
  · exact .pure _

/-- Joining a set is the same on both sides. -/
theorem simulates_join (found : Located) (label : String) (concept : ConceptId) :
    Simulates depth depth (join found label concept) (join found label concept) := by
  have set : Simulates depth depth (setFor found label) (setFor found label) := by
    refine Simulates.labels.bind fun labels => ?_
    split
    · exact .pure _
    · exact (Simulates.make _).bind fun _ => (Simulates.bindLabel _ _).bind fun _ => .pure _
    · exact .failAt _ _
  refine set.bind fun set => Simulates.model.bind fun model => ?_
  split
  · exact .edit _
  · exact .failAt _ _

/-- Resolving a label is the same on both sides. -/
theorem simulates_resolve (found : Located) (label : String) (home : Option GraphId) :
    Simulates depth depth (resolve found label home) (resolve found label home) := by
  refine (simulates_definingConcept? label).bind fun defining => ?_
  split
  · exact .failAt _ _
  · exact .pure _
  · next defining graph =>
    have known : Simulates depth depth (representative? label defining graph)
        (representative? label defining graph) := by
      refine Simulates.model.bind fun model =>
        .ite (.pure _) (Simulates.labels.bind fun labels => ?_)
      split
      · exact .pure _
      · exact .pure _
    refine known.bind fun known => ?_
    split
    · exact .pure _
    · exact Simulates.model.bind fun _ => (Simulates.make _).bind fun _ =>
        (Simulates.edit _).bind fun _ => (simulates_join _ _ _).bind fun _ => .pure _

theorem simulates_conceptTypeNamed (found : Located) (label : String) :
    Simulates depth depth (conceptTypeNamed setting found label)
      (conceptTypeNamed setting found label) := by
  refine Simulates.model.bind fun model => ?_
  dsimp only
  split
  · exact .pure _
  · refine .ite ?_ (.failAt _ _)
    split
    · exact (Simulates.edit _).bind fun _ => .pure _
    · exact .throw _

theorem simulates_relationTypeNamed (found : Located) (label : String) :
    Simulates depth depth (relationTypeNamed setting found label)
      (relationTypeNamed setting found label) := by
  refine Simulates.model.bind fun model => ?_
  dsimp only
  split
  · exact .pure _
  · refine .ite ?_ (.failAt _ _)
    split
    · exact (Simulates.edit _).bind fun _ => .pure _
    · exact .throw _

theorem simulates_parameter :
    Simulates depth depth (parameter setting) (parameter setting) := by
  refine Simulates.peek.bind fun token => ?_
  split
  · refine (Simulates.located 0).bind fun found => Simulates.advance.bind fun _ =>
      (simulates_conceptTypeNamed _ _).bind fun type => Simulates.peek.bind fun token => ?_
    split
    · exact (Simulates.located 0).bind fun _ => Simulates.advance.bind fun _ => .pure _
    · exact .fail _
  · exact .fail _

theorem simulates_parameters (tokens : Nat) :
    Simulates depth depth (parameters setting tokens) (parameters setting tokens) := by
  induction tokens with
  | zero => exact simulates_parameter.bind fun _ => .pure _
  | succ tokens ih =>
      exact simulates_parameter.bind fun _ => (Simulates.eat _).bind fun _ =>
        .ite (ih.bind fun _ => .pure _) (.pure _)

theorem simulates_linkParameter (body : Option GraphId) (parameter : Declared) :
    Simulates depth depth (linkParameter body parameter) (linkParameter body parameter) := by
  cases body with
  | none => exact .pure _
  | some graph =>
      refine Simulates.bind ?_ fun _ => .pure _
      refine (simulates_definingConcept? _).bind fun concept => ?_
      split
      · exact .failAt _ _
      · exact Simulates.model.bind fun _ => .ite (.failAt _ _) (.ite (.failAt _ _) (.pure _))

theorem simulates_linkParameters (body : Option GraphId) (declared : List Declared) :
    Simulates depth depth (declared.mapM (linkParameter body))
      (declared.mapM (linkParameter body)) := by
  induction declared with
  | nil => exact .pure _
  | cons parameter declared ih =>
      rw [List.mapM_cons]
      exact (simulates_linkParameter body parameter).bind fun _ => ih.bind fun _ => .pure _

theorem simulates_quantifier : Simulates depth depth quantifier quantifier := by
  refine (Simulates.eat _).bind fun _ => .ite (Simulates.peek.bind fun token => ?_) (.pure _)
  split
  · exact Simulates.advance.bind fun _ => .pure _
  · exact Simulates.advance.bind fun _ => .pure _
  · exact .fail _

theorem simulates_encodedLiteral : Simulates depth depth encodedLiteral encodedLiteral := by
  refine Simulates.peek.bind fun token => ?_
  split
  · refine Simulates.advance.bind fun _ => Simulates.peek.bind fun token => ?_
    split
    · exact Simulates.advance.bind fun _ => .pure _
    · exact .fail _
  · exact .fail _

/-- The part of a designator that its first token decides is the same on both sides. -/
theorem simulates_designatorOf (found : Located) :
    Simulates depth depth (designatorOf found) (designatorOf found) := by
  have marker (digits : Option String) :
      Simulates depth depth (markerOf digits) (markerOf digits) := by
    cases digits with
    | none => exact Simulates.make Model.newMarker
    | some foreign => exact fun _ => rfl
  unfold designatorOf
  split
  case h_6 => exact (marker _).bind fun _ => .pure _
  case h_7 =>
    refine (simulates_definingConcept? _).bind fun concept => ?_
    split
    · exact .pure _
    · exact .failAt _ _
  all_goals exact .pure _

theorem simulates_designator : Simulates depth depth designator designator :=
  (Simulates.eat _).bind fun _ => .ite (simulates_encodedLiteral.bind fun _ => .pure _)
    ((Simulates.located 0).bind fun _ => (simulates_designatorOf _).bind fun _ =>
      .ite (Simulates.advance.bind fun _ => .pure _) (.pure _))

theorem simulates_boundLabels (concept : ConceptId) (tokens : Nat) :
    Simulates depth depth (boundLabels concept tokens) (boundLabels concept tokens) := by
  induction tokens with
  | zero => exact .pure _
  | succ tokens ih =>
      refine Simulates.peek.bind fun token => ?_
      split
      · exact (Simulates.located 0).bind fun _ => Simulates.advance.bind fun _ =>
          (simulates_join _ _ _).bind fun _ => ih
      · exact .pure _

theorem simulates_conceptLabels (concept : ConceptId) :
    Simulates depth depth (conceptLabels concept) (conceptLabels concept) := by
  refine Simulates.peek.bind fun token => ?_
  split
  · exact Simulates.labels.bind fun _ => .ite (.fail _)
      (Simulates.advance.bind fun _ => .bindLabel _ _)
  · exact .get fun _ => simulates_boundLabels concept _

theorem simulates_nodeComment (node : NodeKind) :
    Simulates depth depth (nodeComment node) (nodeComment node) := by
  refine Simulates.peek.bind fun token => ?_
  split
  · exact .ite (Simulates.advance.bind fun _ => .pure _) (.pure _)
  · exact .pure _

theorem simulates_makeRelation (found : Located) (type : RelationType) (args : List ConceptId)
    (role : RelationRole) (comment : Option String) :
    Simulates depth depth (makeRelation found type args role comment)
      (makeRelation found type args role comment) := by
  refine Simulates.bind ?_ fun _ => (Simulates.make _).bind fun _ => (Simulates.edit _).bind
    fun _ => .pure _
  refine Simulates.model.bind fun model => ?_
  dsimp only
  split
  · exact .ite (.failAt _ _) (.pure _)
  · exact .pure _

theorem simulates_negationType : Simulates depth depth negationType negationType := by
  refine Simulates.model.bind fun model => ?_
  dsimp only
  split
  · exact .pure _
  · split
    · exact (Simulates.edit _).bind fun _ => .pure _
    · exact .throw _

theorem simulates_lambdaAhead (places : Nat) :
    Simulates depth depth (lambdaAhead places) (lambdaAhead places) :=
  fun _ => rfl

theorem simulates_relationTypeAhead (places : Nat) :
    Simulates depth depth (relationTypeAhead places) (relationTypeAhead places) := by
  refine (Simulates.ahead _).bind fun token => ?_
  split
  · exact .pure _
  · exact simulates_lambdaAhead _

theorem simulates_relationNodeAhead :
    Simulates depth depth relationNodeAhead relationNodeAhead :=
  Simulates.peek.bind fun _ => (simulates_relationTypeAhead 1).bind fun _ => .pure _

theorem simulates_graphComment (graph : GraphId) :
    Simulates depth depth (graphComment graph) (graphComment graph) := by
  refine Simulates.peek.bind fun token => ?_
  split
  · exact Simulates.advance.bind fun _ => (Simulates.edit _).bind fun _ => .pure _
  · exact .pure _

theorem simulates_refuseNumberedArc :
    Simulates depth depth refuseNumberedArc refuseNumberedArc :=
  (Simulates.ahead 0).bind fun _ => (Simulates.ahead 1).bind fun _ =>
    (Simulates.ahead 2).bind fun _ => .ite (.fail _) (.pure _)

theorem simulates_statementEnd : Simulates depth depth statementEnd statementEnd := by
  refine Simulates.peek.bind fun token => ?_
  split
  · exact .advance
  · exact .advance
  · exact .pure _
  · exact .pure _
  · exact .fail _

theorem simulates_textEnd : Simulates depth depth (textEnd setting) (textEnd setting) := by
  have ends : Simulates depth depth (do if (← peek) ≠ .endOfInput then fail .unexpected)
      (do if (← peek) ≠ .endOfInput then fail .unexpected) :=
    Simulates.peek.bind fun _ => .ite (.fail _) (.pure _)
  refine .ite (Simulates.peek.bind fun token => ?_) ends
  split
  · exact Simulates.advance.bind fun _ => ends
  · exact Simulates.advance.bind fun _ => ends
  · exact ends

end Read

end ConceptualGraph
