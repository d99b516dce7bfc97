/-
Module: ConceptualGraph.Proofs.Writing.Numbered
Purpose: Whatever is written is written as with numbers for the identifiers of markers, but for the
  identifiers.
Main exports: Write.twin_emitConcept, Write.twin_bracketGraph, Write.twin_linearGraph,
  Write.twin_items
-/
import ConceptualGraph.Proofs.Writing.Twin
import ConceptualGraph.Writing.Graph

namespace ConceptualGraph

/-- Equality, whatever is paired. -/
def Same {α : Type} (_ : MarkerTable) (value other : α) : Prop := value = other

@[simp] theorem Writer.labels_numbered (count : Nat) (writer : Writer) :
    (writer.numbered count).labels = writer.labels := rfl

@[simp] theorem Writer.emitted_numbered (count : Nat) (writer : Writer) :
    (writer.numbered count).emitted = writer.emitted := rfl

namespace Write

open Phrase (join mark ofToken space)

variable {model : Model} {inner : Inner} {plan : Plan} {count : Nat} {writer : Writer}
  {table : MarkerTable}

/-! ## Steps without markers -/

theorem Twin.isEmitted {β : Type} {also : MarkerTable → β → β → Prop} {concept : ConceptId}
    {next nextTwin : Bool → Write β}
    (twins : Twin count also (next (writer.emitted.lookup concept).isSome)
      (nextTwin (writer.emitted.lookup concept).isSome) writer) :
    Twin count also (isEmitted concept >>= next) (isEmitted concept >>= nextTwin) writer :=
  twins

theorem Twin.unwritten {β : Type} {also : MarkerTable → β → β → Prop} {relations : List RelationId}
    {next nextTwin : List RelationId → Write β}
    (twins : ∀ relations, Twin count also (next relations) (nextTwin relations) writer) :
    Twin count also (unwritten relations >>= next) (unwritten relations >>= nextTwin) writer :=
  twins _

theorem twin_labelFor (target : Target) :
    Twin count Same (labelFor target) (labelFor target) writer := by
  refine .get ?_
  rw [Writer.labels_numbered]
  cases writer.labels.name? target with
  | some label => exact .pure rfl
  | none => exact .get (.modify rfl rfl (.pure rfl))

theorem twin_openLabel (concept : ConceptId) (needed : Bool) :
    Twin count Same (openLabel model concept needed) (openLabel model concept needed) writer := by
  unfold openLabel
  cases model.sharedSet? concept with
  | some set =>
      refine (twin_labelFor _).bind ?_
      rintro label _ later - rfl
      exact .pure rfl
  | none =>
      refine .get (.ite (fun _ => (twin_labelFor _).bind ?_) fun _ => .pure rfl)
      rintro label _ later - rfl
      exact .pure rfl

theorem twin_knownLabel (concept : ConceptId) :
    Twin count Same (knownLabel model concept) (knownLabel model concept) writer := by
  refine .get ?_
  rw [Writer.labels_numbered]
  dsimp only
  split
  · split
    · exact .pure rfl
    · exact .throw _
  · split
    · exact .pure rfl
    · exact .throw _

theorem alike_ofToken {token : Token} (plain : token.digits? = none) :
    Phrase.Alike table (ofToken token) (ofToken token) :=
  .plain (List.forall_mem_singleton.mpr plain)

theorem alike_mark (punct : Punct) : Phrase.Alike table (mark punct) (mark punct) :=
  alike_ofToken rfl

theorem alike_space : Phrase.Alike table space space :=
  .plain (List.forall_mem_singleton.mpr True.intro)

theorem twin_reference (concept : ConceptId) :
    Twin count Phrase.Alike (reference model concept) (reference model concept) writer := by
  refine .get ?_
  rw [Writer.emitted_numbered]
  split
  · exact .pure (alike_ofToken rfl)
  · exact .throw _
  · refine (twin_knownLabel concept).bind ?_
    rintro label _ later - rfl
    exact .pure (alike_ofToken rfl)

/-! ## Parts -/

theorem alike_comment (node : NodeKind) (text : Option String) :
    Phrase.Alike table (comment node text) (comment node text) := by
  cases text with
  | none => exact .nil
  | some text =>
      exact .plain (List.forall_mem_cons.mpr ⟨True.intro, List.forall_mem_singleton.mpr rfl⟩)

theorem alike_quantifier (value : Quantifier) :
    Phrase.Alike table (quantifier value) (quantifier value) := by
  cases value <;> exact (alike_mark _).append (alike_ofToken rfl)

theorem alike_literal (value : Literal) : Phrase.Alike table (literal value) (literal value) := by
  rcases value with (_ | _) | _ | _
  · exact alike_ofToken rfl
  · exact alike_ofToken rfl
  · exact alike_ofToken rfl
  · exact (((alike_mark _).append (alike_ofToken rfl)).append alike_space).append
      (alike_ofToken rfl)

/-- A marker is written with the identifier that is paired with it, and otherwise with its
number. -/
theorem twin_markerId {marker : MarkerId} (inside : marker.index < count) :
    Twin count (fun table foreign number => number = marker.index.repr ∧
      (foreign, marker) ∈ table.pairs) (markerId marker) (markerId marker) writer := by
  have numbered : markerId marker (writer.numbered count) =
      .ok ((MarkerTable.numbering count).foreignIdFor marker).1
        { writer with markers := ((MarkerTable.numbering count).foreignIdFor marker).2 } := rfl
  rw [MarkerTable.foreignIdFor_numbering inside] at numbered
  exact .intro_ok rfl numbered (MarkerTable.onto_foreignIdFor inside)
    ⟨rfl, MarkerTable.mem_foreignIdFor marker⟩

theorem twin_designator {value : Designator}
    (inside : ∀ marker, value.marker? = some marker → marker.index < count) :
    Twin count Phrase.Alike (designator model value) (designator model value) writer := by
  cases value with
  | literal value => exact .pure (alike_literal value)
  | name name => exact .pure (alike_ofToken rfl)
  | defined concept => exact twin_reference concept
  | marker marker =>
      refine (twin_markerId (inside marker rfl)).bind ?_
      rintro foreign _ later - ⟨rfl, paired⟩
      exact .pure (.cons (.marker fun _ => paired) .nil)

theorem alike_parameter (parameter : Parameter) :
    Phrase.Alike table (Write.parameter model parameter) (Write.parameter model parameter) :=
  ((alike_ofToken rfl).append alike_space).append (alike_ofToken rfl)

/-- A type is set off from what follows it. -/
theorem alike_colon (typed : Bool) {parts others : List Phrase}
    (alike : Phrase.AllAlike table parts others) :
    Phrase.Alike table (if typed && !parts.isEmpty then mark .colon ++ space else [])
      (if typed && !others.isEmpty then mark .colon ++ space else []) := by
  rw [alike.isEmpty_eq]
  split
  · exact (alike_mark _).append alike_space
  · exact .nil

section

variable (nested : ∀ graph writer,
  Twin count Phrase.AllAlike (inner graph) (inner graph) writer)

include nested

theorem twin_nestedGraph (graph : GraphId) :
    Twin count Phrase.Alike (nestedGraph inner graph) (nestedGraph inner graph) writer :=
  .inContext ((nested graph _).bind fun _ _ _ _ alike => .pure (Phrase.alike_join " " alike))

theorem twin_referentParts {referent : Referent}
    (inside : ∀ marker, referent.marker? = some marker → marker.index < count) :
    Twin count Phrase.AllAlike (referentParts model inner referent)
      (referentParts model inner referent) writer := by
  refine (Twin.concat Phrase.lasting_alike _ fun value member writer =>
    (twin_designator fun marker found => inside marker ?_).bind fun _ _ _ _ alike =>
      .pure (.cons alike .nil)).bind fun designators also middle _ named => ?_
  · rw [Referent.marker?, Option.mem_toList.mp member]
    exact found
  refine (Twin.concat Phrase.lasting_alike _ fun graph _ writer =>
    (twin_nestedGraph nested graph).bind fun _ _ _ _ alike => .pure (.cons alike .nil)).bind
      fun descriptors others later keeps described => .pure ?_
  have counted : Phrase.AllAlike later.markers (referent.quantifier.map quantifier).toList
      (referent.quantifier.map quantifier).toList := by
    cases referent.quantifier with
    | none => exact .nil
    | some value => exact .cons (alike_quantifier value) .nil
  exact List.rel_append (List.rel_append counted (Phrase.lasting_allAlike keeps named)) described

/-! ## Types -/

theorem twin_definitionBody (definition : Definition) :
    Twin count Phrase.Alike (definitionBody inner definition) (definitionBody inner definition)
      writer := by
  refine .apart (.inContext (.modify rfl rfl ?_))
  cases definition.body with
  | none => exact .pure .nil
  | some graph =>
      exact (nested graph _).bind fun _ _ _ _ alike =>
        .pure (alike_space.append (Phrase.alike_join " " alike))

theorem twin_lambda (definition : Definition) :
    Twin count Phrase.Alike (lambda model inner definition) (lambda model inner definition)
      writer := by
  have parameters : Phrase.AllAlike writer.markers
      (definition.parameters.map (parameter model)) (definition.parameters.map (parameter model)) :=
    List.forall₂_same.mpr (List.forall_mem_map.mpr fun parameter _ => alike_parameter parameter)
  have signature := Phrase.alike_intercalate ((alike_mark .comma).append alike_space) parameters
  refine (twin_definitionBody nested definition).bind fun body other later keeps alike => .pure ?_
  exact .append (.append (.append (.append (.append (.append (.append (alike_mark _)
    (alike_ofToken rfl)) alike_space) (alike_mark _)) (Phrase.lasting_alike keeps signature))
      (alike_mark _)) alike) (alike_mark _)

theorem twin_conceptType (type : ConceptType) :
    Twin count Phrase.Alike (conceptType model inner type) (conceptType model inner type)
      writer := by
  unfold conceptType
  dsimp only
  split
  · exact .pure (alike_ofToken rfl)
  · exact twin_lambda nested _
  · exact .pure (alike_ofToken rfl)

theorem twin_relationType (relation : RelationId) :
    Twin count Phrase.Alike (relationType model inner relation) (relationType model inner relation)
      writer := by
  unfold relationType
  dsimp only
  split
  · exact .throw _
  · split
    · exact .pure (alike_ofToken rfl)
    · exact twin_lambda nested _
    · exact .throw _

/-! ## Nodes -/

theorem twin_specialContext (label : String) (descriptor : Option GraphId) :
    Twin count Phrase.Alike (specialContext inner label descriptor)
      (specialContext inner label descriptor) writer := by
  unfold specialContext
  cases descriptor with
  | none =>
      exact .pure ((((alike_mark _).append (alike_ofToken rfl)).append .nil).append (alike_mark _))
  | some graph =>
      simp only [pure_bind]
      exact (twin_nestedGraph nested graph).bind fun _ _ _ _ alike => .pure <|
        (((alike_mark _).append (alike_ofToken rfl)).append (alike_space.append alike)).append
          (alike_mark _)

variable (inside : ∀ concept marker, (model.concept concept).marker? = some marker →
  marker.index < count)

include inside

theorem twin_plainConcept (concept : ConceptId) (use : Option LabelUse) :
    Twin count Phrase.Alike (plainConcept model inner concept use)
      (plainConcept model inner concept use) writer := by
  refine .ite (fun _ => .throw _) fun _ => ?_
  refine (Twin.concat Piece.lasting_alike _ fun type _ writer => twin_conceptType nested type).bind
    fun type typeTwin middle _ typed => ?_
  refine (Twin.concat Phrase.lasting_alike _ fun referent member writer =>
    twin_referentParts nested fun marker found => inside concept marker ?_).bind
      fun referent others later keeps refers => .pure ?_
  · rw [Concept.marker?, Option.mem_toList.mp member]
    exact found
  have labelled : Phrase.AllAlike later.markers (use.map fun use => ofToken use.token).toList
      (use.map fun use => ofToken use.token).toList := by
    rcases use with _ | (_ | _)
    · exact .nil
    · exact .cons (alike_ofToken rfl) .nil
    · exact .cons (alike_ofToken rfl) .nil
  have parts := List.rel_append labelled refers
  exact .append (.append (.append (.append (.append (alike_mark _)
    (Phrase.lasting_alike keeps typed)) (alike_colon _ parts)) (Phrase.alike_join " " parts))
      (alike_comment _ _)) (alike_mark _)

theorem twin_emitConcept (concept : ConceptId) (use : Option LabelUse) :
    Twin count Phrase.Alike (emitConcept model inner concept use)
      (emitConcept model inner concept use) writer := by
  refine .modify rfl rfl ?_
  split
  · exact twin_specialContext nested _ _
  · exact twin_plainConcept nested inside concept use

theorem twin_firstEmission (concept : ConceptId) :
    Twin count Phrase.Alike (firstEmission model inner plan concept)
      (firstEmission model inner plan concept) writer := by
  refine (twin_openLabel concept _).bind ?_
  rintro use _ later - rfl
  exact twin_emitConcept nested inside concept use

omit inside

omit nested in
theorem twin_actorArgs (args : List ConceptId) :
    Twin count Phrase.Alike (actorArgs model args) (actorArgs model args) writer :=
  .concat Piece.lasting_alike args fun argument _ _ => (twin_reference argument).bind
    fun _ _ _ _ alike => .pure (alike_space.append alike)

theorem twin_actor (relation : RelationId) :
    Twin count Phrase.Alike (actor model inner relation) (actor model inner relation) writer := by
  refine .modify rfl rfl ?_
  refine (twin_relationType nested relation).bind fun type typeTwin first _ typed => ?_
  refine (twin_actorArgs _).bind fun inputs inputsTwin second further taken => ?_
  refine (twin_actorArgs _).bind fun outputs outputsTwin third last given => .pure ?_
  have typed := Phrase.lasting_alike (further.trans last) typed
  have taken := Phrase.lasting_alike last taken
  exact .append (.append (.append (.append (.append (.append (.append (alike_mark _) typed) taken)
    alike_space) (alike_mark _)) given) (alike_comment _ _)) (alike_mark _)

theorem twin_negation (relation : RelationId) :
    Twin count Phrase.Alike (negation model inner relation) (negation model inner relation)
      writer := by
  refine .modify rfl rfl ?_
  refine .bind (.concat Piece.lasting_alike _ fun wrapper _ writer => .modify rfl rfl <|
    .concat Piece.lasting_alike _ fun graph _ writer => twin_nestedGraph nested graph)
      fun body bodyTwin later _ alike => .pure ?_
  exact .append (.append (.append (alike_mark _) (alike_mark _)) alike) (alike_mark _)

omit nested in
theorem alike_comments (graph : GraphId) :
    Phrase.AllAlike table (comments model graph) (comments model graph) :=
  List.forall₂_same.mpr (List.forall_mem_map.mpr fun _ _ => alike_ofToken rfl)

/-! ## Graphs in the interchange form -/

/-- Arguments are the same but for their texts, which are alike. -/
structure Argument.Alike (table : MarkerTable) (argument other : Argument) : Prop where
  concept : other.concept = argument.concept
  fresh : other.fresh = argument.fresh
  phrase : Phrase.Alike table argument.phrase other.phrase

omit nested in
theorem Argument.lasting_alike : Lasting Argument.Alike := fun _ _ _ _ keeps alike =>
  ⟨alike.concept, alike.fresh, Phrase.lasting_alike keeps alike.phrase⟩

omit nested in
/-- Arguments that are alike introduce the same concepts. -/
theorem introduced_eq {args others : List Argument}
    (alike : List.Forall₂ (Argument.Alike table) args others) :
    (others.filter (·.fresh)).map (·.concept) = (args.filter (·.fresh)).map (·.concept) := by
  induction alike with
  | nil => rfl
  | cons here _ ih =>
      rw [List.filter_cons, List.filter_cons, here.fresh]
      split
      · rw [List.map_cons, List.map_cons, here.concept, ih]
      · exact ih

omit nested in
/-- A relation is alike with types and arguments that are. -/
theorem alike_relationPhrase (relation : RelationId) {type other : Phrase}
    {args others : List Argument} (typed : Phrase.Alike table type other)
    (alike : List.Forall₂ (Argument.Alike table) args others) :
    Phrase.Alike table (relationPhrase model relation type args)
      (relationPhrase model relation other others) := by
  have taken : Phrase.Alike table (args.flatMap fun argument => space ++ argument.phrase)
      (others.flatMap fun argument => space ++ argument.phrase) := by
    induction alike with
    | nil => exact .nil
    | cons here _ ih => exact .append (.append alike_space here.phrase) ih
  exact .append (.append (.append (.append (alike_mark _) typed) taken) (alike_comment _ _))
    (alike_mark _)

include inside

theorem twin_argument (concept : ConceptId) :
    Twin count Argument.Alike (argument model inner plan concept)
      (argument model inner plan concept) writer := by
  refine .isEmitted (.ite (fun _ => ?_) fun _ => ?_)
  · exact (twin_reference concept).bind fun _ _ _ _ alike => .pure ⟨rfl, rfl, alike⟩
  · exact (twin_firstEmission nested inside concept).bind fun _ _ _ _ alike =>
      .pure ⟨rfl, rfl, alike⟩

theorem twin_arguments (inlined : Option ConceptId) (args : List ConceptId) :
    Twin count (fun table => List.Forall₂ (Argument.Alike table))
      (arguments model inner plan inlined args) (arguments model inner plan inlined args)
      writer := by
  have written (concepts : List ConceptId) (writer : Writer) :
      Twin count (fun table => List.Forall₂ (Argument.Alike table))
        (concat (fun concept => return [← argument model inner plan concept]) concepts)
        (concat (fun concept => return [← argument model inner plan concept]) concepts) writer :=
    .concat Argument.lasting_alike concepts fun concept _ _ =>
      (twin_argument nested inside concept).bind fun _ _ _ _ alike => .pure (.cons alike .nil)
  cases args with
  | nil => exact .pure .nil
  | cons first others =>
      refine .ite (fun _ => ?_) fun _ => ?_
      · refine (twin_emitConcept nested inside first none).bind
          fun phrase phraseTwin middle _ alike => ?_
        refine (written others middle).bind fun rest restTwin later keeps also => .pure ?_
        exact .cons ⟨rfl, rfl, Phrase.lasting_alike keeps alike⟩ also
      · refine (written [first] writer).bind fun start startTwin middle _ alike => ?_
        refine (written others middle).bind fun rest restTwin later keeps also => .pure ?_
        exact List.rel_append (Argument.lasting_alike.forall₂ keeps alike) also

theorem twin_relationItems (steps : Nat) (inlined : Option ConceptId) (relation : RelationId) :
    Twin count Phrase.AllAlike (relationItems model inner plan steps inlined relation)
      (relationItems model inner plan steps inlined relation) writer := by
  induction steps generalizing inlined relation writer with
  | zero => exact .pure .nil
  | succ steps ih =>
      refine .get (.ite (fun _ => .pure .nil) fun _ => .modify rfl rfl ?_)
      refine (twin_relationType nested relation).bind fun type typeTwin first _ typed => ?_
      refine (twin_arguments nested inside inlined _).bind
        fun args argsTwin second further alike => ?_
      dsimp only
      rw [introduced_eq alike]
      refine .bind (.concat Phrase.lasting_alike _ fun concept _ writer =>
        .unwritten fun relations =>
          .concat Phrase.lasting_alike relations fun other _ writer => ih none other)
        fun following others third last rest => .pure (.cons ?_ rest)
      exact alike_relationPhrase relation (Phrase.lasting_alike (further.trans last) typed)
        (Argument.lasting_alike.forall₂ last alike)

theorem twin_conceptItems (concept : ConceptId) :
    Twin count Phrase.AllAlike (conceptItems model inner plan concept)
      (conceptItems model inner plan concept) writer := by
  refine .isEmitted (.ite (fun _ => .pure .nil) fun _ => ?_)
  refine (twin_openLabel concept _).bind ?_
  rintro label _ middle - rfl
  refine .unwritten fun primaries => ?_
  split
  · exact twin_relationItems nested inside _ _ _
  · refine (twin_emitConcept nested inside concept label).bind fun item itemTwin later _ alike => ?_
    refine .bind (.concat Phrase.lasting_alike primaries fun relation _ writer =>
      twin_relationItems nested inside _ none relation) fun rest others last keeps also => .pure ?_
    exact .cons (Phrase.lasting_alike keeps alike) also

theorem twin_remainingItems (relation : RelationId) :
    Twin count Phrase.AllAlike (remainingItems model inner plan relation)
      (remainingItems model inner plan relation) writer := by
  refine .get (.ite (fun _ => .pure .nil) fun _ => .ite (fun _ => ?_) fun _ =>
    .ite (fun _ => ?_) fun _ => twin_relationItems nested inside _ none relation)
  · exact (twin_negation nested relation).bind fun _ _ _ _ alike => .pure (.cons alike .nil)
  · exact (twin_actor nested relation).bind fun _ _ _ _ alike => .pure (.cons alike .nil)

theorem twin_bracketGraph (graph : GraphId) :
    Twin count Phrase.AllAlike (bracketGraph model inner graph) (bracketGraph model inner graph)
      writer := by
  refine .bind (.concat Phrase.lasting_alike _ fun concept _ writer =>
    twin_conceptItems nested inside concept) fun concepts conceptsTwin middle _ first => ?_
  refine .bind (.concat Phrase.lasting_alike _ fun relation _ writer =>
    twin_remainingItems nested inside relation) fun relations others later keeps second => .pure ?_
  exact List.rel_append (List.rel_append (alike_comments graph)
    (Phrase.lasting_allAlike keeps first)) second

/-! ## Graphs in the linear form -/

omit inside in
theorem twin_relationNode (relation : RelationId) :
    Twin count Phrase.Alike (relationNode model inner relation) (relationNode model inner relation)
      writer :=
  (twin_relationType nested relation).bind fun _ _ _ _ typed => .pure <|
    .append (.append (.append (alike_mark _) typed) (alike_comment _ _)) (alike_mark _)

omit nested inside in
theorem alike_line (place : Place) : Phrase.Alike table place.line place.line :=
  .plain (List.forall_mem_singleton.mpr True.intro)

omit nested inside in
theorem alike_closing (place : Place) : Phrase.Alike table place.closing place.closing := by
  unfold Place.closing
  split
  · exact alike_mark _
  · exact .nil

section

variable {target : ToTarget}
  (goes : ∀ place concept writer,
    Twin count Phrase.Alike (target place concept) (target place concept) writer)

include goes

omit nested inside

theorem twin_numberedArgs (place : Place) (number : Nat) (args : List ConceptId) :
    Twin count Phrase.Alike (numberedArgs target place number args)
      (numberedArgs target place number args) writer := by
  induction args generalizing number writer with
  | nil => exact .pure .nil
  | cons concept others ih =>
      refine (goes place concept writer).bind fun phrase phraseTwin middle _ alike => ?_
      refine (ih (number + 1)).bind fun rest restTwin later keeps also => .pure ?_
      exact .append (.append (.append (.append (.append (.append (alike_line _) (alike_mark _))
        (alike_ofToken rfl)) (alike_mark _)) alike_space) (Phrase.lasting_alike keeps alike)) also

theorem twin_laterArgs (place : Place) (args : List ConceptId) :
    Twin count Phrase.Alike (laterArgs target place args) (laterArgs target place args) writer := by
  unfold laterArgs
  split
  · exact .pure .nil
  · exact .pure .nil
  · exact (goes place _ writer).bind fun _ _ _ _ alike => .pure <|
      .append (.append (.append alike_space (alike_mark _)) alike_space) alike
  · exact (twin_numberedArgs goes place.branch 1 _).bind fun _ _ _ _ alike => .pure <|
      .append (.append (alike_mark _) alike) (alike_closing place)

include nested

theorem twin_relationWithArgs (place : Place) (relation : RelationId) :
    Twin count Phrase.Alike (relationWithArgs model inner target place relation)
      (relationWithArgs model inner target place relation) writer := by
  refine .modify rfl rfl ?_
  refine (twin_relationNode nested relation).bind fun node nodeTwin middle _ alike => ?_
  exact (twin_laterArgs goes place _).bind fun _ _ _ keeps also => .pure <|
    .append (Phrase.lasting_alike keeps alike) also

theorem twin_link (place : Place) (relation : RelationId) :
    Twin count Phrase.Alike (link model inner target place relation)
      (link model inner target place relation) writer :=
  (twin_relationWithArgs nested goes place relation).bind fun _ _ _ _ alike => .pure <|
    .append (.append (.append alike_space (alike_mark _)) alike_space) alike

theorem twin_chainLinks (place : Place) (head : ConceptId) :
    Twin count Phrase.Alike (chainLinks model inner plan target place head)
      (chainLinks model inner plan target place head) writer := by
  refine .unwritten fun relations => ?_
  split
  · exact .pure .nil
  · exact twin_link nested goes place _
  · refine .bind (.concat Piece.lasting_alike _ fun relation _ writer =>
      (twin_relationWithArgs nested goes place.branch relation).bind fun _ _ _ _ alike =>
        .pure (Phrase.Alike.append (alike_line _) alike))
      fun branches others later _ alike => .pure ?_
    exact .append (.append (alike_mark _) alike) (alike_closing place)

end

theorem twin_chainTarget (steps : Nat) (place : Place) (concept : ConceptId) :
    Twin count Phrase.Alike (chainTarget model inner plan steps place concept)
      (chainTarget model inner plan steps place concept) writer := by
  induction steps generalizing place concept writer with
  | zero => exact twin_reference concept
  | succ steps ih =>
      refine .isEmitted (.ite (fun _ => twin_reference concept) fun _ => ?_)
      refine (twin_firstEmission nested inside concept).bind
        fun phrase phraseTwin middle _ alike => ?_
      refine (twin_chainLinks nested (fun place concept writer => ih place concept) place
        concept).bind fun links linksTwin later keeps also => .pure ?_
      exact .append (Phrase.lasting_alike keeps alike) also

theorem twin_conceptStatement (concept : ConceptId) :
    Twin count Phrase.AllAlike (conceptStatement model inner plan concept)
      (conceptStatement model inner plan concept) writer := by
  refine .isEmitted (.ite (fun _ => .pure .nil) fun _ => ?_)
  refine (twin_firstEmission nested inside concept).bind fun head headTwin middle _ alike => ?_
  refine (twin_chainLinks nested (fun place concept writer =>
    twin_chainTarget nested inside _ place concept) {} concept).bind
      fun links linksTwin later keeps also => .pure (.cons ?_ .nil)
  exact .append (.append (Phrase.lasting_alike keeps alike) also) (alike_mark _)

theorem twin_relationFrom (relation : RelationId) :
    Twin count Phrase.Alike (relationFrom model inner plan relation)
      (relationFrom model inner plan relation) writer := by
  unfold relationFrom
  split
  · exact .modify rfl rfl (twin_relationNode nested relation)
  · have goesOn {phrase other : Phrase} {later : Writer}
        (alike : Phrase.Alike later.markers phrase other) :
        Twin count Phrase.Alike
          (return phrase ++ (← link model inner (anyTarget model inner plan) {} relation))
          (return other ++ (← link model inner (anyTarget model inner plan) {} relation)) later :=
      (twin_link nested (fun place concept writer => twin_chainTarget nested inside _ place concept)
        {} relation).bind fun _ _ _ keeps also =>
          .pure (.append (Phrase.lasting_alike keeps alike) also)
    refine .isEmitted (.ite (fun _ => ?_) fun _ => ?_)
    · exact (twin_reference _).bind fun _ _ _ _ alike => goesOn alike
    · exact (twin_firstEmission nested inside _).bind fun _ _ _ _ alike => goesOn alike

theorem twin_remainingStatement (relation : RelationId) :
    Twin count Phrase.AllAlike (remainingStatement model inner plan relation)
      (remainingStatement model inner plan relation) writer := by
  have ended {phrase other : Phrase} {later : Writer}
      (alike : Phrase.Alike later.markers phrase other) :
      Twin count Phrase.AllAlike (return [statement phrase]) (return [statement other]) later :=
    .pure (.cons (.append alike (alike_mark _)) .nil)
  refine .get (.ite (fun _ => .pure .nil) fun _ => .ite (fun _ => ?_) fun _ =>
    .ite (fun _ => ?_) fun _ => ?_)
  · exact (twin_negation nested relation).bind fun _ _ _ _ alike => ended alike
  · exact (twin_actor nested relation).bind fun _ _ _ _ alike => ended alike
  · exact (twin_relationFrom nested inside relation).bind fun _ _ _ _ alike => ended alike

theorem twin_linearGraph (graph : GraphId) :
    Twin count Phrase.AllAlike (linearGraph model inner graph) (linearGraph model inner graph)
      writer := by
  refine .bind (.concat Phrase.lasting_alike _ fun concept _ writer =>
    twin_conceptStatement nested inside concept) fun concepts conceptsTwin middle _ first => ?_
  refine .bind (.concat Phrase.lasting_alike _ fun relation _ writer =>
    twin_remainingStatement nested inside relation) fun relations others later keeps second =>
      .pure ?_
  exact List.rel_append (List.rel_append (alike_comments graph)
    (Phrase.lasting_allAlike keeps first)) second

end

/-! ## Whole graphs -/

variable (inside : ∀ concept marker, (model.concept concept).marker? = some marker →
  marker.index < count)

include inside

theorem twin_graphItems (form : Notation) (levels : Nat) (graph : GraphId) (writer : Writer) :
    Twin count Phrase.AllAlike (graphItems model form levels graph)
      (graphItems model form levels graph) writer := by
  induction levels generalizing graph writer with
  | zero => exact .pure .nil
  | succ levels ih =>
      cases form with
      | cgif => exact twin_bracketGraph ih inside graph
      | linear => exact twin_linearGraph ih inside graph

theorem twin_items (form : Notation) (graph : GraphId) (writer : Writer) :
    Twin count Phrase.AllAlike (items model form graph) (items model form graph) writer :=
  twin_graphItems inside form _ graph writer

end Write

end ConceptualGraph
