/-
Module: ConceptualGraph.Proofs.Copy.Graph
Purpose: A graph is read back with all graphs nested in it.
Main exports: Write.mirrors_bracketGraph, Write.mirrors_linearGraph, Write.mirrors_graphItems
-/
import ConceptualGraph.Proofs.Copy.Statement
import ConceptualGraph.Writing.Graph

namespace ConceptualGraph

/-! ## Nested graphs -/

namespace Write

open Phrase (ofToken)

variable {model : Model} {source : Notation} {setting : Setting} {inner : Inner} {levels : Nat}
  {outer : List GraphId}

/-- Where items follow the comments of a graph, it begins as an item if it has any comments. -/
theorem opensGraph_comments {form : Notation} {graph : GraphId} (items : List Phrase)
    (spoken : (model.graph graph).comments ≠ []) :
    OpensGraph ((comments model graph ++ items).flatMap (Phrase.reread form)) := by
  obtain ⟨text, texts, same⟩ := List.exists_cons_of_ne_nil spoken
  have opening : (comments model graph ++ items).flatMap (Phrase.reread form) =
      .formalComment text :: (texts.flatMap (fun text =>
        (ofToken (.formalComment text)).reread form) ++
          items.flatMap (Phrase.reread form)) := by
    simp [comments, same, List.flatMap_map, Token.reread]
  exact ⟨_, _, opening, rfl, fun same => by cases same⟩

/-- Graphs that are written as comments and items are read back if the items are, and begin as
an item. -/
theorem mirrors_of_items {body : Inner}
    (itemized : ∀ graph writer, Ensures (body graph) writer fun phrases after => ∃ items,
      phrases = comments model graph ++ items ∧
        ReadsItems model setting.form setting graph outer writer after items)
    (opens : ∀ graph writer, model.Untouched writer graph →
      Ensures (body graph) writer fun phrases _ => (phrases = [] → ¬model.IsInhabited graph) ∧
        ∀ items, phrases = comments model graph ++ items → items ≠ [] →
          OpensGraph (items.flatMap (Phrase.reread setting.form))) :
    Mirrors model setting.form setting body outer where
  proceeds graph writer := (itemized graph writer).mono fun phrases after facts => by
    obtain ⟨items, -, reads⟩ := facts
    exact reads.proceeds
  opens graph writer houses untouched := by
    refine ((itemized graph writer).and (opens graph writer untouched)).mono
      fun phrases after facts => ?_
    obtain ⟨⟨items, same, -⟩, empty, opens⟩ := facts
    by_cases silent : (model.graph graph).comments = []
    · have none : comments model graph = [] := by simp [comments, silent]
      by_cases some : items = []
      · have nothing : phrases = [] := by rw [same, none, some, List.append_nil]
        exact .inl ⟨empty nothing, by rw [nothing]; rfl⟩
      · rw [none, List.nil_append] at same
        rw [same]
        exact .inr (opens items (by rw [same, none, List.nil_append]) some)
    · rw [same]
      exact .inr (opensGraph_comments items silent)
  reads graph writer := by
    refine (itemized graph writer).mono fun phrases after facts => ?_
    obtain ⟨items, rfl, reads⟩ := facts
    intro unfinished reader rest brackets place tracks within idle there bare starts closes fits
      silent same
    exact Read.items_outcome reads tracks within idle there bare starts closes fits same

/-- Graphs in the interchange form are read back where the graphs nested in them are. -/
theorem mirrors_bracketGraph (copyable : model.Copyable source .cgif)
    (mirrors : ∀ graph, Mirrors model .cgif setting inner (graph :: outer))
    (onDemand : setting.options.createTypesOnDemand = true) (interchange : setting.form = .cgif) :
    Mirrors model .cgif setting (bracketGraph model inner) outer := by
  have itemized := fun graph writer =>
    (bracketGraph_ensures copyable (mirrors graph) onDemand : Ensures _ writer _)
  rw [← interchange] at itemized ⊢
  refine mirrors_of_items itemized fun graph writer untouched => ?_
  refine ((itemized graph writer).and (bracketGraph_empty copyable untouched)).mono
    fun phrases after facts => ?_
  obtain ⟨⟨items, rfl, reads⟩, empty⟩ := facts
  refine ⟨empty, fun others same some => ?_⟩
  rw [← List.append_cancel_left same] at some ⊢
  rw [interchange] at reads ⊢
  exact reads.opensGraph some

/-- Graphs in the linear form are read back where the graphs nested in them are. -/
theorem mirrors_linearGraph (copyable : model.Copyable source .linear)
    (mirrors : ∀ graph, Mirrors model .linear setting inner (graph :: outer))
    (onDemand : setting.options.createTypesOnDemand = true) (linear : setting.form = .linear) :
    Mirrors model .linear setting (linearGraph model inner) outer := by
  have itemized := fun graph writer =>
    (linearGraph_ensures copyable (mirrors graph) onDemand : Ensures _ writer _)
  have opens := fun graph writer (untouched : model.Untouched writer graph) =>
    linearGraph_opens copyable (mirrors graph) onDemand untouched
  rw [← linear] at itemized opens ⊢
  exact mirrors_of_items itemized opens

/-- A graph is read back with the graphs nested in it, where there are levels for all of
them. -/
theorem mirrors_graphItems {form : Notation} (copyable : model.Copyable source form)
    (onDemand : setting.options.createTypesOnDemand = true) (same : setting.form = form)
    (enough : model.concepts.size < levels + outer.length) :
    Mirrors model form setting (graphItems model form levels) outer := by
  induction levels generalizing outer with
  | zero =>
      have none : ∀ graph, ¬model.Nests (graph :: outer) := fun graph nests => by
        have few := copyable.length_le_size nests
        omega
      exact {
        proceeds := fun graph writer => .refl writer
        opens := fun graph writer houses => absurd houses.nests (none graph)
        reads := fun graph writer unfinished reader rest brackets place tracks within =>
          absurd (within ▸ tracks.houses.nests) (none graph) }
  | succ levels ih =>
      have deeper : ∀ graph, Mirrors model form setting (graphItems model form levels)
          (graph :: outer) := fun graph => ih (by
        rw [List.length_cons]
        omega)
      cases form with
      | cgif => exact mirrors_bracketGraph copyable deeper onDemand same
      | linear => exact mirrors_linearGraph copyable deeper onDemand same

end Write

end ConceptualGraph
