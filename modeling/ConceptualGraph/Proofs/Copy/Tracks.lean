/-
Module: ConceptualGraph.Proofs.Copy.Tracks
Purpose: A state of reading that has read back what a state of writing has written.
Main exports: Model.Houses, Hierarchy.Ready, Tracks, Reads, Reader.Past, Tracks.past
-/
import ConceptualGraph.Proofs.Copy.Emission
import ConceptualGraph.Proofs.Copy.Markers
import ConceptualGraph.Proofs.Copy.Nodes

namespace ConceptualGraph

/-! ## What has been written -/

namespace Model

/-- Whether a graph is the outermost one or describes a concept that has been written. -/
def Begun (model : Model) (order : List ConceptId) (graph : GraphId) : Prop :=
  graph = ⟨0⟩ ∨ ∃ owner ∈ order, model.descriptor? owner = some graph

/-- Concepts and relations are written once, in graphs that have been begun. -/
structure Houses (model : Model) (graphs : List GraphId) (order : List ConceptId)
    (written : List RelationId) : Prop where
  distinct : order.Nodup
  housed : ∀ concept ∈ order, ∃ graph, (model.concept concept).graph = some graph ∧
    model.Begun order graph
  related : ∀ relation ∈ written, ∃ graph, (model.relation relation).graph = some graph ∧
    model.Begun order graph
  wrapped : ∀ concept ∈ order, (model.concept concept).hidden = true →
    ∀ relation, concept ∈ (model.relation relation).args → relation ∈ written
  begun : ∀ graph ∈ graphs, model.Begun order graph
  nests : model.Nests graphs

variable {model : Model} {source form : Notation} {graph inner : GraphId}
  {graphs outer : List GraphId} {order : List ConceptId} {written : List RelationId}
  {concept : ConceptId} {relation : RelationId}

theorem Begun.cons (begun : model.Begun order graph) (concept : ConceptId) :
    model.Begun (concept :: order) graph :=
  begun.imp id fun ⟨owner, member, describes⟩ => ⟨owner, List.mem_cons_of_mem _ member, describes⟩

namespace Houses

/-- Once a concept has been written, it is housed where it stands. -/
theorem emit (houses : model.Houses (graph :: outer) order written)
    (fresh : concept ∉ order) (stands : (model.concept concept).graph = some graph)
    (wrapped : (model.concept concept).hidden = true →
      ∀ relation, concept ∈ (model.relation relation).args → relation ∈ written) :
    model.Houses (graph :: outer) (concept :: order) written where
  distinct := List.nodup_cons.mpr ⟨fresh, houses.distinct⟩
  housed other member := by
    rcases List.mem_cons.mp member with rfl | member
    · exact ⟨graph, stands, (houses.begun graph (List.mem_cons_self ..)).cons _⟩
    · obtain ⟨place, here, begun⟩ := houses.housed other member
      exact ⟨place, here, begun.cons _⟩
  related other member := by
    obtain ⟨place, here, begun⟩ := houses.related other member
    exact ⟨place, here, begun.cons _⟩
  wrapped other member := by
    rcases List.mem_cons.mp member with rfl | member
    · exact wrapped
    · exact houses.wrapped other member
  begun other member := (houses.begun other member).cons _
  nests := houses.nests

/-- Once a relation has been begun, its graph is still the innermost that is open. -/
theorem begin (houses : model.Houses (graph :: outer) order written)
    (stands : (model.relation relation).graph = some graph) :
    model.Houses (graph :: outer) order (relation :: written) where
  distinct := houses.distinct
  housed := houses.housed
  related other member := by
    rcases List.mem_cons.mp member with rfl | member
    · exact ⟨graph, stands, houses.begun graph (List.mem_cons_self ..)⟩
    · exact houses.related other member
  wrapped other member hidden id argument :=
    List.mem_cons_of_mem _ (houses.wrapped other member hidden id argument)
  begun := houses.begun
  nests := houses.nests

/-- The graph that a concept describes becomes the innermost that is open. -/
theorem enter (houses : model.Houses (graph :: outer) order written) (member : concept ∈ order)
    (stands : (model.concept concept).graph = some graph)
    (describes : model.descriptor? concept = some inner) :
    model.Houses (inner :: graph :: outer) order written where
  distinct := houses.distinct
  housed := houses.housed
  related := houses.related
  wrapped := houses.wrapped
  begun other among := by
    rcases List.mem_cons.mp among with rfl | among
    · exact .inr ⟨concept, member, describes⟩
    · exact houses.begun other among
  nests := ⟨⟨concept, describes, stands⟩, houses.nests⟩

/-- The graph around the innermost one is open again. -/
theorem leave (houses : model.Houses (inner :: graph :: outer) order written) :
    model.Houses (graph :: outer) order written where
  distinct := houses.distinct
  housed := houses.housed
  related := houses.related
  wrapped := houses.wrapped
  begun other among := houses.begun other (List.mem_cons_of_mem _ among)
  nests := houses.nests.2

/-- The graph that describes a concept has not been touched before the concept is written. -/
theorem untouched (houses : model.Houses graphs order written)
    (rooted : model.Rooted source) (fresh : concept ∉ order)
    (describes : model.descriptor? concept = some inner) :
    (∀ other ∈ order, (model.concept other).graph ≠ some inner) ∧
      ∀ relation ∈ written, (model.relation relation).graph ≠ some inner := by
  have unbegun : ¬model.Begun order inner := by
    rintro (same | ⟨owner, member, also⟩)
    · exact rooted.ne_root describes same
    · exact fresh (rooted.owner_unique describes also ▸ member)
  constructor
  · intro other member stands
    obtain ⟨place, here, begun⟩ := houses.housed other member
    rw [stands] at here
    cases here
    exact unbegun begun
  · intro other member stands
    obtain ⟨place, here, begun⟩ := houses.related other member
    rw [stands] at here
    cases here
    exact unbegun begun

/-- The graphs around one are other graphs. -/
theorem not_mem (houses : model.Houses (graph :: outer) order written)
    (rooted : model.Rooted source) : graph ∉ outer := by
  cases outer with
  | nil => exact List.not_mem_nil
  | cons next others =>
      obtain ⟨owner, describes, stands⟩ := houses.nests.1
      exact rooted.not_mem_of_nests houses.nests.2 stands describes

/-- Every graph is begun once. -/
theorem nodup_opened (houses : model.Houses graphs order written)
    (rooted : model.Rooted source) : (model.opened order.reverse).Nodup := by
  refine List.nodup_cons.mpr ⟨fun member => ?_, ?_⟩
  · obtain ⟨owner, -, describes⟩ := List.mem_filterMap.mp member
    exact rooted.ne_root describes rfl
  · refine (List.nodup_reverse.mpr houses.distinct).filterMap fun first second graph one two => ?_
    exact rooted.owner_unique one two

end Houses

end Model

/-! ## Types -/

/-- Types can still be made on demand, and none but that of negations fixes its number of
arguments, where there are negations. -/
structure Hierarchy.Ready (hierarchy : Hierarchy) (flat : Prop) : Prop where
  concepts : hierarchy.concepts.HasBareTop
  relations : hierarchy.relations.HasBareTop
  valence : ∀ type valence, hierarchy.relations.valence? type = some valence →
    ¬flat ∧ hierarchy.relations.label? type = some Read.negationLabel

/-- One hierarchy goes on from another. -/
structure Hierarchy.Extends (hierarchy later : Hierarchy) : Prop where
  concepts : hierarchy.concepts.Extends later.concepts
  relations : hierarchy.relations.Extends later.relations

theorem Hierarchy.Extends.refl (hierarchy : Hierarchy) : hierarchy.Extends hierarchy :=
  ⟨.refl _, .refl _⟩

theorem Hierarchy.Extends.trans {hierarchy later last : Hierarchy}
    (first : hierarchy.Extends later) (second : later.Extends last) : hierarchy.Extends last :=
  ⟨first.concepts.trans second.concepts, first.relations.trans second.relations⟩

/-! ## Tracking -/

/-- A state of reading has read back what a state of writing has written. -/
structure Tracks (model : Model) (unfinished : Unfinished) (writer : Writer) (reader : Reader) :
    Prop where
  first : model.DefinedFirst writer.order
  houses : model.Houses unfinished.graphs writer.order writer.written
  nodes : model.Nodes unfinished (writer.ledger model) writer.written reader.model
  labels : model.Labels unfinished.graphs writer reader.model reader.labels
  markers : MarkerTable.Paired model.markers writer.markers reader.markers reader.model.markers
  ready : reader.model.hierarchy.Ready (model.graphs.size ≤ 1)
  setless : model.corefSets = #[] → reader.model.corefSets = #[]

/-- The state in which a relation or actor is marked as written. -/
def Writer.begin (writer : Writer) (relation : RelationId) : Writer :=
  { writer with written := relation :: writer.written }

/-- A relation is begun in the graph that is being read. -/
theorem Tracks.begun {model : Model} {unfinished : Unfinished} {writer : Writer}
    {reader : Reader} {graph : GraphId} {outer : List GraphId} {relation : RelationId}
    (tracks : Tracks model unfinished writer reader) (within : unfinished.graphs = graph :: outer)
    (stands : (model.relation relation).graph = some graph) :
    Tracks model { unfinished with pending := relation :: unfinished.pending }
      (writer.begin relation) reader where
  first := tracks.first
  houses := by
    have begun := (within ▸ tracks.houses).begin stands
    exact (show unfinished.graphs = graph :: outer from within) ▸ begun
  nodes := tracks.nodes.begun relation
  labels := ⟨⟨tracks.labels.labelled.own, tracks.labels.labelled.named,
    tracks.labels.labelled.shared⟩, tracks.labels.bound, tracks.labels.framed⟩
  markers := tracks.markers
  ready := tracks.ready
  setless := tracks.setless

/-- A relation with the data of a copy is one, once it is put into a graph. -/
theorem Model.CopiedRelation.of_related {model copy : Model} {ledger : Ledger}
    {relation : RelationId} {data : Relation} {graph place : GraphId} {type : RelationType}
    (typed : data.type = some type)
    (alike : ∃ known, (model.relation relation).type = some known ∧
      model.hierarchy.relations.Alike copy.hierarchy.relations known type)
    (args : List.Forall₂ (ledger.Cites model) (model.relation relation).args data.args)
    (comment : data.comment = (model.relation relation).comment)
    (role : data.role = (model.relation relation).role)
    (stands : (model.relation relation).graph = some graph) (there : ledger.Graph graph place) :
    model.CopiedRelation (copy.related data place) ledger relation ⟨copy.relations.size⟩ := by
  have made : (copy.related data place).relation ⟨copy.relations.size⟩ =
      { data with graph := some place } := by
    rw [Model.relation_related, if_pos rfl]
  obtain ⟨known, same, alike⟩ := alike
  constructor
  · rw [made, same, typed]
    exact .some alike
  · rw [made]
    exact args
  · rw [made]
    exact comment
  · rw [made]
    exact role
  · rw [made, stands]
    exact .some there

/-- A relation is ended and put into its graph. -/
theorem Tracks.related {model : Model} {unfinished : Unfinished} {writer : Writer}
    {reader : Reader} {graph place : GraphId} {relation : RelationId} {others : List RelationId}
    {data : Relation} (tracks : Tracks model unfinished writer reader)
    (open_ : unfinished.pending = relation :: others)
    (stands : (model.relation relation).graph = some graph)
    (last : ∀ other ∈ others, (model.relation other).graph ≠ some graph)
    (inside : place.index < reader.model.graphs.size)
    (copied : model.CopiedRelation (reader.model.related data place) (writer.ledger model) relation
      ⟨reader.model.relations.size⟩) :
    Tracks model { unfinished with pending := others } writer
      (reader.withModel (reader.model.related data place)) where
  first := tracks.first
  houses := tracks.houses
  nodes := by
    have same : unfinished = { unfinished with pending := relation :: others } := by
      cases unfinished; cases open_; rfl
    exact (same ▸ tracks.nodes).related inside stands last copied
  labels := ⟨tracks.labels.labelled, tracks.labels.bound,
    tracks.labels.framed.mono (.refl _) (.of_eq rfl)⟩
  markers := tracks.markers
  ready := tracks.ready
  setless := tracks.setless

/-- Whether the identifiers of all markers written so far have been counted out. -/
def Writer.Counted (model : Model) (writer : Writer) : Prop :=
  ∃ table copies, MarkerTable.Paired model.markers writer.markers table copies

theorem Tracks.counted {model : Model} {unfinished : Unfinished} {writer : Writer}
    {reader : Reader} (tracks : Tracks model unfinished writer reader) : writer.Counted model :=
  ⟨_, _, tracks.markers⟩

/-- Whether writing goes on from a state as long as identifiers are counted out. -/
def Writer.Proceeds (model : Model) (writer after : Writer) : Prop :=
  writer.Counted model → writer.Onward after ∧ after.Counted model

namespace Writer.Proceeds

variable {model : Model} {writer middle after : Writer}

theorem refl (writer : Writer) : writer.Proceeds model writer := fun counted => ⟨.refl _, counted⟩

theorem trans (first : writer.Proceeds model middle) (second : middle.Proceeds model after) :
    writer.Proceeds model after := fun counted =>
  ⟨(first counted).1.trans (second (first counted).2).1, (second (first counted).2).2⟩

/-- Steps that leave the identifiers of markers alone. -/
theorem of_onward (onward : writer.Onward after) (markers : after.markers = writer.markers) :
    writer.Proceeds model after := by
  rintro ⟨table, copies, paired⟩
  exact ⟨onward, table, copies, markers ▸ paired⟩

theorem begin (writer : Writer) (relation : RelationId) :
    writer.Proceeds model (writer.begin relation) :=
  of_onward ⟨List.suffix_rfl, List.suffix_rfl, List.subset_cons_self _ _⟩ rfl

end Writer.Proceeds

/-- A graph has one copy. -/
theorem Tracks.graph_unique {model : Model} {source form : Notation} {unfinished : Unfinished}
    {writer : Writer} {reader : Reader} {graph first second : GraphId}
    (tracks : Tracks model unfinished writer reader) (copyable : model.Copyable source form)
    (one : (writer.ledger model).Graph graph first)
    (two : (writer.ledger model).Graph graph second) : first = second := by
  have inside := one.lt
  have same := (List.getElem?_inj inside (tracks.houses.nodup_opened copyable.toRooted)).mp
    (one.trans two.symm)
  exact congrArg GraphId.mk same

/-- Whether nothing but tokens has been gone past. -/
structure Reader.Past (reader later : Reader) : Prop where
  model : later.model = reader.model
  labels : later.labels = reader.labels
  markers : later.markers = reader.markers
  depth : later.depth = reader.depth

namespace Reader.Past

variable {reader later last : Reader}

theorem refl (reader : Reader) : reader.Past reader := ⟨rfl, rfl, rfl, rfl⟩

theorem next (reader : Reader) : reader.Past reader.next := ⟨rfl, rfl, rfl, rfl⟩

theorem trans (first : reader.Past later) (second : later.Past last) : reader.Past last :=
  ⟨second.model.trans first.model, second.labels.trans first.labels,
    second.markers.trans first.markers, second.depth.trans first.depth⟩

end Reader.Past

/-- Both sides stay in step while tokens are passed over. -/
theorem Tracks.past {model : Model} {unfinished : Unfinished} {writer : Writer}
    {reader later : Reader} (tracks : Tracks model unfinished writer reader)
    (past : reader.Past later) : Tracks model unfinished writer later where
  first := tracks.first
  houses := tracks.houses
  nodes := by
    rw [past.model]
    exact tracks.nodes
  labels := by
    rw [past.model, past.labels]
    exact tracks.labels
  markers := by
    rw [past.model, past.markers]
    exact tracks.markers
  ready := by
    rw [past.model]
    exact tracks.ready
  setless := by
    rw [past.model]
    exact tracks.setless

/-- What has been written by now is read back as far as a rest. -/
structure Reads (model : Model) (unfinished : Unfinished) (writer : Writer) (reader : Reader)
    (rest : List Token) (later : Reader) : Prop where
  tokens : later.tokens = rest
  tracks : Tracks model unfinished writer later
  types : reader.model.hierarchy.Extends later.model.hierarchy

namespace Reads

variable {model : Model} {unfinished : Unfinished} {writer : Writer} {reader next later : Reader}
  {rest : List Token}

theorem of_past (tracks : Tracks model unfinished writer reader) (past : reader.Past later)
    (tokens : later.tokens = rest) : Reads model unfinished writer reader rest later :=
  ⟨tokens, tracks.past past, by rw [past.model]; exact .refl _⟩

/-- What has been read from a later state on has been read from an earlier one on. -/
theorem from_earlier (reads : Reads model unfinished writer next rest later)
    (types : reader.model.hierarchy.Extends next.model.hierarchy) :
    Reads model unfinished writer reader rest later :=
  ⟨reads.tokens, reads.tracks, types.trans reads.types⟩

end Reads

end ConceptualGraph
