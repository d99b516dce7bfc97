/-
Module: ConceptualGraph.Proofs.Lattice.Realized
Purpose: Declarations make a hierarchy exactly if every label is new and every parent is declared
  before its children, and the types of the hierarchy are then ordered as they are declared.
Main exports: Lattice.Declares, Lattice.Declares.declare_iff, Lattice.Realizes,
  Config.hierarchy_realizes
-/
import ConceptualGraph.Proofs.Lattice.Declared

section

open Relation (ReflTransGen)

namespace ConceptualGraph

namespace Lattice

variable {kind : TypeKind} {lattice later : Lattice kind} {type low high : TypeRef kind}
  {types : List (TypeRef kind)} {topLabel bottomLabel lower upper label word : String}
  {declarations before after : List Declaration} {declaration : Declaration}

open Declaration (Names Valid Follows labels)

/-! ## One declaration after others -/

/-- A lattice of declared types: besides the extremes it names the declared types alone, and among
these the one is below the other if the declared parents lead from the one to the other. -/
structure Declares (topLabel bottomLabel : String) (declarations : List Declaration)
    (lattice : Lattice kind) : Prop where
  ordered : lattice.Ordered
  top : lattice.find? topLabel = some top
  bottom : lattice.find? bottomLabel = some bottom
  declared : ∀ declaration ∈ declarations, ∃ type,
    lattice.find? declaration.label = some type ∧ lattice.valence? type = declaration.valence
  nothingElse : ∀ word type, lattice.find? word = some type →
    word = topLabel ∨ word = bottomLabel ∨ word ∈ labels declarations
  below_iff : ∀ lower ∈ topLabel :: labels declarations, ∀ upper ∈ labels declarations,
    ∀ low high, lattice.find? lower = some low → lattice.find? upper = some high →
      (lattice.Below low high ↔ ReflTransGen (Names declarations) lower upper)

/-- A lattice with types declared one after another. -/
def declareAll (lattice : Lattice kind) (declarations : List Declaration) :
    Except ConfigError (Lattice kind) :=
  declarations.foldlM (fun lattice declaration =>
    Config.declare lattice declaration.label declaration.parents declaration.valence) lattice

/-- No two labels name the same type. -/
theorem word_eq_of_find? (first : lattice.find? lower = some type)
    (second : lattice.find? upper = some type) : lower = upper :=
  Option.some.inj ((find?_eq_some_iff.mp first).1.symm.trans (find?_eq_some_iff.mp second).1)

/-- A type that is named is not the one that is made next. -/
theorem ne_new_of_find? (found : lattice.find? word = some type) : type ≠ ⟨lattice.size⟩ :=
  fun same => Nat.ne_of_lt (lt_size_of_find? found) (congrArg TypeRef.index same)

/-- Parents are resolved exactly where every one of them names a type. -/
theorem resolveParents_eq_ok_iff (label : String) {parents : List String} :
    Config.resolveParents lattice label parents = .ok types ↔
      parents.map lattice.find? = types.map some := by
  induction parents generalizing types with
  | nil =>
      cases types with
      | nil => exact iff_of_true rfl rfl
      | cons type types => exact iff_of_false nofun nofun
  | cons parent parents ih =>
      rw [Config.resolveParents, List.map_cons]
      cases found : lattice.find? parent with
      | none => cases types <;> exact iff_of_false nofun nofun
      | some type =>
          cases others : Config.resolveParents lattice label parents with
          | error error =>
              refine iff_of_false nofun fun same => ?_
              obtain ⟨first, rest, -, -, resolved⟩ := List.map_eq_cons_iff.mp same.symm
              rw [ih.mpr resolved.symm] at others
              cases others
          | ok rest =>
              have resolved := ih.mp others
              cases types with
              | nil => exact iff_of_false nofun nofun
              | cons first others =>
                  simp only [Except.map, Except.ok.injEq, List.cons.injEq, List.map_cons,
                    Option.some.injEq, resolved]
                  exact and_congr_right fun _ =>
                    (List.map_injective_iff.mpr fun _ _ => Option.some.inj).eq_iff.symm

/-- A declaration makes a new type if it has a new label, and the types that its parents name are
there and are above some other type. -/
theorem Ordered.declare_eq_ok_iff (ordered : lattice.Ordered) {parents : List String}
    {valence : Option Nat} : Config.declare lattice label parents valence = .ok later ↔
      ∃ types, parents.map lattice.find? = types.map some ∧
        lattice.find? label = none ∧ Lattice.bottom ∉ types ∧
          later = lattice.withDeclared label types valence := by
  simp only [← resolveParents_eq_ok_iff label]
  unfold Config.declare
  cases resolved : Config.resolveParents lattice label parents with
  | error error => exact iff_of_false nofun nofun
  | ok types =>
      simp only [Except.ok.injEq, exists_eq_left', Except.bind, bind, pure, Except.pure]
      cases created : lattice.create label types [] with
      | error error =>
          refine iff_of_false nofun fun ⟨missing, apart, _⟩ => ?_
          have made := (create_eq_ok_iff ordered).mpr ⟨missing, apart, rfl, rfl⟩
          rw [created] at made
          cases made
      | ok result =>
          obtain ⟨type, inserted⟩ := result
          obtain ⟨missing, apart, rfl, rfl⟩ := (create_eq_ok_iff ordered).mp created
          simp only [Except.ok.injEq, missing, apart, not_false_eq_true, true_and]
          exact eq_comm

namespace Declares

variable (declares : Declares topLabel bottomLabel before lattice)

include declares

/-- A type that was declared is found. -/
theorem exists_find?_of_mem (member : word ∈ labels before) :
    ∃ type, lattice.find? word = some type := by
  obtain ⟨declaration, listed, rfl⟩ := List.mem_map.mp member
  exact (declares.declared declaration listed).imp fun _ => And.left

/-- A label is free exactly where it has not been declared and is no extreme's. -/
theorem find?_eq_none_iff : lattice.find? label = none ↔
    label ∉ labels before ∧ label ≠ topLabel ∧ label ≠ bottomLabel := by
  constructor
  · refine fun missing => ⟨fun member => ?_, ?_, ?_⟩
    · obtain ⟨type, found⟩ := declares.exists_find?_of_mem member
      rw [missing] at found
      cases found
    · rintro rfl
      cases missing.symm.trans declares.top
    · rintro rfl
      cases missing.symm.trans declares.bottom
  · rintro ⟨new, notTop, notBottom⟩
    cases found : lattice.find? label with
    | none => rfl
    | some type =>
        rcases declares.nothingElse label type found with top | bottom | member
        · exact absurd top notTop
        · exact absurd bottom notBottom
        · exact absurd member new

/-- The types that can be parents are those that have been declared, and the greatest. -/
theorem parent_iff (valid : Valid topLabel bottomLabel before) :
    (∃ type, lattice.find? word = some type ∧ type ≠ Lattice.bottom) ↔
      word = topLabel ∨ word ∈ labels before := by
  constructor
  · rintro ⟨type, found, apart⟩
    rcases declares.nothingElse word type found with top | rfl | member
    · exact .inl top
    · exact absurd (Option.some.inj (found.symm.trans declares.bottom)) apart
    · exact .inr member
  · rintro (rfl | member)
    · exact ⟨_, declares.top, nofun⟩
    · obtain ⟨type, found⟩ := declares.exists_find?_of_mem member
      refine ⟨type, found, fun least => (valid.apart word member).2 ?_⟩
      exact word_eq_of_find? found (least ▸ declares.bottom)

/-- A declaration is accepted after others exactly if it may follow them. -/
theorem declare_iff (valid : Valid topLabel bottomLabel before) :
    (∃ later, Config.declare lattice declaration.label declaration.parents declaration.valence =
      .ok later) ↔ Follows topLabel bottomLabel before declaration := by
  simp only [declares.ordered.declare_eq_ok_iff]
  constructor
  · rintro ⟨later, types, named, missing, apart, -⟩
    obtain ⟨new, notExtreme⟩ := declares.find?_eq_none_iff.mp missing
    refine ⟨new, notExtreme, fun parent member => (declares.parent_iff valid).mp ?_⟩
    obtain ⟨type, listed, found⟩ :=
      List.mem_map.mp (named ▸ List.mem_map_of_mem (f := lattice.find?) member)
    exact ⟨type, found.symm, fun same => apart (same ▸ listed)⟩
  · intro follows
    have known (parent) (member : parent ∈ declaration.parents) :=
      (declares.parent_iff valid).mpr (follows.parents parent member)
    choose! type found apart using known
    refine ⟨_, declaration.parents.map type, ?_,
      declares.find?_eq_none_iff.mpr ⟨follows.new, follows.apart⟩, fun least => ?_, rfl⟩
    · rw [List.map_map]
      exact List.map_congr_left found
    · obtain ⟨parent, member, same⟩ := List.mem_map.mp least
      exact apart parent member same

/-- The types under which a declared one comes lead where the declared parents do. -/
theorem exists_parent_below_iff (valid : Valid topLabel bottomLabel before)
    (follows : Follows topLabel bottomLabel before declaration)
    (named : declaration.parents.map lattice.find? = types.map some)
    (member : upper ∈ labels before) (found : lattice.find? upper = some high) :
    (∃ type ∈ (if types.isEmpty then [Lattice.top] else types), lattice.Below type high) ↔
      ∃ parent ∈ declaration.parents, ReflTransGen (Names before) parent upper := by
  have path (parent) (listed : parent ∈ declaration.parents) (type)
      (here : lattice.find? parent = some type) :
      lattice.Below type high ↔ ReflTransGen (Names before) parent upper :=
    declares.below_iff parent (List.mem_cons.mpr (follows.parents parent listed)) upper member
      type high here found
  split
  · next empty =>
    obtain rfl := List.isEmpty_iff.mp empty
    obtain unnamed : declaration.parents = [] := by simpa using named
    simp only [List.mem_singleton, exists_eq_left, unnamed, List.not_mem_nil, false_and,
      exists_false, iff_false]
    rw [declares.ordered.top_below (lt_size_of_find? found)]
    rintro rfl
    exact (valid.apart upper member).1 (word_eq_of_find? found declares.top)
  · constructor
    · rintro ⟨type, listed, below⟩
      obtain ⟨parent, listed, here⟩ :=
        List.mem_map.mp (named ▸ List.mem_map_of_mem (f := some) listed)
      exact ⟨parent, listed, (path parent listed type here).mp below⟩
    · rintro ⟨parent, listed, leads⟩
      obtain ⟨type, member, here⟩ :=
        List.mem_map.mp (named ▸ List.mem_map_of_mem (f := lattice.find?) listed)
      exact ⟨type, member, (path parent listed type here.symm).mpr leads⟩

/-- The new type is below itself and below what its parents are below, as its label leads to
itself and to where its parents lead. -/
theorem new_below_withDeclared_iff (valid : Valid topLabel bottomLabel before)
    (follows : Follows topLabel bottomLabel before declaration)
    (named : declaration.parents.map lattice.find? = types.map some)
    (member : upper ∈ labels before ∨ upper = declaration.label)
    (found : (if upper = declaration.label then some ⟨lattice.size⟩ else lattice.find? upper) =
      some high) :
    (lattice.withDeclared declaration.label types declaration.valence).Below ⟨lattice.size⟩ high ↔
      ReflTransGen (Names (before ++ [declaration])) declaration.label upper := by
  have notBottom : (⟨lattice.size⟩ : TypeRef kind) ≠ Lattice.bottom := fun same =>
    Nat.ne_of_gt declares.ordered.two_le (congrArg TypeRef.index same)
  rw [declares.ordered.below_withDeclared _ notBottom, new_below,
    Declaration.path_concat valid follows]
  by_cases finish : upper = declaration.label
  · rw [if_pos finish, Option.some.injEq] at found
    exact iff_of_true (.inl found.symm) (.inl finish)
  · rw [if_neg finish] at found
    simp only [ne_new_of_find? found, finish, false_or, true_and]
    exact declares.exists_parent_below_iff valid follows named (member.resolve_right finish) found

/-- No other type is below the new one or comes below anything through it, as no other label leads
to the new one. -/
theorem old_below_withDeclared_iff (valid : Valid topLabel bottomLabel before)
    (follows : Follows topLabel bottomLabel before declaration)
    (lowerMember : lower = topLabel ∨ lower ∈ labels before)
    (upperMember : upper ∈ labels before ∨ upper = declaration.label)
    (lowFound : lattice.find? lower = some low)
    (highFound : (if upper = declaration.label then some ⟨lattice.size⟩
      else lattice.find? upper) = some high) :
    (lattice.withDeclared declaration.label types declaration.valence).Below low high ↔
      ReflTransGen (Names (before ++ [declaration])) lower upper := by
  obtain ⟨type, found, notBottom⟩ := (declares.parent_iff valid).mpr lowerMember
  obtain rfl := Option.some.inj (lowFound.symm.trans found)
  have start : lower ≠ declaration.label := by
    rintro rfl
    exact lowerMember.elim follows.apart.1 follows.new
  rw [declares.ordered.below_withDeclared _ notBottom,
    Declaration.path_concat_of_ne valid follows start]
  simp only [ne_new_of_find? lowFound, false_and, or_false]
  by_cases finish : upper = declaration.label
  · rw [if_pos finish, Option.some.injEq] at highFound
    subst highFound
    rw [declares.ordered.closed.below_new]
    refine iff_of_false (ne_new_of_find? lowFound) fun path => ?_
    rcases path.cases_tail with same | ⟨last, -, step⟩
    · exact start (same ▸ finish)
    · rcases valid.mem_of_names step with top | earlier
      · exact follows.apart.1 (finish ▸ top)
      · exact follows.new (finish ▸ earlier)
  · rw [if_neg finish] at highFound
    exact declares.below_iff lower (List.mem_cons.mpr lowerMember) upper
      (upperMember.resolve_right finish) low high lowFound highFound

/-- Among the types of a lattice with one more declared type, the one is below the other if the
declared parents lead from the one to the other. -/
theorem below_withDeclared_iff (valid : Valid topLabel bottomLabel before)
    (follows : Follows topLabel bottomLabel before declaration)
    (named : declaration.parents.map lattice.find? = types.map some)
    (lowerMember : lower ∈ topLabel :: labels (before ++ [declaration]))
    (upperMember : upper ∈ labels (before ++ [declaration]))
    (lowFound : (if lower = declaration.label then some ⟨lattice.size⟩ else lattice.find? lower) =
      some low)
    (highFound : (if upper = declaration.label then some ⟨lattice.size⟩
      else lattice.find? upper) = some high) :
    (lattice.withDeclared declaration.label types declaration.valence).Below low high ↔
      ReflTransGen (Names (before ++ [declaration])) lower upper := by
  rw [List.mem_cons] at lowerMember
  simp only [labels, List.map_append, List.map_singleton, List.mem_append,
    List.mem_singleton] at lowerMember upperMember
  by_cases start : lower = declaration.label
  · subst start
    rw [if_pos rfl, Option.some.injEq] at lowFound
    subst lowFound
    exact declares.new_below_withDeclared_iff valid follows named upperMember highFound
  · rw [if_neg start] at lowFound
    have old : lower = topLabel ∨ lower ∈ labels before :=
      lowerMember.imp_right (Or.resolve_right · start)
    exact declares.old_below_withDeclared_iff valid follows old upperMember lowFound highFound

/-- A lattice of declared types with one more of them is a lattice of declared types. -/
theorem withDeclared (valid : Valid topLabel bottomLabel before)
    (follows : Follows topLabel bottomLabel before declaration)
    (named : declaration.parents.map lattice.find? = types.map some)
    (apart : Lattice.bottom ∉ types) :
    Declares topLabel bottomLabel (before ++ [declaration])
      (lattice.withDeclared declaration.label types declaration.valence) := by
  have ordered := declares.ordered
  have names (word : String) :
      (lattice.withDeclared declaration.label types declaration.valence).find? word = _ :=
    find?_withDeclared declaration.valence
  have known : ∀ type ∈ types, type.index < lattice.size := fun type listed => by
    obtain ⟨parent, -, here⟩ := List.mem_map.mp (named ▸ List.mem_map_of_mem (f := some) listed)
    exact lt_size_of_find? here
  have other {word} (member : word ∈ topLabel :: labels before) : word ≠ declaration.label := by
    rintro rfl
    exact (List.mem_cons.mp member).elim follows.apart.1 follows.new
  refine ⟨ordered.withDeclared known apart _ _, ?_, ?_, fun next member => ?_,
    fun word type found => ?_, ?_⟩
  · rw [names, if_neg (Ne.symm follows.apart.1), declares.top]
  · rw [names, if_neg (Ne.symm follows.apart.2), declares.bottom]
  · rw [names]
    simp only [valence?_withDeclared]
    rcases List.mem_append.mp member with earlier | new
    · obtain ⟨type, found, valence⟩ := declares.declared next earlier
      exact ⟨type, by rw [if_neg (other (List.mem_cons_of_mem _ (List.mem_map_of_mem earlier))),
        found], by rw [if_neg (ne_new_of_find? found), valence]⟩
    · obtain rfl := List.mem_singleton.mp new
      exact ⟨_, if_pos rfl, if_pos rfl⟩
  · rw [names] at found
    simp only [labels, List.map_append, List.mem_append, List.map_singleton, List.mem_singleton]
    split at found
    · next same => exact .inr (.inr (.inr same))
    · exact (declares.nothingElse word type found).imp_right fun rest => rest.imp_right .inl
  · intro lower lowerMember upper upperMember low high lowFound highFound
    rw [names] at lowFound highFound
    exact declares.below_withDeclared_iff valid follows named lowerMember upperMember lowFound
      highFound

/-- What one declaration does after others: it is accepted exactly if it may follow them, and then
makes a lattice of declared types. -/
theorem of_declare (valid : Valid topLabel bottomLabel before)
    (accepted : Config.declare lattice declaration.label declaration.parents declaration.valence =
      .ok later) :
    Declares topLabel bottomLabel (before ++ [declaration]) later := by
  have follows := (declares.declare_iff valid).mp ⟨later, accepted⟩
  obtain ⟨types, named, -, apart, rfl⟩ := declares.ordered.declare_eq_ok_iff.mp accepted
  exact declares.withDeclared valid follows named apart

/-- Declarations are accepted one after another exactly if all of them together are valid. -/
theorem declareAll_iff (valid : Valid topLabel bottomLabel before) :
    (∃ later, lattice.declareAll after = .ok later) ↔
      Valid topLabel bottomLabel (before ++ after) := by
  induction after generalizing before lattice with
  | nil => exact iff_of_true ⟨lattice, rfl⟩ (by simpa using valid)
  | cons declaration after ih =>
      rw [declareAll, List.foldlM_cons, List.append_cons]
      cases accepted : Config.declare lattice declaration.label declaration.parents
          declaration.valence with
      | error error =>
          refine iff_of_false nofun fun all => ?_
          have follows := (Declaration.valid_concat.mp all.of_append).2
          obtain ⟨later, made⟩ := (declares.declare_iff valid).mpr follows
          rw [accepted] at made
          cases made
      | ok later =>
          have follows := (declares.declare_iff valid).mp ⟨later, accepted⟩
          exact ih (declares.of_declare valid accepted)
            (Declaration.valid_concat.mpr ⟨valid, follows⟩)

/-- Declarations that are accepted one after another are all realized. -/
theorem of_declareAll (valid : Valid topLabel bottomLabel before)
    (accepted : lattice.declareAll after = .ok later) :
    Declares topLabel bottomLabel (before ++ after) later := by
  induction after generalizing before lattice with
  | nil =>
      obtain rfl := Except.ok.inj accepted
      simpa using declares
  | cons declaration after ih =>
      rw [declareAll, List.foldlM_cons] at accepted
      rw [List.append_cons]
      cases first : Config.declare lattice declaration.label declaration.parents
          declaration.valence with
      | error error =>
          rw [first] at accepted
          cases accepted
      | ok next =>
          rw [first] at accepted
          have follows := (declares.declare_iff valid).mp ⟨next, first⟩
          exact ih (declares.of_declare valid first)
            (Declaration.valid_concat.mpr ⟨valid, follows⟩) accepted

end Declares

/-- The lattice without any declared type. -/
theorem declares_withExtremes (kind : TypeKind) (different : topLabel ≠ bottomLabel) :
    Declares topLabel bottomLabel [] (withExtremes topLabel bottomLabel : Lattice kind) := by
  have named (place : Nat) : (withExtremes topLabel bottomLabel : Lattice kind).label? ⟨place⟩ =
      if place = 0 then some topLabel else if place = 1 then some bottomLabel else none := by
    unfold withExtremes label?
    rw [node_link_of_keeps TypeNode.label (fun _ _ => rfl) fun _ _ => rfl]
    match place with
    | 0 => rfl
    | 1 => rfl
    | place + 2 => rfl
  refine ⟨.withExtremes _ _, ?_, ?_, nofun, ?_, nofun⟩
  · refine find?_eq_some_iff.mpr ⟨named 0, fun ⟨place⟩ after => ?_⟩
    have beyond : 0 < place := after
    rw [named, if_neg (Nat.ne_of_gt beyond)]
    split
    · exact fun same => different (Option.some.inj same).symm
    · exact nofun
  · refine find?_eq_some_iff.mpr ⟨named 1, fun ⟨place⟩ after => ?_⟩
    have beyond : 1 < place := after
    rw [named, if_neg (by omega), if_neg (by omega)]
    exact nofun
  · rintro word ⟨place⟩ found
    have here := (find?_eq_some_iff.mp found).1
    rw [named] at here
    split at here
    · exact .inl (Option.some.inj here).symm
    · split at here
      · exact .inr (.inl (Option.some.inj here).symm)
      · cases here

/-! ## The hierarchy -/

/-- A lattice whose types are as declared. -/
structure Realizes (declarations : List Declaration) (lattice : Lattice kind) : Prop where
  isSubtype_iff : ∀ lower ∈ labels declarations, ∀ upper ∈ labels declarations,
    ∃ low high, lattice.find? lower = some low ∧ lattice.find? upper = some high ∧
      (lattice.isSubtype low high = true ↔ ReflTransGen (Names declarations) lower upper)
  between : ∀ label ∈ labels declarations, ∃ type, lattice.find? label = some type ∧
    lattice.isSubtype type top = true ∧ lattice.isSubtype bottom type = true
  valence : ∀ declaration ∈ declarations, ∃ type,
    lattice.find? declaration.label = some type ∧ lattice.valence? type = declaration.valence

/-- A lattice that declares what was declared has its order, its extremes and what its types ask
for. -/
theorem Declares.realizes (declares : Declares topLabel bottomLabel declarations lattice) :
    Realizes declarations lattice where
  isSubtype_iff lower lowerMember upper upperMember := by
    obtain ⟨low, lowFound⟩ := declares.exists_find?_of_mem lowerMember
    obtain ⟨high, highFound⟩ := declares.exists_find?_of_mem upperMember
    refine ⟨low, high, lowFound, highFound, ?_⟩
    rw [Lattice.isSubtype_iff declares.ordered.closed]
    exact declares.below_iff lower (List.mem_cons_of_mem _ lowerMember) upper upperMember low high
      lowFound highFound
  between label member := by
    obtain ⟨type, found⟩ := declares.exists_find?_of_mem member
    have inside := lt_size_of_find? found
    simp only [Lattice.isSubtype_iff declares.ordered.closed]
    exact ⟨type, found, declares.ordered.below_top type inside,
      declares.ordered.bottom_below type inside⟩
  valence := declares.declared

end Lattice

namespace Config

/-- The concept types that a configuration declares. -/
abbrev conceptDeclarations (config : Config) : List Declaration :=
  config.conceptTypes.map ConceptTypeDeclaration.declaration

/-- The relation types that a configuration declares. -/
abbrev relationDeclarations (config : Config) : List Declaration :=
  config.relationTypes.map RelationTypeDeclaration.declaration

/-- A configuration gives a hierarchy exactly where the declarations of both lattices are
accepted. -/
theorem hierarchy_eq_ok_iff {config : Config} {hierarchy : Hierarchy} :
    config.hierarchy = .ok hierarchy ↔
      Lattice.declareAll (.withExtremes "Universal" "Absurd") config.conceptDeclarations =
          .ok hierarchy.concepts ∧
        Lattice.declareAll (.withExtremes "Link" "AbsurdLink") config.relationDeclarations =
          .ok hierarchy.relations := by
  have concepts : Lattice.declareAll (.withExtremes "Universal" "Absurd")
      config.conceptDeclarations = config.conceptTypes.foldlM (fun lattice declaration =>
        declare lattice declaration.label declaration.parents none)
        ({} : Hierarchy).concepts := List.foldlM_map
  have relations : Lattice.declareAll (.withExtremes "Link" "AbsurdLink")
      config.relationDeclarations = config.relationTypes.foldlM (fun lattice declaration =>
        declare lattice declaration.label declaration.parents declaration.valence)
        ({} : Hierarchy).relations := List.foldlM_map
  rw [Config.hierarchy, ← concepts, ← relations]
  cases Lattice.declareAll (.withExtremes "Universal" "Absurd") config.conceptDeclarations with
  | error error => exact iff_of_false nofun nofun
  | ok first =>
      cases Lattice.declareAll (.withExtremes "Link" "AbsurdLink")
        config.relationDeclarations with
      | error error => exact iff_of_false nofun nofun
      | ok second =>
          obtain ⟨third, fourth⟩ := hierarchy
          simp [bind, Except.bind, pure, Except.pure]

/-- A configuration makes a hierarchy exactly if its declarations are valid, and the types of the
hierarchy are then as declared. -/
theorem hierarchy_realizes (config : Config) :
    ((∃ hierarchy, config.hierarchy = .ok hierarchy) ↔
      Declaration.Valid "Universal" "Absurd" config.conceptDeclarations ∧
        Declaration.Valid "Link" "AbsurdLink" config.relationDeclarations) ∧
    ∀ hierarchy, config.hierarchy = .ok hierarchy →
      hierarchy.concepts.Realizes config.conceptDeclarations ∧
        hierarchy.relations.Realizes config.relationDeclarations := by
  have concepts := Lattice.declares_withExtremes .concept (show "Universal" ≠ "Absurd" by decide)
  have relations := Lattice.declares_withExtremes .relation (show "Link" ≠ "AbsurdLink" by decide)
  refine ⟨?_, fun hierarchy made => ?_⟩
  · rw [← List.nil_append config.conceptDeclarations, ← concepts.declareAll_iff .nil,
      ← List.nil_append config.relationDeclarations, ← relations.declareAll_iff .nil]
    simp only [hierarchy_eq_ok_iff]
    exact ⟨fun ⟨hierarchy, first, second⟩ => ⟨⟨_, first⟩, _, second⟩,
      fun ⟨⟨first, firstMade⟩, second, secondMade⟩ => ⟨⟨first, second⟩, firstMade, secondMade⟩⟩
  · have ⟨first, second⟩ := hierarchy_eq_ok_iff.mp made
    exact ⟨(concepts.of_declareAll .nil first).realizes,
      (relations.of_declareAll .nil second).realizes⟩

/-- Four concept types declared as a diamond, and a relation type. -/
def diamond : Config where
  conceptTypes := [
    { label := "Being" },
    { label := "Animal", parents := ["Being"] },
    { label := "Agent", parents := ["Being", "Universal"] },
    { label := "Person", parents := ["Animal", "Agent"] }]
  relationTypes := [{ label := "On", valence := some 2 }]

/-- A type with two parents that have one in common, and relation types with and without a
valence. -/
theorem hierarchy_realizes_diamond : ∃ hierarchy, diamond.hierarchy = .ok hierarchy ∧
    hierarchy.concepts.Realizes diamond.conceptDeclarations ∧
      hierarchy.relations.Realizes diamond.relationDeclarations := by
  have accepted : diamond.hierarchy.toOption.isSome = true := by decide +kernel
  cases made : diamond.hierarchy with
  | error error =>
      rw [made] at accepted
      cases accepted
  | ok hierarchy => exact ⟨hierarchy, rfl, (hierarchy_realizes diamond).2 hierarchy made⟩

end Config

end ConceptualGraph

end
