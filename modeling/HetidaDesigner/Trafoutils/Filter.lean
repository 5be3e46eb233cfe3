import HetidaDesigner.Trafoutils.Nestings
import Mathlib.Data.List.ReduceOption
import Mathlib.Data.List.Sort

/-!
# Filtering and ordering transformation revisions

`trafoutils/filter/mapping.py` with `trafoutils/filter/params.py`, `trafoutils/dependencies.py` and
`structure_ids_by_nesting_level` of `trafoutils/nestings.py`: which revisions of a list are selected,
together with what they depend on, and in which order they are imported.
-/

namespace HetidaDesigner

open Checks KeyedList Depths

/-- The filter criteria; the criterion `unused` is not used here. -/
structure FilterParams where
  type : Option TrafoType
  state : Option State
  categories : Option (List PyStr)
  categoryPrefix : Option PyStr
  revisionGroupId : Option UUID
  ids : Option (List UUID)
  names : Option (List PyStr)
  includeDeprecated : Bool
  includeDependencies : Bool

/-- Reasons for not filtering. -/
inductive FilterError
  | nesting (error : NestingError)
  | keyError
  deriving DecidableEq, Repr

/-- Missing entries of dictionaries are reported by a `KeyError`. -/
def FilterError.isKeyError : FilterError → Bool
  | .nesting error => error = .missingReferencedTransformation
  | .keyError => true

/-- A dictionary from ids to whether the filter lets them pass. -/
abbrev FilterMap := UUID → Option Bool

section Definitions

variable {V W : Type}

/-- `get_direct_dependencies` -/
def getDirectDependencies (trafo : TransformationRevision V W) : List UUID :=
  match trafo.type with
  | .component => []
  | .workflow => trafo.operators.map fun operator => operator.transformationId

/-- The ids structured by levels, in the order in which the levels occur. -/
def structureIdsByNestingLevel (transformationDict : TransformationDict V W) :
    Except NestingError (List (ℕ × List UUID)) := do
  let levels ← transformationDict.mapM fun entry => do
    return (entry.1, ← nestingLevel transformationDict entry.1)
  return (groupBy Prod.snd levels).map fun group => (group.1, group.2.map Prod.fst)

/-- The criteria which do not consider dependencies, all of which must be met. -/
def FilterParams.allows (params : FilterParams) (trafo : TransformationRevision V W) : Bool :=
  (params.type.all fun type => trafo.type = type) &&
  (params.state.all fun state => trafo.state = state) &&
  (params.categories.all fun categories => trafo.category ∈ categories) &&
  (params.categoryPrefix.all fun categoryPrefix => categoryPrefix.isPrefixOf trafo.category) &&
  (params.revisionGroupId.all fun revisionGroupId => trafo.revisionGroupId = revisionGroupId) &&
  (params.ids.all fun ids => trafo.id ∈ ids) &&
  (params.names.all fun names => trafo.name ∈ names) &&
  (params.includeDeprecated || trafo.state ≠ .disabled)

/-- `basic_trafo_filter_map` -/
def basicTrafoFilterMap (transformationRevisions : List (TransformationRevision V W))
    (params : FilterParams) : FilterMap :=
  transformationRevisions.foldl
    (fun filterMap trafo => Function.update filterMap trafo.id (some (params.allows trafo)))
    (transformationRevisions.foldl
      (fun filterMap trafo => Function.update filterMap trafo.id (some true)) fun _ => none)

/-- The ids from the lowest level to the highest. -/
def idsByIncreasingLevel (idsByNestingLevel : List (ℕ × List UUID)) : List UUID :=
  (idsByNestingLevel.mergeSort fun a b => a.1 ≤ b.1).flatMap Prod.snd

/-- The ids from the highest level to the lowest. -/
def idsByDecreasingLevel (idsByNestingLevel : List (ℕ × List UUID)) : List UUID :=
  (idsByNestingLevel.mergeSort fun a b => b.1 ≤ a.1).flatMap Prod.snd

/-- Let the dependencies of a transformation revision pass if it passes. -/
def passDependencies (transformationDict : TransformationDict V W) (filterMap : FilterMap)
    (transformationId : UUID) : Except FilterError FilterMap :=
  match filterMap transformationId with
  | none => .error .keyError
  | some false => .ok filterMap
  | some true =>
    match transformationDict.lookup transformationId with
    | none => .error .keyError
    | some transformation => .ok ((getDirectDependencies transformation).foldl
        (fun filterMap dependency => Function.update filterMap dependency (some true)) filterMap)

/-- `update_filter_for_dependencies`. An assignment to an entry of a dictionary never raises a
`KeyError`, so the flag `raise_on_missing_dependency` is without effect. -/
def updateFilterForDependencies (filterMap : FilterMap)
    (idsByNestingLevel : List (ℕ × List UUID)) (transformationDict : TransformationDict V W)
    (_raiseOnMissingDependency : Bool) : Except FilterError FilterMap :=
  (idsByDecreasingLevel idsByNestingLevel).foldlM (passDependencies transformationDict) filterMap

/-- The dictionary of the revisions of a list; of those with the same id the last one counts. -/
def transformationDict (transformationRevisions : List (TransformationRevision V W)) :
    TransformationDict V W :=
  insertAll Prod.fst [] (transformationRevisions.map fun trafo => (trafo.id, trafo))

/-- `complete_trafo_filter_map` -/
def completeTrafoFilterMap (transformationRevisions : List (TransformationRevision V W))
    (params : FilterParams) (idsByNestingLevel : List (ℕ × List UUID))
    (raiseOnMissingDependency : Bool) : Except FilterError FilterMap :=
  let filterMap := basicTrafoFilterMap transformationRevisions params
  if params.includeDependencies then
    updateFilterForDependencies filterMap idsByNestingLevel
      (transformationDict transformationRevisions) raiseOnMissingDependency
  else .ok filterMap

/-- The revision with an id, if the filter lets it pass. -/
def passingTrafo (transformationDict : TransformationDict V W) (filterMap : FilterMap)
    (transformationId : UUID) : Except FilterError (Option (TransformationRevision V W)) :=
  match filterMap transformationId with
  | none => .error .keyError
  | some false => .ok none
  | some true =>
    match transformationDict.lookup transformationId with
    | none => .error .keyError
    | some transformation => .ok (some transformation)

/-- `filter_and_order_trafos` -/
def filterAndOrderTrafos (transformationRevisions : List (TransformationRevision V W))
    (params : FilterParams) (raiseOnMissingDependency : Bool) :
    Except FilterError (List (TransformationRevision V W)) := do
  let dict := transformationDict transformationRevisions
  let idsByNestingLevel ← (structureIdsByNestingLevel dict).mapError .nesting
  let filterMap ← completeTrafoFilterMap transformationRevisions params idsByNestingLevel
    raiseOnMissingDependency
  let passing ← (idsByIncreasingLevel idsByNestingLevel).mapM (passingTrafo dict filterMap)
  return passing.reduceOption

end Definitions

/-! ## Levels -/

section Levels

variable {V W : Type} {dict : TransformationDict V W}

/-- The ids with a level are grouped by it. -/
structure GroupsIds (ids : List UUID) (level : UUID → ℕ) (groups : List (ℕ × List UUID)) :
    Prop where
  levels_nodup : (groups.map Prod.fst).Nodup
  eq_filter : ∀ group ∈ groups, group.2 = ids.filter fun id => level id = group.1
  complete : ∀ id ∈ ids, ∃ group ∈ groups, id ∈ group.2

/-- Grouping ids with their levels groups them by levels. -/
theorem groupsIds_groupBy (ids : List UUID) (level : UUID → ℕ) :
    GroupsIds ids level ((groupBy Prod.snd (ids.map fun id => (id, level id))).map
      fun group => (group.1, group.2.map Prod.fst)) := by
  refine ⟨?_, fun group hgroup => ?_, fun id hid => ?_⟩
  · rw [List.map_map]
    exact groupBy_nodup _
  · obtain ⟨pairs, hmem, rfl⟩ := List.mem_map.mp hgroup
    dsimp only
    rw [eq_filter_of_mem_groupBy hmem, List.filter_map, List.map_map]
    exact List.map_id _
  · have hpair : (id, level id) ∈ ids.map fun id => (id, level id) := List.mem_map_of_mem hid
    obtain ⟨group, hgroup, hmem⟩ := (@exists_mem_groupBy_iff _ _ _ Prod.snd _ _).mpr hpair
    exact ⟨_, List.mem_map_of_mem hgroup, List.mem_map_of_mem hmem⟩

/-- Structuring ids groups them by levels. -/
theorem structureIds_eq_ok (hcontents : ContentsFit dict) {groups : List (ℕ × List UUID)}
    (h : structureIdsByNestingLevel dict = .ok groups) :
    (∀ id ∈ dict.map Prod.fst, HasDepth (nestingView dict) id (depth (nestingView dict) id)) ∧
      GroupsIds (dict.map Prod.fst) (depth (nestingView dict)) groups := by
  obtain ⟨levels, hlevels, h⟩ := bind_eq_ok.mp h
  obtain rfl := return_eq_ok.mp h
  have hlevel : ∀ entry ∈ dict, nestingLevel dict entry.1 =
      .ok (depth (nestingView dict) entry.1) := by
    intro entry hentry
    obtain ⟨pair, -, hpair⟩ := exists_of_mapM hlevels hentry
    obtain ⟨level, hlevel, -⟩ := bind_eq_ok.mp hpair
    rw [hlevel, ((nestingLevel_eq_ok_iff hcontents).mp hlevel).depth_eq]
  have hpairs : levels = (dict.map Prod.fst).map fun id => (id, depth (nestingView dict) id) := by
    rw [List.map_map, ← List.map_id levels]
    refine map_eq_of_mapM hlevels fun entry pair hpair => ?_
    obtain ⟨level, hlevel, hpair⟩ := bind_eq_ok.mp hpair
    obtain rfl := return_eq_ok.mp hpair
    rw [id, Function.comp_apply, ((nestingLevel_eq_ok_iff hcontents).mp hlevel).depth_eq]
  refine ⟨fun id hid => ?_, ?_⟩
  · obtain ⟨entry, hentry, rfl⟩ := List.mem_map.mp hid
    exact (nestingLevel_eq_ok_iff hcontents).mp (hlevel entry hentry)
  · rw [hpairs]
    exact groupsIds_groupBy _ _

/-- Whatever the levels are, ids are grouped by them. -/
theorem exists_groupsIds {groups : List (ℕ × List UUID)}
    (h : structureIdsByNestingLevel dict = .ok groups) :
    ∃ level, GroupsIds (dict.map Prod.fst) level groups := by
  obtain ⟨levels, hlevels, h⟩ := bind_eq_ok.mp h
  obtain rfl := return_eq_ok.mp h
  have hpairs : levels = (dict.map Prod.fst).map fun id =>
      (id, (nestingLevel dict id).toOption.getD 0) := by
    rw [List.map_map, ← List.map_id levels]
    refine map_eq_of_mapM hlevels fun entry pair hpair => ?_
    obtain ⟨level, hlevel, hpair⟩ := bind_eq_ok.mp hpair
    obtain rfl := return_eq_ok.mp hpair
    rw [id, Function.comp_apply, hlevel]
    rfl
  rw [hpairs]
  exact ⟨_, groupsIds_groupBy _ _⟩

variable {ids : List UUID} {level : UUID → ℕ} {groups sorted : List (ℕ × List UUID)}

/-- The ids in the groups. -/
theorem GroupsIds.mem_iff (h : GroupsIds ids level groups) (hperm : sorted.Perm groups)
    (id : UUID) : id ∈ sorted.flatMap Prod.snd ↔ id ∈ ids := by
  rw [List.mem_flatMap]
  constructor
  · rintro ⟨group, hgroup, hid⟩
    rw [h.eq_filter group (hperm.subset hgroup)] at hid
    exact List.mem_of_mem_filter hid
  · intro hid
    obtain ⟨group, hgroup, hid⟩ := h.complete id hid
    exact ⟨group, hperm.symm.subset hgroup, hid⟩

/-- An id in a group has its level. -/
theorem GroupsIds.level_eq (h : GroupsIds ids level groups) {group : ℕ × List UUID}
    (hgroup : group ∈ groups) {id : UUID} (hid : id ∈ group.2) : level id = group.1 := by
  rw [h.eq_filter group hgroup] at hid
  exact of_decide_eq_true (List.mem_filter.mp hid).2

/-- No id is in the groups twice. -/
theorem GroupsIds.nodup (h : GroupsIds ids level groups) (hperm : sorted.Perm groups)
    (hids : ids.Nodup) : (sorted.flatMap Prod.snd).Nodup := by
  refine List.nodup_flatMap.mpr ⟨fun group hgroup => ?_, ?_⟩
  · rw [h.eq_filter group (hperm.subset hgroup)]
    exact hids.filter _
  · have hlevels : sorted.Pairwise fun a b => a.1 ≠ b.1 :=
      List.pairwise_map.mp ((hperm.map Prod.fst).nodup_iff.mpr h.levels_nodup)
    refine List.Pairwise.imp_of_mem (fun {a b} ha hb hne id hida hidb => hne ?_) hlevels
    rw [← h.level_eq (hperm.subset ha) hida, ← h.level_eq (hperm.subset hb) hidb]

/-- The levels of the ids in sorted groups. -/
theorem GroupsIds.pairwise (h : GroupsIds ids level groups) (hperm : sorted.Perm groups)
    {r : ℕ → ℕ → Prop} (hrefl : ∀ n, r n n) (hsorted : sorted.Pairwise fun a b => r a.1 b.1) :
    (sorted.flatMap Prod.snd).Pairwise fun a b => r (level a) (level b) := by
  refine List.pairwise_flatMap.mpr ⟨fun group hgroup => ?_, ?_⟩
  · refine List.pairwise_of_forall_mem_list fun a ha b hb => ?_
    rw [h.level_eq (hperm.subset hgroup) ha, h.level_eq (hperm.subset hgroup) hb]
    exact hrefl _
  · refine List.Pairwise.imp_of_mem (fun {g g'} hg hg' hle a ha b hb => ?_) hsorted
    rwa [h.level_eq (hperm.subset hg) ha, h.level_eq (hperm.subset hg') hb]

/-- The order from the lowest level to the highest. -/
theorem GroupsIds.increasing (h : GroupsIds ids level groups) :
    (idsByIncreasingLevel groups).Pairwise fun a b => level a ≤ level b := by
  refine h.pairwise (List.mergeSort_perm _ _) le_refl ?_
  have hsorted := @List.pairwise_mergeSort _ (fun a b : ℕ × List UUID => decide (a.1 ≤ b.1))
    (fun a b c hab hbc => by simp at *; omega) (fun a b => by simp; omega) groups
  exact hsorted.imp fun h => of_decide_eq_true h

/-- The order from the highest level to the lowest. -/
theorem GroupsIds.decreasing (h : GroupsIds ids level groups) :
    (idsByDecreasingLevel groups).Pairwise fun a b => level b ≤ level a := by
  refine h.pairwise (r := fun n m => m ≤ n) (List.mergeSort_perm _ _) le_refl ?_
  have hsorted := @List.pairwise_mergeSort _ (fun a b : ℕ × List UUID => decide (b.1 ≤ a.1))
    (fun a b c hab hbc => by simp at *; omega) (fun a b => by simp; omega) groups
  exact hsorted.imp fun h => of_decide_eq_true h

end Levels

/-! ## Marks -/

section Marks

variable {V W : Type} {trafos : List (TransformationRevision V W)} {params : FilterParams}

/-- The dependencies of a revision by its id. -/
def dependenciesOf (dict : TransformationDict V W) (id : UUID) : List UUID :=
  (dict.lookup id).elim [] getDirectDependencies

/-- Whether a revision meets the criteria, by its id. -/
def selectedIds (dict : TransformationDict V W) (params : FilterParams) (id : UUID) : Bool :=
  (dict.lookup id).any params.allows

/-- The ids which a filter map lets pass. -/
def FilterMap.passes (filterMap : FilterMap) (id : UUID) : Bool := filterMap id = some true

/-- The dictionary of a list with one more revision. -/
theorem lookup_transformationDict_concat (trafo : TransformationRevision V W) (id : UUID) :
    (transformationDict (trafos ++ [trafo])).lookup id =
      if id = trafo.id then some trafo else (transformationDict trafos).lookup id := by
  rw [transformationDict, List.map_append, List.map_cons, List.map_nil, insertAll_concat,
    list_lookup_insertEntry]
  rfl

/-- The revisions in the dictionary of a list. -/
theorem of_lookup_transformationDict {id : UUID} {trafo : TransformationRevision V W}
    (h : (transformationDict trafos).lookup id = some trafo) : trafo.id = id ∧ trafo ∈ trafos := by
  have hmem := mem_of_mem_insertAll_nil (mem_of_lookup_eq_some h)
  obtain ⟨trafo', htrafo', heq⟩ := List.mem_map.mp hmem
  obtain ⟨rfl, rfl⟩ := Prod.mk.inj heq
  exact ⟨rfl, htrafo'⟩

/-- Entries for all revisions of a list; of those with the same id the last one counts. -/
theorem foldl_entries (entry : TransformationRevision V W → Bool) (filterMap : FilterMap)
    (id : UUID) :
    trafos.foldl (fun (filterMap : FilterMap) trafo =>
        Function.update filterMap trafo.id (some (entry trafo))) filterMap id =
      (((transformationDict trafos).lookup id).map entry).or (filterMap id) := by
  induction trafos using List.reverseRecOn with
  | nil => rfl
  | append_singleton trafos trafo ih =>
    rw [List.foldl_append, List.foldl_cons, List.foldl_nil, lookup_transformationDict_concat,
      Function.update_apply, ih]
    split <;> rfl

/-- The filter map of the criteria. -/
theorem basicTrafoFilterMap_eq (id : UUID) :
    basicTrafoFilterMap trafos params id =
      ((transformationDict trafos).lookup id).map params.allows := by
  rw [basicTrafoFilterMap, foldl_entries, foldl_entries]
  cases (transformationDict trafos).lookup id <;> rfl

/-- What passes after the dependencies of one revision have been let pass. -/
theorem foldl_pass_eq_some_true (filterMap : FilterMap) (dependencies : List UUID) (id : UUID) :
    (dependencies.foldl (fun filterMap dependency =>
      Function.update filterMap dependency (some true)) filterMap id = some true ↔
        filterMap id = some true ∨ id ∈ dependencies) ∧
    (filterMap id ≠ none → dependencies.foldl (fun filterMap dependency =>
      Function.update filterMap dependency (some true)) filterMap id ≠ none) := by
  induction dependencies generalizing filterMap with
  | nil => simp
  | cons dependency rest ih =>
    rw [List.foldl_cons]
    obtain ⟨hpass, hkeep⟩ := ih (Function.update filterMap dependency (some true))
    rw [hpass, List.mem_cons, Function.update_apply]
    rw [Function.update_apply] at hkeep
    by_cases hid : id = dependency
    · simp only [hid, if_true, true_or, or_true, true_and]
      exact fun _ => by simpa [hid] using hkeep
    · simp only [hid, if_false, false_or, true_and] at hkeep ⊢
      exact hkeep

/-- Letting dependencies pass is a sweep. -/
theorem foldlM_passDependencies {dict : TransformationDict V W} {ids : List UUID}
    {filterMap : FilterMap} (hknown : ∀ id ∈ ids, dict.lookup id ≠ none)
    (hentry : ∀ id ∈ ids, filterMap id ≠ none) :
    ∃ filterMap' : FilterMap, ids.foldlM (passDependencies dict) filterMap = .ok filterMap' ∧
      filterMap'.passes = sweep (dependenciesOf dict) filterMap.passes ids ∧
      ∀ id, filterMap id ≠ none → filterMap' id ≠ none := by
  induction ids generalizing filterMap with
  | nil => exact ⟨filterMap, rfl, rfl, fun _ h => h⟩
  | cons id rest ih =>
    obtain ⟨hfirstKnown, hknown⟩ := List.forall_mem_cons.mp hknown
    obtain ⟨hfirstEntry, hentry⟩ := List.forall_mem_cons.mp hentry
    obtain ⟨trafo, htrafo⟩ := Option.ne_none_iff_exists'.mp hfirstKnown
    obtain ⟨pass, hpass⟩ := Option.ne_none_iff_exists'.mp hfirstEntry
    obtain ⟨between, hbetween, hmarks, hkeeps⟩ : ∃ between : FilterMap,
        passDependencies dict filterMap id = .ok between ∧
          between.passes = markChildren (dependenciesOf dict) filterMap.passes id ∧
          ∀ other, filterMap other ≠ none → between other ≠ none := by
      unfold passDependencies
      rw [hpass, htrafo]
      cases pass with
      | false =>
        refine ⟨filterMap, rfl, ?_, fun _ h => h⟩
        rw [markChildren, if_neg (by simp [FilterMap.passes, hpass])]
      | true =>
        refine ⟨_, rfl, ?_, fun other => (foldl_pass_eq_some_true filterMap _ other).2⟩
        funext other
        rw [Bool.eq_iff_iff, markChildren_eq_true]
        simp only [FilterMap.passes, decide_eq_true_eq, (foldl_pass_eq_some_true _ _ _).1, hpass,
          true_and, dependenciesOf, htrafo, Option.elim_some]
    obtain ⟨filterMap', hresult, hpasses, hkeeps'⟩ :=
      ih hknown (fun other hother => hkeeps other (hentry other hother))
    refine ⟨filterMap', ?_, ?_, fun other h => hkeeps' other (hkeeps other h)⟩
    · rw [List.foldlM_cons, hbetween]
      exact hresult
    · rw [hpasses, hmarks]
      rfl

/-- The passing revisions. -/
theorem mapM_passingTrafo {dict : TransformationDict V W} {ids : List UUID}
    {filterMap : FilterMap} (hknown : ∀ id ∈ ids, dict.lookup id ≠ none)
    (hentry : ∀ id ∈ ids, filterMap id ≠ none) :
    ∃ passing, ids.mapM (passingTrafo dict filterMap) = .ok passing ∧
      passing.reduceOption = (ids.filter filterMap.passes).filterMap (dict.lookup ·) := by
  induction ids with
  | nil => exact ⟨[], rfl, rfl⟩
  | cons id rest ih =>
    obtain ⟨hfirstKnown, hknown⟩ := List.forall_mem_cons.mp hknown
    obtain ⟨hfirstEntry, hentry⟩ := List.forall_mem_cons.mp hentry
    obtain ⟨trafo, htrafo⟩ := Option.ne_none_iff_exists'.mp hfirstKnown
    obtain ⟨pass, hpass⟩ := Option.ne_none_iff_exists'.mp hfirstEntry
    obtain ⟨passing, hpassing, heq⟩ := ih hknown hentry
    rw [List.mapM_cons, hpassing]
    cases pass with
    | false =>
      refine ⟨none :: passing, ?_, ?_⟩
      · rw [passingTrafo, hpass]
        rfl
      · rw [List.filter_cons_of_neg (by simp [FilterMap.passes, hpass]),
          List.reduceOption_cons_of_none, heq]
    | true =>
      refine ⟨some trafo :: passing, ?_, ?_⟩
      · rw [passingTrafo, hpass]
        dsimp only
        rw [htrafo]
        rfl
      · rw [List.filter_cons_of_pos (by simp [FilterMap.passes, hpass]),
          List.reduceOption_cons_of_some, heq, List.filterMap_cons, htrafo]

/-- A passing revision is found under its id. -/
theorem lookup_of_passingTrafo {dict : TransformationDict V W} {filterMap : FilterMap} {id : UUID}
    {trafo : TransformationRevision V W} (h : passingTrafo dict filterMap id = .ok (some trafo)) :
    dict.lookup id = some trafo := by
  unfold passingTrafo at h
  split at h
  · cases h
  · cases h
  · split at h
    · cases h
    · rename_i transformation hlookup
      cases h
      exact hlookup

/-- The ids of passing revisions are among those given, in their order. -/
theorem map_id_passing_sublist {ids : List UUID} {filterMap : FilterMap}
    {passing : List (Option (TransformationRevision V W))}
    (h : ids.mapM (passingTrafo (transformationDict trafos) filterMap) = .ok passing) :
    (passing.reduceOption.map fun trafo => trafo.id).Sublist ids := by
  induction ids generalizing passing with
  | nil =>
    obtain rfl := return_eq_ok.mp h
    exact .slnil
  | cons id rest ih =>
    rw [List.mapM_cons] at h
    obtain ⟨first, hfirst, h⟩ := bind_eq_ok.mp h
    obtain ⟨others, hothers, h⟩ := bind_eq_ok.mp h
    obtain rfl := return_eq_ok.mp h
    cases first with
    | none =>
      rw [List.reduceOption_cons_of_none]
      exact (ih hothers).cons id
    | some trafo =>
      rw [List.reduceOption_cons_of_some, List.map_cons,
        (of_lookup_transformationDict (lookup_of_passingTrafo hfirst)).1]
      exact (ih hothers).cons_cons id

/-! ## Filtering -/

/-- What is returned has been found under its id, and no id occurs twice. -/
theorem filterAndOrderTrafos_eq_ok {raiseOnMissingDependency : Bool}
    {result : List (TransformationRevision V W)}
    (h : filterAndOrderTrafos trafos params raiseOnMissingDependency = .ok result) :
    (result.map fun trafo => trafo.id).Nodup ∧
      ∀ trafo ∈ result, (transformationDict trafos).lookup trafo.id = some trafo := by
  obtain ⟨groups, hgroups, h⟩ := bind_eq_ok.mp h
  obtain ⟨filterMap, -, h⟩ := bind_eq_ok.mp h
  obtain ⟨passing, hpassing, h⟩ := bind_eq_ok.mp h
  obtain rfl := return_eq_ok.mp h
  obtain ⟨level, hids⟩ := exists_groupsIds (mapError_eq_ok.mp hgroups)
  constructor
  · have hnodup := hids.nodup (List.mergeSort_perm groups (fun a b => decide (a.1 ≤ b.1)))
      (insertAll_nil_nodup _)
    exact hnodup.sublist (map_id_passing_sublist hpassing)
  · intro trafo htrafo
    obtain ⟨id, -, hid⟩ := exists_argument_of_mapM hpassing (List.reduceOption_mem_iff.mp htrafo)
    have hlookup := lookup_of_passingTrafo hid
    rwa [(of_lookup_transformationDict hlookup).1]

/-- The ids which pass the filter, if the levels are those given. -/
def passingIds (trafos : List (TransformationRevision V W)) (params : FilterParams)
    (groups : List (ℕ × List UUID)) : UUID → Bool :=
  if params.includeDependencies then
    sweep (dependenciesOf (transformationDict trafos))
      (selectedIds (transformationDict trafos) params) (idsByDecreasingLevel groups)
  else selectedIds (transformationDict trafos) params

/-- What `filter_and_order_trafos` returns if the levels are determined. -/
theorem filterAndOrderTrafos_of_levels (hcontents : ContentsFit (transformationDict trafos))
    {groups : List (ℕ × List UUID)}
    (hgroups : structureIdsByNestingLevel (transformationDict trafos) = .ok groups)
    (raiseOnMissingDependency : Bool) :
    filterAndOrderTrafos trafos params raiseOnMissingDependency =
      .ok (((idsByIncreasingLevel groups).filter (passingIds trafos params groups)).filterMap
        ((transformationDict trafos).lookup ·)) := by
  obtain ⟨-, hids⟩ := structureIds_eq_ok hcontents hgroups
  have hknown : ∀ id ∈ (transformationDict trafos).map Prod.fst,
      (transformationDict trafos).lookup id ≠ none := fun id hid hnone =>
    lookup_eq_none_iff_notMem.mp hnone hid
  have hentry : ∀ id ∈ (transformationDict trafos).map Prod.fst,
      basicTrafoFilterMap trafos params id ≠ none := by
    intro id hid
    rw [basicTrafoFilterMap_eq, Ne, Option.map_eq_none_iff]
    exact hknown id hid
  have hpasses : (basicTrafoFilterMap trafos params).passes =
      selectedIds (transformationDict trafos) params := by
    funext id
    rw [FilterMap.passes, basicTrafoFilterMap_eq, selectedIds]
    cases (transformationDict trafos).lookup id with
    | none => rfl
    | some trafo => cases hallows : params.allows trafo <;> simp [hallows]
  have hmem := fun id => (hids.mem_iff (List.mergeSort_perm groups
    (fun a b => decide (a.1 ≤ b.1))) id).mp
  have hmem' := fun id => (hids.mem_iff (List.mergeSort_perm groups
    (fun a b => decide (b.1 ≤ a.1))) id).mp
  obtain ⟨filterMap, hfilterMap, hmarks, hkeeps⟩ : ∃ filterMap : FilterMap,
      completeTrafoFilterMap trafos params groups raiseOnMissingDependency = .ok filterMap ∧
        filterMap.passes = passingIds trafos params groups ∧
        ∀ id, basicTrafoFilterMap trafos params id ≠ none → filterMap id ≠ none := by
    unfold completeTrafoFilterMap passingIds
    cases params.includeDependencies with
    | false => exact ⟨_, rfl, hpasses, fun _ h => h⟩
    | true =>
      obtain ⟨filterMap, hresult, hmarks, hkeeps⟩ :=
        @foldlM_passDependencies V W (transformationDict trafos) (idsByDecreasingLevel groups)
          (basicTrafoFilterMap trafos params) (fun id hid => hknown id (hmem' id hid))
          (fun id hid => hentry id (hmem' id hid))
      exact ⟨filterMap, hresult, hmarks.trans (by rw [hpasses]; rfl), hkeeps⟩
  obtain ⟨passing, hpassing, heq⟩ := @mapM_passingTrafo V W (transformationDict trafos)
    (idsByIncreasingLevel groups) filterMap (fun id hid => hknown id (hmem id hid))
    (fun id hid => hkeeps id (hentry id (hmem id hid)))
  refine bind_eq_ok.mpr ⟨groups, by rw [hgroups]; rfl, bind_eq_ok.mpr ⟨filterMap, hfilterMap,
    bind_eq_ok.mpr ⟨passing, hpassing, return_eq_ok.mpr ?_⟩⟩⟩
  rw [heq, hmarks]

/-- Without levels nothing is returned. -/
theorem filterAndOrderTrafos_of_error {error : NestingError}
    (herror : structureIdsByNestingLevel (transformationDict trafos) = .error error)
    (raiseOnMissingDependency : Bool) :
    filterAndOrderTrafos trafos params raiseOnMissingDependency = .error (.nesting error) := by
  simp only [filterAndOrderTrafos, herror]
  rfl

end Marks

end HetidaDesigner
