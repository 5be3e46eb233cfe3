import HetidaDesigner.Library.NestedPaths
import HetidaDesigner.Store.Containment

/-!
# Nestings are paths

The table of nestings should contain one row for each path from a workflow through its operators
and those of the workflows they refer to. An update rewrites the rows of one workflow only, so
the rows of the workflows that contain it go stale if its operators change.
-/

namespace HetidaDesigner

open NestedPaths Runs

/-- The row of a path from a workflow. -/
def pathNesting (workflowId : UUID) (first : OperatorRef) (rest : List OperatorRef) : Nesting where
  workflowId := workflowId
  viaTransformationId := first.transformationId
  viaOperatorId := first.operatorId
  depth := rest.length + 1
  nestedTransformationId := (rest.getLastD first).transformationId
  nestedOperatorId := (rest.getLastD first).operatorId

namespace Database

variable {V D : Type}

/-- A path through stored contents. -/
def IsPath (db : Database V D) : UUID → OperatorRef → List OperatorRef → Prop :=
  NestedPaths.IsPath OperatorRef.transformationId fun id ref => ref ∈ db.refs id

/-- The nestings are one row for each path. -/
structure NestingsArePaths (db : Database V D) : Prop where
  one_per_path : ∀ workflowId first rest, db.IsPath workflowId first rest →
    db.nestings.count (pathNesting workflowId first rest) = 1
  path_of_mem : ∀ nesting ∈ db.nestings, ∃ first rest,
    db.IsPath nesting.workflowId first rest ∧ nesting = pathNesting nesting.workflowId first rest

end Database

section Conditions

variable {V D : Type}

/-- The saved operators refer to the same as the stored ones. -/
def SameRefs (db : Database V D) (revision : Revision V D) : Prop :=
  (∀ use ∈ savedUses db revision, use.ref ∈ db.refs revision.id) ∧
    ∀ ref ∈ db.refs revision.id, ∃ use ∈ savedUses db revision, use.ref = ref

/-- A save keeps the operators of a revision that is used elsewhere or deprecated, and unless
it deprecates its operators of stored workflows with operators are workflow operators. -/
def KeepsNestings (db : Database V D) (request : Request V D) : Prop :=
  ∀ revision ∈ request.payload,
    (request.Deprecates ∨ UsedElsewhere db revision.id → SameRefs db revision) ∧
      (¬request.Deprecates → ∀ use ∈ savedUses db revision,
        db.refs use.transformationId ≠ [] → use.type = .workflow)

instance (db : Database V D) (revision : Revision V D) : Decidable (SameRefs db revision) :=
  inferInstanceAs (Decidable (_ ∧ _))

instance (db : Database V D) (request : Request V D) : Decidable (KeepsNestings db request) :=
  inferInstanceAs (Decidable (∀ _ ∈ request.payload, _))

end Conditions

/-! ## Rows of paths -/

section Rows

variable {V D : Type} {db db' : Database V D}

/-- The row of a single operator is its direct nesting. -/
theorem pathNesting_nil (workflowId : UUID) (use : OperatorUse) :
    pathNesting workflowId use.ref [] = use.directNesting workflowId := rfl

/-- The row of a longer path is the deep nesting for the row of its remainder. -/
theorem pathNesting_cons (workflowId : UUID) (use : OperatorUse) (next : OperatorRef)
    (rest : List OperatorRef) :
    pathNesting workflowId use.ref (next :: rest) =
      use.deepNesting workflowId (pathNesting use.transformationId next rest) := by
  unfold pathNesting OperatorUse.deepNesting
  rw [List.getLastD_cons, List.length_cons, Nat.add_comm]
  rfl

/-- The last operator of a path is contained in some workflow. -/
theorem Database.IsPath.exists_mem_refs {id : UUID} {first : OperatorRef}
    {rest : List OperatorRef} (h : db.IsPath id first rest) :
    ∃ last, rest.getLastD first ∈ db.refs last := by
  induction rest generalizing id first with
  | nil => exact ⟨id, h⟩
  | cons next rest ih =>
    rw [List.getLastD_cons]
    exact ih h.2

/-- The first operator of a path is contained in the workflow. -/
theorem Database.IsPath.first_mem_refs {id : UUID} {first : OperatorRef}
    {rest : List OperatorRef} (h : db.IsPath id first rest) : first ∈ db.refs id := by
  cases rest with
  | nil => exact h
  | cons next rest => exact h.1

/-- Two paths from a workflow whose rows have the same key have the same row. -/
theorem pathNesting_eq_of_key_eq (hunique : OperatorIdsUnique db) {id : UUID}
    {first first' : OperatorRef} {rest rest' : List OperatorRef} (h : db.IsPath id first rest)
    (h' : db.IsPath id first' rest')
    (hkey : (pathNesting id first rest).key = (pathNesting id first' rest').key) :
    pathNesting id first rest = pathNesting id first' rest' := by
  obtain ⟨last, hlast⟩ := h.exists_mem_refs
  obtain ⟨last', hlast'⟩ := h'.exists_mem_refs
  simp only [Nesting.key, pathNesting, Prod.mk.injEq, true_and] at hkey
  obtain ⟨hfirst, hlength, hends⟩ := hkey
  have hfirsts := (hunique id id first first' h.first_mem_refs h'.first_mem_refs hfirst).2
  have hlasts := (hunique last last' _ _ hlast hlast' hends).2
  rw [pathNesting, pathNesting, hfirsts, hlength, ← hfirsts, hlasts, hfirsts]

/-- The rows are exactly those of the paths. -/
def PathsInTable (db : Database V D) : Prop :=
  ∀ nesting, nesting ∈ db.nestings ↔ ∃ first rest,
    db.IsPath nesting.workflowId first rest ∧ nesting = pathNesting nesting.workflowId first rest

/-- With distinct keys the rows are exactly one for each path. -/
theorem PathsInTable.nestingsArePaths (h : PathsInTable db) : db.NestingsArePaths where
  one_per_path workflowId first rest hpath := by
    have hmem : pathNesting workflowId first rest ∈ db.nestings :=
      (h _).mpr ⟨first, rest, hpath, rfl⟩
    exact List.count_eq_one_of_mem db.nesting_keys_unique.of_map hmem
  path_of_mem nesting hmem := (h nesting).mp hmem

/-- Nothing has to change if no operator changes. -/
theorem PathsInTable.congr (h : PathsInTable db) (hnestings : db'.nestings = db.nestings)
    (hrefs : ∀ id ref, ref ∈ db.refs id ↔ ref ∈ db'.refs id) : PathsInTable db' := by
  intro nesting
  rw [hnestings, h nesting]
  refine exists_congr fun first => exists_congr fun rest => and_congr_left fun _ => ?_
  exact isPath_congr hrefs

/-- Generating the nestings of a workflow again is right if the paths from other workflows stay. -/
theorem PathsInTable.rebuild (h : PathsInTable db) {id : UUID} {uses : List OperatorUse}
    (hrebuilt : Rebuilt db.nestings db'.nestings id uses)
    (hrefs : db'.refs id = uses.map OperatorUse.ref) (hunique : OperatorIdsUnique db')
    (htypes : ∀ use ∈ uses, db.refs use.transformationId ≠ [] → use.type = .workflow)
    (hpaths : ∀ other, other ≠ id → ∀ first rest,
      db.IsPath other first rest ↔ db'.IsPath other first rest) : PathsInTable db' := by
  have hpath_of_generated : ∀ nesting, Generated db.nestings id uses nesting →
      ∃ first rest, db'.IsPath id first rest ∧ nesting = pathNesting id first rest := by
    rintro nesting ⟨use, huse, hnesting⟩
    have href : use.ref ∈ db'.refs id := hrefs ▸ List.mem_map_of_mem huse
    rcases hnesting with rfl | ⟨descendant, ⟨-, hmem, hworkflow⟩, rfl⟩
    · exact ⟨use.ref, [], href, (pathNesting_nil id use).symm⟩
    · obtain ⟨next, rest, hpath, hdescendant⟩ := (h descendant).mp hmem
      rw [hworkflow] at hpath hdescendant
      refine ⟨use.ref, next :: rest, ⟨href, ?_⟩, ?_⟩
      · exact (hpaths use.transformationId (hrebuilt.no_self use huse) next rest).mp hpath
      · rw [pathNesting_cons, ← hdescendant]
  have hgenerated_of_path : ∀ first rest, db'.IsPath id first rest →
      Generated db.nestings id uses (pathNesting id first rest) := by
    intro first rest hpath
    have hfirst := hpath.first_mem_refs
    rw [hrefs] at hfirst
    obtain ⟨use, huse, rfl⟩ := List.mem_map.mp hfirst
    refine ⟨use, huse, ?_⟩
    cases rest with
    | nil => exact Or.inl (pathNesting_nil id use)
    | cons next rest =>
      have hrest : db.IsPath use.transformationId next rest :=
        (hpaths use.transformationId (hrebuilt.no_self use huse) next rest).mpr hpath.2
      have htype := htypes use huse (List.ne_nil_of_mem hrest.first_mem_refs)
      refine Or.inr ⟨pathNesting use.transformationId next rest, ⟨htype, ?_, rfl⟩,
        pathNesting_cons id use next rest⟩
      exact (h _).mpr ⟨next, rest, hrest, rfl⟩
  intro nesting
  by_cases hworkflow : nesting.workflowId = id
  · constructor
    · intro hmem
      rw [hworkflow]
      exact hpath_of_generated nesting (hrebuilt.generated nesting hmem hworkflow)
    · rintro ⟨first, rest, hpath, hnesting⟩
      rw [hworkflow] at hpath hnesting
      obtain ⟨other, hother, hkey⟩ := hrebuilt.keys _ (hgenerated_of_path first rest hpath)
      have hworkflow' : other.workflowId = id := congrArg Prod.fst hkey
      obtain ⟨first', rest', hpath', rfl⟩ :=
        hpath_of_generated other (hrebuilt.generated other hother hworkflow')
      rw [hnesting, pathNesting_eq_of_key_eq hunique hpath hpath' hkey.symm]
      exact hother
  · rw [hrebuilt.others nesting hworkflow, h nesting]
    refine exists_congr fun first => exists_congr fun rest => and_congr_left fun _ => ?_
    exact hpaths nesting.workflowId hworkflow first rest

/-- A deletion removes the rows of the deleted workflow. -/
theorem PathsInTable.delete (h : PathsInTable db) {id : UUID} (hdeletes : Deletes db db' id) :
    PathsInTable db' := by
  have hunreferred : ∀ other ref, other ≠ id → ref ∈ db.refs other → ref.transformationId ≠ id := by
    intro other ref hother href heq
    have hmem : pathNesting other ref [] ∈ db.nestings := (h _).mpr ⟨ref, [], href, rfl⟩
    refine hdeletes.unused _ hmem hother ?_
    simp [Nesting.references, pathNesting, heq]
  have hsame : ∀ other ref, other ≠ id → (ref ∈ db.refs other ↔ ref ∈ db'.refs other) := by
    intro other ref hother
    rw [hdeletes.refs, if_neg hother]
  intro nesting
  rw [hdeletes.nestings, h nesting]
  by_cases hworkflow : nesting.workflowId = id
  · simp only [hworkflow, ne_eq, not_true_eq_false, and_false, false_iff, not_exists, not_and]
    intro first rest hpath
    have hfirst := hpath.first_mem_refs
    rw [hdeletes.refs, if_pos rfl] at hfirst
    simp at hfirst
  · rw [and_iff_left hworkflow]
    refine exists_congr fun first => exists_congr fun rest => and_congr_left fun _ => ?_
    exact isPath_of_unreferred hsame hunreferred hworkflow

end Rows

/-! ## Runs -/

section Runs

variable [UnicodeData] {V D : Type} [DecidableEq V] [DecidableEq D] {db db' : Database V D}
  {tools : CodeTools V D}

/-- What is kept along runs: the rows are those of the paths, operator ids are unique, and
components have no operators. -/
structure NestingInvariant (db : Database V D) : Prop where
  paths : PathsInTable db
  ids : OperatorIdsUnique db
  components : ComponentsPlain db

omit [UnicodeData] [DecidableEq V] [DecidableEq D] in
/-- The empty store has no rows and no paths. -/
theorem NestingInvariant.empty : NestingInvariant (.empty : Database V D) where
  paths nesting := by
    refine ⟨fun hmem => absurd hmem List.not_mem_nil, ?_⟩
    rintro ⟨first, rest, hpath, -⟩
    exact absurd hpath.first_mem_refs List.not_mem_nil
  ids id id' ref ref' href := absurd href List.not_mem_nil
  components id shape hshape := by cases hshape

omit [UnicodeData] [DecidableEq V] [DecidableEq D] in
/-- The rows stay right if a save keeps nestings. -/
theorem NestingInvariant.paths_save (h : NestingInvariant db) {request : Request V D}
    {revision : Revision V D} (hpayload : revision ∈ request.payload)
    (hsaves : Saves db db' request revision) (hkeeps : KeepsNestings db request)
    (hunique : OperatorIdsUnique db') : PathsInTable db' := by
  have hrefs := hsaves.refs
  obtain ⟨saved, hsaved, hcomponent, hpropagated⟩ := hsaves
  obtain ⟨hsame, htypes⟩ := hkeeps revision hpayload
  have hrefs_of_same (hsame : SameRefs db revision) :
      ∀ id ref, ref ∈ db.refs id ↔ ref ∈ db'.refs id := by
    intro id ref
    rw [hrefs]
    split
    · rename_i hid
      rw [hid, List.mem_map]
      refine ⟨hsame.2 ref, ?_⟩
      rintro ⟨use, huse, rfl⟩
      exact hsame.1 use huse
    · rfl
  cases hpropagated with
  | marked hpassedOn hnestings _ =>
    exact h.paths.congr hnestings (hrefs_of_same (hsame (Or.inl hpassedOn)))
  | kept _ htype hnestings _ =>
    refine h.paths.congr hnestings (hrefs_of_same ?_)
    have huses : db.refs revision.id = [] := by
      cases hshape : db.shape revision.id with
      | none => rw [Database.refs, Database.uses, hshape]; rfl
      | some shape =>
        rw [Database.refs, Database.uses_of_shape hshape, h.components _ shape hshape]
        · rfl
        · exact (hsaved.type_eq shape hshape).trans (hsaved.type.symm.trans htype)
    have hsavedUses : (savedUses db revision).map OperatorUse.ref = [] := by
      rw [← hsaved.map_ref, hcomponent htype]
      rfl
    refine ⟨fun use huse => ?_, fun ref href => ?_⟩
    · exact absurd (List.mem_map_of_mem huse) (hsavedUses ▸ List.not_mem_nil)
    · exact absurd href (huses ▸ List.not_mem_nil)
  | rebuilt hactive hrebuilt _ =>
    refine h.paths.rebuild hrebuilt ?_ hunique (fun use huse hne => ?_) ?_
    · rw [hrefs, if_pos rfl, hsaved.map_ref]
    · rw [hsaved.uses] at huse
      obtain ⟨use', huse', rfl⟩ := List.mem_map.mp huse
      rw [OperatorUse.mark_type]
      exact htypes hactive use' huse' (by rwa [OperatorUse.mark_transformationId] at hne)
    · intro other hother first rest
      by_cases hused : UsedElsewhere db revision.id
      · exact isPath_congr (hrefs_of_same (hsame (Or.inr hused)))
      · refine isPath_of_unreferred (fun id ref hid => ?_) (fun id ref hid href heq => ?_) hother
        · rw [hrefs, if_neg hid]
        · obtain ⟨row, hrow, rfl⟩ := Database.exists_row_of_mem_refs href
          exact hused ⟨row, hrow, hid, ref, href, heq⟩

omit [UnicodeData] [DecidableEq V] [DecidableEq D] in
/-- The row of a single operator tells the operator. -/
theorem eq_of_pathNesting_nil {id : UUID} {ref first : OperatorRef} {rest : List OperatorRef}
    (h : pathNesting id ref [] = pathNesting id first rest) : first = ref ∧ rest = [] := by
  simp only [pathNesting, Nesting.mk.injEq, true_and, List.length_nil] at h
  obtain ⟨hvia, hoperator, hdepth, -⟩ := h
  have hrest : rest = [] := List.length_eq_zero_iff.mp (Nat.succ.inj hdepth).symm
  exact ⟨OperatorRef.ext hoperator.symm hvia.symm, hrest⟩

omit [UnicodeData] [DecidableEq V] [DecidableEq D] in
/-- The row of two operators tells both. -/
theorem eq_of_pathNesting_pair {id : UUID} {ref next first : OperatorRef}
    {rest : List OperatorRef} (h : pathNesting id ref [next] = pathNesting id first rest) :
    first = ref ∧ rest = [next] := by
  simp only [pathNesting, Nesting.mk.injEq, true_and] at h
  obtain ⟨hvia, hoperator, hdepth, hnested, hlast⟩ := h
  obtain ⟨next', rfl⟩ := List.length_eq_one_iff.mp (Nat.succ.inj hdepth).symm
  have hnext : next' = next := OperatorRef.ext hlast.symm hnested.symm
  exact ⟨OperatorRef.ext hoperator.symm hvia.symm, by rw [hnext]⟩

omit [UnicodeData] [DecidableEq V] [DecidableEq D] in
/-- A workflow contains an operator exactly if there is its direct row. -/
theorem PathsInTable.mem_refs_iff (h : PathsInTable db) {id : UUID} {ref : OperatorRef} :
    ref ∈ db.refs id ↔ pathNesting id ref [] ∈ db.nestings := by
  rw [h]
  refine ⟨fun href => ⟨ref, [], href, rfl⟩, ?_⟩
  rintro ⟨first, rest, hpath, hrow⟩
  obtain ⟨rfl, rfl⟩ := eq_of_pathNesting_nil hrow
  exact hpath

omit [UnicodeData] [DecidableEq V] [DecidableEq D] in
/-- What a used workflow contains can be read off the rows of a workflow that uses it. -/
theorem PathsInTable.mem_refs_iff_of_used (h : PathsInTable db) {id : UUID} {ref : OperatorRef}
    (href : ref ∈ db.refs id) {next : OperatorRef} :
    next ∈ db.refs ref.transformationId ↔ pathNesting id ref [next] ∈ db.nestings := by
  rw [h]
  refine ⟨fun hnext => ⟨ref, [next], ⟨href, hnext⟩, rfl⟩, ?_⟩
  rintro ⟨first, rest, hpath, hrow⟩
  obtain ⟨rfl, rfl⟩ := eq_of_pathNesting_pair hrow
  exact hpath.2

omit [UnicodeData] [DecidableEq V] [DecidableEq D] in
/-- Nestings of other workflows do not change with a save. -/
theorem Propagated.mem_nestings_other {deprecates : Prop} {id : UUID} {saved : Shape}
    (h : Propagated db db' deprecates id saved) {nesting : Nesting}
    (hother : nesting.workflowId ≠ id) : nesting ∈ db'.nestings ↔ nesting ∈ db.nestings := by
  cases h with
  | marked _ hnestings _ | kept _ _ hnestings _ => rw [hnestings]
  | rebuilt _ hrebuilt _ => exact hrebuilt.others nesting hother

omit [UnicodeData] [DecidableEq V] [DecidableEq D] in
/-- The rows are right after a save only if it keeps nestings. -/
theorem NestingInvariant.keeps_of_paths (h : NestingInvariant db) {request : Request V D}
    {revision : Revision V D} (hpayload : revision ∈ request.payload)
    (hsaves : Saves db db' request revision) (hids : SavesUniqueOperatorIds db request)
    (hpaths : PathsInTable db') : KeepsNestings db request := by
  have hrefs := hsaves.refs
  intro revision' hrevision'
  obtain rfl : revision = revision' := Option.mem_unique hpayload hrevision'
  obtain ⟨hnodup, -⟩ := hids revision hpayload
  obtain ⟨saved, hsaved, hcomponent, hpropagated⟩ := hsaves
  have hsame_of_iff (hiff : ∀ ref, ref ∈ db'.refs revision.id ↔ ref ∈ db.refs revision.id) :
      SameRefs db revision := by
    rw [hrefs, if_pos rfl] at hiff
    exact ⟨fun use huse => (hiff use.ref).mp (List.mem_map_of_mem huse),
      fun ref href => List.mem_map.mp ((hiff ref).mpr href)⟩
  refine ⟨fun hcases => hsame_of_iff fun ref => ?_, fun hactive use huse hne => ?_⟩
  · by_cases hdeprecates : request.Deprecates
    · cases hpropagated with
      | marked _ hnestings _ => rw [hpaths.mem_refs_iff, hnestings, h.paths.mem_refs_iff]
      | rebuilt hactive _ _ | kept hactive _ _ _ => exact absurd hdeprecates hactive
    · obtain ⟨row, -, hother, user, huser, hself⟩ := hcases.resolve_left hdeprecates
      have huser' : user ∈ db'.refs row.id := by rwa [hrefs, if_neg hother]
      rw [← hself, hpaths.mem_refs_iff_of_used huser', h.paths.mem_refs_iff_of_used huser]
      exact hpropagated.mem_nestings_other hother
  · have href : use.ref ∈ db'.refs revision.id := by
      rw [hrefs, if_pos rfl]
      exact List.mem_map_of_mem huse
    have hsavedUse : use.mark (Pulled db.shape (db.shape revision.id) use) ∈ saved.uses := by
      rw [hsaved.uses]
      exact List.mem_map_of_mem huse
    obtain ⟨next, hnext⟩ := List.exists_mem_of_ne_nil _ hne
    cases hpropagated with
    | marked hdeprecates _ _ => exact absurd hdeprecates hactive
    | kept _ htype _ _ => exact absurd (hcomponent htype ▸ hsavedUse) List.not_mem_nil
    | rebuilt _ hrebuilt _ =>
      have hnoSelf : use.transformationId ≠ revision.id := by
        simpa using hrebuilt.no_self _ hsavedUse
      have hnext' : next ∈ db'.refs use.transformationId := by rwa [hrefs, if_neg hnoSelf]
      have hrow := (hpaths.mem_refs_iff_of_used href).mp hnext'
      obtain ⟨use', huse', hdirect | ⟨descendant, ⟨htype, -⟩, hdeep⟩⟩ :=
        hrebuilt.generated _ hrow rfl
      · have hdepth := congrArg Nesting.depth hdirect
        simp [pathNesting, OperatorUse.directNesting] at hdepth
      · rw [hsaved.uses] at huse'
        obtain ⟨original, horiginal, rfl⟩ := List.mem_map.mp huse'
        have hid : use.operatorId = original.operatorId := by
          have hvia := congrArg Nesting.viaOperatorId hdeep
          simpa [pathNesting, OperatorUse.deepNesting, OperatorUse.ref] using hvia
        rw [List.inj_on_of_nodup_map hnodup huse horiginal hid]
        simpa using htype

/-- A request that keeps nestings keeps the invariant. -/
theorem NestingInvariant.step (h : NestingInvariant db) {request : Request V D}
    (hvalid : request.WellTyped) (hids : SavesUniqueOperatorIds db request)
    (hkeeps : KeepsNestings db request) (hok : handle tools db request = .ok db') :
    NestingInvariant db' := by
  rcases saves_or_deletes hvalid hok with ⟨revision, hpayload, hsaves⟩ | ⟨id, hdeletes⟩
  · have hunique := h.ids.save hpayload hids hsaves
    exact ⟨h.paths_save hpayload hsaves hkeeps hunique, hunique, h.components.save hsaves⟩
  · exact ⟨h.paths.delete hdeletes, h.ids.delete hdeletes, h.components.delete hdeletes⟩

omit [UnicodeData] [DecidableEq V] [DecidableEq D] in
/-- The rows of paths are in the table if it has one row for each path. -/
theorem Database.NestingsArePaths.pathsInTable (h : db.NestingsArePaths) : PathsInTable db := by
  refine fun nesting => ⟨h.path_of_mem nesting, ?_⟩
  rintro ⟨first, rest, hpath, hnesting⟩
  rw [hnesting, ← List.count_pos_iff, h.one_per_path _ first rest hpath]
  decide

/-- In every run whose requests keep nestings the table has one row for each path, and after a
further request it has only if that keeps nestings. -/
theorem nestingsArePaths_of_run
    (h : Reaches (handle tools) (fun db request => request.WellTyped ∧
      SavesUniqueOperatorIds db request ∧ KeepsNestings db request) .empty db) :
    db.NestingsArePaths ∧ ∀ request db', request.WellTyped → SavesUniqueOperatorIds db request →
      handle tools db request = .ok db' → (db'.NestingsArePaths ↔ KeepsNestings db request) := by
  have hinvariant : NestingInvariant db := by
    refine h.invariant .empty fun s request s' hs hallowed hok => ?_
    exact hs.step hallowed.1 hallowed.2.1 hallowed.2.2 hok
  refine ⟨hinvariant.paths.nestingsArePaths, fun request db' hvalid hids hok => ⟨?_, ?_⟩⟩
  · intro hpaths revision hrevision
    obtain ⟨revision', hrevision', hsaves⟩ := saves_of_payload hvalid
      (Option.isSome_iff_exists.mpr ⟨revision, hrevision⟩) hok
    exact hinvariant.keeps_of_paths hrevision' hsaves hids hpaths.pathsInTable revision hrevision
  · intro hkeeps
    exact (hinvariant.step hvalid hids hkeeps hok).paths.nestingsArePaths

end Runs

/-! ## A nested draft which is edited later -/

/-- Two empty draft workflows, one with an operator of the first of them, and an edit which makes
the second one contain the third. -/
def editedDraft : List (Request ℤ Unit) := [
  plainPut (plainWorkflow 3 .draft []),
  plainPut (plainWorkflow 2 .draft []),
  plainPut (plainWorkflow 1 .draft [workflowOperator 11 2 .draft]),
  plainPut (plainWorkflow 2 .draft [workflowOperator 21 3 .draft])]

/-- All payloads are valid. -/
theorem editedDraft_wellTyped : ∀ request ∈ editedDraft, PlainWellTyped request := by
  simp only [editedDraft, List.forall_mem_cons, List.not_mem_nil, false_imp_iff, implies_true,
    and_true]
  exact ⟨plainPut_wellTyped (by decide), plainPut_wellTyped (by decide),
    plainPut_wellTyped (by decide), plainPut_wellTyped (by decide)⟩

/-- The row of the outer workflow for the new operator is missing. -/
theorem editedDraft_not_nestingsArePaths :
    ¬ ∀ db, Reaches plainHandle (fun db request => PlainWellTyped request ∧
      SavesUniqueOperatorIds db request) .empty db → db.NestingsArePaths := by
  intro h
  obtain ⟨db, hdb, hfirst, hsecond, hmissing⟩ := exists_of_run plainHandle SavesUniqueOperatorIds
    editedDraft .empty (fun db => ⟨11, 2⟩ ∈ db.refs 1 ∧ ⟨21, 3⟩ ∈ db.refs 2 ∧
      pathNesting 1 ⟨11, 2⟩ [⟨21, 3⟩] ∉ db.nestings) (by decide +kernel)
  have hcount := (h db (Reaches.of_run editedDraft_wellTyped hdb)).one_per_path 1 ⟨11, 2⟩
    [⟨21, 3⟩] ⟨hfirst, hsecond⟩
  rw [List.count_eq_zero.mpr hmissing] at hcount
  exact absurd hcount (by decide)

/-- The same workflows in an order in which no used one is edited. -/
def nestedDrafts : List (Request ℤ Unit) := [
  plainPut (plainWorkflow 3 .draft []),
  plainPut (plainWorkflow 2 .draft [workflowOperator 21 3 .draft]),
  plainPut (plainWorkflow 1 .draft [workflowOperator 11 2 .draft])]

/-- In this order there is one row for each path, and it stays so with every request which keeps
nestings. -/
theorem nestedDrafts_nestingsArePaths :
    ∃ db, run plainHandle (fun db request => SavesUniqueOperatorIds db request ∧
        KeepsNestings db request) nestedDrafts .empty = some db ∧
      db.nestings.length = 3 ∧ db.NestingsArePaths ∧
      ∀ request db', PlainWellTyped request → SavesUniqueOperatorIds db request →
        plainHandle db request = .ok db' → (db'.NestingsArePaths ↔ KeepsNestings db request) := by
  obtain ⟨db, hdb, hlength⟩ := exists_of_run plainHandle
    (fun db request => SavesUniqueOperatorIds db request ∧ KeepsNestings db request)
    nestedDrafts .empty (fun db => db.nestings.length = 3) (by decide +kernel)
  have hwellTyped : ∀ request ∈ nestedDrafts, PlainWellTyped request := by
    simp only [nestedDrafts, List.forall_mem_cons, List.not_mem_nil, false_imp_iff, implies_true,
      and_true]
    exact ⟨plainPut_wellTyped (by decide), plainPut_wellTyped (by decide),
      plainPut_wellTyped (by decide)⟩
  exact ⟨db, hdb, hlength,
    @nestingsArePaths_of_run asciiOnly _ _ _ _ _ _ (Reaches.of_run hwellTyped hdb)⟩

end HetidaDesigner
