import HetidaDesigner.Library.Batches
import HetidaDesigner.Validation.IoInterface
import HetidaDesigner.Wirings.Described

/-!
# Resolution in place

The wiring of a request is changed while it is resolved, so a resolution which fails may leave it
changed in part. And the database may return the rows of a batch in any order. Resolution does what
it should exactly if the ids of each side are distinct and rows which come in another order than
their ids change the wirings in the same way, or, for missing records, if one side has none at all.
-/

namespace HetidaDesigner

open Checks KeyedList

variable {J : Type}

/-- How the database answers the queries for a batch of ids: with the rows of these ids, in some
order. -/
structure BatchQueries (db : StructureDb (JsonValue J)) where
  sources : List UUID → List (StructureServiceSource (JsonValue J))
  sinks : List UUID → List (StructureServiceSink (JsonValue J))
  sources_perm : ∀ batch, (sources batch).Perm (db.sources.filter fun row => row.id ∈ batch)
  sinks_perm : ∀ batch, (sinks batch).Perm (db.sinks.filter fun row => row.id ∈ batch)

/-- Queries which are answered in the order of the table. -/
def tableQueries (db : StructureDb (JsonValue J)) : BatchQueries db where
  sources batch := db.sources.filter fun row => row.id ∈ batch
  sinks batch := db.sinks.filter fun row => row.id ∈ batch
  sources_perm _ := .refl _
  sinks_perm _ := .refl _

/-- The rows of all batches one after the other. -/
def batchRows (query : List UUID → List (SourceOrSink (JsonValue J))) (ids : List UUID) :
    List (SourceOrSink (JsonValue J)) :=
  (ids.toChunks ((ids.length + 499) / 500)).flatMap query

/-- The functions `fetch_collection_of_sources_from_db_by_id` and its counterpart for sinks, given
the answers to the queries. -/
def fetchBatches (query : List UUID → List (SourceOrSink (JsonValue J))) (ids : List UUID) :
    Except ResolutionError (List (SourceOrSink (JsonValue J))) :=
  if ids = [] then .ok []
  else
    let found := dictById (fun row => row.id) (batchRows query ids)
    if found.isEmpty then .error .adapterHandling else .ok found

/-- The sources or sinks which the wirings of one side refer to, given the answers to the
queries. -/
def fetchVirtual (numerals : NumeralTables)
    (query : List UUID → List (SourceOrSink (JsonValue J)))
    (wirings : List (Wiring (WiringData J))) :
    Except ResolutionError (List (SourceOrSink (JsonValue J))) := do
  let ids ← (wirings.filter isVirtual).mapM (virtualId numerals)
  fetchBatches query ids

/-- The loop which changes virtual wirings by the records they are paired with: whether there were
as many records as virtual wirings, and the wirings after it. -/
def replaceInPlace (change : SourceOrSink (JsonValue J) → Wiring (WiringData J) →
    Wiring (WiringData J)) : List (Wiring (WiringData J)) → List (SourceOrSink (JsonValue J)) →
      Bool × List (Wiring (WiringData J))
  | [], records => (records.isEmpty, [])
  | wiring :: rest, records =>
    if isVirtual wiring then
      match records with
      | [] => (false, wiring :: rest)
      | record :: records =>
        let replaced := replaceInPlace change rest records
        (replaced.1, change record wiring :: replaced.2)
    else
      let replaced := replaceInPlace change rest records
      (replaced.1, wiring :: replaced.2)

/-- `resolve_virtual_structure_wirings`: whether it succeeds, and the wiring after it. The metadata
of sources is added last, to the wirings which they have changed. -/
def resolveInPlace (numerals : NumeralTables) {db : StructureDb (JsonValue J)}
    (queries : BatchQueries db) (wiring : WorkflowWiring (WiringData J)) :
    Except ResolutionError Unit × WorkflowWiring (WiringData J) :=
  match fetchVirtual numerals queries.sources wiring.inputWirings with
  | .error error => (.error error, wiring)
  | .ok sources =>
    match fetchVirtual numerals queries.sinks wiring.outputWirings with
    | .error error => (.error error, wiring)
    | .ok sinks =>
      let inputs := replaceInPlace updateWirings wiring.inputWirings sources
      let outputs := replaceInPlace updateWirings wiring.outputWirings sinks
      if inputs.1 = false then
        (.error .valueError, { wiring with inputWirings := inputs.2 })
      else if outputs.1 = false then
        (.error .valueError, { wiring with
          inputWirings := inputs.2
          outputWirings := outputs.2 })
      else
        (.ok (), { wiring with
          inputWirings := (replaceInPlace resolveInput wiring.inputWirings sources).2
          outputWirings := outputs.2 })

/-! ## What resolution should do -/

/-- All virtual wirings refer to rows. -/
def AllExist (numerals : NumeralTables) (rows : List (SourceOrSink (JsonValue J)))
    (wirings : List (Wiring (WiringData J))) : Prop :=
  ∀ wiring ∈ wirings, isVirtual wiring = true →
    ∃ record ∈ rows, virtualId numerals wiring = .ok record.id

/-- A wiring after resolution: a virtual one is changed by the row with its own id, and others
stay. -/
def ResolvedBy (numerals : NumeralTables) (rows : List (SourceOrSink (JsonValue J)))
    (change : SourceOrSink (JsonValue J) → Wiring (WiringData J) → Wiring (WiringData J))
    (wiring result : Wiring (WiringData J)) : Prop :=
  (isVirtual wiring = false ∧ result = wiring) ∨
    (isVirtual wiring = true ∧ ∃ record ∈ rows, virtualId numerals wiring = .ok record.id ∧
      result = change record wiring)

/-- If all records exist, each virtual wiring is changed by its own; otherwise the error is the one
for adapters, and the wiring is as it was. -/
structure ResolvesRight (numerals : NumeralTables) {db : StructureDb (JsonValue J)}
    (queries : BatchQueries db) (wiring : WorkflowWiring (WiringData J)) : Prop where
  existing : AllExist numerals db.sources wiring.inputWirings →
    AllExist numerals db.sinks wiring.outputWirings →
      ∃ resolved, resolveInPlace numerals queries wiring = (.ok (), resolved) ∧
        List.Forall₂ (ResolvedBy numerals db.sources resolveInput) wiring.inputWirings
          resolved.inputWirings ∧
        List.Forall₂ (ResolvedBy numerals db.sinks updateWirings) wiring.outputWirings
          resolved.outputWirings ∧
        resolved.dashboardPositionings = wiring.dashboardPositionings
  missing : ¬ (AllExist numerals db.sources wiring.inputWirings ∧
    AllExist numerals db.sinks wiring.outputWirings) →
      resolveInPlace numerals queries wiring = (.error .adapterHandling, wiring)

/-! ## When it does so -/

/-- The ids of the virtual wirings can be read. -/
def IdsReadable (numerals : NumeralTables) (wirings : List (Wiring (WiringData J))) : Prop :=
  ∀ wiring ∈ wirings.filter isVirtual, ∃ id, virtualId numerals wiring = .ok id

/-- There are virtual wirings, and none of them refers to a row. -/
def NoneExists (numerals : NumeralTables) (rows : List (SourceOrSink (JsonValue J)))
    (wirings : List (Wiring (WiringData J))) : Prop :=
  IdsReadable numerals wirings ∧ wirings.filter isVirtual ≠ [] ∧
    ∀ wiring ∈ wirings.filter isVirtual, ∀ record ∈ rows,
      virtualId numerals wiring ≠ .ok record.id

/-- No two virtual wirings have the same id, and rows which the database returns at the place of
others make the same change. -/
structure PairedRight (numerals : NumeralTables) (rows : List (SourceOrSink (JsonValue J)))
    (query : List UUID → List (SourceOrSink (JsonValue J)))
    (change : SourceOrSink (JsonValue J) → Wiring (WiringData J) → Wiring (WiringData J))
    (wirings : List (Wiring (WiringData J))) : Prop where
  distinct : ((wirings.filter isVirtual).map (virtualId numerals)).Nodup
  ordered : ∀ ids, (wirings.filter isVirtual).mapM (virtualId numerals) = .ok ids →
    List.Forall₂ (fun wiring record => ∀ own ∈ rows, virtualId numerals wiring = .ok own.id →
      change record wiring = change own wiring) (wirings.filter isVirtual) (batchRows query ids)

/-- The condition on a wiring and the answers of the database. -/
structure CanResolve (numerals : NumeralTables) {db : StructureDb (JsonValue J)}
    (queries : BatchQueries db) (wiring : WorkflowWiring (WiringData J)) : Prop where
  existing : AllExist numerals db.sources wiring.inputWirings →
    AllExist numerals db.sinks wiring.outputWirings →
      PairedRight numerals db.sources queries.sources resolveInput wiring.inputWirings ∧
        PairedRight numerals db.sinks queries.sinks updateWirings wiring.outputWirings
  missing : ¬ (AllExist numerals db.sources wiring.inputWirings ∧
    AllExist numerals db.sinks wiring.outputWirings) →
      IdsReadable numerals wiring.inputWirings ∧
        (NoneExists numerals db.sources wiring.inputWirings ∨
          NoneExists numerals db.sinks wiring.outputWirings)

/-! ## What is fetched -/

section Fetch

variable {rows : List (SourceOrSink (JsonValue J))}
  {query : List UUID → List (SourceOrSink (JsonValue J))}
  (hquery : ∀ batch, (query batch).Perm (rows.filter fun row => row.id ∈ batch))

include hquery

/-- The rows of all batches are those with one of the ids. -/
theorem mem_batchRows {ids : List UUID} {record : SourceOrSink (JsonValue J)} :
    record ∈ batchRows query ids ↔ record ∈ rows ∧ record.id ∈ ids := by
  have hids : record.id ∈ ids ↔
      ∃ batch ∈ ids.toChunks ((ids.length + 499) / 500), record.id ∈ batch := by
    rw [← List.mem_flatten, Batches.flatten_toChunks]
  rw [batchRows, List.mem_flatMap, hids]
  simp only [(hquery _).mem_iff, List.mem_filter, decide_eq_true_eq]
  constructor
  · intro ⟨batch, hbatch, hrecord, hid⟩
    exact ⟨hrecord, batch, hbatch, hid⟩
  · intro ⟨hrecord, batch, hbatch, hid⟩
    exact ⟨batch, hbatch, hrecord, hid⟩

variable (hrows : (rows.map fun row => row.id).Nodup)

include hrows

/-- Distinct ids get distinct rows. -/
theorem batchRows_nodup {ids : List UUID} (hids : ids.Nodup) :
    ((batchRows query ids).map fun row => row.id).Nodup := by
  have hflatten := Batches.flatten_toChunks ((ids.length + 499) / 500) ids
  rw [← hflatten, List.nodup_flatten] at hids
  obtain ⟨-, hdisjoint⟩ := hids
  rw [batchRows, List.map_flatMap, List.nodup_flatMap]
  constructor
  · intro batch _
    exact ((hquery batch).map _).nodup_iff.mpr (filter_nodup hrows _)
  · refine hdisjoint.imp fun hbatches id hid hid' => ?_
    obtain ⟨record, hrecord, rfl⟩ := List.mem_map.mp hid
    obtain ⟨record', hrecord', hsame⟩ := List.mem_map.mp hid'
    have hmem := (List.mem_filter.mp ((hquery _).mem_iff.mp hrecord)).2
    have hmem' := (List.mem_filter.mp ((hquery _).mem_iff.mp hrecord')).2
    rw [hsame] at hmem'
    exact hbatches (of_decide_eq_true hmem) (of_decide_eq_true hmem')

omit hrows in
/-- The ids of the fetched records. -/
theorem mem_ids_dictById_batchRows {ids : List UUID} {id : UUID} :
    id ∈ (dictById (fun row => row.id) (batchRows query ids)).map (fun row => row.id) ↔
      id ∈ ids ∧ ∃ record ∈ rows, record.id = id := by
  rw [List.mem_map]
  constructor
  · intro ⟨record, hrecord, hid⟩
    obtain ⟨hrow, hmem⟩ := (mem_batchRows hquery).mp (mem_of_mem_dictById hrecord)
    exact ⟨hid ▸ hmem, record, hrow, hid⟩
  · intro ⟨hmem, record, hrow, hid⟩
    obtain ⟨found, hfound, hkey⟩ := exists_mem_dictById
      ((mem_batchRows hquery).mpr ⟨hrow, hid ▸ hmem⟩)
    exact ⟨found, hfound, hkey.trans hid⟩

/-- For distinct ids of existing rows the rows are fetched as they come. -/
theorem dictById_batchRows {ids : List UUID} (hids : ids.Nodup) :
    dictById (fun row => row.id) (batchRows query ids) = batchRows query ids :=
  insertAll_of_nodup (by simpa using batchRows_nodup hquery hrows hids)

omit hrows in
/-- Of ids of existing rows as many records are fetched as there are distinct ids. -/
theorem length_dictById_batchRows {ids : List UUID}
    (hexist : ∀ id ∈ ids, ∃ record ∈ rows, record.id = id) :
    (dictById (fun row => row.id) (batchRows query ids)).length = ids.dedup.length := by
  rw [← List.length_map (f := fun row => row.id)]
  apply List.Perm.length_eq
  rw [List.perm_ext_iff_of_nodup (dictById_nodup _ _) (List.nodup_dedup ids)]
  intro id
  rw [mem_ids_dictById_batchRows hquery, List.mem_dedup]
  exact and_iff_left_of_imp fun hid => hexist id hid

omit hrows in
/-- Fetching fails exactly if there are ids and none of them is one of a row. -/
theorem fetchBatches_eq_error_iff {ids : List UUID} {error : ResolutionError} :
    fetchBatches query ids = .error error ↔ error = .adapterHandling ∧ ids ≠ [] ∧
      ∀ id ∈ ids, ∀ record ∈ rows, record.id ≠ id := by
  unfold fetchBatches
  by_cases hids : ids = []
  · simp [hids]
  · rw [if_neg hids]
    have hempty : (dictById (fun row => row.id) (batchRows query ids)).isEmpty = true ↔
        ∀ id ∈ ids, ∀ record ∈ rows, record.id ≠ id := by
      rw [List.isEmpty_iff, ← List.map_eq_nil_iff (f := fun row => row.id),
        List.eq_nil_iff_forall_not_mem]
      simp only [mem_ids_dictById_batchRows hquery, not_and, not_exists, ne_eq]
    dsimp only
    by_cases hfound : (dictById (fun row => row.id) (batchRows query ids)).isEmpty = true
    · rw [if_pos hfound]
      constructor
      · intro h
        exact ⟨(Except.error.inj h).symm, hids, hempty.mp hfound⟩
      · intro h
        rw [h.1]
    · rw [if_neg hfound]
      refine iff_of_false nofun fun h => ?_
      exact hfound (hempty.mpr h.2.2)

end Fetch

/-! ## The ids of the wirings -/

section Ids

variable {numerals : NumeralTables} {wirings : List (Wiring (WiringData J))}

/-- Reading an id does not fail with the error for adapters. -/
theorem virtualId_ne_adapterHandling (wiring : Wiring (WiringData J)) :
    virtualId numerals wiring ≠ .error .adapterHandling := by
  unfold virtualId
  split
  · simp
  · split <;> simp

/-- All ids can be read exactly if reading them succeeds. -/
theorem idsReadable_iff : IdsReadable numerals wirings ↔
    ∃ ids, (wirings.filter isVirtual).mapM (virtualId numerals) = .ok ids := by
  constructor
  · exact exists_mapM
  · intro ⟨ids, hids⟩ wiring hwiring
    obtain ⟨id, -, hid⟩ := exists_of_mapM hids hwiring
    exact ⟨id, hid⟩

/-- If all records exist, the ids can be read and are those of rows. -/
theorem AllExist.exists_ids {rows : List (SourceOrSink (JsonValue J))}
    (h : AllExist numerals rows wirings) :
    ∃ ids, (wirings.filter isVirtual).mapM (virtualId numerals) = .ok ids ∧
      ∀ id ∈ ids, ∃ record ∈ rows, record.id = id := by
  have hreadable : IdsReadable numerals wirings := by
    intro wiring hwiring
    obtain ⟨hmem, hvirtual⟩ := List.mem_filter.mp hwiring
    obtain ⟨record, -, hid⟩ := h wiring hmem hvirtual
    exact ⟨record.id, hid⟩
  obtain ⟨ids, hids⟩ := idsReadable_iff.mp hreadable
  refine ⟨ids, hids, fun id hid => ?_⟩
  obtain ⟨wiring, hwiring, hok⟩ := exists_argument_of_mapM hids hid
  obtain ⟨hmem, hvirtual⟩ := List.mem_filter.mp hwiring
  obtain ⟨record, hrecord, hrecordId⟩ := h wiring hmem hvirtual
  exact ⟨record, hrecord, Except.ok.inj (hrecordId.symm.trans hok)⟩

/-- Ids which are read one after the other. -/
theorem map_virtualId_of_mapM {ids : List UUID}
    (h : (wirings.filter isVirtual).mapM (virtualId numerals) = .ok ids) :
    (wirings.filter isVirtual).map (virtualId numerals) = ids.map .ok := by
  have hall := mapM_eq_ok.mp h
  generalize wirings.filter isVirtual = virtual at hall
  clear h
  induction hall with
  | nil => rfl
  | cons hfirst _ ih => rw [List.map_cons, List.map_cons, hfirst, ih]

variable {rows : List (SourceOrSink (JsonValue J))}
  {query : List UUID → List (SourceOrSink (JsonValue J))}
  (hquery : ∀ batch, (query batch).Perm (rows.filter fun row => row.id ∈ batch))

include hquery

/-- Fetching fails with the error for adapters exactly if there are virtual wirings, all with
readable ids, and none of them refers to a row. -/
theorem fetchVirtual_eq_adapterHandling_iff :
    fetchVirtual numerals query wirings = .error .adapterHandling ↔
      NoneExists numerals rows wirings := by
  unfold fetchVirtual
  constructor
  · intro h
    cases hids : (wirings.filter isVirtual).mapM (virtualId numerals) with
    | error error =>
      rw [hids] at h
      obtain rfl := Except.error.inj h
      obtain ⟨wiring, -, herror⟩ := exists_of_mapM_error hids
      exact absurd herror (virtualId_ne_adapterHandling wiring)
    | ok ids =>
      rw [hids] at h
      obtain ⟨-, hne, hnone⟩ := (fetchBatches_eq_error_iff hquery).mp h
      refine ⟨idsReadable_iff.mpr ⟨ids, hids⟩, ?_, fun wiring hwiring record hrecord hid => ?_⟩
      · intro hempty
        rw [hempty] at hids
        exact hne (Except.ok.inj hids).symm
      · obtain ⟨id, hmem, hok⟩ := exists_of_mapM hids hwiring
        exact hnone id hmem record hrecord (Except.ok.inj (hid.symm.trans hok))
  · intro ⟨hreadable, hvirtual, hnone⟩
    obtain ⟨ids, hids⟩ := idsReadable_iff.mp hreadable
    rw [hids]
    refine (fetchBatches_eq_error_iff hquery).mpr ⟨rfl, ?_, fun id hid record hrecord hsame => ?_⟩
    · intro hempty
      have hlength := (mapM_eq_ok.mp hids).length_eq
      rw [hempty] at hlength
      exact hvirtual (List.length_eq_zero_iff.mp hlength)
    · obtain ⟨wiring, hwiring, hok⟩ := exists_argument_of_mapM hids hid
      exact hnone wiring hwiring record hrecord (hsame ▸ hok)

/-- If the ids can be read, fetching can fail with the error for adapters only. -/
theorem eq_adapterHandling_of_fetchVirtual (hreadable : IdsReadable numerals wirings)
    {error : ResolutionError} (h : fetchVirtual numerals query wirings = .error error) :
    error = .adapterHandling := by
  obtain ⟨ids, hids⟩ := idsReadable_iff.mp hreadable
  rw [fetchVirtual, hids] at h
  exact ((fetchBatches_eq_error_iff hquery).mp h).1

omit hquery in
/-- Fetched records belong to ids which can be read. -/
theorem idsReadable_of_fetchVirtual {records : List (SourceOrSink (JsonValue J))}
    (h : fetchVirtual numerals query wirings = .ok records) : IdsReadable numerals wirings := by
  obtain ⟨ids, hids, -⟩ := bind_eq_ok.mp h
  exact idsReadable_iff.mpr ⟨ids, hids⟩

/-- If all records exist, they are fetched. -/
theorem fetchVirtual_of_allExist (h : AllExist numerals rows wirings) {ids : List UUID}
    (hids : (wirings.filter isVirtual).mapM (virtualId numerals) = .ok ids) :
    fetchVirtual numerals query wirings =
      .ok (dictById (fun row => row.id) (batchRows query ids)) := by
  obtain ⟨ids', hids', hexist⟩ := h.exists_ids
  obtain rfl := Except.ok.inj (hids.symm.trans hids')
  cases hfetch : fetchVirtual numerals query wirings with
  | error error =>
    rw [fetchVirtual, hids] at hfetch
    obtain ⟨-, hne, hnone⟩ := (fetchBatches_eq_error_iff hquery).mp hfetch
    obtain ⟨id, hid⟩ := List.exists_mem_of_ne_nil _ hne
    obtain ⟨record, hrecord, hsame⟩ := hexist id hid
    exact absurd hsame (hnone id hid record hrecord)
  | ok records =>
    rw [fetchVirtual, hids] at hfetch
    have hfetch : fetchBatches query ids = .ok records := hfetch
    unfold fetchBatches at hfetch
    split at hfetch
    · rename_i hempty
      rw [← hfetch, hempty]
      rfl
    · dsimp only at hfetch
      split at hfetch
      · cases hfetch
      · exact hfetch.symm

end Ids

/-! ## The loops -/

section Replace

variable {change change' : SourceOrSink (JsonValue J) → Wiring (WiringData J) →
  Wiring (WiringData J)}

/-- The loop goes through exactly if there are as many records as virtual wirings. -/
theorem replaceInPlace_fst_iff {wirings : List (Wiring (WiringData J))}
    {records : List (SourceOrSink (JsonValue J))} :
    (replaceInPlace change wirings records).1 = true ↔
      records.length = (wirings.filter isVirtual).length := by
  induction wirings generalizing records with
  | nil => simp [replaceInPlace]
  | cons wiring rest ih =>
    rw [replaceInPlace.eq_def]
    cases hvirtual : isVirtual wiring with
    | false =>
      rw [List.filter_cons_of_neg (by simp [hvirtual]), ← ih]
      simp [hvirtual]
    | true =>
      rw [List.filter_cons_of_pos hvirtual]
      cases records with
      | nil => simp [hvirtual]
      | cons record later => simp [hvirtual, ih]

/-- What holds between the wirings before and after the loop, for wirings which it leaves alone
and for those which it changes. -/
theorem forall₂_replaceInPlace_iff
    {R : Wiring (WiringData J) → Wiring (WiringData J) → Prop}
    (hself : ∀ wiring, isVirtual wiring = false → R wiring wiring)
    {wirings : List (Wiring (WiringData J))} {records : List (SourceOrSink (JsonValue J))}
    (h : records.length = (wirings.filter isVirtual).length) :
    List.Forall₂ R wirings (replaceInPlace change wirings records).2 ↔
      List.Forall₂ (fun wiring record => R wiring (change record wiring))
        (wirings.filter isVirtual) records := by
  induction wirings generalizing records with
  | nil =>
    obtain rfl := List.length_eq_zero_iff.mp h
    simp [replaceInPlace]
  | cons wiring rest ih =>
    rw [replaceInPlace.eq_def]
    cases hvirtual : isVirtual wiring with
    | false =>
      rw [List.filter_cons_of_neg (by simp [hvirtual])] at h ⊢
      simp only [hvirtual, Bool.false_eq_true, if_false]
      rw [List.forall₂_cons, and_iff_right (hself wiring hvirtual), ih h]
    | true =>
      rw [List.filter_cons_of_pos hvirtual] at h ⊢
      cases records with
      | nil => cases h
      | cons record later =>
        simp only [hvirtual, if_true]
        rw [List.forall₂_cons, List.forall₂_cons, ih (Nat.succ.inj h)]

end Replace

/-! ## The whole wiring -/

section Main

variable {numerals : NumeralTables}

/-- For existing records the wirings of a side are paired right exactly if the loop goes through and
changes each wiring by its own row. -/
theorem pairedRight_iff {change : SourceOrSink (JsonValue J) → Wiring (WiringData J) →
      Wiring (WiringData J)}
    (change' : SourceOrSink (JsonValue J) → Wiring (WiringData J) → Wiring (WiringData J))
    {wirings : List (Wiring (WiringData J))} {rows : List (SourceOrSink (JsonValue J))}
    {query : List UUID → List (SourceOrSink (JsonValue J))}
    (hquery : ∀ batch, (query batch).Perm (rows.filter fun row => row.id ∈ batch))
    (hrows : (rows.map fun row => row.id).Nodup) (hexist : AllExist numerals rows wirings)
    {ids : List UUID} (hids : (wirings.filter isVirtual).mapM (virtualId numerals) = .ok ids) :
    PairedRight numerals rows query change wirings ↔
      (replaceInPlace change' wirings
          (dictById (fun row => row.id) (batchRows query ids))).1 = true ∧
        List.Forall₂ (ResolvedBy numerals rows change) wirings
          (replaceInPlace change wirings
            (dictById (fun row => row.id) (batchRows query ids))).2 := by
  obtain ⟨ids', hids', hidsExist⟩ := hexist.exists_ids
  obtain rfl := Except.ok.inj (hids.symm.trans hids')
  have hlength : (wirings.filter isVirtual).length = ids.length := (mapM_eq_ok.mp hids).length_eq
  have hdistinct : ((wirings.filter isVirtual).map (virtualId numerals)).Nodup ↔ ids.Nodup := by
    rw [map_virtualId_of_mapM hids]
    exact List.nodup_map_iff fun _ _ h => Except.ok.inj h
  have hloop : (replaceInPlace change' wirings
      (dictById (fun row => row.id) (batchRows query ids))).1 = true ↔ ids.Nodup := by
    rw [replaceInPlace_fst_iff, length_dictById_batchRows hquery hidsExist, hlength]
    constructor
    · intro h
      rw [← List.dedup_eq_self]
      exact (List.dedup_sublist ids).eq_of_length h
    · intro h
      rw [h.dedup]
  have hordered (hnodup : ids.Nodup) : List.Forall₂ (ResolvedBy numerals rows change) wirings
      (replaceInPlace change wirings (dictById (fun row => row.id) (batchRows query ids))).2 ↔
        List.Forall₂ (fun wiring record => ∀ own ∈ rows, virtualId numerals wiring = .ok own.id →
          change record wiring = change own wiring) (wirings.filter isVirtual)
            (batchRows query ids) := by
    have hrecords : (dictById (fun row => row.id) (batchRows query ids)).length =
        (wirings.filter isVirtual).length := by
      rw [length_dictById_batchRows hquery hidsExist, hlength, hnodup.dedup]
    rw [forall₂_replaceInPlace_iff (fun wiring hvirtual => Or.inl ⟨hvirtual, rfl⟩) hrecords,
      dictById_batchRows hquery hrows hnodup]
    apply forall₂_iff_of_left
    intro wiring hwiring record
    obtain ⟨hmem, hvirtual⟩ := List.mem_filter.mp hwiring
    constructor
    · intro hresolved own hown hid
      rcases hresolved with ⟨hnot, -⟩ | ⟨-, record', hrecord', hid', hchange⟩
      · exact absurd hvirtual (by simp [hnot])
      · have hsame : record'.id = own.id := Except.ok.inj (hid'.symm.trans hid)
        rw [hchange, KeyedList.eq_of_key_eq hrows hrecord' hown hsame]
    · intro hall
      obtain ⟨own, hown, hid⟩ := hexist wiring hmem hvirtual
      exact Or.inr ⟨hvirtual, own, hown, hid, hall own hown hid⟩
  rw [hloop]
  constructor
  · intro h
    have hnodup := hdistinct.mp h.distinct
    exact ⟨hnodup, (hordered hnodup).mpr (h.ordered ids hids)⟩
  · intro ⟨hnodup, hresolved⟩
    refine ⟨hdistinct.mpr hnodup, fun ids' hids' => ?_⟩
    obtain rfl := Except.ok.inj (hids.symm.trans hids')
    exact (hordered hnodup).mp hresolved

variable {db : StructureDb (JsonValue J)} {queries : BatchQueries db}
  {wiring : WorkflowWiring (WiringData J)}

/-- The error is the one for adapters and the wiring is left alone exactly if the ids of the inputs
can be read and one side has no record. -/
theorem resolveInPlace_eq_adapterHandling_iff :
    resolveInPlace numerals queries wiring = (.error .adapterHandling, wiring) ↔
      IdsReadable numerals wiring.inputWirings ∧
        (NoneExists numerals db.sources wiring.inputWirings ∨
          NoneExists numerals db.sinks wiring.outputWirings) := by
  have hsources : fetchVirtual numerals queries.sources wiring.inputWirings =
      .error .adapterHandling ↔ NoneExists numerals db.sources wiring.inputWirings :=
    fetchVirtual_eq_adapterHandling_iff queries.sources_perm
  have hsinks : fetchVirtual numerals queries.sinks wiring.outputWirings =
      .error .adapterHandling ↔ NoneExists numerals db.sinks wiring.outputWirings :=
    fetchVirtual_eq_adapterHandling_iff queries.sinks_perm
  unfold resolveInPlace
  cases hinputs : fetchVirtual numerals queries.sources wiring.inputWirings with
  | error error =>
    constructor
    · intro h
      obtain rfl := Except.error.inj (Prod.mk.inj h).1
      have hnone := hsources.mp hinputs
      exact ⟨hnone.1, Or.inl hnone⟩
    · intro ⟨hreadable, _⟩
      rw [eq_adapterHandling_of_fetchVirtual queries.sources_perm hreadable hinputs]
  | ok sources =>
    have hnotSources : ¬ NoneExists numerals db.sources wiring.inputWirings := by
      rw [← hsources, hinputs]
      exact nofun
    rw [and_iff_right (idsReadable_of_fetchVirtual hinputs), or_iff_right hnotSources, ← hsinks]
    cases fetchVirtual numerals queries.sinks wiring.outputWirings with
    | error error =>
      constructor
      · intro h
        rw [(Except.error.inj (Prod.mk.inj h).1)]
      · intro h
        rw [(Except.error.inj h)]
    | ok sinks =>
      refine iff_of_false (fun h => ?_) nofun
      dsimp only at h
      split at h
      · cases (Prod.mk.inj h).1
      · split at h
        · cases (Prod.mk.inj h).1
        · cases (Prod.mk.inj h).1

/-- If all records exist, resolution succeeds and changes each wiring by its own row exactly if the
wirings of both sides are paired right. -/
theorem resolveInPlace_existing_iff (hsources : AllExist numerals db.sources wiring.inputWirings)
    (hsinks : AllExist numerals db.sinks wiring.outputWirings) :
    (∃ resolved, resolveInPlace numerals queries wiring = (.ok (), resolved) ∧
        List.Forall₂ (ResolvedBy numerals db.sources resolveInput) wiring.inputWirings
          resolved.inputWirings ∧
        List.Forall₂ (ResolvedBy numerals db.sinks updateWirings) wiring.outputWirings
          resolved.outputWirings ∧
        resolved.dashboardPositionings = wiring.dashboardPositionings) ↔
      PairedRight numerals db.sources queries.sources resolveInput wiring.inputWirings ∧
        PairedRight numerals db.sinks queries.sinks updateWirings wiring.outputWirings := by
  obtain ⟨sourceIds, hsourceIds, -⟩ := hsources.exists_ids
  obtain ⟨sinkIds, hsinkIds, -⟩ := hsinks.exists_ids
  have hfetchSources := fetchVirtual_of_allExist queries.sources_perm hsources hsourceIds
  have hfetchSinks := fetchVirtual_of_allExist queries.sinks_perm hsinks hsinkIds
  have hinputs : PairedRight numerals db.sources queries.sources resolveInput
      wiring.inputWirings ↔ _ :=
    pairedRight_iff updateWirings queries.sources_perm db.constraints.sources.ids hsources
      hsourceIds
  have houtputs : PairedRight numerals db.sinks queries.sinks updateWirings
      wiring.outputWirings ↔ _ :=
    pairedRight_iff updateWirings queries.sinks_perm db.constraints.sinks.ids hsinks hsinkIds
  rw [hinputs, houtputs]
  unfold resolveInPlace
  rw [hfetchSources, hfetchSinks]
  dsimp only
  constructor
  · intro ⟨resolved, hresolve, hin, hout, _⟩
    split at hresolve
    · cases (Prod.mk.inj hresolve).1
    · rename_i hinLoop
      split at hresolve
      · cases (Prod.mk.inj hresolve).1
      · rename_i houtLoop
        obtain rfl := (Prod.mk.inj hresolve).2
        exact ⟨⟨Bool.eq_true_of_not_eq_false hinLoop, hin⟩,
          Bool.eq_true_of_not_eq_false houtLoop, hout⟩
  · intro ⟨⟨hinLoop, hin⟩, houtLoop, hout⟩
    rw [if_neg (by simp [hinLoop]), if_neg (by simp [houtLoop])]
    exact ⟨_, rfl, hin, hout, rfl⟩

/-- Resolution is right and leaves the wiring alone on failure exactly under the condition on the
wiring and the answers of the database. -/
theorem resolvesRight_iff :
    ResolvesRight numerals queries wiring ↔ CanResolve numerals queries wiring := by
  constructor
  · intro h
    refine ⟨fun hsources hsinks => ?_, fun hmissing => ?_⟩
    · exact (resolveInPlace_existing_iff hsources hsinks).mp (h.existing hsources hsinks)
    · exact resolveInPlace_eq_adapterHandling_iff.mp (h.missing hmissing)
  · intro h
    refine ⟨fun hsources hsinks => ?_, fun hmissing => ?_⟩
    · exact (resolveInPlace_existing_iff hsources hsinks).mpr (h.existing hsources hsinks)
    · exact resolveInPlace_eq_adapterHandling_iff.mpr (h.missing hmissing)

/-! ## Few wirings -/

/-- With at most 500 ids every batch has one id, so the rows come in the order of their ids. -/
theorem batchRows_of_length_le {rows : List (SourceOrSink (JsonValue J))}
    {query : List UUID → List (SourceOrSink (JsonValue J))}
    (hquery : ∀ batch, (query batch).Perm (rows.filter fun row => row.id ∈ batch))
    (hrows : (rows.map fun row => row.id).Nodup) {ids : List UUID} (hlength : ids.length ≤ 500)
    (hexist : ∀ id ∈ ids, ∃ record ∈ rows, record.id = id) :
    List.Forall₂ (fun id record => record ∈ rows ∧ record.id = id) ids (batchRows query ids) := by
  have hbatches : ids.toChunks ((ids.length + 499) / 500) = ids.map fun id => [id] := by
    cases ids with
    | nil => rfl
    | cons first rest =>
      have hsize : ((first :: rest).length + 499) / 500 = 1 := by
        rw [List.length_cons] at hlength ⊢
        omega
      rw [hsize, Batches.toChunks_one]
  rw [batchRows, hbatches]
  clear hlength hbatches
  induction ids with
  | nil => exact .nil
  | cons id ids ih =>
    obtain ⟨record, hrecord, hid⟩ := hexist id List.mem_cons_self
    have hone : query [id] = [record] := by
      apply List.perm_singleton.mp
      apply (hquery [id]).trans
      rw [← hid]
      apply List.Perm.of_eq
      exact filter_eq_singleton hrows hrecord (by simp) fun row _ hrow => by simpa using hrow
    rw [List.map_cons, List.flatMap_cons, hone, List.singleton_append]
    exact .cons ⟨hrecord, hid⟩ (ih fun id hmem => hexist id (List.mem_cons_of_mem _ hmem))

/-- For at most 500 virtual wirings of a side with existing records it is enough that their ids are
distinct. -/
theorem pairedRight_of_length_le {rows : List (SourceOrSink (JsonValue J))}
    {query : List UUID → List (SourceOrSink (JsonValue J))}
    (hquery : ∀ batch, (query batch).Perm (rows.filter fun row => row.id ∈ batch))
    (hrows : (rows.map fun row => row.id).Nodup) {wirings : List (Wiring (WiringData J))}
    (hexist : AllExist numerals rows wirings) (hlength : (wirings.filter isVirtual).length ≤ 500)
    (hdistinct : ((wirings.filter isVirtual).map (virtualId numerals)).Nodup)
    (change : SourceOrSink (JsonValue J) → Wiring (WiringData J) → Wiring (WiringData J)) :
    PairedRight numerals rows query change wirings := by
  refine ⟨hdistinct, fun ids hids => ?_⟩
  obtain ⟨ids', hids', hidsExist⟩ := hexist.exists_ids
  obtain rfl := Except.ok.inj (hids.symm.trans hids')
  have hread := mapM_eq_ok.mp hids
  rw [hread.length_eq] at hlength
  have hrecords := batchRows_of_length_le hquery hrows hlength hidsExist
  generalize batchRows query ids = records at hrecords
  generalize wirings.filter isVirtual = virtual at hread
  clear hids hids' hidsExist hlength
  induction hread generalizing records with
  | nil =>
    cases hrecords
    exact .nil
  | cons hid _ ih =>
    cases hrecords with
    | cons hrecord hlater =>
      refine .cons (fun own hown hownId => ?_) (ih _ hlater)
      have hsame := hrecord.2.trans (Except.ok.inj (hid.symm.trans hownId))
      rw [KeyedList.eq_of_key_eq hrows hrecord.1 hown hsame]

/-! ## Rows in the order of the table -/

/-- If the loop goes through, its result is the one of pairing. -/
theorem replaceVirtual_eq (change : SourceOrSink (JsonValue J) → Wiring (WiringData J) →
      Wiring (WiringData J)) (wirings : List (Wiring (WiringData J)))
    (records : List (SourceOrSink (JsonValue J))) :
    replaceVirtual change wirings records =
      if (replaceInPlace change wirings records).1 = false then .error .valueError
      else .ok (replaceInPlace change wirings records).2 := by
  induction wirings generalizing records with
  | nil => cases records <;> rfl
  | cons wiring rest ih =>
    rw [replaceVirtual.eq_def, replaceInPlace.eq_def]
    cases hvirtual : isVirtual wiring with
    | false =>
      simp only [hvirtual, Bool.false_eq_true, if_false, ih]
      split <;> rfl
    | true =>
      cases records with
      | nil => simp [hvirtual]
      | cons record later =>
        simp only [hvirtual, if_true, ih]
        split <;> rfl

/-- Resolution with rows in the order of the table changes the wiring as resolution does which
returns a new one. -/
theorem resolveInPlace_tableQueries (wiring resolved : WorkflowWiring (WiringData J)) :
    resolveInPlace numerals (tableQueries db) wiring = (.ok (), resolved) ↔
      resolveVirtualStructureWirings numerals db wiring = .ok resolved := by
  have hfetch (rows : List (SourceOrSink (JsonValue J))) (wirings : List (Wiring (WiringData J))) :
      getVirtualSourcesOrSinks numerals rows wirings =
        fetchVirtual numerals (fun batch => rows.filter fun row => row.id ∈ batch) wirings := rfl
  have hloop (records : List (SourceOrSink (JsonValue J)))
      (wirings : List (Wiring (WiringData J))) :
      (replaceInPlace resolveInput wirings records).1 =
        (replaceInPlace updateWirings wirings records).1 := by
    rw [Bool.eq_iff_iff, replaceInPlace_fst_iff, replaceInPlace_fst_iff]
  unfold resolveInPlace resolveVirtualStructureWirings
  rw [hfetch, hfetch]
  simp only [tableQueries]
  cases fetchVirtual numerals (fun batch => db.sources.filter fun row => row.id ∈ batch)
      wiring.inputWirings with
  | error error => simp [bind, Except.bind]
  | ok sources =>
    cases fetchVirtual numerals (fun batch => db.sinks.filter fun row => row.id ∈ batch)
        wiring.outputWirings with
    | error error => simp [bind, Except.bind]
    | ok sinks =>
      simp only [bind, Except.bind, replaceVirtual_eq, hloop]
      split
      · simp
      · split
        · simp
        · simp [pure, Except.pure]

end Main

/-! ## A wiring which uses a source twice -/

/-- The texts of the source are not empty. -/
theorem plainSource_text_ne_nil : (['x'] : PyStr) ≠ [] := List.cons_ne_nil _ _

/-- A source with id 7. -/
def plainSource : StructureServiceSource (JsonValue ℤ) where
  externalId := ['x']
  stakeholderKey := ['x']
  name := ['x']
  external_id_not_empty := plainSource_text_ne_nil
  stakeholder_key_not_empty := plainSource_text_ne_nil
  name_not_empty := plainSource_text_ne_nil
  id := 7
  type := .timeseries .float
  visible := true
  displayPath := []
  presetFilters := []
  passthroughFilters := none
  adapterKey := "sql-adapter".toList
  referencedId := "table".toList
  refKey := none
  refId := []
  metaData := none
  thingNodeExternalIds := none

/-- A structure with this source. -/
def plainStructure : StructureDb (JsonValue ℤ) where
  elementTypes := []
  thingNodes := []
  sources := [plainSource]
  sinks := []
  sourceAssociation := ∅
  sinkAssociation := ∅
  constraints := by
    refine ⟨?_, ?_, ?_, ?_⟩ <;> refine ⟨?_, ?_, ?_⟩ <;> simp

/-- A wiring of an input to the source. -/
def wiringOfSource (name : PyStr) : Wiring (WiringData ℤ) where
  adapterId := virtualStructureAdapter
  data := ⟨name, none, some (uuidStr 7), none, none, none, false, [], none⟩

/-- A wiring of two inputs to the source. -/
def wiredTwice : WorkflowWiring (WiringData ℤ) :=
  ⟨[wiringOfSource ['x'], wiringOfSource ['y']], [], []⟩

/-- Tables with the digits and blanks of ASCII. -/
def noTables : NumeralTables := ⟨fun _ => none, fun _ => false⟩

/-- The id of the wirings is the one of the source. -/
theorem virtualId_wiringOfSource (name : PyStr) :
    virtualId noTables (wiringOfSource name) = .ok 7 := by
  have hid : uuidOfText noTables (uuidStr 7) = some 7 := uuidOfText_uuidStr (by norm_num)
  simp only [virtualId, wiringOfSource, hid]

/-- All records which a wiring refers to exist, and yet it is not resolved, since it uses one of
them twice. -/
theorem wiredTwice_not_resolvesRight :
    AllExist noTables plainStructure.sources wiredTwice.inputWirings ∧
      AllExist noTables plainStructure.sinks wiredTwice.outputWirings ∧
      (resolveInPlace noTables (tableQueries plainStructure) wiredTwice).1 = .error .valueError ∧
      ¬ ResolvesRight noTables (tableQueries plainStructure) wiredTwice := by
  have hsources : AllExist noTables plainStructure.sources wiredTwice.inputWirings := by
    intro wiring hwiring _
    refine ⟨plainSource, List.mem_singleton_self _, ?_⟩
    obtain rfl | rfl : wiring = wiringOfSource ['x'] ∨ wiring = wiringOfSource ['y'] := by
      simpa [wiredTwice] using hwiring
    · exact virtualId_wiringOfSource _
    · exact virtualId_wiringOfSource _
  have hsinks : AllExist noTables plainStructure.sinks wiredTwice.outputWirings := by
    intro wiring hwiring
    exact absurd hwiring List.not_mem_nil
  have herror : (resolveInPlace noTables (tableQueries plainStructure) wiredTwice).1 =
      .error .valueError := by
    decide +kernel
  refine ⟨hsources, hsinks, herror, fun h => ?_⟩
  obtain ⟨resolved, hresolve, -⟩ := h.existing hsources hsinks
  rw [hresolve] at herror
  cases herror

end HetidaDesigner
