import HetidaDesigner.Wirings.InPlace

/-!
# Fetching sources and sinks in batches

The functions of `structure/db/source_sink_service.py` which fetch a collection by ids, with the
queries they issue. The length of the batches is the number of batches there should be, so the
batches are small enough only for lists which are not longer than the square of the batch size.
-/

namespace HetidaDesigner

open Batches Checks KeyedList

variable {J : Type}

/-- The error of a fetch: nothing has been found. -/
inductive FetchError
  | dbNotFound
  deriving DecidableEq, Repr

/-- The queries of a fetch, each by its ids, and what is returned: a dictionary by ids. -/
structure CollectionFetch (J : Type) where
  queries : List (List UUID)
  result : Except FetchError (List (SourceOrSink J))

/-- The length of the batches: the quotient of the number of ids and the batch size, rounded up. -/
def batchLength (ids : List UUID) (batchSize : ℕ) : ℕ := (ids.length + batchSize - 1) / batchSize

/-- Fetch a collection by ids, given the answers to the queries. -/
def fetchCollection (query : List UUID → List (SourceOrSink J)) (ids : List UUID)
    (batchSize : ℕ) : CollectionFetch J :=
  if ids = [] then ⟨[], .ok []⟩
  else
    let queries := ids.toChunks (batchLength ids batchSize)
    let found := dictById (fun row => row.id) (queries.flatMap query)
    ⟨queries, if found.isEmpty then .error .dbNotFound else .ok found⟩

variable {db : StructureDb (JsonValue J)}

/-- `fetch_collection_of_sources_from_db_by_id` -/
def fetchCollectionOfSourcesFromDbById (answers : BatchQueries db) (srcIds : List UUID)
    (batchSize : ℕ) : CollectionFetch (JsonValue J) :=
  fetchCollection answers.sources srcIds batchSize

/-- `fetch_collection_of_sinks_from_db_by_id` -/
def fetchCollectionOfSinksFromDbById (answers : BatchQueries db) (sinkIds : List UUID)
    (batchSize : ℕ) : CollectionFetch (JsonValue J) :=
  fetchCollection answers.sinks sinkIds batchSize

/-- Queries are not too long, cover the ids, and the rows are found under their ids. -/
structure FetchesInBatches (rows : List (SourceOrSink J)) (ids : List UUID) (batchSize : ℕ)
    (fetch : CollectionFetch J) : Prop where
  sizes : ∀ query ∈ fetch.queries, query.length ≤ batchSize
  occurrences : ∀ id ∈ ids, (fetch.queries.countP fun query => id ∈ query) = ids.count id
  found : ∀ result, fetch.result = .ok result → ∀ id row,
    lookup (fun row => row.id) id result = some row ↔ id ∈ ids ∧ row ∈ rows ∧ row.id = id
  notFound : fetch.result = .error .dbNotFound ↔ ∀ row ∈ rows, row.id ∉ ids

/-- There are not more ids than the square of the batch size, and no id occurs twice among the
places which get into one batch. -/
def FitsBatches (ids : List UUID) (batchSize : ℕ) : Prop :=
  ids.length ≤ batchSize * batchSize ∧
    ∀ i j (hi : i < ids.length) (hj : j < ids.length), i < j →
      i / batchLength ids batchSize = j / batchLength ids batchSize → ids[i] ≠ ids[j]

/-! ## Batches -/

section Length

variable {ids : List UUID} {batchSize : ℕ}

/-- Batches are not empty, and not longer than the list. -/
theorem batchLength_bounds (hids : ids ≠ []) (hsize : 1 ≤ batchSize) :
    0 < batchLength ids batchSize ∧ batchLength ids batchSize ≤ ids.length := by
  have hlength := List.length_pos_iff.mpr hids
  constructor
  · exact Nat.div_pos (by omega) hsize
  · have hmul : ids.length + batchSize - 1 < (ids.length + 1) * batchSize := by
      have h := Nat.mul_le_mul_left ids.length hsize
      rw [Nat.add_mul]
      omega
    exact Nat.lt_succ_iff.mp ((Nat.div_lt_iff_lt_mul hsize).mpr hmul)

/-- Batches are not longer than the batch size exactly if there are not too many ids. -/
theorem batchLength_le_iff (hsize : 1 ≤ batchSize) :
    batchLength ids batchSize ≤ batchSize ↔ ids.length ≤ batchSize * batchSize := by
  rw [batchLength, ← Nat.lt_succ_iff, Nat.div_lt_iff_lt_mul hsize, Nat.succ_mul]
  omega

/-- All batches are small enough exactly if there are not too many ids. -/
theorem sizes_iff (hids : ids ≠ []) (hsize : 1 ≤ batchSize) :
    (∀ batch ∈ ids.toChunks (batchLength ids batchSize), batch.length ≤ batchSize) ↔
      ids.length ≤ batchSize * batchSize := by
  obtain ⟨hpos, hle⟩ := batchLength_bounds hids hsize
  rw [← batchLength_le_iff hsize]
  constructor
  · intro h
    obtain ⟨batch, hbatch, hlength⟩ := exists_longest_batch hpos hids
    have hsmall := h batch hbatch
    rwa [hlength, Nat.min_eq_left hle] at hsmall
  · exact fun h batch hbatch => (length_le_of_mem_toChunks hpos hbatch).trans h

end Length

/-! ## Rows -/

section Rows

variable {rows : List (SourceOrSink J)} {query : List UUID → List (SourceOrSink J)}
  (hquery : ∀ batch, (query batch).Perm (rows.filter fun row => row.id ∈ batch))

include hquery

/-- The rows of all queries are those with one of the ids. -/
theorem mem_flatMap_query {queries : List (List UUID)} {row : SourceOrSink J} :
    row ∈ queries.flatMap query ↔ row ∈ rows ∧ row.id ∈ queries.flatten := by
  rw [List.mem_flatMap, List.mem_flatten]
  simp only [(hquery _).mem_iff, List.mem_filter, decide_eq_true_eq]
  constructor
  · intro ⟨batch, hbatch, hrow, hid⟩
    exact ⟨hrow, batch, hbatch, hid⟩
  · intro ⟨hrow, batch, hbatch, hid⟩
    exact ⟨batch, hbatch, hrow, hid⟩

/-- Nothing has been found exactly if no row has one of the ids. -/
theorem dictById_eq_nil_iff {queries : List (List UUID)} :
    dictById (fun row => row.id) (queries.flatMap query) = [] ↔
      ∀ row ∈ rows, row.id ∉ queries.flatten := by
  constructor
  · intro h row hrow hid
    obtain ⟨found, hfound, -⟩ := @exists_mem_dictById _ (fun row => row.id) _ _
      ((mem_flatMap_query hquery).mpr ⟨hrow, hid⟩)
    rw [h] at hfound
    exact absurd hfound List.not_mem_nil
  · intro h
    refine List.eq_nil_iff_forall_not_mem.mpr fun row hrow => ?_
    obtain ⟨hmem, hid⟩ := (mem_flatMap_query hquery).mp (mem_of_mem_dictById hrow)
    exact h row hmem hid

/-- Under an id its row is found. -/
theorem lookup_dictById_iff (hrows : (rows.map fun row => row.id).Nodup)
    {queries : List (List UUID)} {id : UUID} {row : SourceOrSink J} :
    lookup (fun row => row.id) id (dictById (fun row => row.id) (queries.flatMap query)) =
        some row ↔ id ∈ queries.flatten ∧ row ∈ rows ∧ row.id = id := by
  constructor
  · intro h
    obtain ⟨hmem, hid⟩ := lookup_eq_some h
    obtain ⟨hrow, hids⟩ := (mem_flatMap_query hquery).mp (mem_of_mem_dictById hmem)
    exact ⟨hid ▸ hids, hrow, hid⟩
  · rintro ⟨hids, hrow, rfl⟩
    obtain ⟨found, hfound, hkey⟩ := @exists_mem_dictById _ (fun row => row.id) _ _
      ((mem_flatMap_query hquery).mpr ⟨hrow, hids⟩)
    have hmem := ((mem_flatMap_query hquery).mp (mem_of_mem_dictById hfound)).1
    rw [← KeyedList.eq_of_key_eq hrows hmem hrow hkey]
    exact lookup_of_mem (dictById_nodup _ _) hfound

/-- A fetch does what it should exactly if the ids fit into the batches. -/
theorem fetchesInBatches_iff (hrows : (rows.map fun row => row.id).Nodup) {ids : List UUID}
    (hids : ids ≠ []) {batchSize : ℕ} (hsize : 1 ≤ batchSize) :
    FetchesInBatches rows ids batchSize (fetchCollection query ids batchSize) ↔
      FitsBatches ids batchSize := by
  obtain ⟨hpos, -⟩ := batchLength_bounds hids hsize
  have hflatten := flatten_toChunks (batchLength ids batchSize) ids
  have hqueries : (fetchCollection query ids batchSize).queries =
      ids.toChunks (batchLength ids batchSize) := by
    rw [fetchCollection, if_neg hids]
  have hresult : (fetchCollection query ids batchSize).result =
      if (dictById (fun row => row.id)
        ((ids.toChunks (batchLength ids batchSize)).flatMap query)).isEmpty then .error .dbNotFound
      else .ok (dictById (fun row => row.id)
        ((ids.toChunks (batchLength ids batchSize)).flatMap query)) := by
    rw [fetchCollection, if_neg hids]
  have hoccurrences : (∀ id ∈ ids,
      ((ids.toChunks (batchLength ids batchSize)).countP fun query => id ∈ query) =
        ids.count id) ↔ ∀ batch ∈ ids.toChunks (batchLength ids batchSize), batch.Nodup := by
    rw [← countP_eq_count_flatten_iff, hflatten]
  rw [FitsBatches, ← sizes_iff hids hsize, ← nodup_toChunks_iff hpos, ← hoccurrences]
  constructor
  · intro h
    exact ⟨hqueries ▸ h.sizes, hqueries ▸ h.occurrences⟩
  · rintro ⟨hsizes, hcounts⟩
    refine ⟨hqueries ▸ hsizes, hqueries ▸ hcounts, fun result hfetched id row => ?_, ?_⟩
    · rw [hresult] at hfetched
      split at hfetched
      · cases hfetched
      · obtain rfl := Except.ok.inj hfetched
        rw [lookup_dictById_iff hquery hrows, hflatten]
    · have hnil := @dictById_eq_nil_iff _ _ _ hquery (ids.toChunks (batchLength ids batchSize))
      rw [hflatten] at hnil
      rw [hresult, ← hnil]
      split
      · rename_i hempty
        exact iff_of_true rfl (List.isEmpty_iff.mp hempty)
      · rename_i hempty
        exact iff_of_false nofun (mt List.isEmpty_iff.mpr hempty)

end Rows

/-! ## Sources and sinks -/

/-- Sources and sinks are fetched as they should be exactly if the ids fit into the batches. -/
theorem fetchCollections_iff (answers : BatchQueries db) {ids : List UUID} (hids : ids ≠ [])
    {batchSize : ℕ} (hsize : 1 ≤ batchSize) :
    (FetchesInBatches db.sources ids batchSize
        (fetchCollectionOfSourcesFromDbById answers ids batchSize) ↔ FitsBatches ids batchSize) ∧
      (FetchesInBatches db.sinks ids batchSize
        (fetchCollectionOfSinksFromDbById answers ids batchSize) ↔ FitsBatches ids batchSize) :=
  ⟨fetchesInBatches_iff answers.sources_perm db.constraints.sources.ids hids hsize,
    fetchesInBatches_iff answers.sinks_perm db.constraints.sinks.ids hids hsize⟩

/-- With the default batch size the result is that which resolution works with. -/
theorem fetchBatches_eq (query : List UUID → List (SourceOrSink (JsonValue J)))
    (ids : List UUID) : fetchBatches query ids =
      (fetchCollection query ids 500).result.mapError fun _ => .adapterHandling := by
  rw [fetchBatches, fetchCollection]
  split_ifs with hids
  · rfl
  · change (if (dictById _ (batchRows query ids)).isEmpty then _ else _) =
      Except.mapError _ (if (dictById _ (batchRows query ids)).isEmpty then _ else _)
    split <;> rfl

/-- Different ids fit if there are not too many of them. -/
theorem fitsBatches_of_nodup {ids : List UUID} (hnodup : ids.Nodup) {batchSize : ℕ}
    (hlength : ids.length ≤ batchSize * batchSize) : FitsBatches ids batchSize :=
  ⟨hlength, fun i j hi hj hlt _ => List.pairwise_iff_getElem.mp hnodup i j hi hj hlt⟩

/-- Resolution finds exactly the stored sources among different ids, if there are not too many. -/
theorem lookup_fetchBatches_iff (answers : BatchQueries db) {ids : List UUID} (hids : ids ≠ [])
    (hnodup : ids.Nodup) (hlength : ids.length ≤ 500 * 500)
    {result : List (SourceOrSink (JsonValue J))} (h : fetchBatches answers.sources ids = .ok result)
    (id : UUID) (row : SourceOrSink (JsonValue J)) :
    lookup (fun row => row.id) id result = some row ↔ id ∈ ids ∧ row ∈ db.sources ∧ row.id = id := by
  rw [fetchBatches_eq] at h
  have hfetches := (fetchesInBatches_iff answers.sources_perm db.constraints.sources.ids hids
    (by decide)).mpr (fitsBatches_of_nodup hnodup hlength)
  exact hfetches.found result (mapError_eq_ok.mp h) id row

/-! ## Five ids in batches of two -/

/-- The id of a source and four others. -/
def fiveIds : List UUID := [7, 1, 2, 3, 4]

/-- The ids of the first batch are more than two. -/
theorem fiveIds_not_in_batches : fiveIds ≠ [] ∧ 1 ≤ 2 ∧
    ¬ FetchesInBatches plainStructure.sources fiveIds 2
      (fetchCollectionOfSourcesFromDbById (tableQueries plainStructure) fiveIds 2) := by
  refine ⟨List.cons_ne_nil _ _, by decide, fun h => ?_⟩
  have hlength := h.sizes [7, 1, 2] (by decide)
  exact absurd hlength (by decide)

/-- Three of these ids fit into batches of two. -/
theorem threeIds_fit : FetchesInBatches plainStructure.sources (fiveIds.take 3) 2
    (fetchCollectionOfSourcesFromDbById (tableQueries plainStructure) (fiveIds.take 3) 2) :=
  (fetchCollections_iff (tableQueries plainStructure) (List.cons_ne_nil _ _)
    (by decide)).1.mpr (fitsBatches_of_nodup (by decide) (by decide))

end HetidaDesigner
