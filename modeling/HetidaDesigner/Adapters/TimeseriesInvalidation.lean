import HetidaDesigner.Adapters.TimeseriesWriting
import HetidaDesigner.Library.Overwrites

/-!
# Invalidated regions of timeseries tables

A write overwrites the region which the metadata of the frame describes, unless the reference
dataset is discrete: there the metric column of the frame is compared with the texts of the metrics,
before it has the type of the metric column of the table.
-/

namespace HetidaDesigner

open Checks Overwrites

variable {T V : Type} [LinearOrder T]

/-! ## Regions -/

/-- The timestamps in an interval. -/
def IntervalType.interval (type : IntervalType) (start finish : T) : Set T :=
  match type with
  | .closed => Set.Icc start finish
  | .leftClosed | .rightOpen => Set.Ico start finish
  | .rightClosed | .leftOpen => Set.Ioc start finish
  | .open => Set.Ioo start finish

omit [LinearOrder T] in
/-- A row as a point: its timestamp and its metric. -/
def TableRow.point (row : TableRow T V) : T × MetricValue := (row.timestamp, row.metric)

section Regions

variable (options : WritingOptions) (config : TimeseriesTableConfig) (data : SentFrame T V)

/-- The metrics of a table for which data is invalidated. -/
def listedMetrics : Set MetricValue :=
  {metric | ∃ text ∈ retrieveMetrics options data,
    convertMetric options.int config.metricType (.str text) = .ok metric}

/-- The points of a frame. -/
def framePoints : Set (T × MetricValue) :=
  {point | ∃ row ∈ data.rows, row.timestamp = point.1 ∧
    convertMetric options.int config.metricType row.metric = .ok point.2}

/-- The points of a frame whose metrics are given as texts which are listed. -/
def textPoints : Set (T × MetricValue) :=
  {point | ∃ row ∈ data.rows, row.timestamp = point.1 ∧
    (∃ text ∈ retrieveMetrics options data, row.metric = .str text) ∧
      convertMetric options.int config.metricType row.metric = .ok point.2}

/-- The timestamps between those of a frame. -/
def spannedTimes : Set T :=
  {timestamp | ∃ first ∈ data.rows, ∃ last ∈ data.rows,
    timestamp ∈ Set.Icc first.timestamp last.timestamp}

/-- The region of some metadata, with the points of a discrete dataset. -/
def regionOf (metadata : DatasetMetadata T) (points : Set (T × MetricValue)) :
    Set (T × MetricValue) :=
  match metadata.invalidationInterval with
  | some (start, finish, type) => type.interval start finish ×ˢ listedMetrics options config data
  | none =>
    if metadata.refDatasetDiscrete then points
    else
      match metadata.refInterval with
      | some (start, finish, type) => type.interval start finish ×ˢ listedMetrics options config data
      | none => spannedTimes data ×ˢ listedMetrics options config data

/-- The region which a frame invalidates: the invalidation interval goes before the points of a
discrete reference dataset, these before the reference interval, and this before the interval
spanned by the frame. -/
def invalidatedRegion (metadata : DatasetMetadata T) : Set (T × MetricValue) :=
  regionOf options config data metadata (framePoints options config data)

/-- The rows which are written. -/
def writtenRows (metadata : DatasetMetadata T) (sent : List (TableRow T V)) : List (TableRow T V) :=
  if metadata.onlyInvalidate then [] else sent

open Classical in
/-- A write leaves the rows outside the region and the rows of the frame, and a frame in its region
may be written twice. -/
def ReplacesRegion (metadata : DatasetMetadata T) (table table' : List (TableRow T V)) : Prop :=
  ∃ sent, prepareValidateMultitsframe options config data = .ok sent ∧
    table'.Perm (overwrite (fun row => row.point ∈ invalidatedRegion options config data metadata)
      table (writtenRows metadata sent)) ∧
    ((∀ row ∈ writtenRows metadata sent, row.point ∈ invalidatedRegion options config data metadata) →
      ∃ twice, writeTimeseriesTable options config data table' = .ok twice ∧ twice.Perm table')

end Regions

/-! ## What is deleted -/

section Deletion

variable {options : WritingOptions} {config : TimeseriesTableConfig} {data : SentFrame T V}
  {metadata : DatasetMetadata T}

omit [LinearOrder T] in
/-- The rows which are sent are made of those of the frame. -/
theorem mem_prepared_iff {sent : List (TableRow T V)}
    (h : prepareValidateMultitsframe options config data = .ok sent) {row : TableRow T V} :
    row ∈ sent ↔ ∃ given ∈ data.rows, ∃ metric,
      convertMetric options.int config.metricType given.metric = .ok metric ∧
        (⟨given.timestamp, metric, sentValues config data.valueColumns given.values⟩ :
          TableRow T V) = row := by
  rw [prepareValidateMultitsframe, bind_eq_ok] at h
  obtain ⟨metrics, hmetrics, h⟩ := h
  obtain ⟨-, h⟩ := require_bind_eq_ok.mp h
  obtain rfl := return_eq_ok.mp h
  exact mem_zipWith_iff_of_mapM hmetrics

/-- The tests for an interval. -/
theorem intervalTests_iff {type : IntervalType} {start finish timestamp : T} :
    (type.startOp timestamp start && type.endOp timestamp finish) = true ↔
      timestamp ∈ type.interval start finish := by
  cases type <;>
    simp only [IntervalType.startOp, IntervalType.endOp, Bool.and_eq_true, decide_eq_true_eq] <;>
    exact Iff.rfl

/-- The condition for an interval holds in it for the listed metrics. -/
theorem intervalClause_iff {interval : T × T × IntervalType} {metricsToUse : List MetricValue}
    (hmetrics : ∀ metric, metric ∈ metricsToUse ↔ metric ∈ listedMetrics options config data)
    {row : TableRow T V} : intervalClause interval metricsToUse row = true ↔
      row.point ∈ interval.2.2.interval interval.1 interval.2.1 ×ˢ
        listedMetrics options config data := by
  rw [intervalClause, Bool.and_eq_true, intervalTests_iff, decide_eq_true_iff, hmetrics]
  exact Iff.rfl

/-- The earliest and the latest timestamp span the frame. -/
theorem interval_eq_spannedTimes {minTs maxTs : T}
    (hmin : (data.rows.map fun row => row.timestamp).min? = some minTs)
    (hmax : (data.rows.map fun row => row.timestamp).max? = some maxTs) :
    IntervalType.closed.interval minTs maxTs = spannedTimes data := by
  obtain ⟨hminMem, hmin⟩ := List.min?_eq_some_iff.mp hmin
  obtain ⟨hmaxMem, hmax⟩ := List.max?_eq_some_iff.mp hmax
  rw [List.forall_mem_map] at hmin hmax
  obtain ⟨first, hfirst, rfl⟩ := List.mem_map.mp hminMem
  obtain ⟨last, hlast, rfl⟩ := List.mem_map.mp hmaxMem
  ext timestamp
  constructor
  · exact fun h => ⟨first, hfirst, last, hlast, h⟩
  · rintro ⟨a, ha, b, hb, hle, hge⟩
    exact ⟨(hmin a ha).trans hle, hge.trans (hmax b hb)⟩

/-- The test which a condition stands for; without a condition nothing is deleted. -/
def clauseTest (clause : Option (TableRow T V → Bool)) (row : TableRow T V) : Bool :=
  match clause with
  | none => false
  | some whereClause => whereClause row

omit [LinearOrder T] in
/-- A deletion drops the rows for which the test holds. -/
theorem executeDelete_append (clause : Option (TableRow T V → Bool))
    (table sent : List (TableRow T V)) :
    executeDelete clause table ++ sent = overwrite (clauseTest clause) table sent := by
  cases clause with
  | none => simp [executeDelete, overwrite, clauseTest]
  | some whereClause => rfl

/-- The points of a discrete dataset which are deleted are those whose metrics are listed texts. -/
theorem discreteClause_iff {clause : Option (TableRow T V → Bool)}
    (h : discreteClause options config data (retrieveMetrics options data) = .ok clause)
    {row : TableRow T V} :
    clauseTest clause row = true ↔ row.point ∈ textPoints options config data := by
  have htext {given : FrameRow T V} : given ∈ data.rows.filter (fun row => decide
      (row.metric ∈ (retrieveMetrics options data).map MetricValue.str)) ↔ given ∈ data.rows ∧
        ∃ text ∈ retrieveMetrics options data, given.metric = .str text := by
    rw [List.mem_filter, decide_eq_true_iff, List.mem_map]
    exact and_congr_right fun _ => exists_congr fun text => and_congr_right fun _ => eq_comm
  rw [discreteClause] at h
  dsimp only at h
  split at h
  · rename_i hnil
    obtain rfl := Except.ok.inj h
    constructor
    · exact fun hfalse => absurd hfalse Bool.false_ne_true
    · rintro ⟨given, hgiven, -, hmetric, -⟩
      exact absurd (hnil ▸ htext.mpr ⟨hgiven, hmetric⟩) List.not_mem_nil
  · obtain ⟨metricData, hmetricData, h⟩ := bind_eq_ok.mp h
    obtain rfl := return_eq_ok.mp h
    rw [clauseTest, decide_eq_true_iff, mem_zipWith_iff_of_mapM hmetricData]
    constructor
    · rintro ⟨given, hgiven, metric, hconvert, heq⟩
      obtain ⟨htimestamp, rfl⟩ := Prod.mk.inj heq
      obtain ⟨hgiven, hmetric⟩ := htext.mp hgiven
      exact ⟨given, hgiven, htimestamp, hmetric, hconvert⟩
    · rintro ⟨given, hgiven, htimestamp, hmetric, hconvert⟩
      exact ⟨given, htext.mpr ⟨hgiven, hmetric⟩, _, hconvert, Prod.ext htimestamp rfl⟩

/-- No rows span nothing. -/
theorem spannedTimes_eq_empty (hrows : data.rows = []) : spannedTimes data = ∅ := by
  refine Set.eq_empty_of_forall_notMem ?_
  rintro timestamp ⟨first, hfirst, -⟩
  exact absurd (hrows ▸ hfirst) List.not_mem_nil

/-- Rows have an earliest and a latest timestamp. -/
theorem rows_eq_nil_of_min? (h : ∀ minTs maxTs,
    (data.rows.map fun row => row.timestamp).min? = some minTs →
      (data.rows.map fun row => row.timestamp).max? = some maxTs → False) : data.rows = [] := by
  cases hmin : (data.rows.map fun row => row.timestamp).min? with
  | none => exact List.map_eq_nil_iff.mp (List.min?_eq_none_iff.mp hmin)
  | some minTs =>
    cases hmax : (data.rows.map fun row => row.timestamp).max? with
    | none => exact List.map_eq_nil_iff.mp (List.max?_eq_none_iff.mp hmax)
    | some maxTs => exact absurd hmax (h minTs maxTs hmin)

/-- Without listed metrics the region is empty. -/
theorem regionOf_eq_empty (hempty : retrieveMetrics options data = []) :
    regionOf options config data metadata (textPoints options config data) = ∅ := by
  have hlisted : listedMetrics options config data = ∅ := by
    rw [listedMetrics, hempty]
    exact Set.eq_empty_of_forall_notMem fun metric ⟨text, htext, _⟩ =>
      absurd htext List.not_mem_nil
  have htext : textPoints options config data = ∅ := by
    refine Set.eq_empty_of_forall_notMem ?_
    rintro point ⟨given, -, -, ⟨text, htext, -⟩, -⟩
    exact absurd (hempty ▸ htext) List.not_mem_nil
  unfold regionOf
  rw [hlisted, htext]
  split
  · exact Set.prod_empty
  · split
    · rfl
    · split
      · exact Set.prod_empty
      · exact Set.prod_empty

/-- Requested deletions delete the region of the metadata, with the points of a discrete dataset
whose metrics are listed texts. -/
theorem deletionClause_iff
    (hrequested : metadata.invalidateDataset = true ∧ metadata.deleteInvalidated ≠ some false)
    {clause : Option (TableRow T V → Bool)}
    (h : deletionClause options config metadata data (retrieveMetrics options data) = .ok clause)
    {row : TableRow T V} : clauseTest clause row = true ↔
      row.point ∈ regionOf options config data metadata (textPoints options config data) := by
  unfold deletionClause at h
  rw [if_neg (by simp [hrequested])] at h
  split at h
  · rename_i hempty
    obtain rfl := Except.ok.inj h
    rw [regionOf_eq_empty hempty]
    exact iff_of_false Bool.false_ne_true (Set.notMem_empty _)
  · obtain ⟨metricsToUse, hmetricsToUse, h⟩ := bind_eq_ok.mp h
    have hmetrics : ∀ metric, metric ∈ metricsToUse ↔ metric ∈ listedMetrics options config data :=
      fun metric => mem_iff_of_mapM hmetricsToUse
    unfold regionOf
    cases hinvalidation : metadata.invalidationInterval with
    | some interval =>
      rw [hinvalidation] at h
      obtain rfl := return_eq_ok.mp h
      exact intervalClause_iff hmetrics
    | none =>
      rw [hinvalidation] at h
      dsimp only at h ⊢
      split at h
      · rename_i hdiscrete
        rw [if_pos hdiscrete]
        exact discreteClause_iff h
      · rename_i hdiscrete
        rw [if_neg hdiscrete]
        cases href : metadata.refInterval with
        | some interval =>
          rw [href] at h
          obtain rfl := return_eq_ok.mp h
          exact intervalClause_iff hmetrics
        | none =>
          rw [href] at h
          dsimp only at h ⊢
          split at h
          · rename_i minTs maxTs hmin hmax
            obtain rfl := return_eq_ok.mp h
            rw [← interval_eq_spannedTimes hmin hmax]
            exact intervalClause_iff hmetrics
          · rename_i hnone
            obtain rfl := return_eq_ok.mp h
            rw [spannedTimes_eq_empty (rows_eq_nil_of_min? hnone), Set.empty_prod]
            exact iff_of_false Bool.false_ne_true (Set.notMem_empty _)

/-- A write succeeds exactly if the frame can be prepared and the condition for the rows to delete can
be made; it overwrites the rows for which this holds. -/
theorem writeTimeseriesTable_eq_ok_iff
    (hallowed : config.allowInvalidation = true ∧ config.deleteInvalidated = true)
    (hmetadata : data.datasetMetadata = some metadata) {table table' : List (TableRow T V)} :
    writeTimeseriesTable options config data table = .ok table' ↔ config.appendable = true ∧
      ∃ sent clause, prepareValidateMultitsframe options config data = .ok sent ∧
        deletionClause options config metadata data (retrieveMetrics options data) = .ok clause ∧
          table' = overwrite (clauseTest clause) table (writtenRows metadata sent) := by
  have hdeletes : (config.allowInvalidation && config.deleteInvalidated) = true := by
    rw [hallowed.1, hallowed.2]
    rfl
  have hwritten (clause : Option (TableRow T V → Bool)) (sent : List (TableRow T V)) :
      (if metadata.onlyInvalidate then return executeDelete clause table
        else return executeDelete clause table ++ sent : Except WritingError _) =
        .ok (overwrite (clauseTest clause) table (writtenRows metadata sent)) := by
    rw [← executeDelete_append, writtenRows]
    split
    · rw [List.append_nil]
      rfl
    · rfl
  rw [writeTimeseriesTable, require_bind_eq_ok, bind_eq_ok, hmetadata]
  dsimp only
  refine and_congr_right fun _ => exists_congr fun sent => ?_
  rw [if_pos hdeletes, bind_eq_ok]
  constructor
  · rintro ⟨hsent, clause, hclause, h⟩
    rw [hwritten] at h
    exact ⟨clause, hsent, hclause, (Except.ok.inj h).symm⟩
  · rintro ⟨clause, hsent, hclause, rfl⟩
    exact ⟨hsent, clause, hclause, hwritten clause sent⟩

end Deletion

/-! ## Writing in the region -/

/-- The points of a discrete reference dataset are invalidated. -/
def DatasetMetadata.IsDiscrete (metadata : DatasetMetadata T) : Prop :=
  metadata.invalidationInterval = none ∧ metadata.refDatasetDiscrete = true

section Replacing

variable {options : WritingOptions} {config : TimeseriesTableConfig} {data : SentFrame T V}
  {metadata : DatasetMetadata T}

/-- The region of a discrete dataset is made of its points. -/
theorem regionOf_of_discrete (h : metadata.IsDiscrete) (points : Set (T × MetricValue)) :
    regionOf options config data metadata points = points := by
  unfold regionOf
  rw [h.1]
  exact if_pos h.2

/-- All other regions do not look at the points. -/
theorem regionOf_of_not_discrete (h : ¬ metadata.IsDiscrete) (points points' : Set (T × MetricValue)) :
    regionOf options config data metadata points = regionOf options config data metadata points' := by
  unfold regionOf
  cases hinvalidation : metadata.invalidationInterval with
  | some interval => rfl
  | none =>
    have hdiscrete : ¬ metadata.refDatasetDiscrete = true := fun hdiscrete =>
      h ⟨hinvalidation, hdiscrete⟩
    dsimp only
    rw [if_neg hdiscrete, if_neg hdiscrete]

omit [LinearOrder T] in
/-- The rows which are sent have the points of the frame. -/
theorem mem_framePoints_iff {sent : List (TableRow T V)}
    (h : prepareValidateMultitsframe options config data = .ok sent) {point : T × MetricValue} :
    point ∈ framePoints options config data ↔ ∃ row ∈ sent, row.point = point := by
  constructor
  · rintro ⟨given, hgiven, htimestamp, hconvert⟩
    exact ⟨_, (mem_prepared_iff h).mpr ⟨given, hgiven, _, hconvert, rfl⟩, Prod.ext htimestamp rfl⟩
  · rintro ⟨row, hrow, rfl⟩
    obtain ⟨given, hgiven, metric, hconvert, rfl⟩ := (mem_prepared_iff h).mp hrow
    exact ⟨given, hgiven, rfl, hconvert⟩

/-- What is deleted is invalidated. -/
theorem invalidated_of_deleted
    (hrequested : metadata.invalidateDataset = true ∧ metadata.deleteInvalidated ≠ some false)
    {clause : Option (TableRow T V → Bool)}
    (hclause : deletionClause options config metadata data (retrieveMetrics options data) =
      .ok clause) {row : TableRow T V} (hrow : clauseTest clause row = true) :
    row.point ∈ invalidatedRegion options config data metadata := by
  rw [deletionClause_iff hrequested hclause] at hrow
  unfold invalidatedRegion
  by_cases hdiscrete : metadata.IsDiscrete
  · rw [regionOf_of_discrete hdiscrete] at hrow ⊢
    obtain ⟨given, hgiven, htimestamp, -, hconvert⟩ := hrow
    exact ⟨given, hgiven, htimestamp, hconvert⟩
  · rwa [regionOf_of_not_discrete hdiscrete _ (textPoints options config data)]

/-- A successful write replaces the invalidated region exactly if it deletes whatever is invalidated
in the table and, where this is in the region, in what is written. -/
theorem replacesRegion_iff_deletes
    (hallowed : config.allowInvalidation = true ∧ config.deleteInvalidated = true)
    (hmetadata : data.datasetMetadata = some metadata)
    (hrequested : metadata.invalidateDataset = true ∧ metadata.deleteInvalidated ≠ some false)
    (happendable : config.appendable = true) {table sent : List (TableRow T V)}
    {clause : Option (TableRow T V → Bool)}
    (hsent : prepareValidateMultitsframe options config data = .ok sent)
    (hclause : deletionClause options config metadata data (retrieveMetrics options data) =
      .ok clause) :
    ReplacesRegion options config data metadata table
        (overwrite (clauseTest clause) table (writtenRows metadata sent)) ↔
      (∀ row ∈ table, row.point ∈ invalidatedRegion options config data metadata →
        clauseTest clause row = true) ∧
      ((∀ row ∈ writtenRows metadata sent,
          row.point ∈ invalidatedRegion options config data metadata) →
        ∀ row ∈ writtenRows metadata sent, clauseTest clause row = true) := by
  classical
  set deleted := clauseTest clause
  set written := writtenRows metadata sent
  -- a second write deletes and writes the same
  have htwice (twice : List (TableRow T V)) :
      writeTimeseriesTable options config data (overwrite deleted table written) = .ok twice ↔
        twice = overwrite deleted (overwrite deleted table written) written := by
    rw [writeTimeseriesTable_eq_ok_iff hallowed hmetadata]
    constructor
    · rintro ⟨-, sent', clause', hsent', hclause', rfl⟩
      obtain rfl := Except.ok.inj (hsent.symm.trans hsent')
      obtain rfl := Except.ok.inj (hclause.symm.trans hclause')
      rfl
    · rintro rfl
      exact ⟨happendable, sent, clause, hsent, hclause, rfl⟩
  have honce : (overwrite deleted table written).Perm (overwrite (fun row =>
      decide (row.point ∈ invalidatedRegion options config data metadata)) table written) ↔
        ∀ row ∈ table, row.point ∈ invalidatedRegion options config data metadata →
          deleted row = true := by
    rw [overwrite_perm_iff fun row hrow =>
      decide_eq_true (invalidated_of_deleted hrequested hclause hrow)]
    simp only [decide_eq_true_eq, deleted]
  rw [← honce, ← overwrite_overwrite_perm_iff (p := deleted) (l := table)]
  constructor
  · rintro ⟨sent', hsent', hreplaced, hagain⟩
    obtain rfl := Except.ok.inj (hsent.symm.trans hsent')
    refine ⟨hreplaced, fun hregion => ?_⟩
    obtain ⟨twice, hwritten, hsame⟩ := hagain hregion
    rw [(htwice twice).mp hwritten] at hsame
    exact hsame
  · rintro ⟨hreplaced, hagain⟩
    exact ⟨sent, hsent, hreplaced, fun hregion => ⟨_, (htwice _).mpr rfl, hagain hregion⟩⟩

/-- A successful write replaces the invalidated region exactly if the points of a discrete reference
dataset which are in the table or are written are points whose metrics the frame gives as listed
texts. -/
theorem replacesRegion_iff
    (hallowed : config.allowInvalidation = true ∧ config.deleteInvalidated = true)
    (hmetadata : data.datasetMetadata = some metadata)
    (hrequested : metadata.invalidateDataset = true ∧ metadata.deleteInvalidated ≠ some false)
    {table table' : List (TableRow T V)}
    (hwrite : writeTimeseriesTable options config data table = .ok table') :
    ReplacesRegion options config data metadata table table' ↔ (metadata.IsDiscrete →
      (∀ row ∈ table, row.point ∈ framePoints options config data →
        row.point ∈ textPoints options config data) ∧
      (metadata.onlyInvalidate = false →
        framePoints options config data ⊆ textPoints options config data)) := by
  obtain ⟨happendable, sent, clause, hsent, hclause, rfl⟩ :=
    (writeTimeseriesTable_eq_ok_iff hallowed hmetadata).mp hwrite
  rw [replacesRegion_iff_deletes hallowed hmetadata hrequested happendable hsent hclause]
  simp only [deletionClause_iff hrequested hclause, invalidatedRegion]
  by_cases hdiscrete : metadata.IsDiscrete
  · rw [imp_iff_right hdiscrete]
    simp only [regionOf_of_discrete hdiscrete]
    refine and_congr_right fun _ => ?_
    rw [writtenRows]
    split
    · rename_i honly
      refine iff_of_true (fun _ row hrow => absurd hrow List.not_mem_nil) fun hnot => ?_
      exact absurd (honly.symm.trans hnot) (by decide)
    · rename_i honly
      rw [imp_iff_right (fun row hrow => (mem_framePoints_iff hsent).mpr ⟨row, hrow, rfl⟩),
        imp_iff_right (Bool.eq_false_iff.mpr honly)]
      constructor
      · intro h point hpoint
        obtain ⟨row, hrow, rfl⟩ := (mem_framePoints_iff hsent).mp hpoint
        exact h row hrow
      · exact fun h row hrow => h ((mem_framePoints_iff hsent).mpr ⟨row, hrow, rfl⟩)
  · rw [regionOf_of_not_discrete hdiscrete _ (textPoints options config data)]
    exact iff_of_true ⟨fun _ _ => id, id⟩ fun h => absurd h hdiscrete

end Replacing

/-! ## A table with an integer column -/

/-- Metadata without intervals, for a dataset which is discrete or not. -/
def plainMetadata (discrete : Bool) : DatasetMetadata ℤ where
  refDatasetDiscrete := discrete
  refIntervalStartTimestamp := none
  refIntervalEndTimestamp := none
  refIntervalType := some .closed
  invalidationIntervalStart := none
  invalidationIntervalEnd := none
  invalidationIntervalType := some .closed
  invalidateDataset := true
  deleteInvalidated := none
  onlyInvalidate := false
  only_invalidate_invalidates := fun _ => rfl
  ref_interval_complete := ⟨rfl, fun _ => rfl⟩
  invalidation_interval_complete := ⟨rfl, fun _ => rfl⟩

/-- The table allows deletions and has a column of integer metrics. -/
def integerTable : TimeseriesTableConfig where
  appendable := true
  allowInvalidation := true
  deleteInvalidated := true
  metricType := .int
  writableValueCols := [['v']]
  columnMappingHdToDb := []
  column_mapping_invertible := List.nodup_nil

/-- The text of one digit. -/
def digitOptions : WritingOptions where
  int := fun
    | ['7'] => some 7
    | _ => none
  inferMetrics := false

/-- A frame with one row for the metric `7`, which is listed. -/
def sevenFrame (discrete : Bool) (metric : MetricValue) : SentFrame ℤ ℤ where
  valueColumns := [['v']]
  rows := [⟨3, metric, fun _ => 10⟩]
  datasetMetadata := some (plainMetadata discrete)
  byMetric := [['7']]
  refMetrics := []

/-- The characterisation for an interval and integer metrics: the older row for the same time is
replaced, and a row of another metric stays. -/
theorem sevenFrame_replaces :
    writeTimeseriesTable digitOptions integerTable (sevenFrame false (.int 7))
        [⟨3, .int 7, [(['v'], 1)]⟩, ⟨3, .int 8, [(['v'], 2)]⟩] =
      .ok [⟨3, .int 8, [(['v'], 2)]⟩, ⟨3, .int 7, [(['v'], 10)]⟩] ∧
    ReplacesRegion digitOptions integerTable (sevenFrame false (.int 7)) (plainMetadata false)
      [⟨3, .int 7, [(['v'], 1)]⟩, ⟨3, .int 8, [(['v'], 2)]⟩]
      [⟨3, .int 8, [(['v'], 2)]⟩, ⟨3, .int 7, [(['v'], 10)]⟩] := by
  exact ⟨rfl, (replacesRegion_iff ⟨rfl, rfl⟩ rfl ⟨rfl, fun h => by cases h⟩ rfl).mpr
    fun h => absurd h.2 Bool.false_ne_true⟩

/-- In a discrete dataset the older row stays if the metric is given as an integer. -/
example : writeTimeseriesTable digitOptions integerTable (sevenFrame true (.int 7))
    [⟨3, .int 7, [(['v'], 1)]⟩] =
      .ok [⟨3, .int 7, [(['v'], 1)]⟩, ⟨3, .int 7, [(['v'], 10)]⟩] := rfl

end HetidaDesigner
