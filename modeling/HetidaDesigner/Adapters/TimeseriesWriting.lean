import HetidaDesigner.Adapters.Sql
import Mathlib.Order.Interval.Set.Basic

/-!
# Writing into timeseries tables

The functions of `adapters/sql_adapter/write_table.py` for appendable timeseries tables: a frame is
prepared, the rows which its metadata invalidates are deleted, and the prepared rows are appended.
Timestamps are those in explicit UTC. Metrics of frames are integers or texts. The mapping of the
timestamp and metric columns has to lead to the configured columns, so only the other columns are
mapped here. Which integer a text stands for is a parameter.
-/

namespace HetidaDesigner

open Checks

/-! ## Frames and tables -/

/-- A metric in a frame or in a table. -/
inductive MetricValue
  | int (n : ℤ)
  | str (s : PyStr)
  deriving DecidableEq, Repr

/-- The types of metric columns. -/
inductive MetricType
  | str | int
  deriving DecidableEq, Repr

/-- The class `IntervalType` -/
inductive IntervalType
  | closed | leftClosed | rightClosed | open | leftOpen | rightOpen
  deriving DecidableEq, Repr

/-- The class `DatasetMetadata`, as far as tables are concerned. -/
structure DatasetMetadata (T : Type) where
  refDatasetDiscrete : Bool
  refIntervalStartTimestamp : Option T
  refIntervalEndTimestamp : Option T
  refIntervalType : Option IntervalType
  invalidationIntervalStart : Option T
  invalidationIntervalEnd : Option T
  invalidationIntervalType : Option IntervalType
  invalidateDataset : Bool
  deleteInvalidated : Option Bool
  onlyInvalidate : Bool
  only_invalidate_invalidates : onlyInvalidate = true → invalidateDataset = true
  ref_interval_complete : refIntervalStartTimestamp.isSome = refIntervalEndTimestamp.isSome ∧
    (refIntervalStartTimestamp.isSome = true → refIntervalType.isSome = true)
  invalidation_interval_complete :
    invalidationIntervalStart.isSome = invalidationIntervalEnd.isSome ∧
      (invalidationIntervalStart.isSome = true → invalidationIntervalType.isSome = true)

/-- A row of a frame, with the values in its other columns. -/
structure FrameRow (T V : Type) where
  timestamp : T
  metric : MetricValue
  values : PyStr → V

/-- A frame which is sent, with the parts of its attributes which are read. The metadata is missing
if validation rejects it. -/
structure SentFrame (T V : Type) where
  valueColumns : List PyStr
  rows : List (FrameRow T V)
  datasetMetadata : Option (DatasetMetadata T)
  byMetric : List PyStr
  refMetrics : List PyStr

/-- A row of a timeseries table. -/
structure TableRow (T V : Type) where
  timestamp : T
  metric : MetricValue
  values : List (PyStr × V)
  deriving DecidableEq

/-- The configuration of a timeseries table. -/
structure TimeseriesTableConfig where
  appendable : Bool
  allowInvalidation : Bool
  deleteInvalidated : Bool
  metricType : MetricType
  writableValueCols : List PyStr
  columnMappingHdToDb : List (PyStr × PyStr)
  column_mapping_invertible : (columnMappingHdToDb.map Prod.snd).Nodup

/-- Integers in texts, and whether metrics for deletions are inferred from the metric column. -/
structure WritingOptions where
  int : PyStr → Option ℤ
  inferMetrics : Bool

/-- Reasons for writing to fail. -/
inductive WritingError
  | notAppendable
  | metricNotInteger
  | missingColumns
  | invalidMetadata
  deriving DecidableEq, Repr

/-! ## Preparation -/

section Writing

variable {T V : Type}

/-- The text of an integer. -/
def intText (n : ℤ) : PyStr :=
  if n < 0 then '-' :: Nat.toDigits 10 n.natAbs else Nat.toDigits 10 n.natAbs

/-- The text of a metric. -/
def MetricValue.text : MetricValue → PyStr
  | .int n => intText n
  | .str s => s

/-- The integer of a metric. -/
def MetricValue.toInt (int : PyStr → Option ℤ) : MetricValue → Except WritingError ℤ
  | .int n => .ok n
  | .str s =>
    match int s with
    | none => .error .metricNotInteger
    | some n => .ok n

/-- A metric in a metric column of the given type. -/
def convertMetric (int : PyStr → Option ℤ) (metricType : MetricType) (metric : MetricValue) :
    Except WritingError MetricValue :=
  match metricType with
  | .str => .ok (.str metric.text)
  | .int => do
    let n ← metric.toInt int
    return .int n

/-- The name of a column in the database. -/
def TimeseriesTableConfig.dbColumn (config : TimeseriesTableConfig) (column : PyStr) : PyStr :=
  (config.columnMappingHdToDb.lookup column).getD column

/-- The values of a row in the writable columns. -/
def sentValues (config : TimeseriesTableConfig) (valueColumns : List PyStr) (values : PyStr → V) :
    List (PyStr × V) :=
  config.writableValueCols.map fun dbColumn =>
    (dbColumn, values ((valueColumns.find? fun column => config.dbColumn column = dbColumn).getD
      dbColumn))

/-- `prepare_validate_multitsframe` -/
def prepareValidateMultitsframe (options : WritingOptions) (config : TimeseriesTableConfig)
    (dataToSend : SentFrame T V) : Except WritingError (List (TableRow T V)) := do
  let metrics ← dataToSend.rows.mapM fun row => convertMetric options.int config.metricType row.metric
  require (config.writableValueCols.all fun dbColumn =>
    decide (dbColumn ∈ dataToSend.valueColumns.map config.dbColumn)) .missingColumns
  return List.zipWith (fun (row : FrameRow T V) metric =>
    ⟨row.timestamp, metric, sentValues config dataToSend.valueColumns row.values⟩)
    dataToSend.rows metrics

/-- `_retrieve_metrics` -/
def retrieveMetrics (options : WritingOptions) (data : SentFrame T V) : List PyStr :=
  if data.byMetric ≠ [] then data.byMetric
  else if data.refMetrics ≠ [] then data.refMetrics
  else if options.inferMetrics then
    (data.rows.map fun row => row.metric).eraseDups.map MetricValue.text
  else []

/-! ## Deletion -/

variable [LinearOrder T]

/-- `INTERVAL_OPERATORS`: the test at the start of an interval -/
def IntervalType.startOp (type : IntervalType) (timestamp start : T) : Bool :=
  match type with
  | .closed | .leftClosed | .rightOpen => start ≤ timestamp
  | .rightClosed | .open | .leftOpen => start < timestamp

/-- `INTERVAL_OPERATORS`: the test at the end of an interval -/
def IntervalType.endOp (type : IntervalType) (timestamp finish : T) : Bool :=
  match type with
  | .closed | .rightClosed | .leftOpen => timestamp ≤ finish
  | .leftClosed | .open | .rightOpen => timestamp < finish

/-- An interval, if all its parts are given. -/
def intervalOf (start finish : Option T) (type : Option IntervalType) :
    Option (T × T × IntervalType) :=
  match start, finish, type with
  | some start, some finish, some type => some (start, finish, type)
  | _, _, _ => none

/-- The interval of a separate invalidation dataset. -/
def DatasetMetadata.invalidationInterval (metadata : DatasetMetadata T) :
    Option (T × T × IntervalType) :=
  intervalOf metadata.invalidationIntervalStart metadata.invalidationIntervalEnd
    metadata.invalidationIntervalType

/-- The interval of the reference dataset. -/
def DatasetMetadata.refInterval (metadata : DatasetMetadata T) : Option (T × T × IntervalType) :=
  intervalOf metadata.refIntervalStartTimestamp metadata.refIntervalEndTimestamp
    metadata.refIntervalType

/-- The condition for rows in an interval. -/
def intervalClause (interval : T × T × IntervalType) (metricsToUse : List MetricValue)
    (row : TableRow T V) : Bool :=
  interval.2.2.startOp row.timestamp interval.1 && interval.2.2.endOp row.timestamp interval.2.1 &&
    decide (row.metric ∈ metricsToUse)

/-- The condition for the points of a discrete dataset: the metric column is compared with the
metrics as it is. -/
def discreteClause (options : WritingOptions) (config : TimeseriesTableConfig) (df : SentFrame T V)
    (metrics : List PyStr) : Except WritingError (Option (TableRow T V → Bool)) := do
  let filteredRows := df.rows.filter fun row => row.metric ∈ metrics.map MetricValue.str
  if filteredRows = [] then return none
  let metricData ← filteredRows.mapM fun row => convertMetric options.int config.metricType row.metric
  let points := List.zipWith (fun (row : FrameRow T V) metric => (row.timestamp, metric)) filteredRows
    metricData
  return some fun row => decide ((row.timestamp, row.metric) ∈ points)

/-- `_handle_deletion` up to the execution of the statement: the condition for the rows to delete. -/
def deletionClause (options : WritingOptions) (config : TimeseriesTableConfig)
    (metadata : DatasetMetadata T) (df : SentFrame T V) (metrics : List PyStr) :
    Except WritingError (Option (TableRow T V → Bool)) :=
  if metadata.invalidateDataset = false ∨ metadata.deleteInvalidated = some false then .ok none
  else if metrics = [] then .ok none
  else do
    let metricsToUse ← metrics.mapM fun metric =>
      convertMetric options.int config.metricType (.str metric)
    match metadata.invalidationInterval with
    | some interval => return some (intervalClause interval metricsToUse)
    | none =>
      if metadata.refDatasetDiscrete then discreteClause options config df metrics
      else
        match metadata.refInterval with
        | some interval => return some (intervalClause interval metricsToUse)
        | none =>
          let timestamps : List T := df.rows.map fun row => row.timestamp
          match timestamps.min?, timestamps.max? with
          | some minTs, some maxTs =>
            return some (intervalClause (minTs, maxTs, .closed) metricsToUse)
          | _, _ => return none

/-- The rows of a table which a deletion leaves. -/
def executeDelete (clause : Option (TableRow T V → Bool)) (table : List (TableRow T V)) :
    List (TableRow T V) :=
  match clause with
  | none => table
  | some whereClause => table.filter fun row => !whereClause row

/-- `write_table_to_provided_sink_id` for a timeseries table -/
def writeTimeseriesTable (options : WritingOptions) (config : TimeseriesTableConfig)
    (data : SentFrame T V) (table : List (TableRow T V)) :
    Except WritingError (List (TableRow T V)) := do
  require config.appendable .notAppendable
  let dataToSend ← prepareValidateMultitsframe options config data
  match data.datasetMetadata with
  | none => throw .invalidMetadata
  | some metadata =>
    let metrics := retrieveMetrics options data
    let clause ← if config.allowInvalidation && config.deleteInvalidated then
        deletionClause options config metadata data metrics
      else .ok none
    let remaining := executeDelete clause table
    if metadata.onlyInvalidate then return remaining
    else return remaining ++ dataToSend

end Writing

end HetidaDesigner
