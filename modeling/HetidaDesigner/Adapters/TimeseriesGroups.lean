import HetidaDesigner.Adapters.GenericRest
import Mathlib.Data.Finset.Dedup
import Mathlib.Data.List.Sort

/-!
# Loading timeseries in groups

`load_grouped_timeseries_data_together` of `generic_rest/load_ts_data.py`: sources with one type
and one set of filters are requested together, and the answer is split again by ids. An answer is
read by `pandas.read_json`, which infers the type of a column from all of its values, so that ids
are read as numbers if all ids of the answer look like numbers.
-/

namespace HetidaDesigner

open Checks KeyedList

/-! ## Sources and their filters -/

/-- A source as `load_data` passes it on: with a reference id and the type of a timeseries. -/
structure TimeseriesSource where
  refId : PyStr
  type : ExternalType
  filters : List (PyStr × PyStr)
  is_timeseries : type.generalType = .timeseries
  deriving DecidableEq

/-- Timeseries sources by the names of inputs. -/
structure TimeseriesSources where
  entries : List (PyStr × TimeseriesSource)
  names_unique : (entries.map Prod.fst).Nodup

/-- The source of an input alone. -/
def TimeseriesSources.single (entry : PyStr × TimeseriesSource) : TimeseriesSources :=
  ⟨[entry], List.nodup_singleton _⟩

/-- Reasons for sources not to be requested together. -/
inductive InvalidSources
  | severalTypes
  | noSources
  | severalDataframes
  deriving DecidableEq, Repr

/-- Reasons for loading timeseries to fail. -/
inductive LoadTimeseriesError
  | clientWiringInvalid
  | invalidSources (reason : InvalidSources)
  | missingIds
  deriving DecidableEq, Repr

/-- The interval for the expressions of a source, if it can be resolved. -/
abbrev ResolveInterval := Option PyStr → Option PyStr → Option (PyStr × PyStr)

/-- The filters with the resolved interval in the place of its expressions. -/
def resolvedFilters (resolveInterval : ResolveInterval) (filters : List (PyStr × PyStr)) :
    Except LoadTimeseriesError (List (PyStr × PyStr)) :=
  let others := filters.filter fun filter =>
    filter.1 ≠ "timestampFrom".toList ∧ filter.1 ≠ "timestampTo".toList
  match resolveInterval (filters.lookup "timestampFrom".toList)
    (filters.lookup "timestampTo".toList) with
  | none => .error .clientWiringInvalid
  | some (start, stop) =>
    .ok (insertEntry Prod.fst (insertEntry Prod.fst others ("from".toList, start))
      ("to".toList, stop))

/-- A source with resolved filters. -/
def resolveSource (resolveInterval : ResolveInterval) (entry : PyStr × TimeseriesSource) :
    Except LoadTimeseriesError (PyStr × TimeseriesSource) := do
  let filters ← resolvedFilters resolveInterval entry.2.filters
  return (entry.1, { entry.2 with filters := filters })

/-- The sources with resolved filters. -/
def resolveSources (resolveInterval : ResolveInterval) (sources : TimeseriesSources) :
    Except LoadTimeseriesError (List (PyStr × TimeseriesSource)) :=
  sources.entries.mapM (resolveSource resolveInterval)

/-! ## Requests -/

/-- The key by which sources are grouped. -/
def TimeseriesSource.groupKey (source : TimeseriesSource) :
    Finset (PyStr × PyStr) × ExternalType :=
  (source.filters.toFinset, source.type)

/-- A request for some sources. -/
structure TimeseriesRequest where
  filterParams : Finset (PyStr × PyStr)
  type : ExternalType
  sources : List (PyStr × TimeseriesSource)
  deriving DecidableEq

/-- The ids in a request. -/
def TimeseriesRequest.ids (request : TimeseriesRequest) : List PyStr :=
  request.sources.map fun entry => entry.2.refId

/-- The request for a group of sources. -/
def requestOfGroup
    (group : (Finset (PyStr × PyStr) × ExternalType) × List (PyStr × TimeseriesSource)) :
    TimeseriesRequest :=
  ⟨group.1.1, group.1.2, group.2⟩

/-- The requests for sources with resolved filters. -/
def timeseriesRequests (resolved : List (PyStr × TimeseriesSource)) : List TimeseriesRequest :=
  (groupBy (fun entry => entry.2.groupKey) resolved).map requestOfGroup

/-- `are_valid_sources` -/
def areValidSources (sources : List TimeseriesSource) : Except InvalidSources Unit := do
  require (decide ((sources.map fun source => source.type).dedup.length ≤ 1)) .severalTypes
  require (!sources.isEmpty) .noSources
  require (!(decide ((sources.head?.map fun source => source.type) = some .dataframe) &&
    decide (1 < sources.length))) .severalDataframes

/-! ## Answers -/

/-- A record of a timeseries with its values as they stand in JSON. -/
structure TimeseriesRecord (R : Type) where
  timeseriesId : PyStr
  timestamp : R
  value : R
  deriving DecidableEq

/-- The answer to a request: its records and attributes by ids. -/
structure TimeseriesAnswer (R A : Type) where
  records : List (TimeseriesRecord R)
  attributes : List (PyStr × A)

/-- An endpoint whose answers have the records of the requested ids and their attributes. These
depend only on the id, the filters and the type. -/
structure TimeseriesEndpoint (R A : Type) where
  recordsOf : PyStr → Finset (PyStr × PyStr) → ExternalType → List (TimeseriesRecord R)
  attributesOf : PyStr → Finset (PyStr × PyStr) → ExternalType → Option A
  answer : List PyStr → Finset (PyStr × PyStr) → ExternalType → TimeseriesAnswer R A
  id_of_mem : ∀ {id filters type record}, record ∈ recordsOf id filters type →
    record.timeseriesId = id
  timestamps_nodup : ∀ id filters type,
    ((recordsOf id filters type).map fun record => record.timestamp).Nodup
  answer_records : ∀ ids filters type, (answer ids filters type).records.Perm
    (ids.dedup.flatMap fun id => recordsOf id filters type)
  answer_attributes : ∀ {ids filters type id}, id ∈ ids →
    (answer ids filters type).attributes.lookup id = attributesOf id filters type

/-- How `pandas.read_json` reads columns. A column of texts which are all numbers becomes a column
of integers, if all of them are integral, and of floats otherwise. As a text a float is missing if
it is no number, and never looks like an integer. -/
structure ReadJson (R N T V : Type) where
  number : PyStr → Option N
  isIntegral : N → Bool
  intText : N → PyStr
  floatText : N → Option PyStr
  timestamps : List R → List T
  values : List R → List V
  floatText_ne_intText : ∀ x y, floatText x ≠ some (intText y)
  length_timestamps : ∀ column, (timestamps column).length = column.length
  length_values : ∀ column, (values column).length = column.length

variable {R A N T V : Type}

/-- How an id is read, and converted to a text again, in a column of ids. -/
def ReadJson.readId (read : ReadJson R N T V) (column : List PyStr) (id : PyStr) : Option PyStr :=
  match read.number id with
  | none => some id
  | some x =>
    if column.all fun other => (read.number other).isSome then
      if column.all fun other => (read.number other).any read.isIntegral then some (read.intText x)
      else read.floatText x
    else some id

/-- Timestamps and values of records as they are read. -/
def ReadJson.readPoints (read : ReadJson R N T V) (records : List (TimeseriesRecord R)) :
    List (T × V) :=
  (read.timestamps (records.map fun record => record.timestamp)).zip
    (read.values (records.map fun record => record.value))

/-- A frame of timeseries with its attributes. -/
structure TimeseriesFrame (T V A : Type) where
  rows : List (Option PyStr × T × V)
  attrs : List (PyStr × A)

/-- A series with its name and its attributes. -/
structure LoadedSeries (T V A : Type) where
  name : PyStr
  points : List (T × V)
  attrs : A
  deriving DecidableEq

/-- The frame which is read from an answer. -/
def ReadJson.frame (read : ReadJson R N T V) (answer : TimeseriesAnswer R A) :
    TimeseriesFrame T V A where
  rows :=
    let column := answer.records.map fun record => record.timeseriesId
    (column.map (read.readId column)).zip (read.readPoints answer.records)
  attrs := answer.attributes

/-- `load_ts_data_from_adapter`, with `load_framelike_data` for timeseries; an answer without
records gives a frame without rows. -/
def loadTsDataFromAdapter (endpoint : TimeseriesEndpoint R A) (read : ReadJson R N T V)
    (request : TimeseriesRequest) : Except LoadTimeseriesError (TimeseriesFrame T V A) := do
  (areValidSources (request.sources.map Prod.snd)).mapError .invalidSources
  return read.frame (endpoint.answer request.ids request.filterParams request.type)

section Loading

variable [LinearOrder T] [EmptyCollection A]

/-- Points in the order of their timestamps. -/
def sortIndex (points : List (T × V)) : List (T × V) :=
  points.insertionSort fun point other => point.1 ≤ other.1

/-- `extract_one_channel_series_from_loaded_data` -/
def extractOneChannelSeries (frame : TimeseriesFrame T V A) (tsId : PyStr) :
    LoadedSeries T V A where
  name := tsId
  points := sortIndex ((frame.rows.filter fun row => row.1 = some tsId).map Prod.snd)
  attrs := (frame.attrs.lookup tsId).getD ∅

/-- The series for the sources of a request. -/
def loadRequest (endpoint : TimeseriesEndpoint R A) (read : ReadJson R N T V)
    (request : TimeseriesRequest) :
    Except LoadTimeseriesError (List (PyStr × LoadedSeries T V A)) := do
  let frame ← loadTsDataFromAdapter endpoint read request
  require (!frame.rows.any fun row => row.1.isNone) .missingIds
  return request.sources.map fun entry => (entry.1, extractOneChannelSeries frame entry.2.refId)

/-- `load_grouped_timeseries_data_together` -/
def loadGroupedTimeseries (resolveInterval : ResolveInterval) (endpoint : TimeseriesEndpoint R A)
    (read : ReadJson R N T V) (sources : TimeseriesSources) :
    Except LoadTimeseriesError (List (PyStr × LoadedSeries T V A)) := do
  let resolved ← resolveSources resolveInterval sources
  let loaded ← (timeseriesRequests resolved).mapM (loadRequest endpoint read)
  return insertAll Prod.fst [] loaded.flatten

/-! ## Agreement with loading each source alone -/

/-- The same series, up to the representation of its values. -/
structure LoadedSeries.Agrees (sameValue : V → V → Prop) (series other : LoadedSeries T V A) :
    Prop where
  name : series.name = other.name
  timestamps : series.points.map Prod.fst = other.points.map Prod.fst
  values : List.Forall₂ sameValue (series.points.map Prod.snd) (other.points.map Prod.snd)
  attrs : series.attrs = other.attrs

/-- Each input gets exactly one series, which agrees with the one it gets alone. -/
def AgreesWithAlone (resolveInterval : ResolveInterval) (endpoint : TimeseriesEndpoint R A)
    (read : ReadJson R N T V) (sameValue : V → V → Prop) (sources : TimeseriesSources) : Prop :=
  ∃ loaded, loadGroupedTimeseries resolveInterval endpoint read sources = .ok loaded ∧
    (loaded.map Prod.fst).Nodup ∧
    (∀ name, name ∈ loaded.map Prod.fst ↔ name ∈ sources.entries.map Prod.fst) ∧
    ∀ entry ∈ sources.entries, ∃ series alone, (entry.1, series) ∈ loaded ∧
      loadGroupedTimeseries resolveInterval endpoint read (.single entry) =
        .ok [(entry.1, alone)] ∧
      series.Agrees sameValue alone

/-- The sources of a request have its type and its filters. -/
def TimeseriesRequest.Uniform (request : TimeseriesRequest) : Prop :=
  ∀ entry ∈ request.sources,
    entry.2.type = request.type ∧ entry.2.filters.toFinset = request.filterParams

/-- The ids of the sources with the type and the filters of a source. -/
def idsWith (resolved : List (PyStr × TimeseriesSource)) (source : TimeseriesSource) :
    List PyStr :=
  (resolved.filter fun entry => entry.2.groupKey = source.groupKey).map fun entry => entry.2.refId

/-- The answer for some ids with the filters and the type of a source. -/
def answerFor (endpoint : TimeseriesEndpoint R A) (ids : List PyStr) (source : TimeseriesSource) :
    TimeseriesAnswer R A :=
  endpoint.answer ids source.filters.toFinset source.type

/-- The ids of the records of an answer. -/
def TimeseriesAnswer.ids (answer : TimeseriesAnswer R A) : List PyStr :=
  answer.records.map fun record => record.timeseriesId

/-- The points of those records which a test selects. -/
def pointsWhere (read : ReadJson R N T V) (records : List (TimeseriesRecord R))
    (selects : TimeseriesRecord R → Bool) : List (T × V) :=
  sortIndex (((records.zip (read.readPoints records)).filter fun pair => selects pair.1).map
    Prod.snd)

/-- The points of the records with an id. -/
def pointsOf (read : ReadJson R N T V) (answer : TimeseriesAnswer R A) (id : PyStr) :
    List (T × V) :=
  pointsWhere read answer.records fun record => record.timeseriesId = id

/-- No id of an answer is read as missing. -/
def NoMissingIds (read : ReadJson R N T V) (answer : TimeseriesAnswer R A) : Prop :=
  ∀ id ∈ answer.ids, read.readId answer.ids id ≠ none

/-- The answer for several ids is read for one source in the same way as the answer for the source
alone: no id is missing in one of them, the records whose ids are read as the id of the source are
those which alone are read with this id, and their points are read in the same way. -/
structure ReadAlike (read : ReadJson R N T V) (sameValue : V → V → Prop)
    (answer alone : TimeseriesAnswer R A) (refId : PyStr) : Prop where
  noMissing : NoMissingIds read answer
  noMissing_alone : NoMissingIds read alone
  same_ids : ∀ id ∈ answer.ids, read.readId answer.ids id = some refId ↔
    id = refId ∧ read.readId alone.ids refId = some refId
  same_timestamps : read.readId alone.ids refId = some refId →
    (pointsOf read answer refId).map Prod.fst = (pointsOf read alone refId).map Prod.fst
  same_values : read.readId alone.ids refId = some refId →
    List.Forall₂ sameValue ((pointsOf read answer refId).map Prod.snd)
      ((pointsOf read alone refId).map Prod.snd)

end Loading

/-! ## Reading ids -/

/-- An id which is read back alone, and as which some id of a column is read, is read back in that
column: integers and floats have different texts. -/
theorem readId_eq_of_readId_eq {read : ReadJson R N T V} {column own : List PyStr} {refId id : PyStr}
    (hmem : refId ∈ column) (hid : id ∈ column) (hown : ∀ other ∈ own, other = refId)
    (hown_ne : own ≠ []) (halone : read.readId own refId = some refId)
    (hread : read.readId column id = some refId) : read.readId column refId = some refId := by
  unfold ReadJson.readId at halone hread ⊢
  cases hx : read.number refId with
  | none => rfl
  | some x =>
    have hnumeric : own.all (fun other => (read.number other).isSome) = true := by
      refine List.all_eq_true.mpr fun other hother => ?_
      rw [hown other hother, hx]
      rfl
    have hintegral : own.all (fun other => (read.number other).any read.isIntegral) =
        read.isIntegral x := by
      obtain ⟨first, hfirst⟩ := List.exists_mem_of_ne_nil own hown_ne
      rw [Bool.eq_iff_iff, List.all_eq_true]
      constructor
      · intro h
        simpa [hown first hfirst, hx] using h first hfirst
      · intro h other hother
        simpa [hown other hother, hx] using h
    rw [hx] at halone
    dsimp only at halone ⊢
    rw [if_pos hnumeric, hintegral] at halone
    by_cases hall : column.all (fun other => (read.number other).isSome) = true
    · rw [if_pos hall]
      by_cases hints : column.all (fun other => (read.number other).any read.isIntegral) = true
      · have hint : read.isIntegral x = true := by
          simpa [hx] using List.all_eq_true.mp hints refId hmem
        rw [if_pos hints]
        rwa [if_pos hint] at halone
      · rw [if_neg hints]
        by_cases hint : read.isIntegral x = true
        · -- alone it is read as an integer, here as a float
          rw [if_pos hint] at halone
          obtain ⟨y, hy⟩ := Option.isSome_iff_exists.mp (List.all_eq_true.mp hall id hid)
          rw [hy] at hread
          dsimp only at hread
          rw [if_pos hall, if_neg hints, ← halone] at hread
          exact absurd hread (read.floatText_ne_intText y x)
        · rwa [if_neg hint] at halone
    · rw [if_neg hall]

/-! ## Answers for several ids and for one id -/

/-- One of distinct elements contributes what it has. -/
theorem flatMap_ite_eq {α β : Type} [DecidableEq α] {keys : List α} (hnodup : keys.Nodup) {k : α}
    (hk : k ∈ keys) (l : List β) : (keys.flatMap fun k' => if k' = k then l else []) = l := by
  induction keys with
  | nil => exact absurd hk List.not_mem_nil
  | cons first rest ih =>
    obtain ⟨hfirst, hnodup⟩ := List.nodup_cons.mp hnodup
    rw [List.flatMap_cons]
    by_cases heq : first = k
    · have hrest : (rest.flatMap fun k' => if k' = k then l else []) = [] := by
        refine List.flatMap_eq_nil_iff.mpr fun k' hk' => if_neg ?_
        rintro rfl
        exact hfirst (heq ▸ hk')
      rw [if_pos heq, hrest, List.append_nil]
    · rw [if_neg heq, List.nil_append]
      exact ih hnodup ((List.mem_cons.mp hk).resolve_left (Ne.symm heq))

/-- Of an answer those records have a requested id which are there for this id. -/
theorem filter_answer_perm (endpoint : TimeseriesEndpoint R A) {ids : List PyStr} {refId : PyStr}
    (h : refId ∈ ids) (filters : Finset (PyStr × PyStr)) (type : ExternalType) :
    ((endpoint.answer ids filters type).records.filter fun record =>
      record.timeseriesId = refId).Perm (endpoint.recordsOf refId filters type) := by
  refine ((endpoint.answer_records ids filters type).filter _).trans (List.Perm.of_eq ?_)
  rw [List.filter_flatMap]
  have hsplit (id : PyStr) : (endpoint.recordsOf id filters type).filter
      (fun record => decide (record.timeseriesId = refId)) =
        if id = refId then endpoint.recordsOf refId filters type else [] := by
    split
    · rename_i heq
      subst heq
      exact List.filter_eq_self.mpr fun record hrecord => decide_eq_true (endpoint.id_of_mem hrecord)
    · rename_i hne
      refine List.filter_eq_nil_iff.mpr fun record hrecord heq => hne ?_
      exact (endpoint.id_of_mem hrecord).symm.trans (of_decide_eq_true heq)
  simp only [hsplit]
  exact flatMap_ite_eq (List.nodup_dedup ids) (List.mem_dedup.mpr h) _

/-- The answer for one id has the records of this id. -/
theorem answer_single_perm (endpoint : TimeseriesEndpoint R A) (refId : PyStr)
    (filters : Finset (PyStr × PyStr)) (type : ExternalType) :
    (endpoint.answer [refId] filters type).records.Perm
      (endpoint.recordsOf refId filters type) := by
  refine (endpoint.answer_records [refId] filters type).trans (List.Perm.of_eq ?_)
  rw [List.Nodup.dedup (List.nodup_singleton _), List.flatMap_singleton]

/-- In the answer for one id there is only this id. -/
theorem eq_of_mem_ids_single {endpoint : TimeseriesEndpoint R A} {source : TimeseriesSource}
    {id : PyStr} (h : id ∈ (answerFor endpoint [source.refId] source).ids) : id = source.refId := by
  obtain ⟨record, hrecord, rfl⟩ := List.mem_map.mp h
  exact endpoint.id_of_mem ((answer_single_perm endpoint _ _ _).mem_iff.mp hrecord)

/-- In an answer each requested id has as many records as in the answer for it alone. -/
theorem length_filter_answer (endpoint : TimeseriesEndpoint R A) {ids : List PyStr}
    {source : TimeseriesSource} (h : source.refId ∈ ids) :
    ((answerFor endpoint ids source).records.filter fun record =>
      record.timeseriesId = source.refId).length =
      (answerFor endpoint [source.refId] source).records.length := by
  unfold answerFor
  rw [(filter_answer_perm endpoint h _ _).length_eq, (answer_single_perm endpoint _ _ _).length_eq]

/-- Attributes of an id do not depend on the other ids. -/
theorem attributes_answer (endpoint : TimeseriesEndpoint R A) {ids : List PyStr}
    {source : TimeseriesSource} (h : source.refId ∈ ids) :
    (answerFor endpoint ids source).attributes.lookup source.refId =
      (answerFor endpoint [source.refId] source).attributes.lookup source.refId := by
  rw [answerFor, answerFor, endpoint.answer_attributes h,
    endpoint.answer_attributes (List.mem_singleton_self _)]

section Series

variable [LinearOrder T]

/-! ## Points -/

omit [LinearOrder T] in
/-- Points are only read for records. -/
theorem length_readPoints (read : ReadJson R N T V) (records : List (TimeseriesRecord R)) :
    (read.readPoints records).length = records.length := by
  rw [ReadJson.readPoints, List.length_zip, read.length_timestamps, read.length_values,
    List.length_map, List.length_map, min_self]

/-- As many points as selected records. -/
theorem length_pointsWhere (read : ReadJson R N T V) (records : List (TimeseriesRecord R))
    (selects : TimeseriesRecord R → Bool) :
    (pointsWhere read records selects).length = (records.filter selects).length := by
  have hfst : (records.zip (read.readPoints records)).map Prod.fst = records :=
    List.map_fst_zip (length_readPoints read records).ge
  conv_rhs => rw [← hfst, List.filter_map, List.length_map]
  rw [pointsWhere, sortIndex, List.length_insertionSort, List.length_map]
  rfl

/-- The points depend on the test only for the records. -/
theorem pointsWhere_congr {read : ReadJson R N T V} {records : List (TimeseriesRecord R)}
    {selects selects' : TimeseriesRecord R → Bool}
    (h : ∀ record ∈ records, selects record = selects' record) :
    pointsWhere read records selects = pointsWhere read records selects' := by
  unfold pointsWhere
  rw [List.filter_congr fun pair hpair => h pair.1 (List.of_mem_zip hpair).1]

/-- Without selected records there are no points. -/
theorem pointsWhere_eq_nil_iff {read : ReadJson R N T V} {records : List (TimeseriesRecord R)}
    {selects : TimeseriesRecord R → Bool} :
    pointsWhere read records selects = [] ↔ ∀ record ∈ records, ¬ selects record = true := by
  rw [← List.length_eq_zero_iff, length_pointsWhere, List.length_eq_zero_iff,
    List.filter_eq_nil_iff]

/-- The extracted series has the points of the records whose ids are read as the requested one. -/
theorem extract_frame [EmptyCollection A] (read : ReadJson R N T V) (answer : TimeseriesAnswer R A) (tsId : PyStr) :
    extractOneChannelSeries (read.frame answer) tsId =
      { name := tsId
        points := pointsWhere read answer.records fun record =>
          read.readId answer.ids record.timeseriesId = some tsId
        attrs := (answer.attributes.lookup tsId).getD ∅ } := by
  have hrows : (read.frame answer).rows = (answer.records.zip (read.readPoints answer.records)).map
      fun pair => (read.readId answer.ids pair.1.timeseriesId, pair.2) := by
    rw [ReadJson.frame, TimeseriesAnswer.ids]
    dsimp only
    rw [List.map_map, List.zip_map_left]
    rfl
  rw [extractOneChannelSeries, hrows, List.filter_map, List.map_map]
  rfl

omit [LinearOrder T] in
/-- A frame has no missing ids exactly if none of the answer is read as missing. -/
theorem noMissing_frame_iff {read : ReadJson R N T V} {answer : TimeseriesAnswer R A} :
    (!(read.frame answer).rows.any fun row => row.1.isNone) = true ↔ NoMissingIds read answer := by
  have hfst : (read.frame answer).rows.map Prod.fst =
      answer.ids.map (read.readId answer.ids) := by
    refine List.map_fst_zip ?_
    rw [length_readPoints, List.length_map, List.length_map]
  have hany : ((read.frame answer).rows.any fun row => row.1.isNone) =
      (answer.ids.map (read.readId answer.ids)).any Option.isNone := by
    rw [← hfst, List.any_map]
    rfl
  rw [hany, Bool.not_eq_true', List.any_eq_false, NoMissingIds, List.forall_mem_map]
  simp only [Option.isNone_iff_eq_none]

/-! ## One source -/

/-- What is read for a source alone are all of its records, if its id is read back. -/
theorem pointsWhere_alone {endpoint : TimeseriesEndpoint R A} {read : ReadJson R N T V}
    {source : TimeseriesSource} {alone : TimeseriesAnswer R A}
    (halone : alone = answerFor endpoint [source.refId] source)
    (h : read.readId alone.ids source.refId = some source.refId) :
    pointsWhere read alone.records (fun record =>
      read.readId alone.ids record.timeseriesId = some source.refId) =
      pointsOf read alone source.refId := by
  refine pointsWhere_congr fun record hrecord => ?_
  have hid : record.timeseriesId ∈ alone.ids := List.mem_map_of_mem hrecord
  rw [halone] at hid
  rw [eq_of_mem_ids_single hid, h]
  simp

/-- Nothing is read for a source alone if its id is not read back. -/
theorem pointsWhere_alone_eq_nil {endpoint : TimeseriesEndpoint R A} {read : ReadJson R N T V}
    {source : TimeseriesSource} {alone : TimeseriesAnswer R A}
    (halone : alone = answerFor endpoint [source.refId] source)
    (h : read.readId alone.ids source.refId ≠ some source.refId) :
    pointsWhere read alone.records (fun record =>
      read.readId alone.ids record.timeseriesId = some source.refId) = [] := by
  refine pointsWhere_eq_nil_iff.mpr fun record hrecord hread => h ?_
  have hid : record.timeseriesId ∈ alone.ids := List.mem_map_of_mem hrecord
  have heq : record.timeseriesId = source.refId := by
    rw [halone] at hid
    exact eq_of_mem_ids_single hid
  rw [decide_eq_true_eq, heq] at hread
  exact hread

omit [LinearOrder T] in
/-- If as many points are read for a source as alone, and its id is read back alone, then its id
is read back and no other id is read as this one. -/
theorem readId_eq_some_iff_of_length {endpoint : TimeseriesEndpoint R A} {read : ReadJson R N T V}
    {ids : List PyStr} {source : TimeseriesSource} (hmem : source.refId ∈ ids)
    {answer alone : TimeseriesAnswer R A} (hanswer : answer = answerFor endpoint ids source)
    (halone : alone = answerFor endpoint [source.refId] source)
    (hback : read.readId alone.ids source.refId = some source.refId)
    (hlength : (answer.records.filter fun record =>
      read.readId answer.ids record.timeseriesId = some source.refId).length =
      alone.records.length) {record : TimeseriesRecord R} (hrecord : record ∈ answer.records) :
    read.readId answer.ids record.timeseriesId = some source.refId ↔
      record.timeseriesId = source.refId := by
  have hown : (answer.records.filter fun record => record.timeseriesId = source.refId).length =
      alone.records.length := by
    rw [hanswer, halone]
    exact length_filter_answer endpoint hmem
  have hread : ∀ record ∈ answer.records, record.timeseriesId = source.refId →
      read.readId answer.ids record.timeseriesId = some source.refId := by
    intro record hrecord hid
    have hne : alone.records ≠ [] := by
      intro hnil
      rw [hnil, List.length_nil, List.length_eq_zero_iff, List.filter_eq_nil_iff] at hown
      exact hown record hrecord (decide_eq_true hid)
    have hne' : (answer.records.filter fun record =>
        read.readId answer.ids record.timeseriesId = some source.refId) ≠ [] := by
      intro hnil
      rw [hnil, List.length_nil] at hlength
      exact hne (List.length_eq_zero_iff.mp hlength.symm)
    obtain ⟨other, hother⟩ := List.exists_mem_of_ne_nil _ hne'
    obtain ⟨hother, hreads⟩ := List.mem_filter.mp hother
    have hrefId : source.refId ∈ answer.ids := hid ▸ List.mem_map_of_mem hrecord
    have halone_ids : ∀ id ∈ alone.ids, id = source.refId := fun id h =>
      eq_of_mem_ids_single (halone ▸ h)
    rw [hid]
    exact readId_eq_of_readId_eq hrefId (List.mem_map_of_mem hother) halone_ids
      (fun hnil => hne (List.map_eq_nil_iff.mp hnil)) hback (of_decide_eq_true hreads)
  refine ⟨fun hreads => ?_, hread record hrecord⟩
  have hfilter : (answer.records.filter fun record =>
        read.readId answer.ids record.timeseriesId = some source.refId).filter
      (fun record => record.timeseriesId = source.refId) =
      answer.records.filter fun record => record.timeseriesId = source.refId := by
    rw [List.filter_filter]
    refine List.filter_congr fun record hrecord => ?_
    rw [Bool.and_eq_left_iff_imp]
    exact fun hid => decide_eq_true (hread record hrecord (of_decide_eq_true hid))
  have hsame := List.length_filter_eq_length_iff.mp
    ((congrArg List.length hfilter).trans (hown.trans hlength.symm))
  exact of_decide_eq_true (hsame record (List.mem_filter.mpr ⟨hrecord, decide_eq_true hreads⟩))

/-- The series for a source from the answer for several ids agrees with the one from the answer for
the source alone exactly if both answers are read alike. -/
theorem extracted_agrees_iff [EmptyCollection A] {endpoint : TimeseriesEndpoint R A}
    {read : ReadJson R N T V} {sameValue : V → V → Prop} {ids : List PyStr}
    {source : TimeseriesSource} (hmem : source.refId ∈ ids) {answer alone : TimeseriesAnswer R A}
    (hanswer : answer = answerFor endpoint ids source)
    (halone : alone = answerFor endpoint [source.refId] source) :
    (NoMissingIds read answer ∧ NoMissingIds read alone ∧
      (extractOneChannelSeries (read.frame answer) source.refId).Agrees sameValue
        (extractOneChannelSeries (read.frame alone) source.refId)) ↔
      ReadAlike read sameValue answer alone source.refId := by
  have hattrs : answer.attributes.lookup source.refId = alone.attributes.lookup source.refId := by
    rw [hanswer, halone]
    exact attributes_answer endpoint hmem
  rw [extract_frame, extract_frame]
  constructor
  · rintro ⟨hmissing, hmissing', hagrees⟩
    have htimes := hagrees.timestamps
    have hvalues := hagrees.values
    dsimp only at htimes hvalues
    by_cases hback : read.readId alone.ids source.refId = some source.refId
    · rw [pointsWhere_alone halone hback] at htimes hvalues
      have hlength := congrArg List.length htimes
      rw [List.length_map, List.length_map, length_pointsWhere, pointsOf, length_pointsWhere,
        List.filter_eq_self.mpr fun record hrecord => decide_eq_true
          (eq_of_mem_ids_single (halone ▸ List.mem_map_of_mem hrecord))] at hlength
      have hreads {record : TimeseriesRecord R} (hrecord : record ∈ answer.records) :=
        readId_eq_some_iff_of_length hmem hanswer halone hback hlength hrecord
      rw [pointsWhere_congr fun record hrecord => decide_eq_decide.mpr (hreads hrecord)]
        at htimes hvalues
      refine ⟨hmissing, hmissing', fun id hid => ?_, fun _ => htimes, fun _ => hvalues⟩
      obtain ⟨record, hrecord, rfl⟩ := List.mem_map.mp hid
      rw [and_iff_left hback]
      exact hreads hrecord
    · rw [pointsWhere_alone_eq_nil halone hback, List.map_nil, List.map_eq_nil_iff] at htimes
      refine ⟨hmissing, hmissing', fun id hid => ?_, (absurd · hback), (absurd · hback)⟩
      obtain ⟨record, hrecord, rfl⟩ := List.mem_map.mp hid
      refine iff_of_false (fun hread => ?_) fun ⟨_, h⟩ => hback h
      exact pointsWhere_eq_nil_iff.mp htimes record hrecord (decide_eq_true hread)
  · intro hread
    have hattrs := congrArg (fun attrs => attrs.getD ∅) hattrs
    by_cases hback : read.readId alone.ids source.refId = some source.refId
    · have hpoints : pointsWhere read answer.records (fun record =>
          read.readId answer.ids record.timeseriesId = some source.refId) =
          pointsOf read answer source.refId :=
        pointsWhere_congr fun record hrecord => decide_eq_decide.mpr
          ((hread.same_ids _ (List.mem_map_of_mem hrecord)).trans (and_iff_left hback))
      rw [hpoints, pointsWhere_alone halone hback]
      exact ⟨hread.noMissing, hread.noMissing_alone, rfl, hread.same_timestamps hback,
        hread.same_values hback, hattrs⟩
    · have hpoints : pointsWhere read answer.records (fun record =>
          read.readId answer.ids record.timeseriesId = some source.refId) = [] :=
        pointsWhere_eq_nil_iff.mpr fun record hrecord hreads => hback
          ((hread.same_ids _ (List.mem_map_of_mem hrecord)).mp (of_decide_eq_true hreads)).2
      rw [hpoints, pointsWhere_alone_eq_nil halone hback]
      exact ⟨hread.noMissing, hread.noMissing_alone, rfl, rfl, .nil, hattrs⟩

/-- Points with distinct timestamps have one order. -/
theorem sortIndex_eq_of_perm {points points' : List (T × V)} (hperm : points.Perm points')
    (hnodup : (points.map Prod.fst).Nodup) : sortIndex points = sortIndex points' := by
  have hsorted (points : List (T × V)) :
      (sortIndex points).Pairwise fun point other => point.1 ≤ other.1 :=
    List.pairwise_insertionSort _ points
  have hsame : (sortIndex points).Perm (sortIndex points') :=
    (List.perm_insertionSort _ points).trans
      (hperm.trans (List.perm_insertionSort _ points').symm)
  refine hsame.eq_of_pairwise (fun point other hpoint hother hle hge => ?_) (hsorted points)
    (hsorted points')
  have hmem := (List.perm_insertionSort _ points).mem_iff.mp hpoint
  have hmem' := (List.perm_insertionSort _ points).mem_iff.mp (hsame.mem_iff.mpr hother)
  exact List.inj_on_of_nodup_map hnodup hmem hmem' (le_antisymm hle hge)

/-- Answers are read alike if no id looks like a number, timestamps and values are read one by one,
and different timestamps are read as different ones. -/
theorem readAlike_of_pointwise {endpoint : TimeseriesEndpoint R A} {read : ReadJson R N T V}
    {sameValue : V → V → Prop} (hrefl : ∀ v, sameValue v v) {time : R → T} {value : R → V}
    (htimestamps : ∀ column, read.timestamps column = column.map time)
    (hvalues : ∀ column, read.values column = column.map value) (htime : time.Injective)
    {ids : List PyStr} (hids : ∀ id ∈ ids, read.number id = none) {source : TimeseriesSource}
    (hmem : source.refId ∈ ids) :
    ReadAlike read sameValue (answerFor endpoint ids source)
      (answerFor endpoint [source.refId] source) source.refId := by
  have hread (column : List PyStr) {id : PyStr} (hid : id ∈ ids) :
      read.readId column id = some id := by
    rw [ReadJson.readId, hids id hid]
  have hpoints (answer : TimeseriesAnswer R A) : pointsOf read answer source.refId =
      sortIndex ((answer.records.filter fun record => record.timeseriesId = source.refId).map
        fun record => (time record.timestamp, value record.value)) := by
    have hzip : answer.records.zip (read.readPoints answer.records) = answer.records.map
        fun record => (record, time record.timestamp, value record.value) := by
      rw [ReadJson.readPoints, htimestamps, hvalues, List.map_map, List.map_map, List.zip_map']
      nth_rewrite 1 [← List.map_id answer.records]
      exact List.zip_map'
    rw [pointsOf, pointsWhere, hzip, List.filter_map, List.map_map]
    rfl
  have hsame : pointsOf read (answerFor endpoint ids source) source.refId =
      pointsOf read (answerFor endpoint [source.refId] source) source.refId := by
    have hgroup := filter_answer_perm endpoint hmem source.filters.toFinset source.type
    have halone := filter_answer_perm endpoint (List.mem_singleton_self source.refId)
      source.filters.toFinset source.type
    rw [hpoints, hpoints]
    refine sortIndex_eq_of_perm ((hgroup.trans halone.symm).map _) ?_
    rw [List.map_map]
    refine ((hgroup.map _).nodup_iff).mpr ?_
    have hdistinct := (endpoint.timestamps_nodup source.refId source.filters.toFinset
      source.type).map htime
    rwa [List.map_map] at hdistinct
  have hanswer {ids' : List PyStr} (hsub : ids' ⊆ ids) {id : PyStr}
      (hid : id ∈ (answerFor endpoint ids' source).ids) : id ∈ ids := by
    obtain ⟨record, hrecord, rfl⟩ := List.mem_map.mp hid
    obtain ⟨id, hid, hrecord⟩ := List.mem_flatMap.mp
      ((endpoint.answer_records _ _ _).mem_iff.mp hrecord)
    rw [endpoint.id_of_mem hrecord]
    exact hsub (List.mem_dedup.mp hid)
  constructor
  · exact fun id hid => by simp [hread _ (hanswer (List.Subset.refl _) hid)]
  · exact fun id hid => by
      simp [hread _ (hanswer (List.cons_subset.mpr ⟨hmem, List.nil_subset _⟩) hid)]
  · intro id hid
    rw [hread _ (hanswer (List.Subset.refl _) hid), hread _ hmem, and_iff_left rfl,
      Option.some.injEq]
  · exact fun _ => congrArg _ hsame
  · rw [hsame]
    exact fun _ => List.forall₂_same.mpr fun v _ => hrefl v

end Series

/-! ## Groups -/

/-- A request which is made has its sources in common with the key of a group. -/
theorem of_mem_timeseriesRequests {resolved : List (PyStr × TimeseriesSource)}
    {request : TimeseriesRequest} (h : request ∈ timeseriesRequests resolved) :
    request.sources ≠ [] ∧ request.sources = resolved.filter fun entry =>
      entry.2.groupKey = (request.filterParams, request.type) := by
  obtain ⟨group, hgroup, rfl⟩ := List.mem_map.mp h
  exact ⟨ne_nil_of_mem_groupBy hgroup, eq_filter_of_mem_groupBy hgroup⟩

/-- Sources of a request have its type and its filters. -/
theorem uniform_of_mem_timeseriesRequests {resolved : List (PyStr × TimeseriesSource)}
    {request : TimeseriesRequest} (h : request ∈ timeseriesRequests resolved) :
    request.Uniform := by
  intro entry hentry
  rw [(of_mem_timeseriesRequests h).2, List.mem_filter, decide_eq_true_eq] at hentry
  exact ⟨congrArg Prod.snd hentry.2, congrArg Prod.fst hentry.2⟩

/-- The ids of a request are those of the sources with the type and the filters of any of them. -/
theorem ids_of_mem_timeseriesRequests {resolved : List (PyStr × TimeseriesSource)}
    {request : TimeseriesRequest} (h : request ∈ timeseriesRequests resolved)
    {entry : PyStr × TimeseriesSource} (hentry : entry ∈ request.sources) :
    request.ids = idsWith resolved entry.2 := by
  obtain ⟨htype, hfilters⟩ := uniform_of_mem_timeseriesRequests h entry hentry
  rw [TimeseriesRequest.ids, (of_mem_timeseriesRequests h).2, idsWith, ← htype, ← hfilters]
  rfl

/-- Each source is in a request. -/
theorem exists_mem_timeseriesRequests {resolved : List (PyStr × TimeseriesSource)}
    {entry : PyStr × TimeseriesSource} (h : entry ∈ resolved) :
    ∃ request ∈ timeseriesRequests resolved, entry ∈ request.sources := by
  obtain ⟨group, hgroup, hmem⟩ := (@exists_mem_groupBy_iff _ _ _
    (fun entry : PyStr × TimeseriesSource => entry.2.groupKey) _ _).mpr h
  exact ⟨requestOfGroup group, List.mem_map_of_mem hgroup, hmem⟩

/-- A source is only in requests for sources. -/
theorem mem_of_mem_sources {resolved : List (PyStr × TimeseriesSource)}
    {request : TimeseriesRequest} (h : request ∈ timeseriesRequests resolved)
    {entry : PyStr × TimeseriesSource} (hentry : entry ∈ request.sources) : entry ∈ resolved := by
  rw [(of_mem_timeseriesRequests h).2] at hentry
  exact List.mem_of_mem_filter hentry

/-- The requests together have each source once. -/
theorem flatMap_sources_perm (resolved : List (PyStr × TimeseriesSource)) :
    ((timeseriesRequests resolved).flatMap fun request => request.sources).Perm resolved := by
  rw [timeseriesRequests, List.flatMap_map]
  exact flatMap_groupBy_perm resolved

/-- Sources with one type, which is the one of a timeseries, can be requested together. -/
theorem areValidSources_of_uniform {request : TimeseriesRequest} (hne : request.sources ≠ [])
    (huniform : request.Uniform) :
    areValidSources (request.sources.map Prod.snd) = .ok () := by
  have htypes : (request.sources.map Prod.snd).map (fun source => source.type) =
      List.replicate request.sources.length request.type := by
    rw [List.map_map, List.eq_replicate_iff, List.length_map]
    refine ⟨rfl, List.forall_mem_map.mpr fun entry hentry => (huniform entry hentry).1⟩
  have hlength : request.sources.length ≠ 0 := fun h => hne (List.length_eq_zero_iff.mp h)
  obtain ⟨entry, rest, hsources⟩ := List.exists_cons_of_ne_nil hne
  rw [areValidSources, require_bind_eq_ok, require_bind_eq_ok, require_eq_ok]
  refine ⟨?_, ?_, ?_⟩
  · rw [htypes, List.replicate_dedup hlength]
    rfl
  · rw [hsources]
    rfl
  · have hdataframe : entry.2.type ≠ .dataframe := fun h => by
      have htype := entry.2.is_timeseries
      rw [h] at htype
      cases htype
    rw [hsources, List.map_cons, List.head?_cons, Option.map_some,
      decide_eq_false (fun h => hdataframe (Option.some.inj h))]
    rfl

section Grouped

variable [LinearOrder T] [EmptyCollection A]

/-- A request whose sources have one type and one set of filters gives a series for each of them
exactly if no id of the answer is read as missing. -/
theorem loadRequest_eq_ok_iff {endpoint : TimeseriesEndpoint R A} {read : ReadJson R N T V}
    {request : TimeseriesRequest} (hne : request.sources ≠ []) (huniform : request.Uniform)
    {answer : TimeseriesAnswer R A}
    (hanswer : answer = endpoint.answer request.ids request.filterParams request.type)
    {loaded : List (PyStr × LoadedSeries T V A)} :
    loadRequest endpoint read request = .ok loaded ↔ NoMissingIds read answer ∧
      (request.sources.map fun entry =>
        (entry.1, extractOneChannelSeries (read.frame answer) entry.2.refId)) = loaded := by
  have hframe : loadTsDataFromAdapter endpoint read request = .ok (read.frame answer) := by
    rw [loadTsDataFromAdapter, areValidSources_of_uniform hne huniform, hanswer]
    rfl
  rw [loadRequest, hframe]
  change (require _ _ >>= _) = _ ↔ _
  rw [require_bind_eq_ok, noMissing_frame_iff, return_eq_ok]

/-- The name of a source and its series from the answer for its group. -/
def groupedSeries (endpoint : TimeseriesEndpoint R A) (read : ReadJson R N T V)
    (resolved : List (PyStr × TimeseriesSource)) (entry : PyStr × TimeseriesSource) :
    PyStr × LoadedSeries T V A :=
  (entry.1, extractOneChannelSeries
    (read.frame (answerFor endpoint (idsWith resolved entry.2) entry.2)) entry.2.refId)

/-- Requests give the series of all sources exactly if no id of an answer is read as missing. -/
theorem loadRequests_eq_ok_iff {endpoint : TimeseriesEndpoint R A} {read : ReadJson R N T V}
    {resolved : List (PyStr × TimeseriesSource)}
    {parts : List (List (PyStr × LoadedSeries T V A))} :
    (timeseriesRequests resolved).mapM (loadRequest endpoint read) = .ok parts ↔
      (∀ entry ∈ resolved,
        NoMissingIds read (answerFor endpoint (idsWith resolved entry.2) entry.2)) ∧
      ((timeseriesRequests resolved).map fun request =>
        request.sources.map (groupedSeries endpoint read resolved)) = parts := by
  have hanswer {request : TimeseriesRequest} (h : request ∈ timeseriesRequests resolved)
      {entry : PyStr × TimeseriesSource} (hentry : entry ∈ request.sources) :
      answerFor endpoint (idsWith resolved entry.2) entry.2 =
        endpoint.answer request.ids request.filterParams request.type := by
    obtain ⟨htype, hfilters⟩ := uniform_of_mem_timeseriesRequests h entry hentry
    rw [ids_of_mem_timeseriesRequests h hentry, answerFor, htype, hfilters]
  rw [mapM_eq_ok_iff_of_forall (p := fun request => ∀ entry ∈ request.sources,
    NoMissingIds read (answerFor endpoint (idsWith resolved entry.2) entry.2))
    (g := fun request => request.sources.map (groupedSeries endpoint read resolved))]
  · refine and_congr_left fun _ => ⟨fun h entry hentry => ?_, fun h request hrequest entry hentry =>
      h entry (mem_of_mem_sources hrequest hentry)⟩
    obtain ⟨request, hrequest, hmem⟩ := exists_mem_timeseriesRequests hentry
    exact h request hrequest entry hmem
  · intro request hrequest loaded
    have hne := (of_mem_timeseriesRequests hrequest).1
    rw [loadRequest_eq_ok_iff hne (uniform_of_mem_timeseriesRequests hrequest) rfl]
    obtain ⟨first, hfirst⟩ := List.exists_mem_of_ne_nil _ hne
    refine and_congr ⟨fun h entry hentry => hanswer hrequest hentry ▸ h,
      fun h => hanswer hrequest hfirst ▸ h first hfirst⟩ ?_
    rw [List.map_congr_left fun entry hentry => by
      rw [← hanswer hrequest hentry]]
    rfl

/-- What is returned for sources with resolved filters. -/
theorem loadGrouped_eq_ok_iff {resolveInterval : ResolveInterval}
    {endpoint : TimeseriesEndpoint R A} {read : ReadJson R N T V} {sources : TimeseriesSources}
    {resolved : List (PyStr × TimeseriesSource)}
    (h : resolveSources resolveInterval sources = .ok resolved)
    {loaded : List (PyStr × LoadedSeries T V A)} :
    loadGroupedTimeseries resolveInterval endpoint read sources = .ok loaded ↔
      (∀ entry ∈ resolved,
        NoMissingIds read (answerFor endpoint (idsWith resolved entry.2) entry.2)) ∧
      insertAll Prod.fst [] ((timeseriesRequests resolved).map fun request =>
        request.sources.map (groupedSeries endpoint read resolved)).flatten = loaded := by
  have hload : loadGroupedTimeseries resolveInterval endpoint read sources =
      ((timeseriesRequests resolved).mapM (loadRequest endpoint read)).bind fun parts =>
        .ok (insertAll Prod.fst [] parts.flatten) := by
    rw [loadGroupedTimeseries, h]
    rfl
  rw [hload]
  refine bind_eq_ok.trans ?_
  simp only [loadRequests_eq_ok_iff]
  constructor
  · rintro ⟨_, ⟨hmissing, rfl⟩, hloaded⟩
    exact ⟨hmissing, Except.ok.inj hloaded⟩
  · rintro ⟨hmissing, rfl⟩
    exact ⟨_, ⟨hmissing, rfl⟩, rfl⟩

/-- Resolving keeps names. -/
theorem name_of_resolveSource {resolveInterval : ResolveInterval}
    {entry resolvedEntry : PyStr × TimeseriesSource}
    (h : resolveSource resolveInterval entry = .ok resolvedEntry) : resolvedEntry.1 = entry.1 := by
  obtain ⟨filters, -, h⟩ := bind_eq_ok.mp h
  rw [← return_eq_ok.mp h]

/-- A source alone gets its series exactly if no id of the answer is read as missing. -/
theorem loadGrouped_single_eq_ok_iff {resolveInterval : ResolveInterval}
    {endpoint : TimeseriesEndpoint R A} {read : ReadJson R N T V}
    {entry resolvedEntry : PyStr × TimeseriesSource}
    (h : resolveSource resolveInterval entry = .ok resolvedEntry)
    {alone : TimeseriesAnswer R A}
    (halone : alone = answerFor endpoint [resolvedEntry.2.refId] resolvedEntry.2)
    {loaded : List (PyStr × LoadedSeries T V A)} :
    loadGroupedTimeseries resolveInterval endpoint read (.single entry) = .ok loaded ↔
      NoMissingIds read alone ∧
        [(entry.1, extractOneChannelSeries (read.frame alone) resolvedEntry.2.refId)] =
          loaded := by
  have hresolved : resolveSources resolveInterval (.single entry) = .ok [resolvedEntry] :=
    mapM_eq_ok.mpr (.cons h .nil)
  have hids : idsWith [resolvedEntry] resolvedEntry.2 = [resolvedEntry.2.refId] := by
    rw [idsWith, List.filter_cons_of_pos (by simp)]
    rfl
  rw [loadGrouped_eq_ok_iff hresolved, List.forall_mem_singleton, hids, ← halone,
    ← name_of_resolveSource h, halone, ← hids]
  rfl

/-- What is returned has each source once. -/
theorem loaded_perm {resolveInterval : ResolveInterval} (endpoint : TimeseriesEndpoint R A)
    (read : ReadJson R N T V) {sources : TimeseriesSources}
    {resolved : List (PyStr × TimeseriesSource)}
    (h : resolveSources resolveInterval sources = .ok resolved) :
    (insertAll Prod.fst [] ((timeseriesRequests resolved).map fun request =>
      request.sources.map (groupedSeries endpoint read resolved)).flatten).Perm
      (resolved.map (groupedSeries endpoint read resolved)) := by
  have hperm : ((timeseriesRequests resolved).map fun request =>
      request.sources.map (groupedSeries endpoint read resolved)).flatten.Perm
      (resolved.map (groupedSeries endpoint read resolved)) := by
    rw [← List.flatMap_def, ← List.map_flatMap]
    exact (flatMap_sources_perm resolved).map _
  have hnames : (resolved.map (groupedSeries endpoint read resolved)).map Prod.fst =
      sources.entries.map Prod.fst := by
    rw [List.map_map]
    exact map_eq_of_mapM h fun _ _ => name_of_resolveSource
  have hnodup := (hperm.map Prod.fst).nodup_iff.mpr (hnames ▸ sources.names_unique)
  rw [insertAll_of_nodup hnodup]
  exact hperm

end Grouped

/-! ## Numbers with one decimal -/

/-- The tenths of a number with at most one decimal. -/
def tenths (text : PyStr) : Option ℕ :=
  match text.span Char.isDigit with
  | ([], _) => none
  | (whole, []) => some (10 * Nat.ofDigitChars 10 whole 0)
  | (whole, ['.', digit]) =>
    if digit.isDigit then some (10 * Nat.ofDigitChars 10 whole 0 + (digit.toNat - '0'.toNat))
    else none
  | _ => none

/-- The text of a float of some tenths. -/
def tenthsText (n : ℕ) : PyStr := Nat.toDigits 10 (n / 10) ++ '.' :: Nat.toDigits 10 (n % 10)

/-- Reading of columns whose numbers have at most one decimal. -/
def tenthsReader : ReadJson ℤ ℕ ℤ ℤ where
  number := tenths
  isIntegral n := n % 10 = 0
  intText n := Nat.toDigits 10 (n / 10)
  floatText n := some (tenthsText n)
  timestamps := id
  values := id
  floatText_ne_intText x y h := by
    have hdot : '.' ∈ Nat.toDigits 10 (y / 10) := by
      rw [← Option.some.inj h, tenthsText]
      exact List.mem_append_right _ List.mem_cons_self
    exact absurd (Nat.isDigit_of_mem_toDigits (by decide) (by decide) hdot) (by decide)
  length_timestamps _ := rfl
  length_values _ := rfl

/-- An endpoint which has one record for each id. -/
def oneRecordEndpoint : TimeseriesEndpoint ℤ PyStr where
  recordsOf id _ _ := [⟨id, 0, id.length⟩]
  attributesOf _ _ _ := none
  answer ids _ _ := ⟨ids.dedup.flatMap fun id => [⟨id, 0, id.length⟩], []⟩
  id_of_mem h := by rw [List.mem_singleton.mp h]
  timestamps_nodup _ _ _ := List.nodup_singleton _
  answer_records _ _ _ := List.Perm.refl _
  answer_attributes _ := rfl

/-- Intervals with both ends. -/
def givenInterval : ResolveInterval := fun start stop =>
  start.bind fun start => stop.map fun stop => (start, stop)

/-- A source of floats with an interval. -/
def floatSource (refId : PyStr) : TimeseriesSource where
  refId := refId
  type := .timeseries .float
  filters := [("timestampFrom".toList, "2020-01-01T00:00:00Z".toList),
    ("timestampTo".toList, "2020-02-01T00:00:00Z".toList)]
  is_timeseries := rfl

/-- Two sources of floats with the same interval. -/
def twoSources (first second : PyStr) : TimeseriesSources where
  entries := [("a".toList, floatSource first), ("b".toList, floatSource second)]
  names_unique := (by decide : ["a".toList, "b".toList].Nodup)

/-- A source of floats with its resolved interval. -/
def resolvedSource (refId : PyStr) : TimeseriesSource where
  refId := refId
  type := .timeseries .float
  filters := [("from".toList, "2020-01-01T00:00:00Z".toList),
    ("to".toList, "2020-02-01T00:00:00Z".toList)]
  is_timeseries := rfl

end HetidaDesigner
