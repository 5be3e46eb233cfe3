import HetidaDesigner.Adapters.ExternalTypes
import HetidaDesigner.Library.Checks
import HetidaDesigner.Library.KeyedList
import HetidaDesigner.Library.SplitOnce
import HetidaDesigner.Models.CodeMarkers

/-!
# Ids of the SQL adapter

Listing and lookup by id of `adapters/sql_adapter`. An id is made of the key of a database, the kind
of a table and its name, which are separated by slashes. The tables which a database has are a
parameter. Constant fields of sources and sinks and what is only used to load and write data are
left out.
-/

namespace HetidaDesigner

open Checks KeyedList SplitOnce

/-- A configuration of a database: its timeseries tables come with whether they are appendable. -/
structure SqlAdapterDbConfig where
  name : PyStr
  key : PyStr
  appendTables : List PyStr
  replaceTables : List PyStr
  ignoreTables : List PyStr
  timeseriesTables : List (PyStr × Bool)
  explicitSourceTables : Option (List PyStr)
  timeseriesTables_unique : (timeseriesTables.map Prod.fst).Nodup
  deriving DecidableEq

/-- The databases of the adapter, whose keys are distinct identifiers. -/
structure SqlAdapterConfig where
  sqlDatabases : List SqlAdapterDbConfig
  unique_db_keys : (sqlDatabases.map SqlAdapterDbConfig.key).Nodup
  db_keys_identifiers : ∀ config ∈ sqlDatabases, config.key.all identifierChar

/-- Reasons for the functions of the adapter to fail. -/
inductive SqlAdapterError
  | indexError
  | keyError
  | validationError
  deriving DecidableEq, Repr

/-- `get_configured_dbs_by_key` -/
def getConfiguredDbByKey (adapter : SqlAdapterConfig) (dbKey : PyStr) :
    Option SqlAdapterDbConfig :=
  lookup SqlAdapterDbConfig.key dbKey adapter.sqlDatabases

/-! ## Sources and sinks -/

/-- A filter of a source. -/
structure SqlAdapterFilter where
  name : PyStr
  type : PyStr
  required : Bool
  deriving DecidableEq, Repr

/-- A source or sink of the adapter. -/
structure SqlAdapterStructureEntry where
  id : PyStr
  thingNodeId : PyStr
  name : PyStr
  type : ExternalType
  path : PyStr
  filters : List (PyStr × SqlAdapterFilter)
  deriving DecidableEq, Repr

/-- The filter of a source for queries. -/
def sqlQueryFilter : PyStr × SqlAdapterFilter :=
  ("sql_query".toList, ⟨" SQL Query".toList, "free_text".toList, true⟩)

/-- The filter of a source for a timeseries table. -/
def metricsFilter : PyStr × SqlAdapterFilter :=
  ("metrics".toList,
    ⟨"Metrics (json array or just comma separated or ALL)".toList, "free_text".toList, true⟩)

/-- The source for queries. -/
def querySource (config : SqlAdapterDbConfig) : SqlAdapterStructureEntry where
  id := config.key ++ "/query".toList
  thingNodeId := config.key
  name := "SQL Query in ".toList ++ config.name
  type := .dataframe
  path := config.key ++ "|".toList ++ config.name ++ "/query/sql".toList
  filters := [sqlQueryFilter]

/-- The source for a table. -/
def tableSource (config : SqlAdapterDbConfig) (tableName : PyStr) : SqlAdapterStructureEntry where
  id := config.key ++ "/table/".toList ++ tableName
  thingNodeId := config.key
  name := "Table ".toList ++ tableName
  type := .dataframe
  path := config.key ++ "|".toList ++ config.name ++ "/table/".toList ++ tableName
  filters := []

/-- The source for a timeseries table. -/
def tsTableSource (config : SqlAdapterDbConfig) (tsTableName : PyStr) :
    SqlAdapterStructureEntry where
  id := config.key ++ "/ts_table/".toList ++ tsTableName
  thingNodeId := config.key
  name := "Timeseries Table ".toList ++ tsTableName
  type := .multitsframe
  path := config.key ++ "|".toList ++ config.name ++ "/ts_table/".toList ++ tsTableName
  filters := [metricsFilter]

/-- The sink which appends to a table. -/
def appendTableSink (config : SqlAdapterDbConfig) (appendTableName : PyStr) :
    SqlAdapterStructureEntry where
  id := config.key ++ "/append_table/".toList ++ appendTableName
  thingNodeId := config.key
  name := "Append Table ".toList ++ appendTableName
  type := .dataframe
  path := config.key ++ "|".toList ++ config.name ++ "/append_table/".toList ++ appendTableName
  filters := []

/-- The sink which replaces a table. -/
def replaceTableSink (config : SqlAdapterDbConfig) (replaceTableName : PyStr) :
    SqlAdapterStructureEntry where
  id := config.key ++ "/replace_table/".toList ++ replaceTableName
  thingNodeId := config.key
  name := "Replace Table ".toList ++ replaceTableName
  type := .dataframe
  path := config.key ++ "|".toList ++ config.name ++ "/replace_table/".toList ++ replaceTableName
  filters := []

/-- The sink which appends to a timeseries table. -/
def appendableTsTableSink (config : SqlAdapterDbConfig) (timeseriesTableName : PyStr) :
    SqlAdapterStructureEntry where
  id := config.key ++ "/appendable_ts_table/".toList ++ timeseriesTableName
  thingNodeId := config.key
  name := "Timeseries Table ".toList ++ timeseriesTableName
  type := .multitsframe
  path := config.key ++ "|".toList ++ config.name ++ "/appendable_ts_table/".toList ++
    timeseriesTableName
  filters := []

/-! ## Listing -/

/-- `is_allowed_dataframe_source_table` -/
def isAllowedDataframeSourceTable (tableName : PyStr) (config : SqlAdapterDbConfig) : Bool :=
  config.explicitSourceTables.all (tableName ∈ ·) && tableName ∉ config.ignoreTables &&
    tableName ∉ config.timeseriesTables.map Prod.fst

section Listing

-- `get_table_names` for the engine of a configuration
variable (getTableNames : SqlAdapterDbConfig → List PyStr)

/-- `get_allowed_dataframe_source_tables` -/
def getAllowedDataframeSourceTables (config : SqlAdapterDbConfig) : List PyStr :=
  (getTableNames config).filter fun tableName => isAllowedDataframeSourceTable tableName config

/-- `get_sources_of_db` -/
def getSourcesOfDb (config : SqlAdapterDbConfig) : List SqlAdapterStructureEntry :=
  [querySource config] ++
    (getAllowedDataframeSourceTables getTableNames config).map (tableSource config) ++
    config.timeseriesTables.map fun table => tsTableSource config table.1

/-- `get_sinks_of_db` -/
def getSinksOfDb (config : SqlAdapterDbConfig) : List SqlAdapterStructureEntry :=
  config.appendTables.map (appendTableSink config) ++
    config.replaceTables.map (replaceTableSink config) ++
    (config.timeseriesTables.filter Prod.snd).map fun table => appendableTsTableSink config table.1

/-- `filter_sql_sources` and `filter_sql_sinks`, with the case mapping of texts -/
def filterSqlEntries (lower : PyStr → PyStr) (entries : List SqlAdapterStructureEntry)
    (filterStr : PyStr) : List SqlAdapterStructureEntry :=
  entries.filter fun entry =>
    lower filterStr <:+: lower entry.name || lower filterStr <:+: lower entry.path

/-- `get_sources` -/
def getSqlSources (lower : PyStr → PyStr) (adapter : SqlAdapterConfig)
    (filterStr : Option PyStr) : List SqlAdapterStructureEntry :=
  let allSources := adapter.sqlDatabases.flatMap (getSourcesOfDb getTableNames)
  match filterStr with
  | none => allSources
  | some filterStr => filterSqlEntries lower allSources filterStr

/-- `get_sinks` -/
def getSqlSinks (lower : PyStr → PyStr) (adapter : SqlAdapterConfig)
    (filterStr : Option PyStr) : List SqlAdapterStructureEntry :=
  let allSinks := adapter.sqlDatabases.flatMap getSinksOfDb
  match filterStr with
  | none => allSinks
  | some filterStr => filterSqlEntries lower allSinks filterStr

end Listing

/-! ## Lookup by id -/

/-- `get_source_by_id` -/
def getSqlSourceById (adapter : SqlAdapterConfig) (sourceId : PyStr) :
    Except SqlAdapterError (Option SqlAdapterStructureEntry) :=
  match splitMax '/' 2 sourceId with
  | dbKey :: sourceType :: rest =>
    match getConfiguredDbByKey adapter dbKey with
    | none => .ok none
    | some config =>
      if sourceType = "query".toList ∧ rest = [] then
        .ok (some {
          id := sourceId
          thingNodeId := dbKey
          name := "SQL Query in ".toList ++ config.name
          type := .dataframe
          path := dbKey ++ "|".toList ++ config.name ++ "/query/sql".toList
          filters := [sqlQueryFilter] })
      else if sourceType = "table".toList then
        match rest with
        | [] => .error .indexError
        | tableName :: _ =>
          .ok (some {
            id := sourceId
            thingNodeId := dbKey
            name := "Table ".toList ++ tableName
            type := .dataframe
            path := dbKey ++ "|".toList ++ config.name ++ "/table/".toList ++ tableName
            filters := [] })
      else if sourceType = "ts_table".toList then
        match rest with
        | [] => .error .indexError
        | tsTableName :: _ => .ok (some (tsTableSource config tsTableName))
      else .ok none
  | _ => .ok none

/-- The enumeration `WriteTableMode`. -/
inductive WriteTableMode
  | append
  | replace
  | timeseriesAppend
  deriving DecidableEq, Repr

/-- `from_table_type_str` -/
def WriteTableMode.fromTableTypeStr (tableType : PyStr) : Option WriteTableMode :=
  if tableType = "append_table".toList then some .append
  else if tableType = "replace_table".toList then some .replace
  else if tableType = "appendable_ts_table".toList then some .timeseriesAppend
  else none

/-- `to_table_type_str` -/
def toTableTypeStr : WriteTableMode → PyStr
  | .append => "append_table".toList
  | .replace => "replace_table".toList
  | .timeseriesAppend => "appendable_ts_table".toList

/-- A table to write to, with the configuration of its database. -/
structure WriteTable where
  dbKey : PyStr
  writeMode : WriteTableMode
  tableName : PyStr
  dbConfig : SqlAdapterDbConfig

/-- The property `sink_id`. -/
def WriteTable.sinkId (table : WriteTable) : PyStr :=
  table.dbKey ++ "/".toList ++ toTableTypeStr table.writeMode ++ "/".toList ++ table.tableName

/-- `from_sink_id` -/
def WriteTable.fromSinkId (adapter : SqlAdapterConfig) (sinkId : PyStr) :
    Except SqlAdapterError WriteTable :=
  match splitMax '/' 2 sinkId with
  | dbKey :: writeModeStr :: tableName :: _ =>
    match getConfiguredDbByKey adapter dbKey, WriteTableMode.fromTableTypeStr writeModeStr with
    | some dbConfig, some writeMode => .ok ⟨dbKey, writeMode, tableName, dbConfig⟩
    | _, _ => .error .validationError
  | _ => .error .validationError

/-- `get_sink_by_id` -/
def getSqlSinkById (adapter : SqlAdapterConfig) (sinkId : PyStr) :
    Except SqlAdapterError (Option SqlAdapterStructureEntry) :=
  match WriteTable.fromSinkId adapter sinkId with
  | .error _ => .ok none
  | .ok table =>
    let path := table.dbConfig.key ++ "|".toList ++ table.dbConfig.name ++ "/".toList ++
      toTableTypeStr table.writeMode ++ "/".toList ++ table.tableName
    match table.writeMode with
    | .timeseriesAppend =>
      match table.dbConfig.timeseriesTables.lookup table.tableName with
      | none => .error .keyError
      | some false => .ok none
      | some true =>
        .ok (some {
          id := table.sinkId
          thingNodeId := table.dbConfig.key
          name := "Timeseries Table ".toList ++ table.tableName
          type := .multitsframe
          path := path
          filters := [] })
    | .append =>
      if table.tableName ∉ table.dbConfig.appendTables then .ok none
      else
        .ok (some {
          id := table.sinkId
          thingNodeId := table.dbConfig.key
          name := "Append Table ".toList ++ table.tableName
          type := .dataframe
          path := path
          filters := [] })
    | .replace =>
      if table.tableName ∉ table.dbConfig.replaceTables then .ok none
      else
        .ok (some {
          id := table.sinkId
          thingNodeId := table.dbConfig.key
          name := "Replace Table ".toList ++ table.tableName
          type := .dataframe
          path := path
          filters := [] })

/-! ## What lookup and listing should agree on -/

/-- What is found for an id is exactly the listed entry with this id, and it is found without an
error. -/
def LookupAgrees (found : Except SqlAdapterError (Option SqlAdapterStructureEntry))
    (listed : List SqlAdapterStructureEntry) (id : PyStr) : Prop :=
  ∃ result, found = .ok result ∧ ∀ entry, result = some entry ↔ entry ∈ listed ∧ entry.id = id

section Agreement

variable (getTableNames : SqlAdapterDbConfig → List PyStr)

/-- The lookups of sources and sinks agree with the listings for an id. -/
def SqlLookupsAgree (lower : PyStr → PyStr) (adapter : SqlAdapterConfig) (id : PyStr) : Prop :=
  LookupAgrees (getSqlSourceById adapter id) (getSqlSources getTableNames lower adapter none) id ∧
    LookupAgrees (getSqlSinkById adapter id) (getSqlSinks lower adapter none) id

/-- An id made for a source table of a database names a table which may be read. -/
def NamesSourceTable (config : SqlAdapterDbConfig) (id : PyStr) : Prop :=
  id ≠ config.key ++ "/table".toList ∧ id ≠ config.key ++ "/ts_table".toList ∧
    (∀ tableName, id = config.key ++ "/table/".toList ++ tableName →
      tableName ∈ getTableNames config ∧ isAllowedDataframeSourceTable tableName config = true) ∧
    ∀ tableName, id = config.key ++ "/ts_table/".toList ++ tableName →
      tableName ∈ config.timeseriesTables.map Prod.fst

/-- An id made for appending to a timeseries table of a database names a configured one. -/
def NamesSinkTsTable (config : SqlAdapterDbConfig) (id : PyStr) : Prop :=
  ∀ tableName, id = config.key ++ "/appendable_ts_table/".toList ++ tableName →
    tableName ∈ config.timeseriesTables.map Prod.fst

end Agreement

/-! ## Parts of ids -/

/-- An id of two or more parts is one of two or of three parts. -/
theorem parts_cases {id first second : PyStr} {rest : List PyStr}
    (h : splitMax '/' 2 id = first :: second :: rest) : rest = [] ∨ ∃ third, rest = [third] := by
  have hlength := length_splitMax_le '/' 2 id
  rw [h] at hlength
  match rest with
  | [] => exact Or.inl rfl
  | [third] => exact Or.inr ⟨third, rfl⟩
  | third :: fourth :: rest =>
    simp only [List.length_cons] at hlength
    omega

section Keys

variable {adapter : SqlAdapterConfig} {config : SqlAdapterDbConfig}

/-- There is no slash in a key. -/
theorem slash_notMem_key (h : config ∈ adapter.sqlDatabases) : '/' ∉ config.key := by
  intro hslash
  have hchar := List.all_eq_true.mp (adapter.db_keys_identifiers config h) '/' hslash
  exact absurd hchar (by decide)

/-- A configuration is found by its key. -/
theorem getConfiguredDbByKey_eq_some_iff {dbKey : PyStr} :
    getConfiguredDbByKey adapter dbKey = some config ↔
      config ∈ adapter.sqlDatabases ∧ config.key = dbKey := by
  constructor
  · intro h
    exact lookup_eq_some h
  · rintro ⟨h, rfl⟩
    exact lookup_of_mem adapter.unique_db_keys h

/-- What two parts stand for. -/
theorem splitMax_eq_pair_iff (h : config ∈ adapter.sqlDatabases) {id kind : PyStr}
    (hkind : '/' ∉ kind) :
    splitMax '/' 2 id = [config.key, kind] ↔ id = config.key ++ '/' :: kind :=
  splitMax_two_eq_pair_iff.trans (and_iff_left ⟨slash_notMem_key h, hkind⟩)

/-- What three parts stand for. -/
theorem splitMax_eq_triple_iff (h : config ∈ adapter.sqlDatabases) {id kind tableName : PyStr}
    (hkind : '/' ∉ kind) : splitMax '/' 2 id = [config.key, kind, tableName] ↔
      id = config.key ++ ('/' :: kind ++ ['/']) ++ tableName := by
  rw [splitMax_two_eq_triple_iff, and_iff_left ⟨slash_notMem_key h, hkind⟩]
  simp

end Keys

/-! ## Sources -/

/-- What it means to agree, by whether the lookup fails and what it finds. -/
theorem lookupAgrees_iff {found : Except SqlAdapterError (Option SqlAdapterStructureEntry)}
    {listed : List SqlAdapterStructureEntry} {id : PyStr} : LookupAgrees found listed id ↔
      ¬ (∃ error, found = .error error) ∧
        ∀ entry, found = .ok (some entry) ↔ entry ∈ listed ∧ entry.id = id := by
  unfold LookupAgrees
  cases found with
  | error error =>
    refine iff_of_false ?_ fun h => h.1 ⟨error, rfl⟩
    rintro ⟨_, ⟨⟩, _⟩
  | ok result => simp

section Sources

variable {getTableNames : SqlAdapterDbConfig → List PyStr} {lower : PyStr → PyStr}
  {adapter : SqlAdapterConfig} {id : PyStr} {entry : SqlAdapterStructureEntry}

/-- The listed sources with an id, by its parts. -/
theorem mem_getSqlSources_iff : (entry ∈ getSqlSources getTableNames lower adapter none ∧
      entry.id = id) ↔ ∃ config ∈ adapter.sqlDatabases,
    (splitMax '/' 2 id = [config.key, "query".toList] ∧ entry = querySource config) ∨
    (∃ tableName, splitMax '/' 2 id = [config.key, "table".toList, tableName] ∧
      (tableName ∈ getTableNames config ∧ isAllowedDataframeSourceTable tableName config = true) ∧
      entry = tableSource config tableName) ∨
    ∃ tableName, splitMax '/' 2 id = [config.key, "ts_table".toList, tableName] ∧
      tableName ∈ config.timeseriesTables.map Prod.fst ∧
      entry = tsTableSource config tableName := by
  unfold getSqlSources getSourcesOfDb getAllowedDataframeSourceTables
  simp only [List.mem_flatMap, List.mem_append, List.mem_singleton, List.mem_map, List.mem_filter]
  constructor
  · rintro ⟨⟨config, hconfig, (rfl | ⟨tableName, htable, rfl⟩) | ⟨table, htable, rfl⟩⟩, rfl⟩
    · refine ⟨config, hconfig, Or.inl ⟨?_, rfl⟩⟩
      exact (splitMax_eq_pair_iff hconfig (by decide)).mpr rfl
    · refine ⟨config, hconfig, Or.inr (Or.inl ⟨tableName, ?_, htable, rfl⟩)⟩
      exact (splitMax_eq_triple_iff hconfig (by decide)).mpr rfl
    · refine ⟨config, hconfig, Or.inr (Or.inr ⟨table.1, ?_, ⟨table, htable, rfl⟩, rfl⟩)⟩
      exact (splitMax_eq_triple_iff hconfig (by decide)).mpr rfl
  · rintro ⟨config, hconfig, ⟨hparts, rfl⟩ | ⟨tableName, hparts, htable, rfl⟩ |
      ⟨tableName, hparts, ⟨table, htable, rfl⟩, rfl⟩⟩
    · refine ⟨⟨config, hconfig, Or.inl (Or.inl rfl)⟩, ?_⟩
      exact ((splitMax_eq_pair_iff hconfig (by decide)).mp hparts).symm
    · refine ⟨⟨config, hconfig, Or.inl (Or.inr ⟨tableName, htable, rfl⟩)⟩, ?_⟩
      exact ((splitMax_eq_triple_iff hconfig (by decide)).mp hparts).symm
    · refine ⟨⟨config, hconfig, Or.inr ⟨table, htable, rfl⟩⟩, ?_⟩
      exact ((splitMax_eq_triple_iff hconfig (by decide)).mp hparts).symm

/-- The sources which are found by an id, by its parts: tables are not checked. -/
theorem getSqlSourceById_eq_some_iff : getSqlSourceById adapter id = .ok (some entry) ↔
    ∃ config ∈ adapter.sqlDatabases,
      (splitMax '/' 2 id = [config.key, "query".toList] ∧ entry = querySource config) ∨
      (∃ tableName, splitMax '/' 2 id = [config.key, "table".toList, tableName] ∧
        entry = tableSource config tableName) ∨
      ∃ tableName, splitMax '/' 2 id = [config.key, "ts_table".toList, tableName] ∧
        entry = tsTableSource config tableName := by
  constructor
  · intro h
    unfold getSqlSourceById at h
    split at h
    · rename_i dbKey sourceType rest hparts
      split at h
      · cases h
      · rename_i config hfound
        obtain ⟨hconfig, rfl⟩ := getConfiguredDbByKey_eq_some_iff.mp hfound
        refine ⟨config, hconfig, ?_⟩
        split_ifs at h with hquery htable htsTable
        · obtain ⟨rfl, rfl⟩ := hquery
          obtain rfl := Option.some.inj (Except.ok.inj h)
          have hid := (splitMax_eq_pair_iff hconfig (by decide)).mp hparts
          exact Or.inl ⟨hparts, by rw [hid]; rfl⟩
        · subst htable
          rcases parts_cases hparts with rfl | ⟨tableName, rfl⟩
          · cases h
          · obtain rfl := Option.some.inj (Except.ok.inj h)
            have hid := (splitMax_eq_triple_iff hconfig (by decide)).mp hparts
            exact Or.inr (Or.inl ⟨tableName, hparts, by rw [hid]; rfl⟩)
        · subst htsTable
          rcases parts_cases hparts with rfl | ⟨tableName, rfl⟩
          · cases h
          · obtain rfl := Option.some.inj (Except.ok.inj h)
            exact Or.inr (Or.inr ⟨tableName, hparts, rfl⟩)
        · cases h
    · cases h
  · intro ⟨config, hconfig, h⟩
    have hfound := getConfiguredDbByKey_eq_some_iff.mpr ⟨hconfig, rfl⟩
    unfold getSqlSourceById
    rcases h with ⟨hparts, rfl⟩ | ⟨tableName, hparts, rfl⟩ | ⟨tableName, hparts, rfl⟩
    · rw [hparts]
      simp only [hfound]
      rw [(splitMax_eq_pair_iff hconfig (by decide)).mp hparts]
      rfl
    · rw [hparts]
      simp only [hfound]
      rw [(splitMax_eq_triple_iff hconfig (by decide)).mp hparts]
      rfl
    · rw [hparts]
      simp only [hfound]
      rfl

/-- Looking up a source fails exactly if the name of the table is missing in its id. -/
theorem getSqlSourceById_eq_error_iff : (∃ error, getSqlSourceById adapter id = .error error) ↔
    ∃ config ∈ adapter.sqlDatabases, splitMax '/' 2 id = [config.key, "table".toList] ∨
      splitMax '/' 2 id = [config.key, "ts_table".toList] := by
  constructor
  · intro ⟨error, h⟩
    unfold getSqlSourceById at h
    split at h
    · rename_i dbKey sourceType rest hparts
      split at h
      · cases h
      · rename_i config hfound
        obtain ⟨hconfig, rfl⟩ := getConfiguredDbByKey_eq_some_iff.mp hfound
        refine ⟨config, hconfig, ?_⟩
        split_ifs at h with hquery htable htsTable
        · subst htable
          cases rest with
          | nil => exact Or.inl hparts
          | cons tableName rest => cases h
        · subst htsTable
          cases rest with
          | nil => exact Or.inr hparts
          | cons tableName rest => cases h
    · cases h
  · intro ⟨config, hconfig, h⟩
    have hfound := getConfiguredDbByKey_eq_some_iff.mpr ⟨hconfig, rfl⟩
    refine ⟨.indexError, ?_⟩
    unfold getSqlSourceById
    rcases h with hparts | hparts
    · rw [hparts]
      simp only [hfound]
      rfl
    · rw [hparts]
      simp only [hfound]
      rfl

/-- Looking up a source agrees with the listing exactly if ids made for source tables name tables
which may be read. -/
theorem sourceLookupAgrees_iff : LookupAgrees (getSqlSourceById adapter id)
      (getSqlSources getTableNames lower adapter none) id ↔
    ∀ config ∈ adapter.sqlDatabases, NamesSourceTable getTableNames config id := by
  rw [lookupAgrees_iff, getSqlSourceById_eq_error_iff]
  simp only [getSqlSourceById_eq_some_iff, mem_getSqlSources_iff]
  constructor
  · intro ⟨hnoError, hsame⟩ config hconfig
    refine ⟨fun hid => hnoError ⟨config, hconfig, Or.inl ?_⟩,
      fun hid => hnoError ⟨config, hconfig, Or.inr ?_⟩, fun tableName hid => ?_,
      fun tableName hid => ?_⟩
    · exact (splitMax_eq_pair_iff hconfig (by decide)).mpr hid
    · exact (splitMax_eq_pair_iff hconfig (by decide)).mpr hid
    · have hparts : splitMax '/' 2 id = [config.key, "table".toList, tableName] :=
        (splitMax_eq_triple_iff hconfig (by decide)).mpr hid
      obtain ⟨config', hconfig', hlisted⟩ := (hsame (tableSource config tableName)).mp
        ⟨config, hconfig, Or.inr (Or.inl ⟨tableName, hparts, rfl⟩)⟩
      rw [hparts] at hlisted
      rcases hlisted with ⟨hparts', -⟩ | ⟨tableName', hparts', htable, -⟩ | ⟨_, hparts', -⟩
      · exact absurd hparts' (by simp)
      · obtain ⟨hkey, rfl⟩ : config.key = config'.key ∧ tableName = tableName' := by
          simpa using hparts'
        obtain rfl := KeyedList.eq_of_key_eq adapter.unique_db_keys hconfig hconfig' hkey
        exact htable
      · exact absurd hparts' (by simp)
    · have hparts : splitMax '/' 2 id = [config.key, "ts_table".toList, tableName] :=
        (splitMax_eq_triple_iff hconfig (by decide)).mpr hid
      obtain ⟨config', hconfig', hlisted⟩ := (hsame (tsTableSource config tableName)).mp
        ⟨config, hconfig, Or.inr (Or.inr ⟨tableName, hparts, rfl⟩)⟩
      rw [hparts] at hlisted
      rcases hlisted with ⟨hparts', -⟩ | ⟨_, hparts', -⟩ | ⟨tableName', hparts', htable, -⟩
      · exact absurd hparts' (by simp)
      · exact absurd hparts' (by simp)
      · obtain ⟨hkey, rfl⟩ : config.key = config'.key ∧ tableName = tableName' := by
          simpa using hparts'
        obtain rfl := KeyedList.eq_of_key_eq adapter.unique_db_keys hconfig hconfig' hkey
        exact htable
  · intro h
    refine ⟨?_, fun entry => exists_congr fun config => and_congr_right fun hconfig => ?_⟩
    · rintro ⟨config, hconfig, hparts | hparts⟩
      · exact (h config hconfig).1 ((splitMax_eq_pair_iff hconfig (by decide)).mp hparts)
      · exact (h config hconfig).2.1 ((splitMax_eq_pair_iff hconfig (by decide)).mp hparts)
    · obtain ⟨-, -, htables, htsTables⟩ := h config hconfig
      refine or_congr_right (or_congr ?_ ?_)
      · refine exists_congr fun tableName => and_congr_right fun hparts => ?_
        have hid := (splitMax_eq_triple_iff hconfig (by decide)).mp hparts
        exact (and_iff_right (htables tableName hid)).symm
      · refine exists_congr fun tableName => and_congr_right fun hparts => ?_
        have hid := (splitMax_eq_triple_iff hconfig (by decide)).mp hparts
        exact (and_iff_right (htsTables tableName hid)).symm

end Sources

/-! ## Sinks -/

section Sinks

variable {lower : PyStr → PyStr} {adapter : SqlAdapterConfig} {id : PyStr}
  {entry : SqlAdapterStructureEntry}

/-- The sink of a kind for a table. -/
def sinkOfMode (config : SqlAdapterDbConfig) (tableName : PyStr) :
    WriteTableMode → SqlAdapterStructureEntry
  | .append => appendTableSink config tableName
  | .replace => replaceTableSink config tableName
  | .timeseriesAppend => appendableTsTableSink config tableName

/-- The tables of a database which are offered for writing. -/
def SqlAdapterDbConfig.writes (config : SqlAdapterDbConfig) (tableName : PyStr) :
    WriteTableMode → Prop
  | .append => tableName ∈ config.appendTables
  | .replace => tableName ∈ config.replaceTables
  | .timeseriesAppend => (tableName, true) ∈ config.timeseriesTables

/-- There is no slash in the text of a mode. -/
theorem slash_notMem_toTableTypeStr (mode : WriteTableMode) : '/' ∉ toTableTypeStr mode := by
  cases mode <;> decide

/-- A text stands for the mode with this text. -/
theorem fromTableTypeStr_eq_some_iff {tableType : PyStr} {mode : WriteTableMode} :
    WriteTableMode.fromTableTypeStr tableType = some mode ↔ tableType = toTableTypeStr mode := by
  unfold WriteTableMode.fromTableTypeStr
  constructor
  · intro h
    split_ifs at h with happend hreplace htimeseries
    · obtain rfl := Option.some.inj h
      exact happend
    · obtain rfl := Option.some.inj h
      exact hreplace
    · obtain rfl := Option.some.inj h
      exact htimeseries
  · rintro rfl
    cases mode <;> decide

/-- The id of a sink. -/
theorem sinkOfMode_id (config : SqlAdapterDbConfig) (tableName : PyStr) (mode : WriteTableMode) :
    (sinkOfMode config tableName mode).id =
      config.key ++ ('/' :: toTableTypeStr mode ++ ['/']) ++ tableName := by
  cases mode <;> rfl

/-- The listed sinks with an id, by its parts. -/
theorem mem_getSqlSinks_iff : (entry ∈ getSqlSinks lower adapter none ∧ entry.id = id) ↔
    ∃ config ∈ adapter.sqlDatabases, ∃ mode tableName,
      splitMax '/' 2 id = [config.key, toTableTypeStr mode, tableName] ∧
        config.writes tableName mode ∧ entry = sinkOfMode config tableName mode := by
  have hlisted : entry ∈ getSqlSinks lower adapter none ↔ ∃ config ∈ adapter.sqlDatabases,
      ∃ mode tableName, config.writes tableName mode ∧
        entry = sinkOfMode config tableName mode := by
    unfold getSqlSinks getSinksOfDb
    simp only [List.mem_flatMap, List.mem_append, List.mem_map, List.mem_filter]
    refine exists_congr fun config => and_congr_right fun _ => ?_
    constructor
    · rintro ((⟨tableName, htable, rfl⟩ | ⟨tableName, htable, rfl⟩) | ⟨table, htable, rfl⟩)
      · exact ⟨.append, tableName, htable, rfl⟩
      · exact ⟨.replace, tableName, htable, rfl⟩
      · obtain ⟨tableName, appendable⟩ := table
        obtain ⟨hmem, rfl⟩ := htable
        exact ⟨.timeseriesAppend, tableName, hmem, rfl⟩
    · intro ⟨mode, tableName, htable, hentry⟩
      cases mode with
      | append => exact Or.inl (Or.inl ⟨tableName, htable, hentry.symm⟩)
      | replace => exact Or.inl (Or.inr ⟨tableName, htable, hentry.symm⟩)
      | timeseriesAppend => exact Or.inr ⟨(tableName, true), ⟨htable, rfl⟩, hentry.symm⟩
  rw [hlisted]
  constructor
  · rintro ⟨⟨config, hconfig, mode, tableName, htable, rfl⟩, rfl⟩
    refine ⟨config, hconfig, mode, tableName, ?_, htable, rfl⟩
    exact (splitMax_eq_triple_iff hconfig (slash_notMem_toTableTypeStr mode)).mpr
      (sinkOfMode_id config tableName mode)
  · rintro ⟨config, hconfig, mode, tableName, hparts, htable, rfl⟩
    refine ⟨⟨config, hconfig, mode, tableName, htable, rfl⟩, ?_⟩
    rw [(splitMax_eq_triple_iff hconfig (slash_notMem_toTableTypeStr mode)).mp hparts]
    exact sinkOfMode_id config tableName mode

/-- The table to write to is given by the parts of the id. -/
theorem fromSinkId_eq_ok_iff {table : WriteTable} :
    WriteTable.fromSinkId adapter id = .ok table ↔
      table.dbConfig ∈ adapter.sqlDatabases ∧ table.dbConfig.key = table.dbKey ∧
        splitMax '/' 2 id = [table.dbKey, toTableTypeStr table.writeMode, table.tableName] := by
  constructor
  · intro h
    unfold WriteTable.fromSinkId at h
    split at h
    · rename_i dbKey writeModeStr tableName rest hparts
      split at h
      · rename_i dbConfig writeMode hfound hmode
        obtain ⟨hconfig, hkey⟩ := getConfiguredDbByKey_eq_some_iff.mp hfound
        rw [fromTableTypeStr_eq_some_iff] at hmode
        obtain rfl := Except.ok.inj h
        refine ⟨hconfig, hkey, ?_⟩
        rcases parts_cases hparts with hrest | ⟨third, hrest⟩
        · cases hrest
        · rw [hparts, hrest, hmode, List.head_eq_of_cons_eq hrest]
      · cases h
    · cases h
  · intro ⟨hconfig, hkey, hparts⟩
    unfold WriteTable.fromSinkId
    rw [hparts]
    simp only [getConfiguredDbByKey_eq_some_iff.mpr ⟨hconfig, hkey⟩,
      fromTableTypeStr_eq_some_iff.mpr rfl]

/-- The id which is built for a table to write to. -/
theorem sinkId_eq_id (config : SqlAdapterDbConfig) (mode : WriteTableMode) (tableName : PyStr) :
    WriteTable.sinkId ⟨config.key, mode, tableName, config⟩ =
      (sinkOfMode config tableName mode).id := by
  rw [sinkOfMode_id, WriteTable.sinkId]
  simp only [List.append_assoc]
  rfl

/-- The path which is built for a table to write to. -/
theorem path_eq_path (config : SqlAdapterDbConfig) (mode : WriteTableMode) (tableName : PyStr) :
    config.key ++ "|".toList ++ config.name ++ "/".toList ++ toTableTypeStr mode ++ "/".toList ++
      tableName = (sinkOfMode config tableName mode).path := by
  have hpath : (sinkOfMode config tableName mode).path = config.key ++ "|".toList ++ config.name ++
      ('/' :: toTableTypeStr mode ++ ['/']) ++ tableName := by
    cases mode <;> rfl
  rw [hpath]
  simp only [List.append_assoc]
  rfl

/-- What is found for a table to write to. -/
theorem getSqlSinkById_of_table (entry : SqlAdapterStructureEntry) {table : WriteTable}
    (h : WriteTable.fromSinkId adapter id = .ok table) :
    (getSqlSinkById adapter id = .ok (some entry) ↔
      table.dbConfig.writes table.tableName table.writeMode ∧
        entry = sinkOfMode table.dbConfig table.tableName table.writeMode) ∧
    ((∃ error, getSqlSinkById adapter id = .error error) ↔ table.writeMode = .timeseriesAppend ∧
      table.tableName ∉ table.dbConfig.timeseriesTables.map Prod.fst) := by
  have hkey := (fromSinkId_eq_ok_iff.mp h).2.1
  obtain ⟨dbKey, mode, tableName, config⟩ := table
  obtain rfl : config.key = dbKey := hkey
  unfold getSqlSinkById
  rw [h]
  cases mode with
  | append =>
    dsimp only
    refine ⟨?_, by split <;> simp⟩
    split
    · rename_i htable
      exact iff_of_false nofun fun hfound => htable hfound.1
    · rename_i htable
      have hwrites : config.writes tableName .append := not_not.mp htable
      rw [and_iff_right hwrites, Except.ok.injEq, Option.some.injEq, eq_comm]
      rw [sinkId_eq_id, path_eq_path]
      rfl
  | replace =>
    dsimp only
    refine ⟨?_, by split <;> simp⟩
    split
    · rename_i htable
      exact iff_of_false nofun fun hfound => htable hfound.1
    · rename_i htable
      have hwrites : config.writes tableName .replace := not_not.mp htable
      rw [and_iff_right hwrites, Except.ok.injEq, Option.some.injEq, eq_comm]
      rw [sinkId_eq_id, path_eq_path]
      rfl
  | timeseriesAppend =>
    have hlookup (appendable : Bool) : config.timeseriesTables.lookup tableName = some appendable ↔
        (tableName, appendable) ∈ config.timeseriesTables :=
      lookup_eq_some_iff_mem config.timeseriesTables_unique
    have hwrites : config.writes tableName .timeseriesAppend ↔
        config.timeseriesTables.lookup tableName = some true := (hlookup true).symm
    have hmem {appendable : Bool}
        (hfound : config.timeseriesTables.lookup tableName = some appendable) :
        tableName ∈ config.timeseriesTables.map Prod.fst :=
      List.mem_map_of_mem ((hlookup appendable).mp hfound)
    rw [hwrites]
    dsimp only
    split
    · rename_i hnone
      refine ⟨iff_of_false nofun fun hfound => ?_, iff_of_true ⟨.keyError, rfl⟩ ⟨rfl, ?_⟩⟩
      · rw [hnone] at hfound
        cases hfound.1
      · rintro hname
        obtain ⟨pair, hpair, rfl⟩ := List.mem_map.mp hname
        rw [(hlookup pair.2).mpr hpair] at hnone
        cases hnone
    · rename_i hfalse
      refine ⟨iff_of_false nofun fun hfound => ?_, iff_of_false nofun fun hnot => ?_⟩
      · rw [hfalse] at hfound
        cases hfound.1
      · exact hnot.2 (hmem hfalse)
    · rename_i htrue
      refine ⟨?_, iff_of_false nofun fun hnot => hnot.2 (hmem htrue)⟩
      rw [and_iff_right htrue, Except.ok.injEq, Option.some.injEq, eq_comm]
      rw [sinkId_eq_id, path_eq_path]
      rfl

/-- The sinks which are found by an id, by its parts. -/
theorem getSqlSinkById_eq_some_iff : getSqlSinkById adapter id = .ok (some entry) ↔
    ∃ config ∈ adapter.sqlDatabases, ∃ mode tableName,
      splitMax '/' 2 id = [config.key, toTableTypeStr mode, tableName] ∧
        config.writes tableName mode ∧ entry = sinkOfMode config tableName mode := by
  constructor
  · intro h
    cases htable : WriteTable.fromSinkId adapter id with
    | error error =>
      rw [getSqlSinkById, htable] at h
      cases h
    | ok table =>
      obtain ⟨hconfig, hkey, hparts⟩ := fromSinkId_eq_ok_iff.mp htable
      obtain ⟨hwrites, hentry⟩ := (getSqlSinkById_of_table entry htable).1.mp h
      refine ⟨table.dbConfig, hconfig, table.writeMode, table.tableName, ?_, hwrites, hentry⟩
      rw [hkey]
      exact hparts
  · intro ⟨config, hconfig, mode, tableName, hparts, hwrites, hentry⟩
    have htable : WriteTable.fromSinkId adapter id = .ok ⟨config.key, mode, tableName, config⟩ :=
      fromSinkId_eq_ok_iff.mpr ⟨hconfig, rfl, hparts⟩
    exact (getSqlSinkById_of_table entry htable).1.mpr ⟨hwrites, hentry⟩

/-- Looking up a sink fails exactly if the id is made for a timeseries table which is not
configured. -/
theorem getSqlSinkById_eq_error_iff : (∃ error, getSqlSinkById adapter id = .error error) ↔
    ∃ config ∈ adapter.sqlDatabases, ∃ tableName,
      splitMax '/' 2 id = [config.key, toTableTypeStr .timeseriesAppend, tableName] ∧
        tableName ∉ config.timeseriesTables.map Prod.fst := by
  constructor
  · intro h
    cases htable : WriteTable.fromSinkId adapter id with
    | error error =>
      obtain ⟨_, h⟩ := h
      rw [getSqlSinkById, htable] at h
      cases h
    | ok table =>
      obtain ⟨hconfig, hkey, hparts⟩ := fromSinkId_eq_ok_iff.mp htable
      obtain ⟨hmode, hnot⟩ := (getSqlSinkById_of_table (querySource table.dbConfig)
        htable).2.mp h
      refine ⟨table.dbConfig, hconfig, table.tableName, ?_, hnot⟩
      rw [hkey, ← hmode]
      exact hparts
  · intro ⟨config, hconfig, tableName, hparts, hnot⟩
    have htable : WriteTable.fromSinkId adapter id =
        .ok ⟨config.key, .timeseriesAppend, tableName, config⟩ :=
      fromSinkId_eq_ok_iff.mpr ⟨hconfig, rfl, hparts⟩
    exact (getSqlSinkById_of_table (querySource config) htable).2.mpr ⟨rfl, hnot⟩

/-- Looking up a sink agrees with the listing exactly if ids made for appending to timeseries tables
name configured ones. -/
theorem sinkLookupAgrees_iff :
    LookupAgrees (getSqlSinkById adapter id) (getSqlSinks lower adapter none) id ↔
      ∀ config ∈ adapter.sqlDatabases, NamesSinkTsTable config id := by
  rw [lookupAgrees_iff, getSqlSinkById_eq_error_iff]
  simp only [getSqlSinkById_eq_some_iff, mem_getSqlSinks_iff, implies_true, and_true]
  constructor
  · intro h config hconfig tableName hid
    by_contra hnot
    refine h ⟨config, hconfig, tableName, ?_, hnot⟩
    exact (splitMax_eq_triple_iff hconfig (by decide)).mpr hid
  · rintro h ⟨config, hconfig, tableName, hparts, hnot⟩
    exact hnot (h config hconfig tableName
      ((splitMax_eq_triple_iff hconfig (by decide)).mp hparts))

end Sinks

/-! ## When lookup and listing agree -/

/-- The lookups agree with the listings for an id exactly if it names tables which are offered. -/
theorem sqlLookupsAgree_iff (getTableNames : SqlAdapterDbConfig → List PyStr)
    (lower : PyStr → PyStr) (adapter : SqlAdapterConfig) (id : PyStr) :
    SqlLookupsAgree getTableNames lower adapter id ↔ ∀ config ∈ adapter.sqlDatabases,
      NamesSourceTable getTableNames config id ∧ NamesSinkTsTable config id := by
  unfold SqlLookupsAgree
  rw [sourceLookupAgrees_iff, sinkLookupAgrees_iff]
  exact forall₂_and.symm

/-- The lookups agree with the listings for all ids exactly if no database is configured. -/
theorem sqlLookupsAgree_forall_iff (getTableNames : SqlAdapterDbConfig → List PyStr)
    (lower : PyStr → PyStr) (adapter : SqlAdapterConfig) :
    (∀ id, SqlLookupsAgree getTableNames lower adapter id) ↔ adapter.sqlDatabases = [] := by
  constructor
  · intro h
    rw [List.eq_nil_iff_forall_not_mem]
    intro config hconfig
    have hagree := (h (config.key ++ "/table".toList)).1
    exact (sourceLookupAgrees_iff.mp hagree config hconfig).1 rfl
  · intro h id
    have hnone : ∀ config, config ∉ adapter.sqlDatabases := by
      rw [h]
      exact fun _ => List.not_mem_nil
    exact ⟨sourceLookupAgrees_iff.mpr fun config hconfig => absurd hconfig (hnone config),
      sinkLookupAgrees_iff.mpr fun config hconfig => absurd hconfig (hnone config)⟩

/-! ## Ids without the name of a table, and of ignored or unknown tables -/

/-- A database with a table which should not be read. -/
def ignoringSqlConfig : SqlAdapterDbConfig :=
  ⟨['D'], "db".toList, [], [], ["t".toList], [], none, List.nodup_nil⟩

/-- The adapter for this database. -/
def ignoringSqlAdapter : SqlAdapterConfig :=
  ⟨[ignoringSqlConfig], List.nodup_singleton _, by decide⟩

/-- Looking up a source fails if its id lacks the name of a table, the ignored table is found, and
looking up a sink for an unknown timeseries table fails. -/
theorem sqlLookups_disagree :
    getSqlSourceById ignoringSqlAdapter "db/table".toList = .error .indexError ∧
      getSqlSourceById ignoringSqlAdapter "db/table/t".toList =
        .ok (some (tableSource ignoringSqlConfig ['t'])) ∧
      tableSource ignoringSqlConfig ['t'] ∉
        getSqlSources (fun _ => [['t']]) (fun text => text) ignoringSqlAdapter none ∧
      getSqlSinkById ignoringSqlAdapter "db/appendable_ts_table/s".toList = .error .keyError ∧
      ¬ ∀ id, SqlLookupsAgree (fun _ => [['t']]) (fun text => text) ignoringSqlAdapter id := by
  have herror : getSqlSourceById ignoringSqlAdapter "db/table".toList = .error .indexError := by
    decide +kernel
  have hsink : getSqlSinkById ignoringSqlAdapter "db/appendable_ts_table/s".toList =
      .error .keyError := by
    decide +kernel
  refine ⟨herror, by decide +kernel, by decide +kernel, hsink, fun h => ?_⟩
  obtain ⟨result, hresult, -⟩ := (h "db/table".toList).1
  rw [herror] at hresult
  cases hresult

end HetidaDesigner
