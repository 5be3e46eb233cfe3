import HetidaDesigner.Adapters.ExternalTypes
import HetidaDesigner.Library.KeyedList
import HetidaDesigner.Library.SplitOnce
import HetidaDesigner.Wirings.Models

/-!
# Ids of the Kafka adapter

Listing, lookup by id, receiving and sending of `adapters/kafka`. An id is made of the key of a
configuration, an underscore and the text of a type. Fields of sources, sinks and configurations
which are constant or only passed on are left out.
-/

namespace HetidaDesigner

open Checks KeyedList SplitOnce

/-- A configuration of a topic. -/
structure KafkaConfig where
  displayName : PyStr
  topic : PyStr
  types : Option (List ExternalType)
  producable : Bool
  consumable : Bool
  deriving DecidableEq, Repr

/-- The method `type_allowed`. -/
def KafkaConfig.typeAllowed (config : KafkaConfig) (externalType : ExternalType) : Bool :=
  externalType ∈ config.types.getD ExternalType.all

/-- The configurations of the adapter by their keys. -/
structure KafkaAdapterConfig where
  kafkaConfigs : List (PyStr × KafkaConfig)
  keys_unique : (kafkaConfigs.map Prod.fst).Nodup

/-- Reasons for the functions of the adapter to fail. -/
inductive KafkaError
  | idParsing
  | adapterHandling
  | assertion
  | attributeError
  | keyError
  deriving DecidableEq, Repr

/-- Sources or sinks. -/
inductive KafkaSide
  | source
  | sink
  deriving DecidableEq, Repr

/-- Whether a configuration offers anything on a side. -/
def KafkaConfig.offers (config : KafkaConfig) : KafkaSide → Bool
  | .source => config.consumable
  | .sink => config.producable

/-! ## Parsing ids -/

/-- What an id stands for. -/
structure ParsedKafkaId where
  configKey : PyStr
  config : KafkaConfig
  type : ExternalType
  deriving DecidableEq, Repr

/-- `parse_id` -/
def parseId (adapter : KafkaAdapterConfig) (id : PyStr) : Except KafkaError ParsedKafkaId :=
  match rsplitOnce '_' id with
  | none => .error .idParsing
  | some (configKey, typeText) =>
    match ExternalType.ofText typeText with
    | none => .error .idParsing
    | some type =>
      match adapter.kafkaConfigs.lookup configKey with
      | none => .error .idParsing
      | some config => .ok ⟨configKey, config, type⟩

/-- `parse_source_id` and `parse_sink_id` -/
def parseSideId (side : KafkaSide) (adapter : KafkaAdapterConfig) (id : PyStr) :
    Except KafkaError ParsedKafkaId := do
  let parsed ← parseId adapter id
  require (parsed.config.offers side) .idParsing
  require (parsed.config.typeAllowed parsed.type) .idParsing
  return parsed

/-- `parse_source_id` -/
def parseSourceId : KafkaAdapterConfig → PyStr → Except KafkaError ParsedKafkaId :=
  parseSideId .source

/-- `parse_sink_id` -/
def parseSinkId : KafkaAdapterConfig → PyStr → Except KafkaError ParsedKafkaId :=
  parseSideId .sink

/-! ## Listing and lookup -/

/-- A source or sink of the adapter. -/
structure KafkaAdapterEntry where
  id : PyStr
  name : PyStr
  type : ExternalType
  path : PyStr
  metadataKey : Option PyStr
  deriving DecidableEq, Repr

/-- The source or sink for a type. -/
def kafkaEntry (key : PyStr) (config : KafkaConfig) (type : ExternalType) : KafkaAdapterEntry where
  id := key ++ "_".toList ++ type.value
  name := config.displayName ++ " ".toList ++ type.value
  type := type
  path := key ++ "/".toList ++ type.value
  metadataKey :=
    if "metadata".toList.isPrefixOf (type.value.map Char.toLower) then
      some (key ++ "_".toList ++ type.value)
    else none

/-- `structure_sources_from_kafka_config` and its counterpart for sinks -/
def structureFromKafkaConfig (side : KafkaSide) (key : PyStr) (config : KafkaConfig) :
    List KafkaAdapterEntry :=
  if config.offers side then (config.types.getD ExternalType.all).map (kafkaEntry key config)
  else []

/-- `get_all_kafka_sources` and `get_all_kafka_sinks` -/
def getAllKafkaEntries (side : KafkaSide) (adapter : KafkaAdapterConfig) :
    List KafkaAdapterEntry :=
  adapter.kafkaConfigs.flatMap fun config => structureFromKafkaConfig side config.1 config.2

/-- `get_sources` and `get_sinks`, with the case mapping of texts -/
def getKafkaEntries (side : KafkaSide) (lower : PyStr → PyStr) (adapter : KafkaAdapterConfig)
    (filterStr : Option PyStr) : List KafkaAdapterEntry :=
  (getAllKafkaEntries side adapter).filter fun entry => filterStr.all fun text =>
    lower text <:+: lower entry.name || lower text <:+: lower entry.path

/-- `get_source_by_id` and `get_sink_by_id` -/
def getKafkaEntryById (side : KafkaSide) (adapter : KafkaAdapterConfig) (id : PyStr) :
    Option KafkaAdapterEntry :=
  match parseSideId side adapter id with
  | .error _ => none
  | .ok parsed => some (kafkaEntry parsed.configKey parsed.config parsed.type)

/-! ## Receiving and sending -/

section Gather

variable {J A : Type}

/-- What a wiring refers to, with its filters. -/
structure FilteredEntry (J : Type) where
  refId : Option PyStr
  refKey : Option PyStr
  filters : List (PyStr × JsonValue J)

/-- A value of a message: which one it is, and what belongs to it. -/
structure KafkaMessagePart (A : Type) where
  parsed : ParsedKafkaId
  messageIdentifier : PyStr
  messageValueKey : Option PyStr
  name : PyStr
  value : A

/-- Messages by the keys of configurations and by their identifiers. -/
abbrev KafkaMessages (A : Type) :=
  List (PyStr × List (PyStr × List (Option PyStr × KafkaMessagePart A)))

/-- `parse_value_and_msg_identifier` -/
def parseValueAndMsgIdentifier (text : PyStr) : PyStr × PyStr :=
  match splitOnce ':' text with
  | none => ([], text)
  | some parts => parts

/-- The text of the filter for the key in a message. -/
def messageValueKeyFilter (filters : List (PyStr × JsonValue J)) : Except KafkaError PyStr :=
  match filters.lookup "message_value_key".toList with
  | none => .ok []
  | some (.text text) => .ok text
  | some _ => .error .attributeError

/-- One round of the loop of `gather_receive_recipes` and `gather_messages`. -/
def gatherOne (adapter : KafkaAdapterConfig) (value : PyStr → Except KafkaError A)
    (messages : KafkaMessages A) (entry : PyStr × FilteredEntry J) :
    Except KafkaError (KafkaMessages A) := do
  let id ← match entry.2.refKey.or entry.2.refId with
    | none => throw .assertion
    | some id => pure id
  -- for sources the ids are parsed as ids of sinks, too
  let parsed ← parseSinkId adapter id
  let text ← messageValueKeyFilter entry.2.filters
  let (messageIdentifier, valueKey) := parseValueAndMsgIdentifier text
  let messageValueKey := if valueKey = [] then none else some valueKey
  let ofConfig := (messages.lookup parsed.configKey).getD []
  let parts := (ofConfig.lookup messageIdentifier).getD []
  require (parts.all fun part => part.1 ≠ messageValueKey) .adapterHandling
  require (messageValueKey ≠ none || parts.isEmpty) .adapterHandling
  let value ← value entry.1
  let part := ⟨parsed, messageIdentifier, messageValueKey, entry.1, value⟩
  return insertEntry Prod.fst messages (parsed.configKey,
    insertEntry Prod.fst ofConfig (messageIdentifier, parts ++ [(messageValueKey, part)]))

/-- All messages with their values by the keys of these. -/
def gather (adapter : KafkaAdapterConfig) (value : PyStr → Except KafkaError A)
    (entries : List (PyStr × FilteredEntry J)) :
    Except KafkaError (List (List (Option PyStr × KafkaMessagePart A))) := do
  let messages ← entries.foldlM (gatherOne adapter value) []
  return messages.flatMap fun ofConfig => ofConfig.2.map Prod.snd

/-- `gather_receive_recipes` -/
def gatherReceiveRecipes (adapter : KafkaAdapterConfig) (entries : List (PyStr × FilteredEntry J)) :
    Except KafkaError (List (List (Option PyStr × KafkaMessagePart Unit))) :=
  gather adapter (fun _ => .ok ()) entries

/-- `gather_messages` -/
def gatherMessages (adapter : KafkaAdapterConfig) (entries : List (PyStr × FilteredEntry J))
    (values : List (PyStr × A)) :
    Except KafkaError (List (List (Option PyStr × KafkaMessagePart A))) :=
  gather adapter (fun name =>
    match values.lookup name with
    | none => .error .keyError
    | some value => .ok value) entries

end Gather

/-! ## What the functions should agree on -/

section Agreement

variable (J A : Type) (adapter : KafkaAdapterConfig)

/-- The id of a source is accepted for receiving. -/
def Receives (id : PyStr) : Prop :=
  ∃ (entries : List (PyStr × FilteredEntry J)) (result : _),
    gatherReceiveRecipes adapter entries = .ok result ∧
      ∃ entry ∈ entries, entry.2.refKey.or entry.2.refId = some id

/-- The id of a sink is accepted for sending. -/
def Sends (id : PyStr) : Prop :=
  ∃ (entries : List (PyStr × FilteredEntry J)) (values : List (PyStr × A)) (result : _),
    gatherMessages adapter entries values = .ok result ∧
      ∃ entry ∈ entries, entry.2.refKey.or entry.2.refId = some id

/-- Ids which are accepted are those which are found, and what is found is listed and the other way
round. An offered id stands for the configuration and the type from which it is made. -/
structure KafkaIdsAgree (lower : PyStr → PyStr) : Prop where
  received : ∀ id, Receives J adapter id ↔ (getKafkaEntryById .source adapter id).isSome
  sent : ∀ id, Sends J A adapter id ↔ (getKafkaEntryById .sink adapter id).isSome
  listed : ∀ side id, (getKafkaEntryById side adapter id).isSome ↔
    ∃ entry ∈ getKafkaEntries side lower adapter none,
      getKafkaEntryById side adapter id = some entry
  offered : ∀ side, ∀ entry ∈ getKafkaEntries side lower adapter none,
    getKafkaEntryById side adapter entry.id = some entry ∧
      ∃ parsed, parseSideId side adapter entry.id = .ok parsed ∧
        (parsed.configKey, parsed.config) ∈ adapter.kafkaConfigs ∧
        entry = kafkaEntry parsed.configKey parsed.config parsed.type

/-- Configurations which allow any types are consumable exactly if they are producable. -/
def ConsumableIffProducable : Prop :=
  ∀ config ∈ adapter.kafkaConfigs, config.2.types ≠ some [] →
    config.2.consumable = config.2.producable

end Agreement

/-! ## Ids and entries -/

section Ids

variable {adapter : KafkaAdapterConfig} {side : KafkaSide}

/-- What an id stands for is determined by its parts. -/
theorem parseId_eq_ok_iff {id : PyStr} {parsed : ParsedKafkaId} :
    parseId adapter id = .ok parsed ↔ ∃ typeText, id = parsed.configKey ++ '_' :: typeText ∧
      '_' ∉ typeText ∧ ExternalType.ofText typeText = some parsed.type ∧
      (parsed.configKey, parsed.config) ∈ adapter.kafkaConfigs := by
  unfold parseId
  constructor
  · intro h
    split at h
    · cases h
    · rename_i configKey typeText hsplit
      split at h
      · cases h
      · rename_i type htype
        split at h
        · cases h
        · rename_i config hconfig
          obtain rfl := Except.ok.inj h
          obtain ⟨hid, hnot⟩ := rsplitOnce_eq_some_iff.mp hsplit
          exact ⟨typeText, hid, hnot, htype, (lookup_eq_some_iff_mem adapter.keys_unique).mp hconfig⟩
  · intro ⟨typeText, hid, hnot, htype, hconfig⟩
    rw [rsplitOnce_eq_some_iff.mpr ⟨hid, hnot⟩]
    simp only [htype, (lookup_eq_some_iff_mem adapter.keys_unique).mpr hconfig]

/-- The id of an entry stands for the configuration and the type from which it is made. -/
theorem parseId_kafkaEntry {key : PyStr} {config : KafkaConfig}
    (h : (key, config) ∈ adapter.kafkaConfigs) (type : ExternalType) :
    parseId adapter (kafkaEntry key config type).id = .ok ⟨key, config, type⟩ := by
  refine parseId_eq_ok_iff.mpr ⟨type.value, ?_, type.underscore_notMem_value, type.ofText_value, h⟩
  rw [kafkaEntry, List.append_assoc]
  rfl

/-- Parsing an id for a side checks what the configuration offers. -/
theorem parseSideId_eq_ok_iff {id : PyStr} {parsed : ParsedKafkaId} :
    parseSideId side adapter id = .ok parsed ↔ parseId adapter id = .ok parsed ∧
      parsed.config.offers side = true ∧ parsed.config.typeAllowed parsed.type = true := by
  unfold parseSideId
  simp only [bind_eq_ok, require_eq_ok, return_eq_ok]
  constructor
  · rintro ⟨parsed', hparsed, -, hoffers, -, htype, rfl⟩
    exact ⟨hparsed, hoffers, htype⟩
  · intro ⟨hparsed, hoffers, htype⟩
    exact ⟨parsed, hparsed, (), hoffers, (), htype, rfl⟩

/-- Listed entries are those of the types which the configurations offer. -/
theorem mem_getKafkaEntries_iff {lower : PyStr → PyStr} {entry : KafkaAdapterEntry} :
    entry ∈ getKafkaEntries side lower adapter none ↔
      ∃ key config, (key, config) ∈ adapter.kafkaConfigs ∧ config.offers side = true ∧
        ∃ type, config.typeAllowed type = true ∧ entry = kafkaEntry key config type := by
  unfold getKafkaEntries getAllKafkaEntries structureFromKafkaConfig KafkaConfig.typeAllowed
  simp only [Option.all_none, List.filter_true, List.mem_flatMap, Prod.exists, decide_eq_true_eq]
  refine exists_congr fun key => exists_congr fun config => and_congr_right fun _ => ?_
  split
  · rename_i hoffers
    simp only [hoffers, true_and, List.mem_map]
    exact exists_congr fun type => and_congr_right fun _ => eq_comm
  · rename_i hoffers
    simp [hoffers]

/-- An id is found exactly if it can be parsed for the side. -/
theorem getKafkaEntryById_eq_some_iff {id : PyStr} {entry : KafkaAdapterEntry} :
    getKafkaEntryById side adapter id = some entry ↔ ∃ parsed,
      parseSideId side adapter id = .ok parsed ∧
        entry = kafkaEntry parsed.configKey parsed.config parsed.type := by
  unfold getKafkaEntryById
  cases parseSideId side adapter id with
  | error error => simp
  | ok parsed => simp [eq_comm]

/-- What is found is listed. -/
theorem mem_getKafkaEntries_of_byId {lower : PyStr → PyStr} {id : PyStr}
    {entry : KafkaAdapterEntry} (h : getKafkaEntryById side adapter id = some entry) :
    entry ∈ getKafkaEntries side lower adapter none := by
  obtain ⟨parsed, hparsed, rfl⟩ := getKafkaEntryById_eq_some_iff.mp h
  obtain ⟨hid, hoffers, htype⟩ := parseSideId_eq_ok_iff.mp hparsed
  obtain ⟨-, -, -, -, hconfig⟩ := parseId_eq_ok_iff.mp hid
  exact mem_getKafkaEntries_iff.mpr
    ⟨parsed.configKey, parsed.config, hconfig, hoffers, parsed.type, htype, rfl⟩

/-- A listed entry is found by its id, which stands for what it is made from. -/
theorem parseSideId_of_mem {lower : PyStr → PyStr} {entry : KafkaAdapterEntry}
    (h : entry ∈ getKafkaEntries side lower adapter none) :
    ∃ parsed, parseSideId side adapter entry.id = .ok parsed ∧
      (parsed.configKey, parsed.config) ∈ adapter.kafkaConfigs ∧
      entry = kafkaEntry parsed.configKey parsed.config parsed.type := by
  obtain ⟨key, config, hconfig, hoffers, type, htype, rfl⟩ := mem_getKafkaEntries_iff.mp h
  refine ⟨⟨key, config, type⟩, ?_, hconfig, rfl⟩
  exact parseSideId_eq_ok_iff.mpr ⟨parseId_kafkaEntry hconfig type, hoffers, htype⟩

end Ids

/-! ## Accepted ids -/

section Accepted

variable {J A : Type} {adapter : KafkaAdapterConfig} {value : PyStr → Except KafkaError A}

/-- A round of the loop parses the id. -/
theorem parsed_of_gatherOne {messages messages' : KafkaMessages A}
    {entry : PyStr × FilteredEntry J} (h : gatherOne adapter value messages entry = .ok messages')
    {id : PyStr} (hid : entry.2.refKey.or entry.2.refId = some id) :
    ∃ parsed, parseSinkId adapter id = .ok parsed := by
  unfold gatherOne at h
  rw [hid] at h
  obtain ⟨id', hid', h⟩ := bind_eq_ok.mp h
  obtain rfl := return_eq_ok.mp hid'
  obtain ⟨parsed, hparsed, -⟩ := bind_eq_ok.mp h
  exact ⟨parsed, hparsed⟩

/-- All ids are parsed. -/
theorem parsed_of_gather {entries : List (PyStr × FilteredEntry J)}
    {result : List (List (Option PyStr × KafkaMessagePart A))}
    (h : gather adapter value entries = .ok result) {entry : PyStr × FilteredEntry J}
    (hentry : entry ∈ entries) {id : PyStr} (hid : entry.2.refKey.or entry.2.refId = some id) :
    ∃ parsed, parseSinkId adapter id = .ok parsed := by
  obtain ⟨messages, hmessages, -⟩ := bind_eq_ok.mp h
  obtain ⟨before, after, hstep⟩ := exists_of_foldlM hmessages hentry
  exact parsed_of_gatherOne hstep hid

/-- A single entry without filters whose id can be parsed is gathered. -/
theorem exists_gather_singleton {id name : PyStr} {parsed : ParsedKafkaId}
    (h : parseSinkId adapter id = .ok parsed) {a : A} (ha : value name = .ok a) :
    ∃ result, gather adapter value [(name, (⟨some id, none, []⟩ : FilteredEntry J))] =
      .ok result := by
  have hstep : gatherOne adapter value [] (name, (⟨some id, none, []⟩ : FilteredEntry J)) =
      .ok [(parsed.configKey, [([], [(none, ⟨parsed, [], none, name, a⟩)])])] := by
    refine bind_eq_ok.mpr ⟨id, rfl, bind_eq_ok.mpr ⟨parsed, h, bind_eq_ok.mpr ⟨[], rfl, ?_⟩⟩⟩
    exact require_bind_eq_ok.mpr ⟨rfl, require_bind_eq_ok.mpr ⟨rfl, bind_eq_ok.mpr ⟨a, ha, rfl⟩⟩⟩
  obtain ⟨messages, hmessages⟩ : ∃ messages, gatherOne adapter value []
      (name, (⟨some id, none, []⟩ : FilteredEntry J)) = .ok messages := ⟨_, hstep⟩
  refine ⟨_, bind_eq_ok.mpr ⟨messages, ?_, rfl⟩⟩
  rw [List.foldlM_cons, hmessages]
  rfl

/-- An id is accepted for receiving exactly if it can be parsed as the id of a sink. -/
theorem receives_iff {id : PyStr} :
    Receives J adapter id ↔ ∃ parsed, parseSinkId adapter id = .ok parsed := by
  constructor
  · intro ⟨entries, result, h, entry, hentry, hid⟩
    exact parsed_of_gather h hentry hid
  · intro ⟨parsed, hparsed⟩
    obtain ⟨result, hresult⟩ : ∃ result, gatherReceiveRecipes adapter
        [([], (⟨some id, none, []⟩ : FilteredEntry J))] = .ok result :=
      exists_gather_singleton hparsed rfl
    exact ⟨_, result, hresult, _, List.mem_singleton_self _, rfl⟩

/-- An id is accepted for sending exactly if it can be parsed as the id of a sink. -/
theorem sends_iff [Inhabited A] {id : PyStr} :
    Sends J A adapter id ↔ ∃ parsed, parseSinkId adapter id = .ok parsed := by
  constructor
  · intro ⟨entries, values, result, h, entry, hentry, hid⟩
    exact parsed_of_gather h hentry hid
  · intro ⟨parsed, hparsed⟩
    obtain ⟨result, hresult⟩ : ∃ result, gatherMessages adapter
        [([], (⟨some id, none, []⟩ : FilteredEntry J))] [([], (default : A))] = .ok result :=
      exists_gather_singleton hparsed rfl
    exact ⟨_, _, result, hresult, _, List.mem_singleton_self _, rfl⟩

end Accepted

/-! ## When the functions agree -/

/-- An id is found exactly if it can be parsed. -/
theorem isSome_getKafkaEntryById_iff {side : KafkaSide} {adapter : KafkaAdapterConfig}
    {id : PyStr} : (getKafkaEntryById side adapter id).isSome ↔
      ∃ parsed, parseSideId side adapter id = .ok parsed := by
  unfold getKafkaEntryById
  cases parseSideId side adapter id <;> simp

/-- Ids can be parsed for sources and for sinks alike exactly if configurations which allow any types
are consumable exactly if they are producable. -/
theorem parsesAlike_iff {adapter : KafkaAdapterConfig} :
    (∀ id, (∃ parsed, parseSinkId adapter id = .ok parsed) ↔
        ∃ parsed, parseSourceId adapter id = .ok parsed) ↔ ConsumableIffProducable adapter := by
  constructor
  · intro h config hconfig htypes
    obtain ⟨type, htype⟩ : ∃ type, config.2.typeAllowed type = true := by
      unfold KafkaConfig.typeAllowed
      cases hgiven : config.2.types with
      | none => exact ⟨.dataframe, by decide⟩
      | some types =>
        cases types with
        | nil => exact absurd hgiven htypes
        | cons type rest => exact ⟨type, by simp⟩
    have hparsed (side : KafkaSide) : (∃ parsed, parseSideId side adapter
        (kafkaEntry config.1 config.2 type).id = .ok parsed) ↔ config.2.offers side = true := by
      have hid := parseId_kafkaEntry hconfig type
      constructor
      · intro ⟨parsed, hok⟩
        obtain ⟨hparse, hoffers, -⟩ := parseSideId_eq_ok_iff.mp hok
        rwa [← Except.ok.inj (hid.symm.trans hparse)] at hoffers
      · intro hoffers
        exact ⟨_, parseSideId_eq_ok_iff.mpr ⟨hid, hoffers, htype⟩⟩
    have hboth := h (kafkaEntry config.1 config.2 type).id
    rw [parseSinkId, parseSourceId, hparsed .sink, hparsed .source] at hboth
    exact (Bool.eq_iff_iff.mpr hboth).symm
  · intro h id
    refine exists_congr fun parsed => ?_
    rw [parseSinkId, parseSourceId, parseSideId_eq_ok_iff, parseSideId_eq_ok_iff]
    refine and_congr_right fun hid => and_congr_left fun htype => ?_
    obtain ⟨-, -, -, -, hconfig⟩ := parseId_eq_ok_iff.mp hid
    have htypes : parsed.config.types ≠ some [] := by
      intro hnone
      rw [KafkaConfig.typeAllowed, hnone] at htype
      cases htype
    have hsame : parsed.config.consumable = parsed.config.producable := h _ hconfig htypes
    rw [KafkaConfig.offers, KafkaConfig.offers, hsame]

/-- Accepting, finding and listing agree exactly if configurations which allow any types are
consumable exactly if they are producable. -/
theorem kafkaIdsAgree_iff {J A : Type} [Inhabited A] {adapter : KafkaAdapterConfig}
    {lower : PyStr → PyStr} :
    KafkaIdsAgree J A adapter lower ↔ ConsumableIffProducable adapter := by
  rw [← parsesAlike_iff]
  constructor
  · intro h id
    have hreceived := h.received id
    rw [receives_iff, isSome_getKafkaEntryById_iff] at hreceived
    exact hreceived
  · intro h
    refine ⟨fun id => ?_, fun id => ?_, fun side id => ?_, fun side entry hentry => ?_⟩
    · rw [receives_iff, isSome_getKafkaEntryById_iff]
      exact h id
    · rw [sends_iff, isSome_getKafkaEntryById_iff]
      rfl
    · constructor
      · intro hfound
        obtain ⟨entry, hentry⟩ := Option.isSome_iff_exists.mp hfound
        exact ⟨entry, mem_getKafkaEntries_of_byId hentry, hentry⟩
      · intro ⟨entry, _, hentry⟩
        rw [hentry]
        rfl
    · obtain ⟨parsed, hparsed, hconfig, hmade⟩ := parseSideId_of_mem hentry
      exact ⟨getKafkaEntryById_eq_some_iff.mpr ⟨parsed, hparsed, hmade⟩, parsed, hparsed, hconfig,
        hmade⟩

/-! ## A configuration which is only producable -/

/-- A configuration which is producable and not consumable, as by default. -/
def defaultKafkaConfig : KafkaConfig := ⟨['K'], ['t'], none, true, false⟩

/-- An adapter with this configuration. -/
def defaultKafkaAdapter : KafkaAdapterConfig :=
  ⟨[("my_key".toList, defaultKafkaConfig)], List.nodup_singleton _⟩

/-- An id is accepted for receiving, but there is no source with it. -/
theorem receives_sink :
    Receives ℤ defaultKafkaAdapter "my_key_metadata(int)".toList ∧
      getKafkaEntryById .source defaultKafkaAdapter "my_key_metadata(int)".toList = none ∧
      ¬ KafkaIdsAgree ℤ ℤ defaultKafkaAdapter id := by
  have hreceives : Receives ℤ defaultKafkaAdapter "my_key_metadata(int)".toList := by
    have hparsed : parseSinkId defaultKafkaAdapter "my_key_metadata(int)".toList =
        .ok ⟨"my_key".toList, defaultKafkaConfig, .metadata .int⟩ := by
      decide +kernel
    exact receives_iff.mpr ⟨_, hparsed⟩
  have hnone : getKafkaEntryById .source defaultKafkaAdapter "my_key_metadata(int)".toList =
      none := by
    decide +kernel
  refine ⟨hreceives, hnone, fun h => ?_⟩
  have hfound := (h.received _).mp hreceives
  rw [hnone] at hfound
  cases hfound

end HetidaDesigner
