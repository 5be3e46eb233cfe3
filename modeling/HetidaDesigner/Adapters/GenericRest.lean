import HetidaDesigner.Adapters.ExternalTypes
import HetidaDesigner.Library.KeyedList
import HetidaDesigner.Wirings.Models

/-!
# Loading and sending with the generic REST adapter

The functions `load_data` and `send_data` of `adapters/generic_rest`: sources and sinks are put
into dictionaries by their general types, and each of four functions gets one of them. The
functions themselves are parameters. Series and plotly objects are accepted, but no function gets
them.
-/

namespace HetidaDesigner

open Checks KeyedList

/-- A filtered source or a filtered sink. -/
structure FilteredData (F : Type) where
  refId : Option PyStr
  refIdType : Option RefIdType
  refKey : Option PyStr
  type : Option PyStr
  filters : F
  deriving DecidableEq

/-- Filtered sources or sinks by the names of inputs or outputs. -/
structure WiredData (F : Type) where
  entries : List (PyStr × FilteredData F)
  names_unique : (entries.map Prod.fst).Nodup

/-- The container types. -/
inductive GeneralType
  | metadata
  | timeseries
  | series
  | multitsframe
  | dataframe
  | plotlyjson
  deriving DecidableEq, Repr

/-- The container type of an external type. -/
def ExternalType.generalType : ExternalType → GeneralType
  | .metadata _ => .metadata
  | .timeseries _ => .timeseries
  | .series _ => .series
  | .multitsframe => .multitsframe
  | .dataframe => .dataframe
  | .plotlyjson => .plotlyjson

/-- Reasons for a wiring to be invalid for the adapter. -/
inductive RestWiringInvalid
  | unsetRefId
  | unknownType
  | unsetType
  | unsetRefIdType
  | unsetRefKey
  deriving DecidableEq, Repr

/-- Reasons for loading or sending to fail. -/
inductive RestError (E : Type)
  | clientWiringInvalid (reason : RestWiringInvalid)
  | keyError
  | raised (error : E)
  deriving DecidableEq, Repr

variable {F E W A : Type}

/-! ## Validation -/

/-- `validate_type_and_ref_id` -/
def validateTypeAndRefId (mapping : List (PyStr × FilteredData F)) :
    Except RestWiringInvalid (List PyStr × List PyStr × List ExternalType) := do
  let names := mapping.map Prod.fst
  let refIds := mapping.filterMap fun entry => entry.2.refId
  require (!decide (refIds.length < mapping.length)) .unsetRefId
  let types ← (mapping.filterMap fun entry => entry.2.type).mapM fun type =>
    match ExternalType.ofText type with
    | some externalType => Except.ok externalType
    | none => .error .unknownType
  require (!decide (types.length < mapping.length)) .unsetType
  return (names, refIds, types)

/-- `validate_metadatum_filtered_source_sink` -/
def validateMetadatum (data : FilteredData F) : Except RestWiringInvalid Unit := do
  require data.refIdType.isSome .unsetRefIdType
  require data.refKey.isSome .unsetRefKey

/-- The member of the enumeration for the type. -/
def FilteredData.externalType (data : FilteredData F) : Option ExternalType :=
  data.type.bind ExternalType.ofText

/-- The member of the enumeration in the place of the type. -/
def FilteredData.withType (data : FilteredData F) (type : ExternalType) : FilteredData F :=
  { data with type := some type.value }

/-! ## Dictionaries by container types -/

/-- The dictionaries for the container types; there is none for plotly objects. -/
structure TypeBuckets (A : Type) where
  metadata : List (PyStr × A)
  timeseries : List (PyStr × A)
  series : List (PyStr × A)
  dataframe : List (PyStr × A)
  multitsframe : List (PyStr × A)

/-- Empty dictionaries. -/
def TypeBuckets.empty : TypeBuckets A := ⟨[], [], [], [], []⟩

/-- The dictionary for a container type. -/
def TypeBuckets.get (buckets : TypeBuckets A) : GeneralType → List (PyStr × A)
  | .metadata => buckets.metadata
  | .timeseries => buckets.timeseries
  | .series => buckets.series
  | .multitsframe => buckets.multitsframe
  | .dataframe => buckets.dataframe
  | .plotlyjson => []

/-- Enter something into the dictionary for its container type. -/
def TypeBuckets.add (buckets : TypeBuckets A) (type : GeneralType) (entry : PyStr × A) :
    TypeBuckets A :=
  match type with
  | .metadata => { buckets with metadata := insertEntry Prod.fst buckets.metadata entry }
  | .timeseries => { buckets with timeseries := insertEntry Prod.fst buckets.timeseries entry }
  | .series => { buckets with series := insertEntry Prod.fst buckets.series entry }
  | .dataframe => { buckets with dataframe := insertEntry Prod.fst buckets.dataframe entry }
  | .multitsframe =>
    { buckets with multitsframe := insertEntry Prod.fst buckets.multitsframe entry }
  | .plotlyjson => buckets

/-- One step of the loop which organizes by type; `item` is what is entered for a name. -/
def organizeStep (mapping : List (PyStr × FilteredData F))
    (item : PyStr → FilteredData F → Except (RestError E) A) (buckets : TypeBuckets A)
    (named : PyStr × ExternalType) : Except (RestError E) (TypeBuckets A) :=
  match mapping.lookup named.1 with
  | none => .error .keyError
  | some data => do
    let entered ← item named.1 (data.withType named.2)
    if named.2.generalType = .metadata then
      (validateMetadatum data).mapError .clientWiringInvalid
    return buckets.add named.2.generalType (named.1, entered)

/-- The loop which organizes by type. -/
def organizeByType (mapping : List (PyStr × FilteredData F))
    (item : PyStr → FilteredData F → Except (RestError E) A) (names : List PyStr)
    (types : List ExternalType) : Except (RestError E) (TypeBuckets A) :=
  (names.zip types).foldlM (organizeStep mapping item) .empty

/-! ## Loading and sending -/

/-- A function which loads data, with a value for each name it is given. -/
structure RestLoader (F E W : Type) where
  load : List (PyStr × FilteredData F) → Except E (List (PyStr × W))
  keys : ∀ dataToLoad loaded, load dataToLoad = .ok loaded → ∀ name,
    name ∈ loaded.map Prod.fst ↔ name ∈ dataToLoad.map Prod.fst

/-- The functions which load data. -/
structure RestLoaders (F E W : Type) where
  timeseries : RestLoader F E W
  dataframes : RestLoader F E W
  multitsframes : RestLoader F E W
  metadata : RestLoader F E W

/-- Sources by container types. -/
def organizeToLoad (sources : WiredData F) :
    Except (RestError E) (TypeBuckets (FilteredData F)) := do
  let (names, _, types) ←
    (validateTypeAndRefId sources.entries).mapError .clientWiringInvalid
  organizeByType sources.entries (fun _ data => .ok data) names types

/-- `load_data` -/
def loadData (loaders : RestLoaders F E W) (sources : WiredData F) :
    Except (RestError E) (List (PyStr × W)) := do
  let toLoad ← organizeToLoad sources
  let loadedTsData ← (loaders.timeseries.load toLoad.timeseries).mapError .raised
  let loadedDataframes ← (loaders.dataframes.load toLoad.dataframe).mapError .raised
  let loadedMultitsframes ← (loaders.multitsframes.load toLoad.multitsframe).mapError .raised
  let loadedMetadata ← (loaders.metadata.load toLoad.metadata).mapError .raised
  return insertAll Prod.fst []
    (loadedTsData ++ loadedDataframes ++ loadedMultitsframes ++ loadedMetadata)

/-- What a function which sends data is given. -/
structure SendCall (F W : Type) where
  sinks : List (PyStr × FilteredData F)
  data : List (PyStr × W)

/-- The functions which send data. -/
structure RestSenders (F E W : Type) where
  dataframes : SendCall F W → Except E Unit
  multitsframes : SendCall F W → Except E Unit
  timeseries : SendCall F W → Except E Unit
  metadata : SendCall F W → Except E Unit

/-- The calls of functions which send data, and whether one of them raises. -/
structure SendOutcome (F E W : Type) where
  calls : List (SendCall F W)
  result : Except (RestError E) Unit

/-- The dictionaries of the sinks and of the values for a container type. -/
def sendCall (toSend : List (PyStr × FilteredData F × W)) : SendCall F W :=
  ⟨toSend.map fun entry => (entry.1, entry.2.1), toSend.map fun entry => (entry.1, entry.2.2)⟩

/-- The value for an output. -/
def valueToSend (values : List (PyStr × W)) (name : PyStr) (data : FilteredData F) :
    Except (RestError E) (FilteredData F × W) :=
  match values.lookup name with
  | none => .error .keyError
  | some value => .ok (data, value)

/-- Sinks and values by container types. -/
def organizeToSend (sinks : WiredData F) (values : List (PyStr × W)) :
    Except (RestError E) (TypeBuckets (FilteredData F × W)) := do
  let (names, _, types) ←
    (validateTypeAndRefId sinks.entries).mapError .clientWiringInvalid
  organizeByType sinks.entries (valueToSend values) names types

/-- `send_data` -/
def sendData (senders : RestSenders F E W) (sinks : WiredData F) (values : List (PyStr × W)) :
    SendOutcome F E W :=
  match organizeToSend sinks values with
  | .error error => ⟨[], .error error⟩
  | .ok toSend =>
    ⟨[sendCall toSend.dataframe, sendCall toSend.multitsframe, sendCall toSend.timeseries,
        sendCall toSend.metadata],
      do
        (senders.dataframes (sendCall toSend.dataframe)).mapError .raised
        (senders.multitsframes (sendCall toSend.multitsframe)).mapError .raised
        (senders.timeseries (sendCall toSend.timeseries)).mapError .raised
        (senders.metadata (sendCall toSend.metadata)).mapError .raised⟩

/-! ## Accepted sources and sinks -/

/-- Sources or sinks which pass the validation of types and reference ids and the one of metadata. -/
structure WiredData.Accepted (wired : WiredData F) : Prop where
  validated : ∃ result, validateTypeAndRefId wired.entries = .ok result
  metadata : ∀ entry ∈ wired.entries, ∀ type, entry.2.externalType = some type →
    type.generalType = .metadata → validateMetadatum entry.2 = .ok ()

/-- What is entered for a source or sink of a container type. -/
def enteredFor (item : PyStr → FilteredData F → Except (RestError E) A) (type : GeneralType)
    (entry : PyStr × FilteredData F) : Option (PyStr × A) :=
  entry.2.externalType.bind fun externalType =>
    if externalType.generalType = type then
      (item entry.1 (entry.2.withType externalType)).toOption.map fun entered => (entry.1, entered)
    else none

/-- The sources or sinks of a container type, with what is entered for them. -/
def ofGeneralType (item : PyStr → FilteredData F → Except (RestError E) A) (type : GeneralType)
    (mapping : List (PyStr × FilteredData F)) : List (PyStr × A) :=
  mapping.filterMap (enteredFor item type)

/-- When something is entered for a source or sink. -/
theorem enteredFor_eq_some {item : PyStr → FilteredData F → Except (RestError E) A}
    {type : GeneralType} {name name' : PyStr} {data : FilteredData F} {entered : A} :
    enteredFor item type (name, data) = some (name', entered) ↔
      name = name' ∧ ∃ externalType, data.externalType = some externalType ∧
        externalType.generalType = type ∧ item name (data.withType externalType) = .ok entered := by
  rw [enteredFor, Option.bind_eq_some_iff]
  constructor
  · rintro ⟨externalType, htype, h⟩
    split at h
    · rename_i hgeneral
      obtain ⟨found, hfound, heq⟩ := Option.map_eq_some_iff.mp h
      obtain ⟨rfl, rfl⟩ := Prod.mk.inj heq
      refine ⟨rfl, externalType, htype, hgeneral, ?_⟩
      dsimp only at hfound
      cases hitem : item name (data.withType externalType) with
      | error error => simp [hitem, Except.toOption] at hfound
      | ok found' =>
        rw [hitem] at hfound
        exact congrArg Except.ok (Option.some.inj hfound)
    · cases h
  · rintro ⟨rfl, externalType, htype, hgeneral, hitem⟩
    exact ⟨externalType, htype, by simp [hgeneral, hitem, Except.toOption]⟩

/-- What is entered for the sources or sinks of a container type. -/
theorem mem_ofGeneralType_iff {item : PyStr → FilteredData F → Except (RestError E) A}
    {type : GeneralType} {mapping : List (PyStr × FilteredData F)} {name : PyStr} {entered : A} :
    (name, entered) ∈ ofGeneralType item type mapping ↔ ∃ data externalType,
      (name, data) ∈ mapping ∧ data.externalType = some externalType ∧
        externalType.generalType = type ∧ item name (data.withType externalType) = .ok entered := by
  rw [ofGeneralType, List.mem_filterMap]
  constructor
  · rintro ⟨⟨name', data⟩, hmem, h⟩
    obtain ⟨rfl, externalType, h⟩ := enteredFor_eq_some.mp h
    exact ⟨data, externalType, hmem, h⟩
  · intro ⟨data, externalType, hmem, h⟩
    exact ⟨(name, data), hmem, enteredFor_eq_some.mpr ⟨rfl, externalType, h⟩⟩

/-- Names stay in their order. -/
theorem map_fst_ofGeneralType_sublist
    {item : PyStr → FilteredData F → Except (RestError E) A} {type : GeneralType}
    {mapping : List (PyStr × FilteredData F)} :
    ((ofGeneralType item type mapping).map Prod.fst).Sublist (mapping.map Prod.fst) := by
  induction mapping with
  | nil => exact List.Sublist.refl _
  | cons entry rest ih =>
    rw [ofGeneralType, List.map_cons]
    cases hentry : enteredFor item type entry with
    | none =>
      rw [List.filterMap_cons_none hentry]
      exact ih.cons entry.1
    | some found =>
      rw [List.filterMap_cons_some hentry, List.map_cons, ← (enteredFor_eq_some.mp hentry).1]
      exact ih.cons_cons entry.1

/-- All values are there after `filterMap` if it does not shorten the list. -/
theorem map_eq_of_length_filterMap {B C : Type} {f : B → Option C} {l : List B}
    (h : ¬ (l.filterMap f).length < l.length) : l.map f = (l.filterMap f).map some := by
  induction l with
  | nil => rfl
  | cons b rest ih =>
    have hle := List.length_filterMap_le f rest
    cases hb : f b with
    | none =>
      rw [List.filterMap_cons_none hb, List.length_cons] at h
      omega
    | some c =>
      rw [List.filterMap_cons_some hb, List.length_cons, List.length_cons] at h
      rw [List.filterMap_cons_some hb, List.map_cons, List.map_cons, hb, ih (by omega)]

/-- What validation returns: the names, the reference ids and the types of all entries. -/
theorem of_validateTypeAndRefId {mapping : List (PyStr × FilteredData F)} {names refIds : List PyStr}
    {types : List ExternalType}
    (h : validateTypeAndRefId mapping = .ok (names, refIds, types)) :
    names = mapping.map Prod.fst ∧ (mapping.map fun entry => entry.2.refId) = refIds.map some ∧
      (mapping.map fun entry => entry.2.externalType) = types.map some := by
  unfold validateTypeAndRefId at h
  obtain ⟨hrefIds, h⟩ := require_bind_eq_ok.mp h
  obtain ⟨found, hfound, h⟩ := bind_eq_ok.mp h
  obtain ⟨htypes, h⟩ := require_bind_eq_ok.mp h
  have hresult := return_eq_ok.mp h
  obtain rfl := congrArg (fun result => result.2.2) hresult
  obtain rfl := congrArg (fun result => result.1) hresult
  obtain rfl := congrArg (fun result => result.2.1) hresult
  have hlength := (mapM_eq_ok.mp hfound).length_eq
  have hmembers : found.map some =
      (mapping.filterMap fun entry => entry.2.type).map ExternalType.ofText :=
    map_eq_of_mapM hfound fun text type htext => by
      cases hof : ExternalType.ofText text with
      | none => simp [hof] at htext
      | some member =>
        rw [hof] at htext
        exact congrArg some (Except.ok.inj htext).symm
  have hall := map_eq_of_length_filterMap (f := fun entry : PyStr × FilteredData F => entry.2.type)
    (l := mapping) (by simpa [hlength] using htypes)
  refine ⟨rfl, map_eq_of_length_filterMap (by simpa using hrefIds), ?_⟩
  rw [hmembers]
  have hbind := congrArg (List.map fun type : Option PyStr => type.bind ExternalType.ofText) hall
  rw [List.map_map, List.map_map] at hbind
  exact hbind

/-- What can be found after entering something. -/
theorem TypeBuckets.get_add (buckets : TypeBuckets A) (type wanted : GeneralType)
    (entry : PyStr × A) : (buckets.add type entry).get wanted =
      if type = wanted ∧ wanted ≠ .plotlyjson then insertEntry Prod.fst (buckets.get wanted) entry
      else buckets.get wanted := by
  cases type <;> cases wanted <;> rfl

section Organize

variable {mapping : List (PyStr × FilteredData F)}
  {item : PyStr → FilteredData F → Except (RestError E) A}

/-- When a step of the loop passes. -/
theorem organizeStep_eq_ok {buckets buckets' : TypeBuckets A} {name : PyStr} {type : ExternalType} :
    organizeStep mapping item buckets (name, type) = .ok buckets' ↔
      ∃ data entered, mapping.lookup name = some data ∧
        item name (data.withType type) = .ok entered ∧
        (type.generalType = .metadata → validateMetadatum data = .ok ()) ∧
        buckets' = buckets.add type.generalType (name, entered) := by
  unfold organizeStep
  dsimp only
  cases mapping.lookup name with
  | none => simp
  | some data =>
    have hvalid (entered : A) : (do
        if type.generalType = .metadata then
          (validateMetadatum data).mapError RestError.clientWiringInvalid
        return buckets.add type.generalType (name, entered) : Except (RestError E) _) =
          .ok buckets' ↔ (type.generalType = .metadata → validateMetadatum data = .ok ()) ∧
            buckets' = buckets.add type.generalType (name, entered) := by
      split
      · rw [check_bind_eq_ok, mapError_eq_ok, return_eq_ok, eq_comm (a := buckets')]
        simp [*]
      · simp [*, pure, Except.pure, eq_comm (a := buckets')]
    constructor
    · intro h
      obtain ⟨entered, hentered, h⟩ := bind_eq_ok.mp h
      exact ⟨data, entered, rfl, hentered, (hvalid entered).mp h⟩
    · rintro ⟨found, entered, hfound, hentered, h⟩
      obtain rfl := Option.some.inj hfound
      exact bind_eq_ok.mpr ⟨entered, hentered, (hvalid entered).mpr h⟩

variable (hnames : (mapping.map Prod.fst).Nodup)

include hnames

/-- What the loop puts into the dictionary for a container type. -/
theorem get_of_organize {rest : List (PyStr × FilteredData F)} {types : List ExternalType}
    (hrest : rest ⊆ mapping)
    (htypes : (rest.map fun entry => entry.2.externalType) = types.map some)
    {buckets buckets' : TypeBuckets A}
    (h : ((rest.map Prod.fst).zip types).foldlM (organizeStep mapping item) buckets = .ok buckets')
    {type : GeneralType} (htype : type ≠ .plotlyjson) :
    buckets'.get type = insertAll Prod.fst (buckets.get type) (ofGeneralType item type rest) := by
  induction rest generalizing types buckets with
  | nil =>
    obtain rfl := return_eq_ok.mp h
    rfl
  | cons entry rest ih =>
    obtain ⟨name, data⟩ := entry
    cases types with
    | nil => cases htypes
    | cons first types =>
      rw [List.map_cons, List.map_cons, List.cons.injEq] at htypes
      obtain ⟨hfirst, htypes⟩ := htypes
      rw [List.map_cons, List.zip_cons_cons, List.foldlM_cons] at h
      obtain ⟨between, hstep, h⟩ := bind_eq_ok.mp h
      obtain ⟨found, entered, hfound, hentered, -, rfl⟩ := organizeStep_eq_ok.mp hstep
      have hmem : (name, data) ∈ mapping := hrest List.mem_cons_self
      rw [(lookup_eq_some_iff_mem hnames).mpr hmem] at hfound
      obtain rfl := Option.some.inj hfound
      rw [ih (fun _ hentry => hrest (List.mem_cons_of_mem _ hentry)) htypes h,
        TypeBuckets.get_add]
      dsimp only at hfirst
      by_cases heq : first.generalType = type
      · have hsome : enteredFor item type (name, data) = some (name, entered) :=
          enteredFor_eq_some.mpr ⟨rfl, first, hfirst, heq, hentered⟩
        rw [if_pos ⟨heq, htype⟩, ofGeneralType, ofGeneralType, List.filterMap_cons_some hsome]
        rfl
      · have hnone : enteredFor item type (name, data) = none := by simp [enteredFor, hfirst, heq]
        rw [if_neg fun h => heq h.1, ofGeneralType, ofGeneralType, List.filterMap_cons_none hnone]

/-- The loop passes if everything can be entered and metadata are valid. -/
theorem exists_organize {rest : List (PyStr × FilteredData F)} {types : List ExternalType}
    (hrest : rest ⊆ mapping)
    (htypes : (rest.map fun entry => entry.2.externalType) = types.map some)
    (hitem : ∀ name data type, (name, data) ∈ mapping →
      ∃ entered, item name (data.withType type) = .ok entered)
    (hmetadata : ∀ entry ∈ mapping, ∀ type, entry.2.externalType = some type →
      type.generalType = .metadata → validateMetadatum entry.2 = .ok ())
    (buckets : TypeBuckets A) :
    ∃ buckets', ((rest.map Prod.fst).zip types).foldlM (organizeStep mapping item) buckets =
      .ok buckets' := by
  induction rest generalizing types buckets with
  | nil => exact ⟨buckets, rfl⟩
  | cons entry rest ih =>
    obtain ⟨name, data⟩ := entry
    cases types with
    | nil => cases htypes
    | cons first types =>
      rw [List.map_cons, List.map_cons, List.cons.injEq] at htypes
      obtain ⟨hfirst, htypes⟩ := htypes
      have hmem : (name, data) ∈ mapping := hrest List.mem_cons_self
      obtain ⟨entered, hentered⟩ := hitem name data first hmem
      have hstep : organizeStep mapping item buckets (name, first) =
          .ok (buckets.add first.generalType (name, entered)) :=
        organizeStep_eq_ok.mpr ⟨data, entered, (lookup_eq_some_iff_mem hnames).mpr hmem, hentered,
          hmetadata _ hmem first hfirst, rfl⟩
      obtain ⟨buckets', hbuckets'⟩ :=
        ih (fun _ hentry => hrest (List.mem_cons_of_mem _ hentry)) htypes
          (buckets.add first.generalType (name, entered))
      refine ⟨buckets', ?_⟩
      rw [List.map_cons, List.zip_cons_cons, List.foldlM_cons, hstep]
      exact hbuckets'

end Organize

section Accepted

variable {wired : WiredData F} {item : PyStr → FilteredData F → Except (RestError E) A}

/-- Accepted sources or sinks have types. -/
theorem WiredData.Accepted.exists_type (h : wired.Accepted) {entry : PyStr × FilteredData F}
    (hentry : entry ∈ wired.entries) : ∃ type, entry.2.externalType = some type := by
  obtain ⟨⟨names, refIds, types⟩, hresult⟩ := h.validated
  obtain ⟨-, -, htypes⟩ := of_validateTypeAndRefId hresult
  have hmem := List.mem_map_of_mem (f := fun entry : PyStr × FilteredData F =>
    entry.2.externalType) hentry
  rw [htypes] at hmem
  obtain ⟨type, -, htype⟩ := List.mem_map.mp hmem
  exact ⟨type, htype.symm⟩

variable (hitem : ∀ name data type, (name, data) ∈ wired.entries →
  ∃ entered, item name (data.withType type) = .ok entered)

include hitem

/-- Accepted sources or sinks are organized by type. -/
theorem WiredData.Accepted.exists_buckets (h : wired.Accepted) :
    ∃ result buckets, validateTypeAndRefId wired.entries = .ok result ∧
      organizeByType wired.entries item result.1 result.2.2 = .ok buckets ∧
      ∀ type, type ≠ .plotlyjson → buckets.get type = ofGeneralType item type wired.entries := by
  obtain ⟨⟨names, refIds, types⟩, hresult⟩ := h.validated
  obtain ⟨rfl, -, htypes⟩ := of_validateTypeAndRefId hresult
  obtain ⟨buckets, hbuckets⟩ := exists_organize wired.names_unique (List.Subset.refl _) htypes hitem
    h.metadata .empty
  refine ⟨_, buckets, hresult, hbuckets, fun type htype => ?_⟩
  rw [get_of_organize wired.names_unique (List.Subset.refl _) htypes hbuckets htype]
  have hempty : TypeBuckets.empty.get type = ([] : List (PyStr × A)) := by cases type <;> rfl
  rw [hempty]
  exact insertAll_of_nodup (wired.names_unique.sublist map_fst_ofGeneralType_sublist)

/-- The names of the sources or sinks of a container type. -/
theorem mem_map_ofGeneralType {name : PyStr} {type : GeneralType} :
    name ∈ (ofGeneralType item type wired.entries).map Prod.fst ↔
      ∃ data externalType, (name, data) ∈ wired.entries ∧ data.externalType = some externalType ∧
        externalType.generalType = type := by
  rw [List.mem_map]
  constructor
  · rintro ⟨⟨name', entered⟩, hmem, rfl⟩
    obtain ⟨data, externalType, hentry, htype, hgeneral, -⟩ := mem_ofGeneralType_iff.mp hmem
    exact ⟨data, externalType, hentry, htype, hgeneral⟩
  · intro ⟨data, externalType, hentry, htype, hgeneral⟩
    obtain ⟨entered, hentered⟩ := hitem name data externalType hentry
    exact ⟨(name, entered),
      mem_ofGeneralType_iff.mpr ⟨data, externalType, hentry, htype, hgeneral, hentered⟩, rfl⟩

end Accepted

/-! ## What is loaded and sent -/

/-- Loading raises or returns a dictionary with exactly the names of the sources. -/
def LoadsAll (sources : WiredData F) (result : Except (RestError E) (List (PyStr × W))) : Prop :=
  (∃ error, result = .error error) ∨
    ∃ loaded, result = .ok loaded ∧
      ∀ name, name ∈ loaded.map Prod.fst ↔ name ∈ sources.entries.map Prod.fst

/-- A function is given an output, by a sink or by a value. -/
def SendCall.Gets (call : SendCall F W) (name : PyStr) : Prop :=
  name ∈ call.sinks.map Prod.fst ∨ name ∈ call.data.map Prod.fst

instance (call : SendCall F W) (name : PyStr) : Decidable (call.Gets name) :=
  inferInstanceAs (Decidable (_ ∨ _))

/-- Exactly one function is given an output, with its sink and its value. -/
def HandedOnce (calls : List (SendCall F W)) (values : List (PyStr × W)) (name : PyStr)
    (sink : FilteredData F) : Prop :=
  ∃ call value type, (calls.filter fun call => call.Gets name) = [call] ∧
    values.lookup name = some value ∧ sink.externalType = some type ∧
    call.sinks.lookup name = some (sink.withType type) ∧ call.data.lookup name = some value

/-- Sending raises or gives each output to exactly one function. -/
def SendsAll (sinks : WiredData F) (values : List (PyStr × W)) (outcome : SendOutcome F E W) :
    Prop :=
  (∃ error, outcome.result = .error error) ∨
    ∀ entry ∈ sinks.entries, HandedOnce outcome.calls values entry.1 entry.2

/-- There is neither a series nor a plotly object. -/
def WiredData.AllHandled (wired : WiredData F) : Prop :=
  ∀ entry ∈ wired.entries, ∀ type, entry.2.externalType = some type →
    type.generalType ≠ .series ∧ type.generalType ≠ .plotlyjson

/-- The sources of a container type. -/
def sourcesOfType (type : GeneralType) (sources : WiredData F) : List (PyStr × FilteredData F) :=
  ofGeneralType (E := Empty) (fun _ data => .ok data) type sources.entries

/-- The sinks and values of a container type. -/
def sinksOfType (type : GeneralType) (sinks : WiredData F) (values : List (PyStr × W)) :
    SendCall F W :=
  sendCall (ofGeneralType (E := Empty) (valueToSend values) type sinks.entries)

/-- One of the functions raises for the sources of its type. -/
def RestLoaders.Raises (loaders : RestLoaders F E W) (sources : WiredData F) : Prop :=
  ∃ error, loaders.timeseries.load (sourcesOfType .timeseries sources) = .error error ∨
    loaders.dataframes.load (sourcesOfType .dataframe sources) = .error error ∨
    loaders.multitsframes.load (sourcesOfType .multitsframe sources) = .error error ∨
    loaders.metadata.load (sourcesOfType .metadata sources) = .error error

/-- One of the functions raises for the sinks and values of its type. -/
def RestSenders.Raises (senders : RestSenders F E W) (sinks : WiredData F)
    (values : List (PyStr × W)) : Prop :=
  ∃ error, senders.dataframes (sinksOfType .dataframe sinks values) = .error error ∨
    senders.multitsframes (sinksOfType .multitsframe sinks values) = .error error ∨
    senders.timeseries (sinksOfType .timeseries sinks values) = .error error ∨
    senders.metadata (sinksOfType .metadata sinks values) = .error error

section Load

variable {sources : WiredData F} {loaders : RestLoaders F E W}

/-- Accepted sources are organized by type. -/
theorem exists_organizeToLoad (h : sources.Accepted) :
    ∃ toLoad, organizeToLoad (E := E) sources = .ok toLoad ∧
      ∀ type, type ≠ .plotlyjson → toLoad.get type = sourcesOfType type sources := by
  have hitem (name : PyStr) (data : FilteredData F) (type : ExternalType) :
      (name, data) ∈ sources.entries → ∃ entered,
        (fun _ data => .ok data : PyStr → FilteredData F → Except (RestError E) _) name
          (data.withType type) = .ok entered := fun _ => ⟨_, rfl⟩
  obtain ⟨result, toLoad, hresult, hbuckets, hget⟩ := h.exists_buckets hitem
  refine ⟨toLoad, ?_, hget⟩
  unfold organizeToLoad
  rw [hresult]
  exact hbuckets

variable (loaders) in
/-- Loading either raises as one of the functions does, or merges what they return. -/
theorem loadData_cases (h : sources.Accepted) :
    (loaders.Raises sources ∧ ∃ error, loadData loaders sources = .error error) ∨
      ¬ loaders.Raises sources ∧ ∃ loaded, loadData loaders sources = .ok loaded ∧
        ∀ name, name ∈ loaded.map Prod.fst ↔
          ∃ type, type ≠ .series ∧ type ≠ .plotlyjson ∧
            name ∈ (sourcesOfType type sources).map Prod.fst := by
  obtain ⟨toLoad, htoLoad, hget⟩ := exists_organizeToLoad (E := E) h
  have htimeseries : toLoad.timeseries = _ := hget .timeseries (by decide)
  have hdataframe : toLoad.dataframe = _ := hget .dataframe (by decide)
  have hmultitsframe : toLoad.multitsframe = _ := hget .multitsframe (by decide)
  have hmetadata : toLoad.metadata = _ := hget .metadata (by decide)
  unfold loadData RestLoaders.Raises
  rw [htoLoad]
  dsimp only [bind, Except.bind]
  rw [htimeseries, hdataframe, hmultitsframe, hmetadata]
  cases hts : loaders.timeseries.load (sourcesOfType .timeseries sources) with
  | error error => exact .inl ⟨⟨error, .inl rfl⟩, _, rfl⟩
  | ok loadedTs =>
    cases hdf : loaders.dataframes.load (sourcesOfType .dataframe sources) with
    | error error => exact .inl ⟨⟨error, .inr (.inl rfl)⟩, _, rfl⟩
    | ok loadedDf =>
      cases hmts : loaders.multitsframes.load (sourcesOfType .multitsframe sources) with
      | error error => exact .inl ⟨⟨error, .inr (.inr (.inl rfl))⟩, _, rfl⟩
      | ok loadedMts =>
        cases hmd : loaders.metadata.load (sourcesOfType .metadata sources) with
        | error error => exact .inl ⟨⟨error, .inr (.inr (.inr rfl))⟩, _, rfl⟩
        | ok loadedMd =>
          refine .inr ⟨by simp, _, rfl, fun name => ?_⟩
          rw [mem_map_insertAll_nil_iff, List.map_append, List.map_append, List.map_append,
            List.mem_append, List.mem_append, List.mem_append,
            loaders.timeseries.keys _ _ hts, loaders.dataframes.keys _ _ hdf,
            loaders.multitsframes.keys _ _ hmts, loaders.metadata.keys _ _ hmd]
          constructor
          · rintro (((hname | hname) | hname) | hname)
            · exact ⟨.timeseries, by decide, by decide, hname⟩
            · exact ⟨.dataframe, by decide, by decide, hname⟩
            · exact ⟨.multitsframe, by decide, by decide, hname⟩
            · exact ⟨.metadata, by decide, by decide, hname⟩
          · rintro ⟨type, hseries, hplotly, hname⟩
            cases type with
            | metadata => exact .inr hname
            | timeseries => exact .inl (.inl (.inl hname))
            | series => exact absurd rfl hseries
            | multitsframe => exact .inl (.inr hname)
            | dataframe => exact .inl (.inl (.inr hname))
            | plotlyjson => exact absurd rfl hplotly

/-- The names of the sources of a container type. -/
theorem mem_map_sourcesOfType {name : PyStr} {type : GeneralType} :
    name ∈ (sourcesOfType type sources).map Prod.fst ↔
      ∃ data externalType, (name, data) ∈ sources.entries ∧
        data.externalType = some externalType ∧ externalType.generalType = type :=
  mem_map_ofGeneralType fun _ _ _ _ => ⟨_, rfl⟩

/-- Loading does what it should exactly without series and plotly objects, or if it raises. -/
theorem loadsAll_iff (h : sources.Accepted) :
    LoadsAll sources (loadData loaders sources) ↔
      sources.AllHandled ∨ loaders.Raises sources := by
  obtain ⟨hraises, herror⟩ | ⟨hraises, loaded, hloaded, hnames⟩ :=
    loadData_cases loaders h
  · exact iff_of_true (.inl herror) (.inr hraises)
  · rw [or_iff_left hraises, LoadsAll, hloaded]
    constructor
    · rintro (⟨error, herror⟩ | ⟨loaded', hloaded', hall⟩)
      · cases herror
      · obtain rfl := Except.ok.inj hloaded'
        intro entry hentry externalType htype
        have hname := (hall entry.1).mpr (List.mem_map_of_mem hentry)
        obtain ⟨type, hseries, hplotly, hname⟩ := (hnames entry.1).mp hname
        obtain ⟨data, found, hdata, hfound, rfl⟩ := mem_map_sourcesOfType.mp hname
        have hsame := KeyedList.eq_of_key_eq sources.names_unique hdata hentry rfl
        obtain rfl := congrArg Prod.snd hsame
        obtain rfl := Option.some.inj (hfound.symm.trans htype)
        exact ⟨hseries, hplotly⟩
    · intro hhandled
      refine .inr ⟨loaded, rfl, fun name => ?_⟩
      rw [hnames]
      constructor
      · rintro ⟨type, -, -, hname⟩
        obtain ⟨data, -, hdata, -⟩ := mem_map_sourcesOfType.mp hname
        exact List.mem_map.mpr ⟨_, hdata, rfl⟩
      · intro hname
        obtain ⟨⟨name, data⟩, hentry, rfl⟩ := List.mem_map.mp hname
        obtain ⟨externalType, htype⟩ := h.exists_type hentry
        obtain ⟨hseries, hplotly⟩ := hhandled _ hentry externalType htype
        exact ⟨_, hseries, hplotly, mem_map_sourcesOfType.mpr ⟨data, _, hentry, htype, rfl⟩⟩

end Load

section Send

variable {sinks : WiredData F} {values : List (PyStr × W)} {senders : RestSenders F E W}

/-- What is entered for a sink does not depend on the type of errors. -/
theorem enteredFor_valueToSend (type : GeneralType) :
    enteredFor (valueToSend (F := F) (E := E) values) type =
      enteredFor (valueToSend (E := Empty) values) type := by
  funext entry
  have hsame (data : FilteredData F) : (valueToSend (E := E) values entry.1 data).toOption =
      (valueToSend (E := Empty) values entry.1 data).toOption := by
    unfold valueToSend
    cases values.lookup entry.1 <;> rfl
  simp only [enteredFor, hsame]

/-- Something is entered for a sink with a value. -/
theorem exists_valueToSend
    (hvalues : ∀ entry ∈ sinks.entries, ∃ value, values.lookup entry.1 = some value)
    (name : PyStr) (data : FilteredData F) (type : ExternalType)
    (hentry : (name, data) ∈ sinks.entries) :
    ∃ entered, valueToSend (E := E) values name (data.withType type) = .ok entered := by
  obtain ⟨value, hvalue⟩ := hvalues _ hentry
  dsimp only at hvalue
  exact ⟨(data.withType type, value), by rw [valueToSend, hvalue]⟩

/-- Accepted sinks are organized by type if there are values for them. -/
theorem exists_organizeToSend (h : sinks.Accepted)
    (hvalues : ∀ entry ∈ sinks.entries, ∃ value, values.lookup entry.1 = some value) :
    ∃ toSend, organizeToSend (E := E) sinks values = .ok toSend ∧
      ∀ type, type ≠ .plotlyjson → sendCall (toSend.get type) = sinksOfType type sinks values := by
  obtain ⟨result, toSend, hresult, hbuckets, hget⟩ :=
    h.exists_buckets (exists_valueToSend (E := E) hvalues)
  refine ⟨toSend, ?_, fun type htype => ?_⟩
  · unfold organizeToSend
    rw [hresult]
    exact hbuckets
  · rw [hget type htype, sinksOfType, ofGeneralType, ofGeneralType, enteredFor_valueToSend]

/-- What a function gets for the sinks of a container type. -/
theorem gets_sinksOfType_iff
    (hvalues : ∀ entry ∈ sinks.entries, ∃ value, values.lookup entry.1 = some value)
    {name : PyStr} {type : GeneralType} : (sinksOfType type sinks values).Gets name ↔
      ∃ data externalType, (name, data) ∈ sinks.entries ∧
        data.externalType = some externalType ∧ externalType.generalType = type := by
  rw [← mem_map_ofGeneralType (exists_valueToSend (E := Empty) hvalues), SendCall.Gets,
    sinksOfType, sendCall, List.map_map,
    List.map_map]
  exact or_self_iff

/-- The sink and the value which the function for a container type gets. -/
theorem lookup_sinksOfType {name : PyStr} {data : FilteredData F} {externalType : ExternalType}
    {value : W} (hentry : (name, data) ∈ sinks.entries)
    (htype : data.externalType = some externalType) (hvalue : values.lookup name = some value) :
    (sinksOfType externalType.generalType sinks values).sinks.lookup name =
        some (data.withType externalType) ∧
      (sinksOfType externalType.generalType sinks values).data.lookup name = some value := by
  have hmem : (name, data.withType externalType, value) ∈
      ofGeneralType (E := Empty) (valueToSend values) externalType.generalType sinks.entries :=
    mem_ofGeneralType_iff.mpr ⟨data, externalType, hentry, htype, rfl, by rw [valueToSend, hvalue]⟩
  have hnodup := sinks.names_unique.sublist
    (@map_fst_ofGeneralType_sublist _ Empty _ (valueToSend values) externalType.generalType
      sinks.entries)
  unfold sinksOfType sendCall
  constructor
  · apply (lookup_eq_some_iff_mem (by rwa [List.map_map])).mpr
    exact List.mem_map.mpr ⟨_, hmem, rfl⟩
  · apply (lookup_eq_some_iff_mem (by rwa [List.map_map])).mpr
    exact List.mem_map.mpr ⟨_, hmem, rfl⟩

variable (senders) in
/-- Sending either raises as one of the functions does, or each of them has got its part. -/
theorem sendData_cases (h : sinks.Accepted)
    (hvalues : ∀ entry ∈ sinks.entries, ∃ value, values.lookup entry.1 = some value) :
    (sendData senders sinks values).calls =
        [sinksOfType .dataframe sinks values, sinksOfType .multitsframe sinks values,
          sinksOfType .timeseries sinks values, sinksOfType .metadata sinks values] ∧
      ((∃ error, (sendData senders sinks values).result = .error error) ↔
        senders.Raises sinks values) := by
  obtain ⟨toSend, htoSend, hget⟩ := exists_organizeToSend (E := E) h hvalues
  have htimeseries : sendCall toSend.timeseries = _ := hget .timeseries (by decide)
  have hdataframe : sendCall toSend.dataframe = _ := hget .dataframe (by decide)
  have hmultitsframe : sendCall toSend.multitsframe = _ := hget .multitsframe (by decide)
  have hmetadata : sendCall toSend.metadata = _ := hget .metadata (by decide)
  unfold sendData RestSenders.Raises
  rw [htoSend]
  dsimp only
  rw [htimeseries, hdataframe, hmultitsframe, hmetadata]
  refine ⟨rfl, ?_⟩
  cases senders.dataframes (sinksOfType .dataframe sinks values) with
  | error error => exact iff_of_true ⟨_, rfl⟩ ⟨error, .inl rfl⟩
  | ok _ =>
    cases senders.multitsframes (sinksOfType .multitsframe sinks values) with
    | error error => exact iff_of_true ⟨_, rfl⟩ ⟨error, .inr (.inl rfl)⟩
    | ok _ =>
      cases senders.timeseries (sinksOfType .timeseries sinks values) with
      | error error => exact iff_of_true ⟨_, rfl⟩ ⟨error, .inr (.inr (.inl rfl))⟩
      | ok _ =>
        cases senders.metadata (sinksOfType .metadata sinks values) with
        | error error => exact iff_of_true ⟨_, rfl⟩ ⟨error, .inr (.inr (.inr rfl))⟩
        | ok _ => exact iff_of_false (by simp [Except.mapError, bind, Except.bind]) (by simp)

/-- Sending does what it should exactly without series and plotly objects, or if it raises. -/
theorem sendsAll_iff (h : sinks.Accepted)
    (hvalues : ∀ entry ∈ sinks.entries, ∃ value, values.lookup entry.1 = some value) :
    SendsAll sinks values (sendData senders sinks values) ↔
      sinks.AllHandled ∨ senders.Raises sinks values := by
  obtain ⟨hcalls, hraises⟩ := sendData_cases senders h hvalues
  rw [SendsAll, hraises, or_comm]
  refine or_congr_left' fun _ => ?_
  rw [hcalls]
  refine forall_congr' fun entry => forall_congr' fun hentry => ?_
  obtain ⟨name, data⟩ := entry
  obtain ⟨externalType, htype⟩ := h.exists_type hentry
  obtain ⟨value, hvalue⟩ := hvalues _ hentry
  dsimp only at htype hvalue
  have hgets (type : GeneralType) :
      (sinksOfType type sinks values).Gets name ↔ externalType.generalType = type := by
    rw [gets_sinksOfType_iff hvalues]
    constructor
    · rintro ⟨data', externalType', hentry', htype', rfl⟩
      obtain rfl := congrArg Prod.snd (KeyedList.eq_of_key_eq sinks.names_unique hentry' hentry rfl)
      rw [Option.some.inj (htype'.symm.trans htype)]
    · exact fun hgeneral => ⟨data, externalType, hentry, htype, hgeneral⟩
  have hlookup := lookup_sinksOfType hentry htype hvalue
  have honly : HandedOnce [sinksOfType .dataframe sinks values,
      sinksOfType .multitsframe sinks values, sinksOfType .timeseries sinks values,
      sinksOfType .metadata sinks values] values name data ↔
      externalType.generalType ≠ .series ∧ externalType.generalType ≠ .plotlyjson := by
    unfold HandedOnce
    simp only [List.filter_cons, List.filter_nil, hgets, decide_eq_true_eq]
    cases hgeneral : externalType.generalType <;> rw [hgeneral] at hlookup <;>
      simp [hvalue, htype, hlookup]
  simp only [honly, htype, Option.some.injEq, forall_eq']

end Send

/-- The adapter loses nothing exactly without series and plotly objects, or if it raises. -/
theorem genericRest_iff {sources sinks : WiredData F} {values : List (PyStr × W)}
    (hsources : sources.Accepted) (hsinks : sinks.Accepted)
    (hvalues : ∀ entry ∈ sinks.entries, ∃ value, values.lookup entry.1 = some value)
    (loaders : RestLoaders F E W) (senders : RestSenders F E W) :
    (LoadsAll sources (loadData loaders sources) ↔
        sources.AllHandled ∨ loaders.Raises sources) ∧
      (SendsAll sinks values (sendData senders sinks values) ↔
        sinks.AllHandled ∨ senders.Raises sinks values) :=
  ⟨loadsAll_iff hsources, sendsAll_iff hsinks hvalues⟩

/-! ## A series and a plotly object -/

/-- A source or sink of a type. -/
def plainData (type : PyStr) : FilteredData Unit where
  refId := some ['r']
  refIdType := none
  refKey := none
  type := some type
  filters := ()

/-- One source or sink of a type. -/
def onlyData (type : PyStr) : WiredData Unit := ⟨[(['x'], plainData type)], List.nodup_singleton _⟩

/-- A function which returns something for each name. -/
def plainLoader : RestLoader Unit Empty Unit where
  load dataToLoad := .ok (dataToLoad.map fun entry => (entry.1, ()))
  keys dataToLoad loaded h name := by
    rw [← Except.ok.inj h, List.map_map]
    rfl

/-- Functions which return something for each name. -/
def plainLoaders : RestLoaders Unit Empty Unit := ⟨plainLoader, plainLoader, plainLoader, plainLoader⟩

/-- Functions which send everything. -/
def plainSenders : RestSenders Unit Empty Unit :=
  ⟨fun _ => .ok (), fun _ => .ok (), fun _ => .ok (), fun _ => .ok ()⟩

/-- A source or sink which is not of metadata is accepted if its type is known. -/
theorem onlyData_accepted {text : PyStr} {type : ExternalType}
    (htext : ExternalType.ofText text = some type) (hgeneral : type.generalType ≠ .metadata) :
    (onlyData text).Accepted := by
  constructor
  · refine ⟨([['x']], [['r']], [type]), ?_⟩
    simp [validateTypeAndRefId, onlyData, plainData, htext, require, bind, Except.bind, pure,
      Except.pure]
  · intro entry hentry found hfound hmetadata
    rw [List.mem_singleton.mp hentry] at hfound
    exact absurd ((Option.some.inj (hfound.symm.trans htext)) ▸ hmetadata) hgeneral

/-- The only source or sink is of a container type which the functions handle. -/
theorem onlyData_allHandled_iff {text : PyStr} {type : ExternalType}
    (htext : ExternalType.ofText text = some type) : (onlyData text).AllHandled ↔
      type.generalType ≠ .series ∧ type.generalType ≠ .plotlyjson := by
  constructor
  · exact fun h => h _ (List.mem_singleton_self _) type htext
  · intro h entry hentry found hfound
    rw [List.mem_singleton.mp hentry] at hfound
    exact Option.some.inj (hfound.symm.trans htext) ▸ h

/-- A series is not loaded, and a plotly object is not sent. -/
theorem series_not_loaded :
    (onlyData "series(float)".toList).Accepted ∧ (onlyData "plotlyjson".toList).Accepted ∧
      ¬ LoadsAll (onlyData "series(float)".toList)
        (loadData plainLoaders (onlyData "series(float)".toList)) ∧
      ¬ SendsAll (onlyData "plotlyjson".toList) [(['x'], ())]
        (sendData plainSenders (onlyData "plotlyjson".toList) [(['x'], ())]) := by
  have hseries := ExternalType.ofText_value (.series .float)
  have hplotly := ExternalType.ofText_value .plotlyjson
  have hloads := onlyData_accepted hseries (by decide)
  have hsends := onlyData_accepted hplotly (by decide)
  refine ⟨hloads, hsends, ?_, ?_⟩
  · intro h
    obtain hhandled | ⟨error, -⟩ := (loadsAll_iff hloads).mp h
    · exact ((onlyData_allHandled_iff hseries).mp hhandled).1 rfl
    · exact error.elim
  · intro h
    have hvalues : ∀ entry ∈ (onlyData "plotlyjson".toList).entries,
        ∃ value, [(['x'], ())].lookup entry.1 = some value :=
      List.forall_mem_singleton.mpr ⟨(), rfl⟩
    obtain hhandled | ⟨error, -⟩ := (sendsAll_iff hsends hvalues).mp h
    · exact ((onlyData_allHandled_iff hplotly).mp hhandled).2 rfl
    · exact error.elim

/-- A source or sink of metadata. -/
def plainMetadatum : FilteredData Unit :=
  { plainData (ExternalType.metadata .int).value with refIdType := some .source, refKey := some ['k'] }

/-- The type is found by its text. -/
theorem externalType_plainData (type : ExternalType) :
    (plainData type.value).externalType = some type :=
  ExternalType.ofText_value type

/-- A timeseries, a dataframe and metadata. -/
def threeData : WiredData Unit where
  entries := [(['x'], plainData (ExternalType.timeseries .float).value),
    (['y'], plainData ExternalType.dataframe.value), (['m'], plainMetadatum)]
  names_unique := by decide

/-- A timeseries and a series. -/
def seriesBesideTimeseries : WiredData Unit where
  entries := [(['x'], plainData (ExternalType.timeseries .float).value),
    (['s'], plainData (ExternalType.series .float).value)]
  names_unique := by decide

/-- A function which returns a letter for each name. -/
def letterLoader (letter : Char) : RestLoader Unit Unit Char where
  load dataToLoad := .ok (dataToLoad.map fun entry => (entry.1, letter))
  keys dataToLoad loaded h name := by
    rw [← Except.ok.inj h, List.map_map]
    rfl

/-- Functions which return a letter for their container type. -/
def letterLoaders : RestLoaders Unit Unit Char :=
  ⟨letterLoader 't', letterLoader 'd', letterLoader 'f', letterLoader 'm'⟩

/-- Functions of which the one for timeseries raises. -/
def raisingSenders : RestSenders Unit Unit Char :=
  ⟨fun _ => .ok (), fun _ => .ok (), fun _ => .error (), fun _ => .ok ()⟩

/-- A timeseries, a dataframe and metadata are loaded, each by its own function, and an error for a
timeseries makes up for the series which is not sent. -/
theorem threeData_loaded :
    threeData.AllHandled ∧ ¬ seriesBesideTimeseries.AllHandled ∧
      raisingSenders.Raises seriesBesideTimeseries [(['x'], 'a'), (['s'], 'b')] ∧
      loadData letterLoaders threeData = .ok [(['x'], 't'), (['y'], 'd'), (['m'], 'm')] ∧
      LoadsAll threeData (loadData letterLoaders threeData) ∧
      SendsAll seriesBesideTimeseries [(['x'], 'a'), (['s'], 'b')]
        (sendData raisingSenders seriesBesideTimeseries [(['x'], 'a'), (['s'], 'b')]) := by
  have hthree : ∀ entry ∈ threeData.entries, ∃ type, entry.2.externalType = some type ∧
      (type.generalType ≠ .series ∧ type.generalType ≠ .plotlyjson) ∧
        (type.generalType = .metadata → validateMetadatum entry.2 = .ok ()) := by
    refine List.forall_mem_cons.mpr ⟨⟨_, externalType_plainData (.timeseries .float), by decide⟩,
      List.forall_mem_cons.mpr ⟨⟨_, externalType_plainData .dataframe, by decide⟩,
        List.forall_mem_singleton.mpr ⟨_, externalType_plainData (.metadata .int), by decide⟩⟩⟩
  have hloads : threeData.Accepted := by
    refine ⟨⟨([['x'], ['y'], ['m']], [['r'], ['r'], ['r']], [.timeseries .float, .dataframe,
      .metadata .int]), by decide +kernel⟩, fun entry hentry type htype => ?_⟩
    obtain ⟨found, hfound, -, hmetadata⟩ := hthree entry hentry
    exact Option.some.inj (hfound.symm.trans htype) ▸ hmetadata
  have hhandled : threeData.AllHandled := by
    intro entry hentry type htype
    obtain ⟨found, hfound, hcontainer, -⟩ := hthree entry hentry
    exact Option.some.inj (hfound.symm.trans htype) ▸ hcontainer
  have hsends : seriesBesideTimeseries.Accepted := by
    refine ⟨⟨([['x'], ['s']], [['r'], ['r']], [.timeseries .float, .series .float]),
      by decide +kernel⟩, fun entry hentry type htype hmetadata => ?_⟩
    have hother : ∀ entry ∈ seriesBesideTimeseries.entries, ∃ type,
        entry.2.externalType = some type ∧ type.generalType ≠ .metadata :=
      List.forall_mem_cons.mpr ⟨⟨_, externalType_plainData (.timeseries .float), by decide⟩,
        List.forall_mem_singleton.mpr ⟨_, externalType_plainData (.series .float), by decide⟩⟩
    obtain ⟨found, hfound, hne⟩ := hother entry hentry
    exact absurd hmetadata (Option.some.inj (hfound.symm.trans htype) ▸ hne)
  have hseries : ¬ seriesBesideTimeseries.AllHandled := fun h =>
    (h _ (List.mem_cons_of_mem _ (List.mem_singleton_self _)) (.series .float)
      (externalType_plainData (.series .float))).1 rfl
  have hraises : raisingSenders.Raises seriesBesideTimeseries [(['x'], 'a'), (['s'], 'b')] :=
    ⟨(), .inr (.inr (.inl rfl))⟩
  have hvalues : ∀ entry ∈ seriesBesideTimeseries.entries,
      ∃ value, [(['x'], 'a'), (['s'], 'b')].lookup entry.1 = some value :=
    List.forall_mem_cons.mpr ⟨⟨'a', rfl⟩, List.forall_mem_singleton.mpr ⟨'b', rfl⟩⟩
  obtain ⟨hloaded, hsent⟩ := genericRest_iff hloads hsends hvalues letterLoaders raisingSenders
  exact ⟨hhandled, hseries, hraises, by decide +kernel, hloaded.mpr (.inl hhandled),
    hsent.mpr (.inr hraises)⟩

end HetidaDesigner
