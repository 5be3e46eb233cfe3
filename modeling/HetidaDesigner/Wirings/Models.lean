import HetidaDesigner.Library.Checks
import HetidaDesigner.Models.Lifecycle
import HetidaDesigner.Structure.Models
import HetidaDesigner.Wirings.QueryStrings

/-!
# Wirings and their validation

The data and the validators of `models/wiring.py`. The wirings of inputs and of outputs have the
same data here, except that outputs have neither attributes nor default values. What a request
says about a wiring is its data, where fields that are not given have their defaults. Defaults are
not validated, which matters for the reference id: a missing one is only found if it is given.

Names are identifiers if they are not empty, which has been checked where they come from. Parts of
a uri which nothing looks at are left out.
-/

namespace HetidaDesigner

open Checks KeyedList

/-- Whether a wiring is that of an input or of an output. -/
inductive WiringSide
  | input | output
  deriving DecidableEq, Repr

/-- Values in JSON texts; `J` is the type of those which are neither `null` nor texts. -/
inductive JsonValue (J : Type)
  | null
  | text (s : PyStr)
  | other (value : J)
  deriving DecidableEq

/-- What kind of element a reference id refers to. -/
inductive RefIdType
  | source | sink | thingnode
  deriving DecidableEq, Repr

/-- A uri of the scheme `hd`. -/
structure HdWiringUri where
  host : Option PyStr
  path : Option PyStr
  query : Option PyStr
  fragment : Option PyStr
  deriving DecidableEq, Repr

/-- The data of a wiring apart from the adapter id. Dictionaries are lists of entries. -/
structure WiringData (J : Type) where
  name : PyStr
  uri : Option HdWiringUri
  refId : Option PyStr
  refIdType : Option RefIdType
  refKey : Option PyStr
  type : Option ExternalType
  useDefaultValue : Bool
  filters : List (PyStr × JsonValue J)
  attrs : Option (List (PyStr × JsonValue J))
  deriving DecidableEq

/-- Reasons for rejecting a wiring. -/
inductive WiringError
  | invalidName
  | unknownAdapter (id : AdapterId)
  | missingRefId
  | missingMetadataFields
  | invalidFilterKey (key : PyStr)
  | reservedFilterKey
  | invalidFilterValue
  | invalidFragment
  | revalidationNotEqual
  | duplicateNames
  deriving DecidableEq, Repr

/-- What validation depends on: which integers are registered as adapter ids, and the shortcuts
for uris, each with the adapter key and the path it stands for. -/
structure WiringConfig where
  registeredAdapters : WiringSide → List ℤ
  direct_provisioning_registered : ∀ side, 1 ∈ registeredAdapters side
  uriWiringShortcuts : PyStr → Option (PyStr × PyStr)

/-! ## Validators of fields -/

/-- The adapters which take values from the wiring itself. -/
def AdapterId.isDirectProvisioning (id : AdapterId) : Bool :=
  id = .str "direct_provisioning".toList ∨ id = .int 1

/-- The validator `adapter_id_known`; texts may be the keys of external adapters. -/
def adapterIdKnown (config : WiringConfig) (side : WiringSide) : AdapterId → Bool
  | .int n => n ∈ config.registeredAdapters side
  | .str _ => true

/-- The keys which match the pattern for filters; `$` matches before a final newline, too. -/
def filterKeyValid (key : PyStr) : Bool :=
  match if key.getLast? = some '\n' then key.dropLast else key with
  | [] => false
  | c :: rest => c.isAlpha && rest.all fun d => d.isAlphanum || d = '_'

/-- The keys which filters must not have. -/
def reservedFilterKeys : List PyStr := ["from".toList, "to".toList, "id".toList]

section Validators

variable {J : Type}

/-- The validator `ref_id_set_for_non_direct_provisioning`. -/
def refIdSetForNonDirectProvisioning (wiring : Wiring (WiringData J)) : Bool :=
  wiring.adapterId.isDirectProvisioning || wiring.data.refId.isSome

/-- The types of metadata. -/
def ExternalType.isMetadata : ExternalType → Bool
  | .metadata _ => true
  | _ => false

/-- The validator `metadata_type_includes_additional_fields`. -/
def metadataTypeIncludesAdditionalFields (wiring : Wiring (WiringData J)) : Bool :=
  wiring.data.type.all fun type =>
    wiring.adapterId.isDirectProvisioning || wiring.adapterId = .str "component-adapter".toList ||
      !type.isMetadata || (wiring.data.refIdType.isSome && wiring.data.refKey.isSome)

/-- A filter value as it is stored: `None` becomes the empty text. Filters of outputs are texts. -/
def validateFilterValue (side : WiringSide) : JsonValue J → Except WiringError (JsonValue J)
  | .null => .ok (.text [])
  | .text s => .ok (.text s)
  | .other value =>
    match side with
    | .input => .ok (.other value)
    | .output => .error .invalidFilterValue

/-- The validators of a filter, apart from the one against reserved keys. -/
def validateFilter (side : WiringSide) (filter : PyStr × JsonValue J) :
    Except WiringError (PyStr × JsonValue J) := do
  require (filterKeyValid filter.1) (.invalidFilterKey filter.1)
  let value ← validateFilterValue side filter.2
  return (filter.1, value)

/-- The validators of the field `filters`. -/
def validateFilters (side : WiringSide) (filters : List (PyStr × JsonValue J)) :
    Except WiringError (List (PyStr × JsonValue J)) := do
  let filters ← filters.mapM (validateFilter side)
  require (filters.all fun filter => filter.1 ∉ reservedFilterKeys) .reservedFilterKey
  return filters

/-- The fields which wirings of a side have, apart from the filters; other fields are ignored. -/
def WiringData.ofSide (side : WiringSide) (data : WiringData J) : WiringData J :=
  match side with
  | .input => data
  | .output => { data with useDefaultValue := false, attrs := none }

/-- Validation of the fields of a wiring. -/
def validateWiringFields (config : WiringConfig) (side : WiringSide) (refIdGiven : Bool)
    (wiring : Wiring (WiringData J)) : Except WiringError (Wiring (WiringData J)) := do
  require (wiring.data.name ≠ []) .invalidName
  require (adapterIdKnown config side wiring.adapterId) (.unknownAdapter wiring.adapterId)
  require (!refIdGiven || refIdSetForNonDirectProvisioning wiring) .missingRefId
  require (metadataTypeIncludesAdditionalFields wiring) .missingMetadataFields
  let filters ← validateFilters side wiring.data.filters
  return { wiring with data := { wiring.data.ofSide side with filters := filters } }

/-! ## Uris -/

/-- The operator `|` on dictionaries. -/
def mergeEntries {A : Type} (entries updates : List (PyStr × A)) : List (PyStr × A) :=
  insertAll Prod.fst entries updates

/-- The method `lstrip` for slashes. -/
def stripSlashes (path : PyStr) : PyStr := path.dropWhile (· = '/')

/-- What is there and not empty, as Python's truth values have it. -/
def given (text : Option PyStr) : Option PyStr := text.filter (· ≠ [])

/-- The adapter id and, for shortcuts, the path given by the host of a uri. -/
def extractHost (config : WiringConfig) (uri : HdWiringUri) : Option (PyStr × Option PyStr) :=
  (given uri.host).map fun host =>
    match config.uriWiringShortcuts host with
    | some (key, path) => (key, some (stripSlashes path))
    | none => (host, none)

/-- The reference id given by the path of a uri or by a shortcut, whose path comes first. -/
def extractPath (uri : HdWiringUri) (extractedPath : Option PyStr) : Option PyStr :=
  if given uri.path = none ∧ given extractedPath = none then none
  else extractedPath.or (uri.path.map stripSlashes)

/-- The value of a filter given by a query; several values become a JSON text. -/
def queryValue : List PyStr → PyStr
  | [value] => value
  | values => jsonTexts values

/-- The filters given by the query of a uri. -/
def extractFilters (uri : HdWiringUri) : Except WiringError (List (PyStr × JsonValue J)) :=
  match given uri.query with
  | none => .ok []
  | some query => (parseQs query).mapM fun (key, values) => do
    require (filterKeyValid key) (.invalidFilterKey key)
    return (key, .text (queryValue values))

/-- Reading further fields off the fragment of a uri. What is parsed is the query, and all that is
found there are lists, which none of the fields accepts. -/
def checkFragment (uri : HdWiringUri) : Except WiringError Unit :=
  match given uri.fragment with
  | none => .ok ()
  | some _ => require (parseQs (uri.query.getD []) = []) .invalidFragment

/-- What `update_wiring_from_uri` takes from a uri. -/
structure UriFields (J : Type) where
  adapterId : Option AdapterId
  refId : Option PyStr
  filters : List (PyStr × JsonValue J)
  deriving DecidableEq

/-- The fields given by a uri. -/
def extractFields (config : WiringConfig) (uri : HdWiringUri) :
    Except WiringError (UriFields J) := do
  let filters ← extractFilters uri
  checkFragment uri
  return {
    adapterId := (extractHost config uri).map fun found => .str found.1
    refId := extractPath uri ((extractHost config uri).bind Prod.snd)
    filters := filters }

/-- Overwrite the fields of a wiring by those of its uri. -/
def UriFields.update (fields : UriFields J) (wiring : Wiring (WiringData J)) :
    Wiring (WiringData J) where
  adapterId := fields.adapterId.getD wiring.adapterId
  data := { wiring.data with
    refId := fields.refId.or wiring.data.refId
    filters := mergeEntries wiring.data.filters fields.filters }

/-- `update_wiring_from_uri` -/
def updateWiringFromUri (config : WiringConfig) (uri : HdWiringUri)
    (wiring : Wiring (WiringData J)) : Except WiringError (Wiring (WiringData J)) := do
  let fields ← extractFields config uri
  return fields.update wiring

/-- Validation of a wiring. If there is a uri, its fields are taken over, after which validation
must not change anything. -/
def validateWiring [DecidableEq J] (config : WiringConfig) (side : WiringSide) (refIdGiven : Bool)
    (data : Wiring (WiringData J)) : Except WiringError (Wiring (WiringData J)) := do
  let wiring ← validateWiringFields config side refIdGiven data
  match wiring.data.uri with
  | none => return wiring
  | some uri =>
    let updated ← updateWiringFromUri config uri wiring
    let revalidated ← validateWiringFields config side true updated
    require (updated = revalidated) .revalidationNotEqual
    return updated

/-! ## Workflow wirings -/

/-- What a request says about a wiring. -/
structure WiringRequest (J : Type) where
  refIdGiven : Bool
  wiring : Wiring (WiringData J)
  ref_id_default : refIdGiven = false → wiring.data.refId = none

/-- What a request says about a workflow wiring. -/
structure WorkflowWiringRequest (J : Type) where
  inputWirings : List (WiringRequest J)
  outputWirings : List (WiringRequest J)
  dashboardPositionings : List GridstackItemPositioning

/-- Validation of a workflow wiring. -/
def WorkflowWiringRequest.validate [DecidableEq J] (config : WiringConfig)
    (request : WorkflowWiringRequest J) : Except WiringError (WorkflowWiring (WiringData J)) := do
  let inputWirings ← request.inputWirings.mapM fun input =>
    validateWiring config .input input.refIdGiven input.wiring
  require ((inputWirings.map fun wiring => wiring.data.name).Nodup) .duplicateNames
  let outputWirings ← request.outputWirings.mapM fun output =>
    validateWiring config .output output.refIdGiven output.wiring
  require ((outputWirings.map fun wiring => wiring.data.name).Nodup) .duplicateNames
  return {
    inputWirings := inputWirings
    outputWirings := outputWirings
    dashboardPositionings := request.dashboardPositionings }

/-- The dump of a wiring: all fields are given. -/
def dumpWiring (wiring : Wiring (WiringData J)) : WiringRequest J := ⟨true, wiring, nofun⟩

/-- The dump of a workflow wiring. -/
def dumpWorkflowWiring (wiring : WorkflowWiring (WiringData J)) : WorkflowWiringRequest J where
  inputWirings := wiring.inputWirings.map dumpWiring
  outputWirings := wiring.outputWirings.map dumpWiring
  dashboardPositionings := wiring.dashboardPositionings

end Validators

end HetidaDesigner
