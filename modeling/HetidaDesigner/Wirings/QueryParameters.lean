import HetidaDesigner.Adapters.ExternalTypes
import HetidaDesigner.Library.SplitOnce
import HetidaDesigner.Wirings.Validated

/-!
# Overriding wirings by query parameters

`update_wiring_from_query_parameters` of `backend/service/dashboarding_utils.py`: each parameter
names an input or an output and a property of its wiring or of its place on the dashboard, and the
parameters are applied one after the other. At last everything is dumped and validated.

A parameter is read before it is applied, where the source does both in one branch. Dictionaries
are lists of their values, and the texts of errors are left out.
-/

namespace HetidaDesigner

open Checks KeyedList SplitOnce

/-- What reading values of parameters depends on: the method `upper`, and how validation reads a
coordinate from a text. -/
structure ParameterReading where
  upper : PyStr → PyStr
  coordinate : PyStr → Option ℕ

/-- Errors of overriding a wiring. -/
inductive DashboardError
  | queryParamValidation
  | wiring (error : WiringError)
  deriving DecidableEq, Repr

/-! ## Reading parameters -/

/-- The properties which parameters set. -/
inductive WiringProperty
  | value
  | adapterId
  | refId
  | refIdType
  | refKey
  | type
  | filter (name : PyStr)
  | pos
  | allowed
  deriving DecidableEq, Repr

/-- The property with a name. -/
def readProperty (changedProperty : PyStr) : Option WiringProperty :=
  if changedProperty ∈ ["v".toList, "val".toList, "value".toList] then some .value
  else if changedProperty ∈ ["a".toList, "adapter_id".toList] then some .adapterId
  else if changedProperty ∈ ["ref_id".toList, "ri".toList, "rid".toList] then some .refId
  else if changedProperty ∈ ["rit".toList, "ridt".toList, "ref_id_type".toList] then
    some .refIdType
  else if changedProperty ∈ ["rk".toList, "ref_key".toList] then some .refKey
  else if changedProperty ∈ ["t".toList, "type".toList] then some .type
  else if "f.".toList <+: changedProperty ∨ "filters.".toList <+: changedProperty then
    (splitOnce '.' changedProperty).map fun parts => .filter parts.2
  else if changedProperty = "pos".toList then some .pos
  else if changedProperty = "allowed".toList then some .allowed
  else none

/-- The value of a type of reference ids. -/
def RefIdType.value : RefIdType → PyStr
  | .source => "SOURCE".toList
  | .sink => "SINK".toList
  | .thingnode => "THINGNODE".toList

/-- The type of reference ids with a value. -/
def RefIdType.ofValue (text : PyStr) : Option RefIdType :=
  [RefIdType.source, .sink, .thingnode].find? fun type => type.value = text

/-- What a parameter does. -/
inductive Override
  /-- Make the wiring one of direct provisioning with the given filters. -/
  | direct (filters : List (PyStr × PyStr))
  | adapterId (text : PyStr)
  | refId (text : PyStr)
  | refIdType (member : Option RefIdType)
  | refKey (text : PyStr)
  | type (member : Option ExternalType)
  | filter (name text : PyStr)
  | pos (x y w h : ℕ)
  | allowed (values : List PyStr)
  deriving DecidableEq

/-- A member of an enumeration, or none of them for the text `null`. -/
def readMember {A : Type} (read : PyStr → Option A) (val : PyStr) :
    Except DashboardError (Option A) :=
  if val = "null".toList then .ok none
  else match read val with
    | some member => .ok (some member)
    | none => .error .queryParamValidation

/-- The place on the dashboard which a text describes. -/
def readPos (reading : ParameterReading) (val : PyStr) : Except DashboardError Override :=
  match (splitMax '_' 3 val).mapM reading.coordinate with
  | some [x, y, w, h] => .ok (.pos x y w h)
  | _ => .error .queryParamValidation

/-- The branches of `update_or_insert_input_wiring` and `update_or_insert_output_wiring`. Outputs
have no direct values, and they become wirings of direct provisioning by the adapter id. -/
def readOverride (reading : ParameterReading) (side : WiringSide) (changedProperty val : PyStr) :
    Except DashboardError Override :=
  match readProperty changedProperty, side with
  | some .value, .input => .ok (.direct [("value".toList, val)])
  | some .adapterId, .input => .ok (.adapterId val)
  | some .adapterId, .output =>
    if val = "direct_provisioning".toList then .ok (.direct []) else .ok (.adapterId val)
  | some .refId, _ => .ok (.refId val)
  | some .refIdType, _ =>
    (readMember (fun text => RefIdType.ofValue (reading.upper text)) val).map .refIdType
  | some .refKey, _ => .ok (.refKey val)
  | some .type, _ => (readMember ExternalType.ofText val).map .type
  | some (.filter name), _ =>
    if name = [] then .error .queryParamValidation else .ok (.filter name val)
  | some .pos, _ => readPos reading val
  | some .allowed, .input => .ok (.allowed (val.splitOn ','))
  | _, _ => .error .queryParamValidation

/-- The side which a key refers to by its first part. -/
def readSide (keyType : PyStr) : Option WiringSide :=
  if keyType ∈ ["input".toList, "in".toList, "inp".toList, "i".toList] then some .input
  else if keyType ∈ ["output".toList, "out".toList, "outp".toList, "o".toList] then some .output
  else none

/-- The side, the name and the property which a key refers to; other keys are ignored. -/
def readKey (key : PyStr) : Option (WiringSide × PyStr × PyStr) :=
  match splitMax '.' 2 key with
  | [keyType, name, changedProperty] =>
    (readSide keyType).map fun side => (side, name, changedProperty)
  | _ => none

/-! ## Applying parameters -/

section Apply

variable {J : Type}

/-- The type of positionings of a side. -/
def WiringSide.positioningType : WiringSide → GridstackPositioningType
  | .input => .input
  | .output => .output

/-- `dashboard_id_for_io` -/
def dashboardIdForIo (ioName : PyStr) : GridstackPositioningType → PyStr
  | .output => "o.".toList ++ ioName
  | .input => "i.".toList ++ ioName

/-- The key of a positioning. -/
def GridstackItemPositioning.dashboardId (positioning : GridstackItemPositioning) : PyStr :=
  dashboardIdForIo positioning.id positioning.type

/-- The wirings of a side. -/
def WorkflowWiring.wiringsOf {D : Type} (wiring : WorkflowWiring D) : WiringSide → List (Wiring D)
  | .input => wiring.inputWirings
  | .output => wiring.outputWirings

/-- Replace the wirings of a side. -/
def WorkflowWiring.setWirings {D : Type} (wiring : WorkflowWiring D) (wirings : List (Wiring D)) :
    WiringSide → WorkflowWiring D
  | .input => { wiring with inputWirings := wirings }
  | .output => { wiring with outputWirings := wirings }

/-- A wiring of which only the name is given. -/
def defaultWiring (name : PyStr) : Wiring (WiringData J) where
  adapterId := .str "direct_provisioning".toList
  data := {
    name := name
    uri := none
    refId := none
    refIdType := none
    refKey := none
    type := none
    useDefaultValue := false
    filters := []
    attrs := none }

/-- Change a wiring; positions on the dashboard do not belong to it. -/
def Override.apply (override : Override) (wiring : Wiring (WiringData J)) :
    Wiring (WiringData J) :=
  match override with
  | .direct filters =>
    { adapterId := .str "direct_provisioning".toList
      data := { wiring.data with
        refId := none
        refIdType := none
        refKey := none
        useDefaultValue := false
        filters := filters.map fun filter => (filter.1, .text filter.2) } }
  | .adapterId text => { wiring with adapterId := .str text }
  | .refId text => { wiring with data := { wiring.data with refId := some text } }
  | .refIdType member => { wiring with data := { wiring.data with refIdType := member } }
  | .refKey text => { wiring with data := { wiring.data with refKey := some text } }
  | .type member => { wiring with data := { wiring.data with type := member } }
  | .filter name text => { wiring with data := { wiring.data with
      filters := insertEntry Prod.fst wiring.data.filters (name, .text text) } }
  | .pos .. => wiring
  | .allowed _ => wiring

variable [DecidableEq J]

/-- `ensure_input_wiring_in_dict` and `ensure_output_wiring_in_dict` -/
def ensureWiringInDict (config : WiringConfig) (side : WiringSide) (name : PyStr)
    (wirings : List (Wiring (WiringData J))) : Except WiringError (List (Wiring (WiringData J))) :=
  match lookup (fun wiring => wiring.data.name) name wirings with
  | some _ => .ok wirings
  | none => do
    let wiring ← validateWiring config side false (defaultWiring name)
    return wirings ++ [wiring]

/-- The positionings after an override. -/
def Override.applyToPositionings (override : Override) (side : WiringSide) (name : PyStr)
    (positionings : List GridstackItemPositioning) : List GridstackItemPositioning :=
  match override with
  | .pos x y w h =>
    insertEntry GridstackItemPositioning.dashboardId positionings
      ⟨some x, some y, some w, some h, name, side.positioningType, []⟩
  | .allowed values =>
    let positioning := (lookup GridstackItemPositioning.dashboardId
      (dashboardIdForIo name side.positioningType) positionings).getD
        ⟨some 0, some 0, some 3, some 1, name, side.positioningType, []⟩
    insertEntry GridstackItemPositioning.dashboardId positionings
      { positioning with allowedInputValues := values }
  | _ => positionings

/-- Whether an override is about the wiring itself. -/
def Override.setsProperty : Override → Bool
  | .pos .. => false
  | .allowed _ => false
  | _ => true

/-- `update_or_insert_input_wiring` and `update_or_insert_output_wiring` after the parameter has
been read. -/
def updateOrInsertWiring (config : WiringConfig) (side : WiringSide) (name : PyStr)
    (override : Override) (wiring : WorkflowWiring (WiringData J)) :
    Except DashboardError (WorkflowWiring (WiringData J)) :=
  if override.setsProperty then do
    let wirings ← (ensureWiringInDict config side name (wiring.wiringsOf side)).mapError .wiring
    let changed := wirings.map fun w => if w.data.name = name then override.apply w else w
    return wiring.setWirings changed side
  else
    .ok { wiring with dashboardPositionings :=
      override.applyToPositionings side name wiring.dashboardPositionings }

/-- One round of the loop over the parameters. -/
def applyParameter (config : WiringConfig) (reading : ParameterReading)
    (wiring : WorkflowWiring (WiringData J)) (pair : PyStr × PyStr) :
    Except DashboardError (WorkflowWiring (WiringData J)) :=
  match readKey pair.1 with
  | none => .ok wiring
  | some (side, name, changedProperty) => do
    let override ← readOverride reading side changedProperty pair.2
    updateOrInsertWiring config side name override wiring

/-- The dictionaries of wirings by names and of positionings by dashboard ids. -/
def wiringDicts (wiring : WorkflowWiring (WiringData J)) : WorkflowWiring (WiringData J) where
  inputWirings := insertAll (fun wiring => wiring.data.name) [] wiring.inputWirings
  outputWirings := insertAll (fun wiring => wiring.data.name) [] wiring.outputWirings
  dashboardPositionings :=
    insertAll GridstackItemPositioning.dashboardId [] wiring.dashboardPositionings

/-- `update_wiring_from_query_parameters` -/
def updateWiringFromQueryParameters (config : WiringConfig) (reading : ParameterReading)
    (wiring : Option (WorkflowWiring (WiringData J))) (queryParamPairs : List (PyStr × PyStr)) :
    Except DashboardError (WorkflowWiring (WiringData J)) := do
  let overridden ← queryParamPairs.foldlM (applyParameter config reading)
    (wiringDicts (wiring.getD .empty))
  ((dumpWorkflowWiring overridden).validate config).mapError .wiring

end Apply

end HetidaDesigner
