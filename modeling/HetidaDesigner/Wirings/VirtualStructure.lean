import HetidaDesigner.Models.Uuids
import HetidaDesigner.Structure.Update
import HetidaDesigner.Wirings.Models

/-!
# Wirings of the virtual structure adapter

The modules `resolve_wirings.py` and `utils.py` of the virtual structure adapter and the functions
of `structure/db/source_sink_service.py` which they call. Wirings which refer to a source or sink
of a structure are replaced by wirings to what that source or sink refers to.

The records are fetched in batches, in whose order they are paired with the wirings. Within a batch
they come in the order of the table, and no record comes twice.
-/

namespace HetidaDesigner

open Checks

/-- Reasons for not resolving a workflow wiring. -/
inductive ResolutionError
  | adapterHandling
  | typeError
  | valueError
  deriving DecidableEq, Repr

/-- The id of the virtual structure adapter. -/
def virtualStructureAdapter : AdapterId := .str "virtual-structure-adapter".toList

section Resolve

variable {J : Type}

/-- A wiring to a source or sink of a structure. -/
def isVirtual (wiring : Wiring (WiringData J)) : Bool := wiring.adapterId = virtualStructureAdapter

/-- The id of the source or sink which a wiring refers to. -/
def virtualId (numerals : NumeralTables) (wiring : Wiring (WiringData J)) :
    Except ResolutionError UUID :=
  match wiring.data.refId with
  | none => .error .typeError
  | some refId =>
    match uuidOfText numerals refId with
    | none => .error .valueError
    | some id => .ok id

/-- `fetch_collection_of_sources_from_db_by_id` and its counterpart for sinks. -/
def fetchCollectionFromDbById (rows : List (SourceOrSink (JsonValue J))) (ids : List UUID) :
    Except ResolutionError (List (SourceOrSink (JsonValue J))) :=
  if ids = [] then .ok []
  else
    let batches := ids.toChunks ((ids.length + 499) / 500)
    let found := dictById (fun row => row.id)
      (batches.flatMap fun batch => rows.filter fun row => row.id ∈ batch)
    if found.isEmpty then .error .adapterHandling else .ok found

/-- The sources or sinks which the wirings of one side refer to. -/
def getVirtualSourcesOrSinks (numerals : NumeralTables) (rows : List (SourceOrSink (JsonValue J)))
    (wirings : List (Wiring (WiringData J))) :
    Except ResolutionError (List (SourceOrSink (JsonValue J))) := do
  let ids ← (wirings.filter isVirtual).mapM (virtualId numerals)
  fetchCollectionFromDbById rows ids

/-- `update_wirings` -/
def updateWirings (sourceOrSink : SourceOrSink (JsonValue J)) (wiring : Wiring (WiringData J)) :
    Wiring (WiringData J) :=
  let data :=
    if wiring.data.type = some (.metadata .any) then { wiring.data with
      refId := some sourceOrSink.refId
      refKey := sourceOrSink.refKey
      refIdType := some .thingnode }
    else { wiring.data with refId := some sourceOrSink.referencedId }
  { adapterId := .str sourceOrSink.adapterKey
    data := { data with filters := mergeEntries wiring.data.filters sourceOrSink.presetFilters } }

/-- `add_vst_metadata_to_input_wiring_attrs` for one wiring; attributes which are empty are
replaced, others are updated. -/
def addVstMetadata (source : StructureServiceSource (JsonValue J))
    (wiring : Wiring (WiringData J)) : Wiring (WiringData J) :=
  match source.metaData with
  | none => wiring
  | some metaData => { wiring with data := { wiring.data with
      attrs := some (mergeEntries (wiring.data.attrs.getD []) metaData) } }

/-- The change made to an input wiring. -/
def resolveInput (source : StructureServiceSource (JsonValue J)) (wiring : Wiring (WiringData J)) :
    Wiring (WiringData J) :=
  addVstMetadata source (updateWirings source wiring)

/-- Pair the virtual wirings with records, in order, and change each by its record. The lists have
to be of one length. -/
def replaceVirtual (resolve : SourceOrSink (JsonValue J) → Wiring (WiringData J) →
    Wiring (WiringData J)) : List (Wiring (WiringData J)) → List (SourceOrSink (JsonValue J)) →
      Except ResolutionError (List (Wiring (WiringData J)))
  | [], [] => .ok []
  | [], _ :: _ => .error .valueError
  | wiring :: rest, records =>
    if isVirtual wiring then
      match records with
      | [] => .error .valueError
      | record :: records => do
        let rest ← replaceVirtual resolve rest records
        return resolve record wiring :: rest
    else do
      let rest ← replaceVirtual resolve rest records
      return wiring :: rest

/-- `resolve_virtual_structure_wirings` -/
def resolveVirtualStructureWirings (numerals : NumeralTables) (db : StructureDb (JsonValue J))
    (wiring : WorkflowWiring (WiringData J)) :
    Except ResolutionError (WorkflowWiring (WiringData J)) := do
  let sources ← getVirtualSourcesOrSinks numerals db.sources wiring.inputWirings
  let sinks ← getVirtualSourcesOrSinks numerals db.sinks wiring.outputWirings
  let inputWirings ← replaceVirtual resolveInput wiring.inputWirings sources
  let outputWirings ← replaceVirtual updateWirings wiring.outputWirings sinks
  return { wiring with inputWirings := inputWirings, outputWirings := outputWirings }

end Resolve

end HetidaDesigner
