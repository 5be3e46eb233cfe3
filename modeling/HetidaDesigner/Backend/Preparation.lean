import HetidaDesigner.Backend.ComponentImports
import HetidaDesigner.Backend.ComponentWrapper
import HetidaDesigner.Wirings.VirtualStructure

/-!
# The input of an execution

The function `prepare_execution_input` of `backend/execution.py` and the checks which
`WorkflowExecutionInput` makes, which also complete the wiring. How revisions are read is a
parameter, since the backend may read them from caches. Reading a row of the database validates
its wirings, too.
-/

namespace HetidaDesigner

open Checks Database LastEntry

/-- A request to execute a revision. `C` is the type of what is only passed on to the runtime: the
execution context and the reproducibility references. -/
structure ExecByIdInput (J C : Type) where
  id : UUID
  wiring : Option (WorkflowWiring (WiringData J))
  runPurePlotOperators : Bool
  jobId : UUID
  context : C

/-- The input of an execution by the runtime. -/
structure WorkflowExecutionInput (V J C : Type) where
  executionComponents : ExecutionComponents V
  workflow : SubNode V
  name : PyStr
  runPurePlotOperators : Bool
  workflowWiring : WorkflowWiring (WiringData J)
  jobId : UUID
  trafoId : UUID
  context : C

/-- Reasons for not preparing the input of an execution. -/
inductive PreparationError
  | trafoNotFound
  | componentAdapterComponentsNotFound
  | componentImportsLoading
  | inputValidation
  | store (error : StoreError)
  | nodes (error : ExecutionError)
  | typeError
  | valueError
  deriving DecidableEq, Repr

/-- The outcome of a preparation: nothing if the levels of a recursion did not suffice. -/
abbrev Preparation (α : Type) := Option (Except PreparationError α)

/-! ## Reading revisions -/

/-- How revisions are read: the one to be executed, those nested in it or used by its wiring, and
imported components. Several revisions are returned in a dictionary. -/
structure TrafoReader (V D : Type) where
  single : UUID → Except StoreError (Revision V D)
  multiple : List UUID → Except StoreError (List (UUID × Revision V D))
  imported : TrafoKey → Except StoreError (Revision V D)

section Read

variable [UnicodeData] {V J : Type} [DecidableEq V] [DecidableEq J]

/-- Read and validate the row of a revision with its wirings. -/
def readRevision (config : WiringConfig) (db : Database V (WiringData J))
    (uuid4 : UUID → ℕ → UUID) (id : UUID) : Except StoreError (Revision V (WiringData J)) := do
  let revision ← db.selectTrById (uuid4 id) id
  let testWiring ← ((dumpWorkflowWiring revision.testWiring).validate config).mapError
    fun _ => .integrity
  let releaseWiring ← revision.releaseWiring.mapM fun wiring =>
    ((dumpWorkflowWiring wiring).validate config).mapError fun _ => StoreError.integrity
  return { revision with testWiring := testWiring, releaseWiring := releaseWiring }

/-- The parts of a revision which is read: the stored one after validation, and its wirings. -/
theorem readRevision_eq_ok {config : WiringConfig} {db : Database V (WiringData J)}
    {uuid4 : UUID → ℕ → UUID} {id : UUID} {revision : Revision V (WiringData J)} :
    readRevision config db uuid4 id = .ok revision ↔
      ∃ selected, db.selectTrById (uuid4 id) id = .ok selected ∧
        ∃ testWiring, (dumpWorkflowWiring selected.testWiring).validate config = .ok testWiring ∧
          ∃ releaseWiring, (selected.releaseWiring.mapM fun wiring =>
              ((dumpWorkflowWiring wiring).validate config).mapError fun _ =>
                StoreError.integrity) = .ok releaseWiring ∧
            revision = { selected with
              testWiring := testWiring
              releaseWiring := releaseWiring } := by
  unfold readRevision
  simp only [bind_eq_ok, return_eq_ok, mapError_eq_ok]
  simp only [@eq_comm _ _ revision]

/-- Reading several revisions one after the other. -/
def readMultiple {D : Type} (read : UUID → Except StoreError (Revision V D)) (ids : List UUID) :
    Except StoreError (List (UUID × Revision V D)) := do
  let entries ← ids.mapM fun id => (read id).map fun revision => (id, revision)
  return dictById Prod.fst entries

/-- Reading all revisions in the same way. -/
def uniformReader {D : Type} (read : UUID → Except StoreError (Revision V D)) :
    TrafoReader V D where
  single := read
  multiple := readMultiple read
  imported
    | .id id => read id
    | .text found => read found.id

/-- Reading from the database without caches. -/
def databaseReader (config : WiringConfig) (db : Database V (WiringData J))
    (uuid4 : UUID → ℕ → UUID) : TrafoReader V (WiringData J) :=
  uniformReader (readRevision config db uuid4)

end Read

/-! ## Components used by the wiring -/

/-- The configuration of the component adapter. -/
structure ComponentAdapterConfig where
  allowDraftComponents : Bool
  allowedSourceCategories : Option (List PyStr)
  allowedSinkCategories : Option (List PyStr)

section ComponentAdapter

variable {V J D : Type}

/-- The id of the component which a wiring of the component adapter refers to. -/
def componentAdapterId (numerals : NumeralTables) (wiring : Wiring (WiringData J)) :
    Except PreparationError UUID :=
  match wiring.data.refKey.or wiring.data.refId with
  | none => .error .typeError
  | some text =>
    match uuidOfText numerals text with
    | none => .error .valueError
    | some id => .ok id

/-- The ids of components used by the wirings of one side; see
`get_component_ids_from_component_adapter_wirings`. -/
def componentAdapterIds (numerals : NumeralTables) (wirings : List (Wiring (WiringData J))) :
    Except PreparationError (List UUID) :=
  (wirings.filter fun wiring => wiring.adapterId = .str "component-adapter".toList).mapM
    (componentAdapterId numerals)

/-- What sources and sinks of the component adapter have in common: they are components in a state
and a category which the configuration allows. -/
def allowedByAdapter (config : ComponentAdapterConfig) (categories : Option (List PyStr))
    (trafo : Revision V D) : Bool :=
  trafo.type = .component && (trafo.state ≠ .draft || config.allowDraftComponents) &&
    categories.all fun allowed => trafo.category ∈ allowed

/-- `validate_source_trafos_for_component_adapter` for one revision -/
def validSourceTrafo (config : ComponentAdapterConfig) (trafo : Revision V D) : Bool :=
  allowedByAdapter config config.allowedSourceCategories trafo &&
    trafo.ioInterface.outputs.length = 1

/-- `validate_sink_trafos_for_component_adapter` for one revision -/
def validSinkTrafo (config : ComponentAdapterConfig) (trafo : Revision V D) : Bool :=
  allowedByAdapter config config.allowedSinkCategories trafo &&
    (trafo.ioInterface.inputs.any fun input => input.name = some "data".toList) &&
    trafo.ioInterface.outputs.isEmpty

/-- Reading for the component adapter; what is not found gets an error of its own. -/
def readForComponentAdapter (reader : TrafoReader V D) (ids : List UUID) :
    Except PreparationError (List (Revision V D)) :=
  match reader.multiple ids with
  | .ok entries => .ok (entries.map Prod.snd)
  | .error (.notFound _) => .error .componentAdapterComponentsNotFound
  | .error error => .error (.store error)

/-- `load_componen_adapter_wirings_components` -/
def loadComponenAdapterWiringsComponents (numerals : NumeralTables)
    (config : ComponentAdapterConfig) (reader : TrafoReader V (WiringData J))
    (wiring : WorkflowWiring (WiringData J)) :
    Except PreparationError (List (Revision V (WiringData J))) := do
  let sourceIds ← componentAdapterIds numerals wiring.inputWirings
  let sinkIds ← componentAdapterIds numerals wiring.outputWirings
  let sources ← readForComponentAdapter reader sourceIds
  let sinks ← readForComponentAdapter reader sinkIds
  require (sources.all (validSourceTrafo config)) .componentAdapterComponentsNotFound
  require (sinks.all (validSinkTrafo config)) .componentAdapterComponentsNotFound
  return sources ++ sinks

end ComponentAdapter

/-! ## The completed wiring -/

section Complete

variable {V J : Type}

/-- The inputs of a workflow node. -/
def SubNode.inputs : SubNode V → List (WorkflowInput V)
  | .component _ => []
  | .workflow node _ => node.inputs

/-- The outputs of a workflow node. -/
def SubNode.outputs : SubNode V → List WorkflowOutput
  | .component _ => []
  | .workflow node _ => node.outputs

/-- The output wiring which is added for an output without one. -/
def directOutputWiring (name : PyStr) : Wiring (WiringData J) where
  adapterId := .int 1
  data := {
    name := name
    uri := none
    refId := none
    refIdType := none
    refKey := none
    type := none
    useDefaultValue := false
    filters := []
    attrs := none }

/-- Names of the wirings of one side. -/
def wiredNames (wirings : List (Wiring (WiringData J))) : List PyStr :=
  wirings.map fun wiring => wiring.data.name

/-- The names of dynamic inputs which are required, or of those which are optional. -/
def dynamicInputNames (workflow : SubNode V) (optional : Bool) : List (Option PyStr) :=
  (workflow.inputs.filter fun input => !input.constant && input.default == optional).map
    fun input => input.name

/-- The output wirings which are added to a wiring. -/
def missingOutputWirings (workflow : SubNode V) (outputWirings : List (Wiring (WiringData J))) :
    List (Wiring (WiringData J)) :=
  (workflow.outputs.filter fun output => output.name ∉ wiredNames outputWirings).map
    fun output => directOutputWiring output.name

/-- The validator `check_wiring_complete`, which adds output wirings. -/
def checkWiringComplete (workflow : SubNode V) (wiring : WorkflowWiring (WiringData J)) :
    Except PreparationError (WorkflowWiring (WiringData J)) := do
  let inputNames := (wiredNames wiring.inputWirings).map some
  let required := dynamicInputNames workflow false
  let optional := dynamicInputNames workflow true
  require (required.all fun name => name ∈ inputNames) .inputValidation
  require (inputNames.all fun name => name ∈ required ++ optional) .inputValidation
  require ((wiredNames wiring.outputWirings).all fun name =>
    workflow.outputs.any fun output => output.name = name) .inputValidation
  return { wiring with
    outputWirings := wiring.outputWirings ++ missingOutputWirings workflow wiring.outputWirings }

end Complete

/-! ## Preparation -/

/-- The places where ids are drawn during a preparation. -/
inductive PreparationDraw
  | wrapper (draw : WrapperDraw)
  | node
  deriving DecidableEq, Repr

/-- What a preparation depends on besides the request and the revisions. -/
structure PreparationTools (V J : Type) where
  text : TextTools V
  code : CodeTools V (WiringData J)
  componentAdapter : ComponentAdapterConfig
  uuid4 : PreparationDraw → UUID

/-- The numbers of levels for the two recursions. -/
structure PreparationLevels where
  nodes : ℕ
  imports : ℕ

section Prepare

variable [UnicodeData] {V J C : Type} [DecidableEq V]

/-- The workflow to be executed and the revisions nested in it. -/
structure LoadedWorkflow (V J : Type) where
  transformationRevision : Revision V (WiringData J)
  trWorkflow : Revision V (WiringData J)
  nestedTransformations : List (UUID × Revision V (WiringData J))

/-- Load the revision to be executed. A component is wrapped into a workflow. -/
def loadWorkflow (tools : PreparationTools V J) (db : Database V (WiringData J))
    (reader : TrafoReader V (WiringData J)) (id : UUID) :
    Except PreparationError (LoadedWorkflow V J) := do
  let revision ← (reader.single id).mapError fun
    | .notFound _ => .trafoNotFound
    | error => .store error
  match revision.type with
  | .component => do
    let wrapper ← (revision.wrapComponentInTrWorkflow tools.text
      fun draw => tools.uuid4 (.wrapper draw)).mapError fun error => .store (.validation error)
    return ⟨revision, wrapper, [(revision.id, revision)]⟩
  | .workflow => do
    let nested ← (reader.multiple ((db.findAllNestedTransformationRevisions revision.id).map
      fun descendant => descendant.nestedTransformationId)).mapError .store
    return ⟨revision, revision, nested⟩

/-- The workflow node of a loaded workflow. -/
def LoadedWorkflow.toWorkflowNode (tools : PreparationTools V J) (levels : ℕ)
    (loaded : LoadedWorkflow V J) : Recursion (SubNode V) := do
  let subNodes ← nestedNodes tools.text
    (fun id => (lastEntry Prod.fst loaded.nestedTransformations id).map Prod.snd) levels
    loaded.trWorkflow
  let content ← liftM (requireWorkflow loaded.trWorkflow)
  liftM (content.toWorkflowNode tools.text loaded.trWorkflow.id loaded.trWorkflow.name
    loaded.trWorkflow.versionTag (tools.text.uuidStr (tools.uuid4 .node))
    (some loaded.trWorkflow.name) subNodes)

/-- The components nested in a loaded workflow. -/
def LoadedWorkflow.nestedComponents (loaded : LoadedWorkflow V J) :
    List (Revision V (WiringData J)) :=
  dictById (fun trafo => trafo.id)
    ((loaded.nestedTransformations.map Prod.snd).filter fun trafo => trafo.type = .component)

/-- Errors of reading imported components. -/
def importError : StoreError → PreparationError
  | .notFound _ => .trafoNotFound
  | .code _ => .componentImportsLoading
  | error => .store error

/-- The components of an execution: those nested, those used by the wiring, and those imported. -/
def gatherComponents (tools : PreparationTools V J) (reader : TrafoReader V (WiringData J))
    (levels : ℕ) (nested adapter : List (Revision V (WiringData J))) :
    Preparation (List (Revision V (WiringData J))) :=
  (readComponentImportsRecursively tools.code reader.imported levels (nested ++ adapter)).map
    fun imported => (imported.mapError importError).map fun imported =>
      dictById (fun trafo => trafo.id) (nested ++ adapter ++ imported)

/-- The input of the runtime for a workflow node, components and a wiring. -/
def buildExecutionInput (request : ExecByIdInput J C) (name : PyStr) (workflow : SubNode V)
    (components : List (Revision V (WiringData J))) (wiring : WorkflowWiring (WiringData J)) :
    Except PreparationError (WorkflowExecutionInput V J C) := do
  let executionComponents ← (executionComponents components).mapError .nodes
  let workflowWiring ← checkWiringComplete workflow wiring
  return {
    executionComponents := executionComponents
    workflow := workflow
    name := name
    runPurePlotOperators := request.runPurePlotOperators
    workflowWiring := workflowWiring
    jobId := request.jobId
    trafoId := request.id
    context := request.context }

/-- `prepare_execution_input` -/
def prepareExecutionInput (tools : PreparationTools V J) (db : Database V (WiringData J))
    (reader : TrafoReader V (WiringData J)) (levels : PreparationLevels)
    (request : ExecByIdInput J C) : Preparation (WorkflowExecutionInput V J C) :=
  ExceptT.run do
    let loaded ← ExceptT.mk (some (loadWorkflow tools db reader request.id))
    let workflow ← ExceptT.mk
      (((loaded.toWorkflowNode tools levels.nodes).run).map (Except.mapError .nodes))
    let wiring := request.wiring.getD loaded.transformationRevision.testWiring
    let adapter ← ExceptT.mk (some (loadComponenAdapterWiringsComponents tools.code.numerals
      tools.componentAdapter reader wiring))
    let components ← ExceptT.mk
      (gatherComponents tools reader levels.imports loaded.nestedComponents adapter)
    ExceptT.mk (some (buildExecutionInput request (tools.text.uuidStr loaded.trWorkflow.id)
      workflow components wiring))

end Prepare

end HetidaDesigner
