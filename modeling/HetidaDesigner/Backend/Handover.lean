import HetidaDesigner.Backend.Preparation

/-!
# Handing a wiring to the runtime

The function `execute_transformation_revision` up to the call of the runtime: the wiring of a
request is resolved first, and then the input of the execution is prepared. What a prepared input
consists of, and what completing a wiring does to it.
-/

namespace HetidaDesigner

open Checks

/-- Reasons for not calling the runtime. -/
inductive TrafoExecutionError
  | resolution (error : ResolutionError)
  | preparation (error : PreparationError)
  deriving DecidableEq, Repr

section Execute

variable [UnicodeData] {V J C : Type} [DecidableEq V]

/-- `execute_transformation_revision`: the input with which the runtime is called. -/
def executeTransformationRevision (tools : PreparationTools V J)
    (structures : StructureDb (JsonValue J)) (db : Database V (WiringData J))
    (reader : TrafoReader V (WiringData J)) (levels : PreparationLevels)
    (request : ExecByIdInput J C) :
    Option (Except TrafoExecutionError (WorkflowExecutionInput V J C)) :=
  match request.wiring with
  | none =>
    (prepareExecutionInput tools db reader levels request).map (Except.mapError .preparation)
  | some wiring =>
    match resolveVirtualStructureWirings tools.code.numerals structures wiring with
    | .error error => some (.error (.resolution error))
    | .ok resolved =>
      (prepareExecutionInput tools db reader levels { request with wiring := some resolved }).map
        (Except.mapError .preparation)

/-- For some numbers of levels the runtime is called with a wiring. -/
def HandsToRuntime (tools : PreparationTools V J) (structures : StructureDb (JsonValue J))
    (db : Database V (WiringData J)) (reader : TrafoReader V (WiringData J))
    (request : ExecByIdInput J C) (wiring : WorkflowWiring (WiringData J)) : Prop :=
  ∃ levels input, executeTransformationRevision tools structures db reader levels request =
    some (.ok input) ∧ input.workflowWiring = wiring

/-- For some numbers of levels an input with a wiring is prepared. -/
def PreparesWiring (tools : PreparationTools V J) (db : Database V (WiringData J))
    (reader : TrafoReader V (WiringData J)) (request : ExecByIdInput J C)
    (wiring : WorkflowWiring (WiringData J)) : Prop :=
  ∃ levels input, prepareExecutionInput tools db reader levels request = some (.ok input) ∧
    input.workflowWiring = wiring

variable {tools : PreparationTools V J} {structures : StructureDb (JsonValue J)}
  {db : Database V (WiringData J)} {reader : TrafoReader V (WiringData J)}
  {request : ExecByIdInput J C}

omit [UnicodeData] [DecidableEq V] in
/-- Errors of a preparation are errors of the execution. -/
theorem map_mapError_eq_ok {x : Preparation (WorkflowExecutionInput V J C)}
    {input : WorkflowExecutionInput V J C} :
    x.map (Except.mapError TrafoExecutionError.preparation) = some (.ok input) ↔
      x = some (.ok input) := by
  rw [Option.map_eq_some_iff]
  constructor
  · rintro ⟨result, rfl, hresult⟩
    rw [mapError_eq_ok.mp hresult]
  · rintro rfl
    exact ⟨_, rfl, rfl⟩

/-- Without a wiring nothing is resolved. -/
theorem handsToRuntime_of_none (hnone : request.wiring = none)
    {wiring : WorkflowWiring (WiringData J)} :
    HandsToRuntime tools structures db reader request wiring ↔
      PreparesWiring tools db reader request wiring := by
  unfold HandsToRuntime PreparesWiring executeTransformationRevision
  rw [hnone]
  simp only [map_mapError_eq_ok]

/-- The wiring of a request is resolved before the preparation. -/
theorem handsToRuntime_of_some {given : WorkflowWiring (WiringData J)}
    (hgiven : request.wiring = some given) {wiring : WorkflowWiring (WiringData J)} :
    HandsToRuntime tools structures db reader request wiring ↔
      ∃ resolved, resolveVirtualStructureWirings tools.code.numerals structures given =
          .ok resolved ∧
        PreparesWiring tools db reader { request with wiring := some resolved } wiring := by
  unfold HandsToRuntime PreparesWiring
  cases hresolved : resolveVirtualStructureWirings tools.code.numerals structures given with
  | error error => simp [executeTransformationRevision, hgiven, hresolved]
  | ok resolved =>
    have hexecute (levels : PreparationLevels) (input : WorkflowExecutionInput V J C) :
        executeTransformationRevision tools structures db reader levels request =
            some (.ok input) ↔
          prepareExecutionInput tools db reader levels { request with wiring := some resolved } =
            some (.ok input) := by
      rw [executeTransformationRevision, hgiven]
      dsimp only
      rw [hresolved]
      exact map_mapError_eq_ok
    simp only [hexecute, Except.ok.injEq, exists_eq_left']

/-- The parts of a prepared input. -/
theorem prepareExecutionInput_eq_ok {levels : PreparationLevels}
    {input : WorkflowExecutionInput V J C} :
    prepareExecutionInput tools db reader levels request = some (.ok input) ↔
      ∃ loaded, loadWorkflow tools db reader request.id = .ok loaded ∧
        ∃ workflow, (loaded.toWorkflowNode tools levels.nodes).run = some (.ok workflow) ∧
          ∃ adapter, loadComponenAdapterWiringsComponents tools.code.numerals
              tools.componentAdapter reader
              (request.wiring.getD loaded.transformationRevision.testWiring) = .ok adapter ∧
            ∃ components, gatherComponents tools reader levels.imports loaded.nestedComponents
                adapter = some (.ok components) ∧
              buildExecutionInput request (tools.text.uuidStr loaded.trWorkflow.id) workflow
                components (request.wiring.getD loaded.transformationRevision.testWiring) =
                  .ok input := by
  have hstep {α : Type} {x : Preparation α} {a : α} :
      (ExceptT.mk x).run = some (.ok a) ↔ x = some (.ok a) := Iff.rfl
  unfold prepareExecutionInput
  rw [run_bind_eq_ok]
  refine exists_congr fun loaded => and_congr (by rw [hstep, Option.some_inj]) ?_
  rw [run_bind_eq_ok]
  refine exists_congr fun workflow => and_congr ?_ ?_
  · rw [hstep, Option.map_eq_some_iff]
    constructor
    · rintro ⟨result, hresult, hok⟩
      rw [hresult, mapError_eq_ok.mp hok]
    · intro h
      exact ⟨_, h, rfl⟩
  rw [run_bind_eq_ok]
  refine exists_congr fun adapter => and_congr (by rw [hstep, Option.some_inj]) ?_
  rw [run_bind_eq_ok]
  refine exists_congr fun components => and_congr hstep ?_
  rw [hstep, Option.some_inj]

omit [UnicodeData] [DecidableEq V] in
/-- The parts of an input which is built. -/
theorem buildExecutionInput_eq_ok {name : PyStr} {workflow : SubNode V}
    {components : List (Revision V (WiringData J))} {wiring : WorkflowWiring (WiringData J)}
    {input : WorkflowExecutionInput V J C} :
    buildExecutionInput request name workflow components wiring = .ok input ↔
      ∃ runtimeComponents, executionComponents components = .ok runtimeComponents ∧
        ∃ completed, checkWiringComplete workflow wiring = .ok completed ∧
          input = {
            executionComponents := runtimeComponents
            workflow := workflow
            name := name
            runPurePlotOperators := request.runPurePlotOperators
            workflowWiring := completed
            jobId := request.jobId
            trafoId := request.id
            context := request.context } := by
  unfold buildExecutionInput
  rw [bind_eq_ok]
  refine exists_congr fun runtimeComponents => ?_
  rw [mapError_eq_ok, bind_eq_ok]
  refine and_congr_right fun _ => exists_congr fun completed => and_congr_right fun _ => ?_
  rw [return_eq_ok, eq_comm]

end Execute

/-- The outputs of the node of a loaded workflow are made of those of its content. -/
theorem LoadedWorkflow.content_of_toWorkflowNode {V J : Type} {tools : PreparationTools V J}
    {levels : ℕ} {loaded : LoadedWorkflow V J} {workflow : SubNode V}
    (h : (loaded.toWorkflowNode tools levels).run = some (.ok workflow)) :
    ∃ content, requireWorkflow loaded.trWorkflow = .ok content ∧
      (content.outputs.mapM fun wfOutput => wfOutput.toWorkflowOutput tools.text) =
        .ok workflow.outputs := by
  obtain ⟨subNodes, -, h⟩ := run_bind_eq_ok.mp h
  obtain ⟨content, hcontent, h⟩ := run_bind_eq_ok.mp h
  have hnode := eq_ok_of_run_liftM h
  obtain ⟨dynamicInputs, -, hnode⟩ := bind_eq_ok.mp hnode
  obtain ⟨constantInputs, -, hnode⟩ := bind_eq_ok.mp hnode
  obtain ⟨outputs, houtputs, hnode⟩ := bind_eq_ok.mp hnode
  obtain ⟨connections, -, hnode⟩ := bind_eq_ok.mp hnode
  obtain rfl := return_eq_ok.mp hnode
  exact ⟨content, eq_ok_of_run_liftM hcontent, houtputs⟩

/-- The outputs of a workflow node do not depend on the number of levels. -/
theorem LoadedWorkflow.outputs_of_toWorkflowNode {V J : Type} {tools : PreparationTools V J}
    {levels levels' : ℕ} {loaded : LoadedWorkflow V J} {workflow workflow' : SubNode V}
    (h : (loaded.toWorkflowNode tools levels).run = some (.ok workflow))
    (h' : (loaded.toWorkflowNode tools levels').run = some (.ok workflow')) :
    workflow.outputs = workflow'.outputs := by
  obtain ⟨content, hcontent, hmap⟩ := LoadedWorkflow.content_of_toWorkflowNode h
  obtain ⟨content', hcontent', hmap'⟩ := LoadedWorkflow.content_of_toWorkflowNode h'
  obtain rfl := Except.ok.inj (hcontent.symm.trans hcontent')
  exact Except.ok.inj (hmap.symm.trans hmap')

/-! ## Completed wirings -/

section Complete

variable {V J : Type} {workflow workflow' : SubNode V}

/-- What completing a wiring looks at and what it does. -/
theorem checkWiringComplete_eq_ok {wiring completed : WorkflowWiring (WiringData J)} :
    checkWiringComplete workflow wiring = .ok completed ↔
      (∀ name ∈ dynamicInputNames workflow false,
          name ∈ (wiredNames wiring.inputWirings).map some) ∧
        (∀ name ∈ (wiredNames wiring.inputWirings).map some,
          name ∈ dynamicInputNames workflow false ++ dynamicInputNames workflow true) ∧
        (∀ name ∈ wiredNames wiring.outputWirings,
          ∃ output ∈ workflow.outputs, output.name = name) ∧
        completed = { wiring with
          outputWirings :=
            wiring.outputWirings ++ missingOutputWirings workflow wiring.outputWirings } := by
  unfold checkWiringComplete
  simp only [require_bind_eq_ok, return_eq_ok, List.all_eq_true, List.any_eq_true,
    decide_eq_true_eq]
  rw [@eq_comm _ completed]

/-- Wirings of the same names are completed alike, and stay different if they are. -/
theorem eq_of_completed_eq {wiring wiring' completed : WorkflowWiring (WiringData J)}
    (hnames : wiredNames wiring.outputWirings = wiredNames wiring'.outputWirings)
    (hworkflow : workflow.outputs = workflow'.outputs)
    (h : checkWiringComplete workflow wiring = .ok completed)
    (h' : checkWiringComplete workflow' wiring' = .ok completed) : wiring = wiring' := by
  obtain ⟨-, -, -, rfl⟩ := checkWiringComplete_eq_ok.mp h
  obtain ⟨-, -, -, heq⟩ := checkWiringComplete_eq_ok.mp h'
  have hmissing : missingOutputWirings workflow wiring.outputWirings =
      missingOutputWirings workflow' wiring'.outputWirings := by
    rw [missingOutputWirings, missingOutputWirings, hnames, hworkflow]
  obtain ⟨hinputs, houtputs, hpositions⟩ := WorkflowWiring.mk.inj heq
  rw [hmissing] at houtputs
  cases wiring
  cases wiring'
  dsimp only at hinputs houtputs hpositions
  rw [hinputs, List.append_cancel_right houtputs, hpositions]

/-- Whether a wiring can be completed depends on the names in it. -/
theorem exists_completed_of_names {wiring wiring' completed : WorkflowWiring (WiringData J)}
    (hinputs : wiredNames wiring'.inputWirings = wiredNames wiring.inputWirings)
    (houtputs : wiredNames wiring'.outputWirings = wiredNames wiring.outputWirings)
    (h : checkWiringComplete workflow wiring = .ok completed) :
    ∃ completed', checkWiringComplete workflow wiring' = .ok completed' := by
  obtain ⟨hrequired, hknown, hout, -⟩ := checkWiringComplete_eq_ok.mp h
  rw [← hinputs] at hrequired hknown
  rw [← houtputs] at hout
  exact ⟨_, checkWiringComplete_eq_ok.mpr ⟨hrequired, hknown, hout, rfl⟩⟩

end Complete

end HetidaDesigner
