import HetidaDesigner.Backend.Fallback
import HetidaDesigner.Runtime.Names
import HetidaDesigner.Wirings.Transported

/-!
# Calling the runtime over http

A backend without runtime dumps the input of an execution and sends it. The runtime validates what
it receives, wirings as well as their completeness, so it may end up with another wiring than a
runtime which is called directly. The wirings which are added for missing outputs survive this, and
so does a stored test wiring. A wiring in the request survives exactly if its resolved form does.
-/

namespace HetidaDesigner

open Checks

/-- Reasons for not accepting a wiring which is received. -/
inductive TransportError
  | wiring (error : WiringError)
  | input (error : PreparationError)
  deriving DecidableEq, Repr

/-- The wiring which the runtime executes when the input of an execution is sent to it. -/
def receivedWiring {V J : Type} [DecidableEq J] (config : WiringConfig) (workflow : SubNode V)
    (wiring : WorkflowWiring (WiringData J)) :
    Except TransportError (WorkflowWiring (WiringData J)) := do
  let validated ← ((dumpWorkflowWiring wiring).validate config).mapError .wiring
  (checkWiringComplete workflow validated).mapError .input

/-- The outputs of a workflow node have names, and no two of them the same. -/
structure NamedOutputs {V : Type} (workflow : SubNode V) : Prop where
  named : ∀ output ∈ workflow.outputs, output.name ≠ []
  unique : (workflow.outputs.map fun output => output.name).Nodup

/-! ## Outputs of the executed workflow -/

section Outputs

variable [UnicodeData] {V J : Type}

omit [UnicodeData] in
/-- Outputs with unique names are converted to outputs with names which are unique. -/
theorem names_of_toWorkflowOutputs {text : TextTools V} {wfOutputs : List WorkflowContentOutput}
    {outputs : List WorkflowOutput}
    (h : (wfOutputs.mapM fun wfOutput => wfOutput.toWorkflowOutput text) = .ok outputs)
    (hunique : namesEmptyOrUnique (fun wfOutput => wfOutput.toIo) wfOutputs = true) :
    (∀ output ∈ outputs, output.name ≠ []) ∧ (outputs.map fun output => output.name).Nodup := by
  have hname {wfOutput : WorkflowContentOutput} {output : WorkflowOutput}
      (h : wfOutput.toWorkflowOutput text = .ok output) :
      wfOutput.name = some output.name ∧ output.name ≠ [] := by
    obtain ⟨name, hname, h⟩ := bind_eq_ok.mp h
    obtain ⟨nameInSubnode, -, h⟩ := bind_eq_ok.mp h
    obtain rfl := return_eq_ok.mp h
    refine ⟨eq_some_of_requireIdentifier hname, ?_⟩
    intro hempty
    have hsome := eq_some_of_requireIdentifier hname
    dsimp only at hempty
    rw [hsome, hempty] at hname
    cases hname
  have hnames : ((wfOutputs.map fun wfOutput => wfOutput.toIo).filter Io.named).map Io.name =
      outputs.map fun output => some output.name := by
    have hall := mapM_eq_ok.mp h
    clear * - hall hname
    induction hall with
    | nil => rfl
    | @cons wfOutput output _ _ hfirst _ ih =>
      obtain ⟨hsome, hne⟩ := hname hfirst
      have hnamed : Io.named wfOutput.toIo = true := by
        unfold Io.named
        rw [hsome]
        simpa using hne
      rw [List.map_cons, List.filter_cons_of_pos hnamed, List.map_cons, ih, List.map_cons, hsome]
  constructor
  · intro output houtput
    obtain ⟨wfOutput, -, hok⟩ := exists_argument_of_mapM h houtput
    exact (hname hok).2
  · have hnodup := of_decide_eq_true hunique
    rw [hnames] at hnodup
    exact List.Nodup.of_map some (by rwa [List.map_map])

/-- The outputs of a content which has been validated for a revision have unique names. -/
theorem outputNames_of_validateWorkflowContent {draws : ℕ → UUID} {state : State}
    {data content : WorkflowContent V} (h : validateWorkflowContent draws state data = .ok content) :
    namesEmptyOrUnique (fun wfOutput => wfOutput.toIo) content.outputs = true := by
  obtain ⟨accepted, haccepted, h⟩ := bind_eq_ok.mp h
  obtain ⟨-, -, h⟩ := bind_eq_ok.mp h
  obtain rfl := return_eq_ok.mp h
  exact (WorkflowContent.accepted_of_validate haccepted).outputNames

variable [DecidableEq V] [DecidableEq J] {tools : PreparationTools V J} {config : WiringConfig}
  {db : Database V (WiringData J)} {uuid4 : UUID → ℕ → UUID}

omit [UnicodeData] [DecidableEq V] [DecidableEq J] in
/-- Revisions with a workflow as content. -/
theorem requireWorkflow_eq_ok {D : Type} {revision : Revision V D} {content : WorkflowContent V} :
    requireWorkflow revision = .ok content ↔
      revision.type = .workflow ∧ revision.content = .workflow content := by
  unfold requireWorkflow
  cases revision.type with
  | component => simp
  | workflow => cases revision.content <;> simp

/-- The content of a workflow which is loaded has outputs with unique names. -/
theorem outputNames_of_loadWorkflow {id : UUID} {loaded : LoadedWorkflow V J}
    (h : loadWorkflow tools db (databaseReader config db uuid4) id = .ok loaded)
    {content : WorkflowContent V} (hcontent : requireWorkflow loaded.trWorkflow = .ok content) :
    namesEmptyOrUnique (fun wfOutput => wfOutput.toIo) content.outputs = true := by
  obtain ⟨revision, hrevision, h⟩ := bind_eq_ok.mp h
  have hread := mapError_eq_ok.mp hrevision
  split at h
  · -- the wrapper has the outputs of the content which is validated for it
    obtain ⟨wrapper, hwrapper, h⟩ := bind_eq_ok.mp h
    obtain rfl := return_eq_ok.mp h
    obtain ⟨validated, hvalidated, hwrapper⟩ := bind_eq_ok.mp (mapError_eq_ok.mp hwrapper)
    simp only [TransformationRevision.validateWithContent, require_bind_eq_ok] at hwrapper
    obtain ⟨-, -, -, -, -, hwrapper⟩ := hwrapper
    obtain ⟨-, -, hwrapper⟩ := bind_eq_ok.mp hwrapper
    obtain rfl := return_eq_ok.mp hwrapper
    obtain rfl := Except.ok.inj hcontent
    exact (WorkflowContent.accepted_of_validate hvalidated).outputNames
  · obtain ⟨nested, -, h⟩ := bind_eq_ok.mp h
    obtain rfl := return_eq_ok.mp h
    obtain ⟨selected, hselected, testWiring, -, releaseWiring, -, rfl⟩ :=
      readRevision_eq_ok.mp hread
    obtain ⟨row, -, hvalidate⟩ := Database.selectTrById_eq_ok.mp hselected
    obtain ⟨htype, hkind⟩ := requireWorkflow_eq_ok.mp hcontent
    obtain ⟨hrow, data, hdata⟩ :=
      TransformationRevision.exists_content_of_validateWith hvalidate htype
    obtain ⟨-, validated, hvalidated, rfl⟩ :=
      (TransformationRevision.validate_eq_ok_iff hrow hdata).mp hvalidate
    obtain rfl := Content.workflow.inj hkind
    exact outputNames_of_validateWorkflowContent hvalidated

/-- The outputs of an executed workflow have names which are unique. -/
theorem namedOutputs_of_toWorkflowNode {id : UUID} {loaded : LoadedWorkflow V J}
    (hloaded : loadWorkflow tools db (databaseReader config db uuid4) id = .ok loaded)
    {levels : ℕ} {workflow : SubNode V}
    (h : (loaded.toWorkflowNode tools levels).run = some (.ok workflow)) :
    NamedOutputs workflow := by
  obtain ⟨content, hcontent, houtputs⟩ := LoadedWorkflow.content_of_toWorkflowNode h
  obtain ⟨hnamed, hunique⟩ := names_of_toWorkflowOutputs houtputs
    (outputNames_of_loadWorkflow hloaded hcontent)
  exact ⟨hnamed, hunique⟩

end Outputs

/-! ## Completed wirings -/

section Complete

variable {V J : Type} {workflow : SubNode V}

/-- Completing a completed wiring does not change it. -/
theorem checkWiringComplete_of_completed {wiring completed : WorkflowWiring (WiringData J)}
    (h : checkWiringComplete workflow wiring = .ok completed) :
    checkWiringComplete workflow completed = .ok completed := by
  obtain ⟨hrequired, hknown, hout, rfl⟩ := checkWiringComplete_eq_ok.mp h
  have hnames : wiredNames (missingOutputWirings workflow wiring.outputWirings) =
      (workflow.outputs.filter fun output =>
        output.name ∉ wiredNames wiring.outputWirings).map fun output => output.name := by
    unfold wiredNames missingOutputWirings
    rw [List.map_map]
    rfl
  have hmem : ∀ name, name ∈ wiredNames
      (wiring.outputWirings ++ missingOutputWirings workflow wiring.outputWirings) ↔
        name ∈ wiredNames wiring.outputWirings ∨ ∃ output ∈ workflow.outputs,
          output.name ∉ wiredNames wiring.outputWirings ∧ output.name = name := by
    intro name
    rw [wiredNames, List.map_append, List.mem_append, ← wiredNames, ← wiredNames, hnames,
      List.mem_map]
    simp only [List.mem_filter, decide_eq_true_eq, and_assoc]
  have hmissing : missingOutputWirings workflow
      (wiring.outputWirings ++ missingOutputWirings workflow wiring.outputWirings) =
        ([] : List (Wiring (WiringData J))) := by
    rw [missingOutputWirings, List.map_eq_nil_iff, List.filter_eq_nil_iff]
    intro output houtput
    rw [decide_eq_true_eq, not_not, hmem]
    by_cases hwired : output.name ∈ wiredNames wiring.outputWirings
    · exact Or.inl hwired
    · exact Or.inr ⟨output, houtput, hwired, rfl⟩
  refine checkWiringComplete_eq_ok.mpr ⟨hrequired, hknown, fun name hname => ?_, ?_⟩
  · rcases (hmem name).mp hname with hold | ⟨output, houtput, -, rfl⟩
    · exact hout name hold
    · exact ⟨output, houtput, rfl⟩
  · rw [hmissing, List.append_nil]

variable [DecidableEq J] {config : WiringConfig}

/-- A wiring which is added for an output passes validation unchanged. -/
theorem validateWiring_directOutputWiring {name : PyStr} (h : name ≠ []) :
    validateWiring config .output true (directOutputWiring name : Wiring (WiringData J)) =
      .ok (directOutputWiring name) := by
  refine validateWiring_self_iff.mpr ⟨⟨⟨h, ?_, rfl, nofun, rfl⟩, nofun⟩, rfl⟩
  exact decide_eq_true (config.direct_provisioning_registered .output)

/-- Completing a wiring does not change whether it survives dump and validation. -/
theorem validate_dump_completed_iff (houtputs : NamedOutputs workflow)
    {wiring completed : WorkflowWiring (WiringData J)}
    (h : checkWiringComplete workflow wiring = .ok completed) :
    (dumpWorkflowWiring completed).validate config = .ok completed ↔
      (dumpWorkflowWiring wiring).validate config = .ok wiring := by
  obtain ⟨-, -, -, rfl⟩ := checkWiringComplete_eq_ok.mp h
  have hadded : ∀ output ∈ missingOutputWirings workflow wiring.outputWirings,
      validateWiring config .output true output = .ok output := by
    intro output houtput
    obtain ⟨wfOutput, hwfOutput, rfl⟩ := List.mem_map.mp houtput
    exact validateWiring_directOutputWiring
      (houtputs.named wfOutput (List.mem_filter.mp hwfOutput).1)
  have hnames : (wiredNames
      (wiring.outputWirings ++ missingOutputWirings workflow wiring.outputWirings)).Nodup ↔
        (wiredNames wiring.outputWirings).Nodup := by
    have hadded : wiredNames (missingOutputWirings workflow wiring.outputWirings) =
        (workflow.outputs.filter fun output =>
          output.name ∉ wiredNames wiring.outputWirings).map fun output => output.name := by
      unfold wiredNames missingOutputWirings
      rw [List.map_map]
      rfl
    rw [wiredNames, List.map_append, List.nodup_append, ← wiredNames, ← wiredNames, hadded]
    refine and_iff_left ⟨houtputs.unique.sublist (List.filter_sublist.map _), ?_⟩
    intro name hname name' hname' hsame
    obtain ⟨output, houtput, rfl⟩ := List.mem_map.mp hname'
    exact of_decide_eq_true (List.mem_filter.mp houtput).2 (hsame ▸ hname)
  rw [validate_dump_self_iff, validate_dump_self_iff]
  dsimp only
  rw [List.forall_mem_append, and_iff_left hadded]
  exact and_congr_right fun _ => and_congr_right fun _ => and_congr_right fun _ => hnames

/-- Validation of a dump keeps the names. -/
theorem wiredNames_of_validate_dump {wiring validated : WorkflowWiring (WiringData J)}
    (h : (dumpWorkflowWiring wiring).validate config = .ok validated) :
    wiredNames validated.outputWirings = wiredNames wiring.outputWirings := by
  obtain ⟨inputs, -, h⟩ := bind_eq_ok.mp h
  obtain ⟨-, h⟩ := require_bind_eq_ok.mp h
  obtain ⟨outputs, houtputs, h⟩ := bind_eq_ok.mp h
  obtain ⟨-, h⟩ := require_bind_eq_ok.mp h
  obtain rfl := return_eq_ok.mp h
  have hall := mapM_eq_ok.mp houtputs
  rw [dumpWorkflowWiring, List.forall₂_map_left_iff] at hall
  dsimp only
  generalize wiring.outputWirings = wirings at hall
  clear * - hall
  induction hall with
  | nil => rfl
  | cons hfirst _ ih =>
    obtain ⟨-, -, hname⟩ := valid_of_validateWiring hfirst
    unfold wiredNames at ih ⊢
    rw [List.map_cons, List.map_cons, ih, hname]
    rfl

/-- A completed wiring is received as it was sent exactly if the wiring survives dump and
validation. -/
theorem receivedWiring_completed_iff (houtputs : NamedOutputs workflow)
    {wiring completed : WorkflowWiring (WiringData J)}
    (h : checkWiringComplete workflow wiring = .ok completed) :
    receivedWiring config workflow completed = .ok completed ↔
      (dumpWorkflowWiring wiring).validate config = .ok wiring := by
  have hagain := checkWiringComplete_of_completed h
  rw [← validate_dump_completed_iff houtputs h]
  constructor
  · intro hreceived
    obtain ⟨validated, hvalidated, hreceived⟩ := bind_eq_ok.mp hreceived
    have hvalidated := mapError_eq_ok.mp hvalidated
    obtain rfl := eq_of_completed_eq (wiredNames_of_validate_dump hvalidated) rfl
      (mapError_eq_ok.mp hreceived) hagain
    exact hvalidated
  · intro hvalidated
    refine bind_eq_ok.mpr ⟨completed, mapError_eq_ok.mpr hvalidated, ?_⟩
    exact mapError_eq_ok.mpr hagain

end Complete

/-! ## The wiring of an execution -/

section Main

variable [UnicodeData] {V J C : Type} [DecidableEq V] [DecidableEq J] {config : WiringConfig}
  {tools : PreparationTools V J} {structures : StructureDb (JsonValue J)}
  {db : Database V (WiringData J)} {uuid4 : UUID → ℕ → UUID} {levels : PreparationLevels}
  {request : ExecByIdInput J C} {input : WorkflowExecutionInput V J C}

/-- A prepared input is received with the wiring it was sent with exactly if the wiring which it
was prepared for survives dump and validation. -/
theorem received_of_prepared
    (h : prepareExecutionInput tools db (databaseReader config db uuid4) levels request =
      some (.ok input)) :
    ∃ revision, readRevision config db uuid4 request.id = .ok revision ∧
      (receivedWiring config input.workflow input.workflowWiring = .ok input.workflowWiring ↔
        (dumpWorkflowWiring (request.wiring.getD revision.testWiring)).validate config =
          .ok (request.wiring.getD revision.testWiring)) := by
  obtain ⟨loaded, hloaded, workflow, hworkflow, _, -, _, -, hbuild⟩ :=
    prepareExecutionInput_eq_ok.mp h
  obtain ⟨_, -, completed, hcompleted, rfl⟩ := buildExecutionInput_eq_ok.mp hbuild
  obtain ⟨hread, -⟩ := readBy_of_loadWorkflow (fun _ _ => id_of_readRevision) hloaded
  refine ⟨_, hread, ?_⟩
  exact receivedWiring_completed_iff (namedOutputs_of_toWorkflowNode hloaded hworkflow) hcompleted

/-- A stored test wiring survives dump and validation after it has been read. -/
theorem validate_dump_testWiring {id : UUID} {revision : Revision V (WiringData J)}
    (h : readRevision config db uuid4 id = .ok revision) :
    (dumpWorkflowWiring revision.testWiring).validate config = .ok revision.testWiring := by
  obtain ⟨_, -, testWiring, htestWiring, _, -, rfl⟩ := readRevision_eq_ok.mp h
  exact validate_dump_of_validate_dump htestWiring

/-- Every resolved wiring survives dump and validation, and every input of an execution is received
with the wiring it was sent with, exactly under the condition on the wiring in the request. -/
theorem transported_iff_staysValid
    (hrequest : ∀ given, request.wiring = some given →
      ∃ data : WorkflowWiringRequest J, data.validate config = .ok given) :
    (∀ given resolved, request.wiring = some given →
        resolveVirtualStructureWirings tools.code.numerals structures given = .ok resolved →
          ((dumpWorkflowWiring resolved).validate config = .ok resolved ↔
            StaysValid config tools.code.numerals structures given)) ∧
      ∀ levels input, executeTransformationRevision tools structures db
          (databaseReader config db uuid4) levels request = some (.ok input) →
        (receivedWiring config input.workflow input.workflowWiring = .ok input.workflowWiring ↔
          ∀ given, request.wiring = some given →
            StaysValid config tools.code.numerals structures given) := by
  have hfixed (given resolved : WorkflowWiring (WiringData J))
      (hgiven : request.wiring = some given)
      (hresolved : resolveVirtualStructureWirings tools.code.numerals structures given =
        .ok resolved) :
      (dumpWorkflowWiring resolved).validate config = .ok resolved ↔
        StaysValid config tools.code.numerals structures given := by
    obtain ⟨data, hdata⟩ := hrequest given hgiven
    exact resolved_fixed_iff (valid_of_validate hdata) hresolved
  refine ⟨hfixed, fun levels input hexecute => ?_⟩
  unfold executeTransformationRevision at hexecute
  cases hwiring : request.wiring with
  | none =>
    rw [hwiring] at hexecute
    obtain ⟨revision, hread, hiff⟩ := received_of_prepared (map_mapError_eq_ok.mp hexecute)
    rw [hiff, hwiring]
    exact iff_of_true (validate_dump_testWiring hread) (by simp)
  | some given =>
    rw [hwiring] at hexecute
    dsimp only at hexecute
    cases hresolved : resolveVirtualStructureWirings tools.code.numerals structures given with
    | error error =>
      rw [hresolved] at hexecute
      cases Option.some.inj hexecute
    | ok resolved =>
      rw [hresolved] at hexecute
      obtain ⟨revision, -, hiff⟩ := received_of_prepared (map_mapError_eq_ok.mp hexecute)
      rw [hiff, Option.getD_some, hfixed given resolved hwiring hresolved]
      simp

end Main

/-! ## A virtual wiring given by a uri -/

/-- A request with a wiring for the input `x` which is given by a uri of the virtual structure
adapter. -/
def requestByUri : WorkflowWiringRequest ℤ where
  inputWirings := [{
    refIdGiven := false
    wiring := {
      adapterId := virtualStructureAdapter
      data := { (directOutputWiring ['x'] : Wiring (WiringData ℤ)).data with
        uri := some {
          host := some "virtual-structure-adapter".toList
          path := some ('/' :: uuidStr 7)
          query := none
          fragment := none } } }
    ref_id_default := fun _ => rfl }]
  outputWirings := []
  dashboardPositionings := []

/-- The wiring of this request after validation. -/
def givenByUri : WorkflowWiring (WiringData ℤ) where
  inputWirings := [{
    adapterId := virtualStructureAdapter
    data := { (wiringOfX virtualStructureAdapter (uuidStr 7)).data with
      uri := some {
        host := some "virtual-structure-adapter".toList
        path := some ('/' :: uuidStr 7)
        query := none
        fragment := none } } }]
  outputWirings := []
  dashboardPositionings := []

/-- The request is accepted. -/
theorem validate_requestByUri : requestByUri.validate plainWiringConfig = .ok givenByUri := by
  decide +kernel

/-- What is handed to the runtime for a source of another adapter is received with the fields of
the uri again. -/
theorem uriWiring_undone :
    requestByUri.validate plainWiringConfig = .ok givenByUri ∧
      ∃ input, @executeTransformationRevision asciiOnly ℤ ℤ Unit _ plainPreparationTools
          (structureOfX "sql-adapter".toList "table".toList) componentOfXDb
          (@databaseReader asciiOnly ℤ ℤ _ _ plainWiringConfig componentOfXDb
            fun _ => uuid4Above 1000) ⟨3, 3⟩
          { requestOfX with wiring := some givenByUri } = some (.ok input) ∧
        receivedWiring plainWiringConfig input.workflow input.workflowWiring ≠
          .ok input.workflowWiring := by
  refine ⟨validate_requestByUri, ?_⟩
  have hdiffers : (@executeTransformationRevision asciiOnly ℤ ℤ Unit _ plainPreparationTools
      (structureOfX "sql-adapter".toList "table".toList) componentOfXDb
      (@databaseReader asciiOnly ℤ ℤ _ _ plainWiringConfig componentOfXDb
        fun _ => uuid4Above 1000) ⟨3, 3⟩
      { requestOfX with wiring := some givenByUri }).map (Except.map fun input =>
        decide (receivedWiring plainWiringConfig input.workflow input.workflowWiring =
          .ok input.workflowWiring)) = some (.ok false) := by
    decide +kernel
  obtain ⟨result, hresult, hmap⟩ := Option.map_eq_some_iff.mp hdiffers
  obtain ⟨input, rfl, hinput⟩ := map_eq_ok.mp hmap
  exact ⟨input, hresult, of_decide_eq_false hinput⟩

/-- For a source of the same adapter the request stays valid, and the runtime receives what it is
handed. -/
theorem uriWiring_staysValid :
    requestByUri.validate plainWiringConfig = .ok givenByUri ∧
      StaysValid plainWiringConfig plainPreparationTools.code.numerals
        (structureOfX "virtual-structure-adapter".toList (uuidStr 7)) givenByUri ∧
      ∃ input, @executeTransformationRevision asciiOnly ℤ ℤ Unit _ plainPreparationTools
          (structureOfX "virtual-structure-adapter".toList (uuidStr 7)) componentOfXDb
          (@databaseReader asciiOnly ℤ ℤ _ _ plainWiringConfig componentOfXDb
            fun _ => uuid4Above 1000) ⟨3, 3⟩
          { requestOfX with wiring := some givenByUri } = some (.ok input) ∧
        receivedWiring plainWiringConfig input.workflow input.workflowWiring =
          .ok input.workflowWiring := by
  have hexecutes : (@executeTransformationRevision asciiOnly ℤ ℤ Unit _ plainPreparationTools
      (structureOfX "virtual-structure-adapter".toList (uuidStr 7)) componentOfXDb
      (@databaseReader asciiOnly ℤ ℤ _ _ plainWiringConfig componentOfXDb
        fun _ => uuid4Above 1000) ⟨3, 3⟩
      { requestOfX with wiring := some givenByUri }).map (Except.map fun input =>
        decide (receivedWiring plainWiringConfig input.workflow input.workflowWiring =
          .ok input.workflowWiring)) = some (.ok true) := by
    decide +kernel
  obtain ⟨result, hresult, hmap⟩ := Option.map_eq_some_iff.mp hexecutes
  obtain ⟨input, rfl, hinput⟩ := map_eq_ok.mp hmap
  have hreceived := of_decide_eq_true hinput
  have hstays := ((@transported_iff_staysValid asciiOnly ℤ ℤ Unit _ _ _ _ _ _ _
    { requestOfX with wiring := some givenByUri }
    fun _ hgiven => ⟨requestByUri, Option.some.inj hgiven ▸ validate_requestByUri⟩).2 _ input
      hresult).mp hreceived
  exact ⟨validate_requestByUri, hstays _ rfl, input, hresult, hreceived⟩

end HetidaDesigner
