import HetidaDesigner.Backend.StoredMeaning

/-!
# Results of stored workflows

The reference evaluation of a lowered node gives, at the texts of a path of ids, what is stored at
this path. So what the runtime service returns for a stored workflow is what its outputs are by the
ids of the contents, with the data which is loaded for its inputs.
-/

namespace HetidaDesigner

open Checks KeyedList

/-! ## Results -/

section Results

variable {V D W X : Type} {tools : ParsingTools V W X} {config : EngineConfig W}
  {text : TextTools V} {nested : UUID → Option (Revision V D)} {data : PyStr → Option W}
  {content : WorkflowContent V} {root : SubNode V}
  {results : List PyStr → Option (List (Option PyStr × W))}
  {storedResults : List UUID → Option (List (Option PyStr × W))}

/-- A source has the same value as the one with the texts of ids. -/
theorem StoredSource.value?_toInputSource
    (hresults : ∀ path, results (path.map text.uuidStr) = storedResults path)
    (source : StoredSource W) :
    (source.toInputSource text).value? results = source.value? storedResults := by
  cases source with
  | output path name => rw [toInputSource, InputSource.value?, hresults, value?]
  | value given => rfl

/-- The values of the inputs of a component are those of the operator inputs. -/
theorem LoweredFrom.sourceOutput_eq (htext : text.UuidTexts) (hnested : NestedIdentifiable nested)
    (h : LoweredFrom text nested (.workflow content) root)
    (hdata : ∀ name, '-' ∈ name → data name = none)
    (hresults : ∀ path, results (path.map text.uuidStr) = storedResults path) {path : List UUID}
    {component : ComponentNode}
    (hnode : root.nodeAt (path.map text.uuidStr) = some (.component component)) :
    sourceOutput tools data root results (path.map text.uuidStr) =
      storedInputValue tools text nested data content storedResults path := by
  funext key
  cases key with
  | none => rfl
  | some name =>
    rw [sourceOutput, storedInputValue, Option.bind_some, Option.bind_some,
      h.inputSource_component htext hnested hdata hnode]
    cases storedSource tools text nested data content path name with
    | none => rfl
    | some source =>
      rw [Option.map_some, Option.bind_some, Option.bind_some,
        source.value?_toInputSource hresults]

/-- A component has the result which is stored for its operator. -/
theorem LoweredFrom.componentResult_eq (hkeyword : KeywordArguments tools)
    (htext : text.UuidTexts) (hnested : NestedIdentifiable nested)
    (h : LoweredFrom text nested (.workflow content) root)
    (hdata : ∀ name, '-' ∈ name → data name = none)
    (hresults : ∀ path, results (path.map text.uuidStr) = storedResults path) {path : List UUID}
    {component : ComponentNode}
    (hnode : root.nodeAt (path.map text.uuidStr) = some (.component component)) {uuid : PyStr}
    {computation : ComputationNode (Option PyStr) W X}
    (hload : tools.loadComponent uuid = some computation) :
    componentResult computation
        ((providedInputs tools data root (path.map text.uuidStr)).map some)
        (sourceOutput tools data root results (path.map text.uuidStr)) =
      componentResult computation ((storedInputs tools text nested data content path).map some)
        (storedInputValue tools text nested data content storedResults path) := by
  obtain ⟨hnodup, hperm⟩ : (storedInputs tools text nested data content path).Nodup ∧ _ :=
    h.storedInputs_perm htext hnested hdata hnode
  have hnames := hperm.map some
  have hstoredNodup := hnodup.map (Option.some_injective PyStr)
  rw [← h.sourceOutput_eq htext hnested hdata hresults hnode]
  refine Option.ext fun result => ?_
  constructor
  · exact componentResult_of_perm hkeyword hload hnames.symm (hnames.nodup_iff.mp hstoredNodup)
      (fun _ _ hvalue => hvalue) fun _ _ => key_of_sourceOutput
  · exact componentResult_of_perm hkeyword hload hnames hstoredNodup
      (fun _ _ hvalue => hvalue) fun _ _ => key_of_sourceOutput

/-- A lowered node has only plots as outputs if this is stored. -/
theorem LoweredFrom.hasOnlyPlotOutputs_eq {stored : StoredNode V} {subNode : SubNode V}
    (h : LoweredFrom text nested stored subNode) :
    subNode.hasOnlyPlotOutputs tools = stored.hasOnlyPlotOutputs tools text := by
  cases subNode with
  | component component =>
    obtain ⟨id, rfl, huuid⟩ := h.component_inv
    rw [SubNode.hasOnlyPlotOutputs, StoredNode.hasOnlyPlotOutputs, huuid]
  | workflow node subNodes =>
    obtain ⟨inner, rfl, -, -, hbuilt⟩ := h.workflow_inv
    have hall := mapM_eq_ok.mp hbuilt.outputs
    have htypes : List.Forall₂ (fun (wfOutput : WorkflowContentOutput) (output : WorkflowOutput) =>
        decide (output.type = .plotlyJson) = decide (wfOutput.dataType = .plotlyJson))
        inner.outputs node.outputs := by
      refine hall.imp fun wfOutput output hmade => ?_
      obtain ⟨name, nameInSubnode, -, -, -, rfl⟩ := toWorkflowOutput_eq_ok hmade
      rfl
    have hempty : node.outputs.isEmpty = inner.outputs.isEmpty := by
      rw [Bool.eq_iff_iff, List.isEmpty_iff_length_eq_zero, List.isEmpty_iff_length_eq_zero,
        hall.length_eq]
    rw [SubNode.hasOnlyPlotOutputs, StoredNode.hasOnlyPlotOutputs, onlyPlotOutputs, hempty,
      Related.all_eq htypes]

/-- An output of a lowered node has the value of the output of the content from which it is made. -/
theorem LoweredFrom.referenceMapped_eq (htext : text.UuidTexts)
    (hnested : NestedIdentifiable nested) (h : LoweredFrom text nested (.workflow content) root)
    (hresults : ∀ path, results (path.map text.uuidStr) = storedResults path)
    {inner : WorkflowContent V} (hinner : inner.Identifiable) (path : List UUID)
    {wfOutput : WorkflowContentOutput} (hmem : wfOutput ∈ inner.outputs) {output : WorkflowOutput}
    (hmade : wfOutput.toWorkflowOutput text = .ok output) :
    referenceMapped tools config root results (path.map text.uuidStr) output =
      storedOutput tools config text nested content storedResults path inner wfOutput := by
  have hplots : (root.nodeAt ((wfOutput.operatorId :: path).map text.uuidStr)).any
        (SubNode.hasOnlyPlotOutputs tools) =
      (storedAt nested content (wfOutput.operatorId :: path)).any
        (StoredNode.hasOnlyPlotOutputs tools text) := by
    have hrel := h.rel_nodeAt htext hnested (wfOutput.operatorId :: path)
    generalize storedAt nested content (wfOutput.operatorId :: path) = stored?,
      root.nodeAt ((wfOutput.operatorId :: path).map text.uuidStr) = subNode? at hrel ⊢
    cases hrel with
    | some hlowered => exact hlowered.hasOnlyPlotOutputs_eq
    | none => rfl
  have hcopy := hinner.outputCopies wfOutput hmem
  obtain ⟨name, nameInSubnode, hname, -, hconnector, rfl⟩ := toWorkflowOutput_eq_ok hmade
  rw [hconnector] at hcopy
  have hvalue := (StoredSource.output (W := W) (wfOutput.operatorId :: path)
    nameInSubnode).value?_toInputSource hresults
  rw [List.map_cons] at hplots
  rw [referenceMapped, storedOutput, hname, Option.bind_some, hplots,
    outputName_of_carriesName hinner hcopy, Option.bind_some, ← hvalue]
  rfl

/-- The inputs of a lowered node have sources exactly if what they are made from passes on
something. -/
theorem LoweredFrom.all_inputs_eq (htext : text.UuidTexts) (hnested : NestedIdentifiable nested)
    (h : LoweredFrom text nested (.workflow content) root)
    (hdata : ∀ name, '-' ∈ name → data name = none) {path : List UUID}
    {node : WorkflowNodeData V} {subNodes : List (SubNode V)}
    (hnode : root.nodeAt (path.map text.uuidStr) = some (.workflow node subNodes))
    {inner : WorkflowContent V} (hstored : storedAt nested content path = some (.workflow inner))
    (hbuilt : BuiltFrom text inner node) :
    (node.inputs.all fun input => input.mappedName.any fun name =>
        (inputSource tools data root (path.map text.uuidStr) name).isSome) =
      inner.outerIos.all fun io =>
        (passedOn tools text (storedSource tools text nested data content path) io).isSome := by
  refine Related.all_eq ((Related.and_mem hbuilt.madeFrom).imp ?_)
  rintro io input ⟨⟨hio, hinput⟩, hmade⟩
  have hsource (name : PyStr) (hname : '-' ∉ name) :
      inputSource tools data root (path.map text.uuidStr) name =
        (storedSource tools text nested data content path name).map
          (StoredSource.toInputSource text) :=
    h.inputSource_eq htext hnested hdata path hname
  have hpassed := h.passedOn_eq htext hnested hdata hnode hsource hstored hio hinput hmade
  rw [← Option.isSome_map (f := StoredSource.toInputSource text), ← hpassed]
  cases input.mappedName <;> rfl

/-- The reference evaluation of a lowered node gives what is stored, by induction on the depth. -/
theorem LoweredFrom.referenceResult_eq (hkeyword : KeywordArguments tools)
    (htext : text.UuidTexts) (hnested : NestedIdentifiable nested)
    (h : LoweredFrom text nested (.workflow content) root)
    (hdata : ∀ name, '-' ∈ name → data name = none) (depth : ℕ) (path : List UUID) :
    referenceResult tools config data root depth (path.map text.uuidStr) =
      storedResult tools config text nested data content depth path := by
  induction depth generalizing path with
  | zero => rfl
  | succ depth ih =>
    rw [referenceResult, storedResult]
    cases hnode : root.nodeAt (path.map text.uuidStr) with
    | none => rw [h.storedAt_eq_none htext hnested hnode]
    | some subNode =>
      obtain ⟨stored, hstored, hlowered⟩ := h.exists_stored htext hnested hnode
      rw [hstored]
      cases subNode with
      | component component =>
        obtain ⟨id, rfl, huuid⟩ := hlowered.component_inv
        dsimp only
        rw [huuid]
        cases hload : tools.loadComponent (text.uuidStr id) with
        | none => rfl
        | some computation =>
          exact h.componentResult_eq hkeyword htext hnested hdata ih hnode hload
      | workflow node subNodes =>
        obtain ⟨inner, rfl, hinner, -, hbuilt⟩ := hlowered.workflow_inv
        dsimp only
        rw [h.all_inputs_eq htext hnested hdata hnode hstored hbuilt]
        have hmapped : List.Forall₂ (fun (wfOutput : WorkflowContentOutput) output =>
            referenceMapped tools config root (referenceResult tools config data root depth)
                (path.map text.uuidStr) output =
              storedOutput tools config text nested content
                (storedResult tools config text nested data content depth) path inner wfOutput)
            inner.outputs node.outputs := by
          refine (Related.and_mem (mapM_eq_ok.mp hbuilt.outputs)).imp ?_
          rintro wfOutput output ⟨⟨hmem, -⟩, hmade⟩
          exact h.referenceMapped_eq htext hnested ih hinner path hmem hmade
        rw [Related.mapM_eq hmapped]

end Results

/-! ## Executions -/

section Main

variable [UnicodeData] {V J C W X E : Type} [DecidableEq V] [DecidableEq J]
  {tools : PreparationTools V J} {wiringConfig : WiringConfig} {db : Database V (WiringData J)}
  {uuid4 : UUID → ℕ → UUID} {levels : PreparationLevels} {request : ExecByIdInput J C}
  {input : WorkflowExecutionInput V J C} {parsing : ParsingTools V W X}
  {loading : LoadingTools J W E} {config : EngineConfig W}

/-- A component operator at a path whose result is requested in any case. -/
def StoredRequested {V D W X : Type} (tools : ParsingTools V W X) (config : EngineConfig W)
    (text : TextTools V) (nested : UUID → Option (Revision V D)) (root : WorkflowContent V)
    (path : List UUID) : Prop :=
  ∃ id, storedAt nested root path = some (.component id) ∧
    ((StoredNode.component id).hasOnlyPlotOutputs tools text && !config.runPurePlotOperators) =
      false

omit [UnicodeData] [DecidableEq V] [DecidableEq J] in
/-- What is parsed under a name is one of the values with that name. -/
theorem exists_value_of_parsed {values : List (NamedDataTypedValue W × Bool)}
    {kept : NamedDataTypedValue W × Bool → Bool} {nullable : Bool} {parsed : List (PyStr × W)}
    (h : parseDynamicallyFromDatatypes parsing ((values.filter kept).map Prod.fst) nullable =
      .ok parsed) {name : PyStr} {value : W} (hvalue : parsed.lookup name = some value) :
    ∃ entry ∈ values, entry.1.name = name := by
  obtain ⟨-, _, hmem, hname, -⟩ := (parsed_spec h).2.2 _ _ hvalue
  obtain ⟨entry, hentry, rfl⟩ := List.mem_map.mp hmem
  exact ⟨entry, (List.mem_filter.mp hentry).1, hname⟩

omit [UnicodeData] [DecidableEq V] [DecidableEq J] in
/-- Data is only loaded for inputs of the workflow. -/
theorem exists_input_of_dataOf {workflow : SubNode V} {wiring : WorkflowWiring (WiringData J)}
    {data : List (PyStr × W) × List (PyStr × W)}
    (h : loadedData parsing loading workflow wiring = .ok data) {name : PyStr} {value : W}
    (hvalue : dataOf data name = some value) :
    ∃ input ∈ workflow.inputs, input.name = some name := by
  obtain ⟨loaded, -, h⟩ := bind_eq_ok.mp h
  obtain ⟨values, hvalues, h⟩ := bind_eq_ok.mp h
  obtain ⟨required, hrequired, h⟩ := bind_eq_ok.mp h
  obtain ⟨optional, hoptional, h⟩ := bind_eq_ok.mp h
  obtain rfl := return_eq_ok.mp h
  obtain ⟨kept, hkept, rfl⟩ : ∃ kept ∈ values, kept.1.name = name := by
    rcases Option.or_eq_some_iff.mp hvalue with hfound | ⟨-, hfound⟩
    · exact exists_value_of_parsed (mapError_eq_ok.mp hoptional) hfound
    · exact exists_value_of_parsed (mapError_eq_ok.mp hrequired) hfound
  obtain ⟨entry, -, hentry⟩ := exists_argument_of_mapM hvalues hkept
  unfold constantProvidingData at hentry
  split at hentry
  · cases hentry
  · rename_i found hfound
    obtain rfl := Except.ok.inj hentry
    obtain ⟨hmem, hname⟩ := LastEntry.mem_of_lastEntry hfound
    exact ⟨found, hmem, hname⟩

omit [UnicodeData] [DecidableEq V] in
/-- Names of inputs of a lowered node are identifiers. -/
theorem BuiltFrom.dash_notMem {text : TextTools V} {content : WorkflowContent V}
    {node : WorkflowNodeData V} (h : BuiltFrom text content node)
    (hcontent : content.Identifiable) {input : WorkflowInput V} (hinput : input ∈ node.inputs)
    {name : PyStr} (hname : input.name = some name) : '-' ∉ name := by
  obtain ⟨io, hio, hmade⟩ := Related.exists_left h.madeFrom hinput
  rcases List.mem_append.mp hio with hio | hio
  · obtain ⟨wfInput, hwfInput, rfl⟩ := List.mem_map.mp hio
    obtain ⟨other, nameInSubnode, hother, -, -, rfl⟩ := toWorkflowInput_eq_ok hmade
    exact hcontent.inputIdentifiers wfInput hwfInput name (hother.trans hname)
  · obtain ⟨constant, -, rfl⟩ := List.mem_map.mp hio
    obtain ⟨nameInSubnode, -, rfl⟩ := constant_toWorkflowInput_eq_ok hmade
    cases hname

omit [UnicodeData] in
/-- A component is requested at the texts of a path exactly if it is requested at the path. -/
theorem LoweredFrom.requested_iff {V D : Type} {text : TextTools V}
    {nested : UUID → Option (Revision V D)} {content : WorkflowContent V} {root : SubNode V}
    {tools : ParsingTools V W X} (htext : text.UuidTexts) (hnested : NestedIdentifiable nested)
    (h : LoweredFrom text nested (.workflow content) root) (path : List UUID) :
    Requested config tools root (path.map text.uuidStr) ↔
      StoredRequested tools config text nested content path := by
  constructor
  · rintro ⟨component, hnode, hplots⟩
    obtain ⟨stored, hstored, hlowered⟩ := h.exists_stored htext hnested hnode
    rw [hlowered.hasOnlyPlotOutputs_eq] at hplots
    obtain ⟨id, rfl, -⟩ := hlowered.component_inv
    exact ⟨id, hstored, hplots⟩
  · rintro ⟨id, hstored, hplots⟩
    cases hnode : root.nodeAt (path.map text.uuidStr) with
    | none =>
      rw [h.storedAt_eq_none htext hnested hnode] at hstored
      cases hstored
    | some subNode =>
      obtain ⟨other, hother, hlowered⟩ := h.exists_stored htext hnested hnode
      obtain rfl := Option.some.inj (hstored.symm.trans hother)
      cases subNode with
      | component component =>
        rw [← hlowered.hasOnlyPlotOutputs_eq] at hplots
        exact ⟨component, hnode, hplots⟩
      | workflow node subNodes =>
        obtain ⟨inner, hinner, -⟩ := hlowered.workflow_inv
        cases hinner

/-- The runtime service returns a result for a prepared input exactly if it is the one which is
stored for the workflow, with the data which is loaded, and all components which are requested in
any case have results. -/
theorem executeWorkflow_iff_storedResult
    (h : prepareExecutionInput tools db (databaseReader wiringConfig db uuid4) levels request =
      some (.ok input)) (htext : tools.text.UuidTexts)
    (hcontents : ∀ loaded, loadWorkflow tools db (databaseReader wiringConfig db uuid4) request.id =
      .ok loaded → ∀ content, loaded.Contents content → content.Identifiable)
    (hkeyword : KeywordArguments parsing) {parsedWf : ℕ} {objects : EngineObjects W X}
    (hprepared : prepareWorkflow parsing loading input.workflow input.workflowWiring =
      .ok (parsedWf, objects)) :
    ∃ loaded content data,
      loadWorkflow tools db (databaseReader wiringConfig db uuid4) request.id = .ok loaded ∧
        requireWorkflow loaded.trWorkflow = .ok content ∧
        loadedData parsing loading input.workflow input.workflowWiring = .ok data ∧ ∀ result,
          (∃ fuel state, executeWorkflow config objects fuel parsedWf =
              some (.ok (result, state))) ↔
            (∃ depth, storedResult parsing config tools.text loaded.nested (dataOf data) content
                depth [] = some result) ∧
              ∀ path, StoredRequested parsing config tools.text loaded.nested content path →
                ∃ depth result', storedResult parsing config tools.text loaded.nested
                  (dataOf data) content depth path = some result' := by
  obtain ⟨loaded, content, wiring, hloaded, hcontent, hnested, hlowered, -⟩ :=
    exists_lowered_of_prepareExecutionInput h hcontents
  obtain ⟨node, subNodes, hworkflow, hidentifiable, hbuilt⟩ := hlowered.exists_workflow
  rw [hworkflow] at hlowered hprepared ⊢
  have hwf := hlowered.wellFormed htext hnested
  obtain ⟨data, hdata, rfl, hobjects⟩ := prepared_of_prepareWorkflow hwf hprepared
  refine ⟨loaded, content, data, hloaded, hcontent, hdata, fun result => ?_⟩
  have hdash (name : PyStr) (hname : '-' ∈ name) : dataOf data name = none := by
    cases hvalue : dataOf data name with
    | none => rfl
    | some value =>
      obtain ⟨input, hmem, hinputName⟩ := exists_input_of_dataOf hdata hvalue
      exact absurd hname (hbuilt.dash_notMem hidentifiable hmem hinputName)
  have hresult (depth : ℕ) (path : List UUID) :
      referenceResult parsing config (dataOf data) (.workflow node subNodes) depth
          (path.map tools.text.uuidStr) =
        storedResult parsing config tools.text loaded.nested (dataOf data) content depth path :=
    hlowered.referenceResult_eq hkeyword htext hnested hdash depth path
  rw [executeWorkflow_iff_of_prepared hwf hkeyword hobjects]
  refine and_congr (exists_congr fun depth => by rw [← hresult]; rfl) ?_
  constructor
  · intro hall path hrequested
    obtain ⟨depth, result', hfound⟩ :=
      hall _ ((hlowered.requested_iff htext hnested path).mpr hrequested)
    exact ⟨depth, result', (hresult depth path).symm.trans hfound⟩
  · intro hall path hrequested
    obtain ⟨component, hnode, -⟩ := id hrequested
    obtain ⟨ids, rfl⟩ := hlowered.exists_path htext hnested hnode
    obtain ⟨depth, result', hfound⟩ :=
      hall ids ((hlowered.requested_iff htext hnested ids).mp hrequested)
    exact ⟨depth, result', (hresult depth ids).trans hfound⟩

end Main

/-! ## A nested sum -/

section Sums

attribute [local instance] asciiOnly

/-- Tools with which every component returns the sum of its inputs. -/
def numberTools : ParsingTools ℤ ℕ Unit where
  loadComponent := fun _ =>
    some ⟨fun values => .ok [(some ['s'], (values.map Prod.snd).sum)], [some ['a']], false⟩
  ofJson := fun value => (value.getD 0).toNat
  parseValue := fun _ _ value => some value
  refusesName := fun name => name = "keys".toList

/-- Adapters which return the number three for every source. -/
def numberLoading : LoadingTools ℤ ℕ Unit where
  loadDataFromAdapter := fun _ requests => .ok (requests.map fun request => (request.1, 3))
  updateMetadata := fun _ value => value

/-- Sums do not depend on the order. -/
theorem numberTools_keywordArguments : KeywordArguments numberTools := by
  intro uuid computation hload values values' _ hperm
  obtain rfl := Option.some.inj hload
  exact congrArg (fun sum => Except.ok [(some ['s'], sum)]) (hperm.map Prod.snd).sum_eq

/-- The workflow 5 is prepared and executed. -/
theorem outerContent_executed : ∃ input parsedWf objects fuel state,
    prepareExecutionInput plainPreparationTools sumDb sumReader ⟨5, 5⟩ sumRequest =
      some (.ok input) ∧
    prepareWorkflow numberTools numberLoading input.workflow input.workflowWiring =
      .ok (parsedWf, objects) ∧
    executeWorkflow ⟨false, 0⟩ objects fuel parsedWf =
      some (.ok ([(some ['z'], 3)], state)) := by
  have hall : (prepareExecutionInput plainPreparationTools sumDb sumReader ⟨5, 5⟩ sumRequest).map
      (Except.map fun input => decide ((prepareWorkflow numberTools numberLoading input.workflow
          input.workflowWiring).toOption.bind (fun prepared =>
        (executeWorkflow ⟨false, 0⟩ prepared.2 20 prepared.1).bind fun executed =>
          executed.toOption.map Prod.fst) = some [(some ['z'], 3)])) = some (.ok true) := by
    decide +kernel
  obtain ⟨result, hresult, hmap⟩ := Option.map_eq_some_iff.mp hall
  obtain ⟨input, rfl, hexecuted⟩ := map_eq_ok.mp hmap
  obtain ⟨⟨parsedWf, objects⟩, hprepared, hexecuted⟩ :=
    Option.bind_eq_some_iff.mp (of_decide_eq_true hexecuted)
  obtain ⟨executed, hreturned, hexecuted⟩ := Option.bind_eq_some_iff.mp hexecuted
  obtain ⟨⟨values, state⟩, hok, rfl⟩ := Option.map_eq_some_iff.mp hexecuted
  rw [toOption_eq_some.mp hok] at hreturned
  exact ⟨input, parsedWf, objects, 20, state, hresult, toOption_eq_some.mp hprepared, hreturned⟩

/-- Instance of `executeWorkflow_iff_storedResult`. -/
theorem outerContent_storedResult : ∃ loaded content data depth,
    loadWorkflow plainPreparationTools sumDb sumReader sumRequest.id = .ok loaded ∧
      requireWorkflow loaded.trWorkflow = .ok content ∧
      storedResult numberTools ⟨false, 0⟩ plainPreparationTools.text loaded.nested (dataOf data)
        content depth [] = some [(some ['z'], 3)] := by
  obtain ⟨input, parsedWf, objects, fuel, state, hinput, hprepared, hexecuted⟩ :=
    outerContent_executed
  obtain ⟨loaded, content, data, hloaded, hcontent, -, hiff⟩ :=
    executeWorkflow_iff_storedResult hinput plainText_uuidTexts sumDb_identifiable
      numberTools_keywordArguments hprepared
  obtain ⟨⟨depth, hstored⟩, -⟩ := (hiff _).mp ⟨fuel, state, hexecuted⟩
  exact ⟨loaded, content, data, depth, hloaded, hcontent, hstored⟩

end Sums

end HetidaDesigner
