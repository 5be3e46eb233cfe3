import HetidaDesigner.Store.Shape

/-!
# Validation does not look at deprecation marks

Of the state of an operator validation only asks whether it is a draft. So a mark on an operator
which is not a draft passes through validation without any effect on the rest.
-/

namespace HetidaDesigner

open Checks TransformationRevision

/-- A workflow content with a marked operator. -/
def WorkflowContent.markDisabled {V : Type} (operatorId : UUID) (content : WorkflowContent V) :
    WorkflowContent V :=
  { content with operators := content.operators.map (HetidaDesigner.markDisabled operatorId) }

variable {V : Type} (operatorId : UUID)

/-! ## The parts of validation -/

/-- A mark changes nothing but the state. -/
theorem markDisabled_eq (operator : Operator V) :
    markDisabled operatorId operator =
      { operator with state := (markDisabled operatorId operator).state } := by
  unfold markDisabled
  split <;> rfl

@[simp] theorem markDisabled_id (operator : Operator V) :
    (markDisabled operatorId operator).id = operator.id := by
  rw [markDisabled_eq]

@[simp] theorem markDisabled_name (operator : Operator V) :
    (markDisabled operatorId operator).name = operator.name := by
  rw [markDisabled_eq]

@[simp] theorem markDisabled_inputs (operator : Operator V) :
    (markDisabled operatorId operator).inputs = operator.inputs := by
  rw [markDisabled_eq]

@[simp] theorem markDisabled_outputs (operator : Operator V) :
    (markDisabled operatorId operator).outputs = operator.outputs := by
  rw [markDisabled_eq]

/-- Renaming and marking an operator commute. -/
theorem markDisabled_rename (operator : Operator V) (name : PyStr) :
    { markDisabled operatorId operator with name := name } =
      markDisabled operatorId { operator with name := name } := by
  unfold markDisabled
  split <;> rfl

/-- A marked operator is not a draft, and one without a mark keeps its state. -/
theorem markDisabled_state_ne_draft {operator : Operator V} (h : operator.state ≠ .draft) :
    (markDisabled operatorId operator).state ≠ .draft := by
  unfold markDisabled
  split
  · exact fun h => by cases h
  · exact h

@[simp] theorem operatorInputs_markDisabled (operators : List (Operator V)) :
    operatorInputs (operators.map (markDisabled operatorId)) =
      (operatorInputs operators).map fun entry => (markDisabled operatorId entry.1, entry.2) := by
  simp only [operatorInputs, List.flatMap_map, List.map_flatMap, List.map_map, markDisabled_inputs]
  rfl

@[simp] theorem operatorOutputs_markDisabled (operators : List (Operator V)) :
    operatorOutputs (operators.map (markDisabled operatorId)) =
      (operatorOutputs operators).map fun entry => (markDisabled operatorId entry.1, entry.2) := by
  simp only [operatorOutputs, List.flatMap_map, List.map_flatMap, List.map_map,
    markDisabled_outputs]
  rfl

@[simp] theorem operatorInputById_markDisabled (operators : List (Operator V)) :
    operatorInputById (operators.map (markDisabled operatorId)) = operatorInputById operators := by
  funext key
  rw [operatorInputById_eq, inputConnectors_eq, List.map_map, operatorInputById_eq,
    inputConnectors_eq]
  simp only [Function.comp_def, markDisabled_id, markDisabled_inputs]

@[simp] theorem operatorOutputById_markDisabled (operators : List (Operator V)) :
    operatorOutputById (operators.map (markDisabled operatorId)) =
      operatorOutputById operators := by
  funext key
  rw [operatorOutputById_eq, outputConnectors_eq, List.map_map, operatorOutputById_eq,
    outputConnectors_eq]
  simp only [Function.comp_def, markDisabled_id, markDisabled_outputs]

@[simp] theorem linkConnectorsMatch_markDisabled (operators : List (Operator V))
    (links : List Link) :
    linkConnectorsMatchOperatorIos (operators.map (markDisabled operatorId)) links =
      linkConnectorsMatchOperatorIos operators links := by
  refine List.filter_congr fun link _ => ?_
  simp only [linkMatchesOperators, linkInvalidDueToOperatorOutput, linkInvalidDueToOperatorInput,
    operatorInputById_markDisabled, operatorOutputById_markDisabled]

/-- The clean-up of inputs does not see marks. -/
@[simp] theorem cleanUpInputs_markDisabled (operators : List (Operator V)) (links : List Link)
    (inputs : List (WorkflowContentDynamicInput V)) :
    cleanUpWorkflowContentInputs (operators.map (markDisabled operatorId)) links inputs =
      cleanUpWorkflowContentInputs operators links inputs := by
  induction inputs generalizing links with
  | nil => rfl
  | cons wfInput rest ih =>
    simp only [cleanUpWorkflowContentInputs, wfInputUnnecessary, operatorInputById_markDisabled, ih]

/-- The clean-up of outputs does not see marks. -/
@[simp] theorem cleanUpOutputs_markDisabled (operators : List (Operator V)) (links : List Link)
    (outputs : List WorkflowContentOutput) :
    cleanUpWorkflowContentOutputs (operators.map (markDisabled operatorId)) links outputs =
      cleanUpWorkflowContentOutputs operators links outputs := by
  induction outputs generalizing links with
  | nil => rfl
  | cons wfOutput rest ih =>
    simp only [cleanUpWorkflowContentOutputs, wfOutputUnnecessary, operatorOutputById_markDisabled,
      ih]

@[simp] theorem addedInputs_markDisabled (uuid4 : ℕ → UUID) (operators : List (Operator V))
    (links : List Link) (constants : List WorkflowContentConstantInput)
    (inputs : List (WorkflowContentDynamicInput V)) :
    addedInputs uuid4 (operators.map (markDisabled operatorId)) links constants inputs =
      addedInputs uuid4 operators links constants inputs := by
  have hunlinked (entry : Operator V × OperatorInput V) :
      operatorInputUnlinked links constants inputs (markDisabled operatorId entry.1, entry.2) =
        operatorInputUnlinked links constants inputs entry := by
    simp only [operatorInputUnlinked, inputKey, markDisabled_id]
    rfl
  have hgenerated (id : UUID) (entry : Operator V × OperatorInput V) :
      generatedInput id (markDisabled operatorId entry.1, entry.2) = generatedInput id entry := by
    simp only [generatedInput, markDisabled_id, markDisabled_name]
  rw [addedInputs, operatorInputs_markDisabled, List.filter_map, addedInputs]
  refine List.ext_getElem? fun i => ?_
  simp only [Function.comp_def, hunlinked, List.getElem?_mapIdx, List.getElem?_map, Option.map_map,
    hgenerated]

@[simp] theorem addedOutputs_markDisabled (uuid4 : ℕ → UUID) (operators : List (Operator V))
    (links : List Link) (outputs : List WorkflowContentOutput) :
    addedOutputs uuid4 (operators.map (markDisabled operatorId)) links outputs =
      addedOutputs uuid4 operators links outputs := by
  have hunlinked (entry : Operator V × OperatorOutput) :
      operatorOutputUnlinked links outputs (markDisabled operatorId entry.1, entry.2) =
        operatorOutputUnlinked links outputs entry := by
    simp only [operatorOutputUnlinked, outputKey, markDisabled_id]
    rfl
  have hgenerated (id : UUID) (entry : Operator V × OperatorOutput) :
      generatedOutput id (markDisabled operatorId entry.1, entry.2) = generatedOutput id entry := by
    simp only [generatedOutput, markDisabled_id, markDisabled_name]
  rw [addedOutputs, operatorOutputs_markDisabled, List.filter_map, addedOutputs]
  refine List.ext_getElem? fun i => ?_
  simp only [Function.comp_def, hunlinked, List.getElem?_mapIdx, List.getElem?_map, Option.map_map,
    hgenerated]

/-- Numbering and marking operators commute. -/
theorem numberOperators_markDisabled (earlier : List PyStr) (operators : List (Operator V)) :
    numberOperators earlier (operators.map (markDisabled operatorId)) =
      (numberOperators earlier operators).map (markDisabled operatorId) := by
  induction operators generalizing earlier with
  | nil => rfl
  | cons operator rest ih =>
    simp only [numberOperators, List.map_cons, ih, markDisabled_name, markDisabled_rename]

/-- Renaming and marking operators commute, unless there are drafts. -/
theorem renameOperators_markDisabled {operators : List (Operator V)}
    (h : ∀ operator ∈ operators, operator.state ≠ .draft) :
    renameOperators (operators.map (markDisabled operatorId)) =
      (renameOperators operators).map (markDisabled operatorId) := by
  have hstates := numberOperators_map (fun operator : Operator V => operator.state)
    (fun _ _ => rfl) [] operators
  have hnumbered : ∀ operator ∈ numberOperators [] operators, operator.state ≠ .draft := by
    intro operator hoperator
    obtain ⟨other, hother, heq⟩ := List.mem_map.mp (hstates ▸ List.mem_map_of_mem hoperator)
    exact fun hdraft => h other hother (heq.trans hdraft)
  rw [renameOperators, operatorNamesUnique, numberOperators_markDisabled,
    operatorNamesRepresentState, renameOperators, operatorNamesUnique,
    operatorNamesRepresentState, List.map_map, List.map_map]
  refine List.map_congr_left fun operator hoperator => ?_
  have hstate := hnumbered operator hoperator
  have hname : nameRepresentingState (markDisabled operatorId operator) =
      nameRepresentingState operator := by
    simp only [nameRepresentingState, if_neg hstate,
      if_neg (markDisabled_state_ne_draft operatorId hstate), markDisabled_name]
  simp only [Function.comp_apply, hname, markDisabled_rename]

/-! ## Validation as a whole -/

variable {operatorId}

/-- A marked content without drafts is accepted as the marked version of what the content
without the mark is accepted as. -/
theorem WorkflowContent.validate_markDisabled [UnicodeData] {uuid4 : ℕ → UUID}
    {data accepted : WorkflowContent V}
    (h : (data.markDisabled operatorId).validate uuid4 = .ok accepted)
    (hdrafts : ∀ operator ∈ data.operators, operator.state ≠ .draft) :
    ∃ content, data.validate uuid4 = .ok content ∧ accepted = content.markDisabled operatorId := by
  unfold WorkflowContent.validate WorkflowContent.validateWith WorkflowContent.markDisabled at h
  simp only [WorkflowContent.received_all, IoKeys.all_inputs, IoKeys.all_outputs, if_true,
    renameOperators_markDisabled operatorId hdrafts, linkConnectorsMatch_markDisabled,
    cleanUpInputs_markDisabled, addedInputs_markDisabled, cleanUpOutputs_markDisabled,
    addedOutputs_markDisabled, List.all_map] at h
  obtain ⟨hstrings, h⟩ := require_bind_eq_ok.mp h
  obtain ⟨hacyclic, h⟩ := require_bind_eq_ok.mp h
  obtain ⟨⟨kept, aligned⟩, hinputs, h⟩ := bind_eq_ok.mp h
  obtain ⟨hinputNames, h⟩ := require_bind_eq_ok.mp h
  obtain ⟨houtputNames, h⟩ := require_bind_eq_ok.mp h
  obtain rfl := return_eq_ok.mp h
  have hvalid : Operator.stringsValid ∘ HetidaDesigner.markDisabled (V := V) operatorId =
      Operator.stringsValid := by
    funext operator
    rw [Function.comp_apply, markDisabled_eq]
    rfl
  rw [hvalid] at hstrings
  refine ⟨_, require_bind_eq_ok.mpr ⟨hstrings, require_bind_eq_ok.mpr ⟨hacyclic,
    bind_eq_ok.mpr ⟨(kept, aligned), hinputs, require_bind_eq_ok.mpr ⟨hinputNames,
      require_bind_eq_ok.mpr ⟨houtputNames, return_eq_ok.mpr rfl⟩⟩⟩⟩⟩, rfl⟩

/-- Filtering unnamed ios and marking an operator commute. -/
theorem filterUnnamed_markDisabled (content : WorkflowContent V) :
    (content.markDisabled operatorId).filterUnnamedOperatorInputsAndOutputs =
      content.filterUnnamedOperatorInputsAndOutputs.markDisabled operatorId := by
  unfold WorkflowContent.filterUnnamedOperatorInputsAndOutputs WorkflowContent.markDisabled
  simp only [List.map_map]
  congr 1
  refine List.map_congr_left fun operator _ => ?_
  by_cases h : operator.id = operatorId
  · simp [filterUnnamedOperatorIos, HetidaDesigner.markDisabled, h]
  · simp [filterUnnamedOperatorIos, HetidaDesigner.markDisabled, h]

/-- The same for all validators of the content. -/
theorem validateWorkflowContent_markDisabled [UnicodeData] {uuid4 : ℕ → UUID} {state : State}
    {data content : WorkflowContent V}
    (h : validateWorkflowContent uuid4 state (data.markDisabled operatorId) = .ok content)
    (hdrafts : ∀ operator ∈ data.operators, operator.state ≠ .draft) :
    ∃ content', validateWorkflowContent uuid4 state data = .ok content' ∧
      content = content'.markDisabled operatorId := by
  obtain ⟨accepted, haccepted, -, rfl⟩ := validateWorkflowContent_eq_ok_iff.mp h
  obtain ⟨accepted', haccepted', rfl⟩ := WorkflowContent.validate_markDisabled haccepted hdrafts
  refine ⟨accepted'.filterUnnamedOperatorInputsAndOutputs,
    validateWorkflowContent_eq_ok_iff.mpr ⟨accepted', haccepted', ?_, rfl⟩,
    filterUnnamed_markDisabled accepted'⟩
  have hstates := renameOperators_map (fun operator : Operator V => operator.state)
    (fun _ _ => rfl) data.operators
  intro operator hoperator hdraft
  rw [(WorkflowContent.accepted_of_validate haccepted').operators] at hoperator
  obtain ⟨other, hother, heq⟩ := List.mem_map.mp (hstates ▸ List.mem_map_of_mem hoperator)
  exact absurd (heq.trans hdraft) (hdrafts other hother)

end HetidaDesigner
