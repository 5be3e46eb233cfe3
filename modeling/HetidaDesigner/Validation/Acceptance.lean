import HetidaDesigner.Validation.Cleanup

/-!
# What an accepted workflow content looks like

Operator names play no role in any lookup, so the validators which rewrite them can be ignored
when it is decided which links and ios are kept. An accepted content is then given by filters
on the data, and by the ios generated for operator connectors that are left over.
-/

namespace HetidaDesigner

open Checks LastEntry

variable {V : Type}

/-! ## Lookups do not depend on operator names -/

/-- The operator inputs under their keys. -/
def inputConnectors (operators : List (Operator V)) : List ((UUID × UUID) × OperatorInput V) :=
  (operatorInputs operators).map fun entry => (inputKey entry, entry.2)

/-- The operator outputs under their keys. -/
def outputConnectors (operators : List (Operator V)) : List ((UUID × UUID) × OperatorOutput) :=
  (operatorOutputs operators).map fun entry => (outputKey entry, entry.2)

/-- Input connectors are read off the ids and inputs of the operators. -/
theorem inputConnectors_eq (operators : List (Operator V)) :
    inputConnectors operators =
      (operators.map fun operator => (operator.id, operator.inputs)).flatMap fun data =>
        data.2.map fun input => ((data.1, input.id), input) := by
  rw [inputConnectors, operatorInputs, List.map_flatMap, List.flatMap_map]
  simp only [List.map_map]
  rfl

/-- Output connectors are read off the ids and outputs of the operators. -/
theorem outputConnectors_eq (operators : List (Operator V)) :
    outputConnectors operators =
      (operators.map fun operator => (operator.id, operator.outputs)).flatMap fun data =>
        data.2.map fun output => ((data.1, output.id), output) := by
  rw [outputConnectors, operatorOutputs, List.map_flatMap, List.flatMap_map]
  simp only [List.map_map]
  rfl

@[simp] theorem inputConnectors_renameOperators (operators : List (Operator V)) :
    inputConnectors (renameOperators operators) = inputConnectors operators := by
  rw [inputConnectors_eq, renameOperators_map _ (fun _ _ => rfl), ← inputConnectors_eq]

@[simp] theorem outputConnectors_renameOperators (operators : List (Operator V)) :
    outputConnectors (renameOperators operators) = outputConnectors operators := by
  rw [outputConnectors_eq, renameOperators_map _ (fun _ _ => rfl), ← outputConnectors_eq]

/-- The input dictionary is the one of the input connectors. -/
theorem operatorInputById_eq (operators : List (Operator V)) (key : UUID × UUID) :
    operatorInputById operators key =
      (lastEntry Prod.fst (inputConnectors operators) key).map Prod.snd := by
  have hmap := lastEntry_map Prod.fst (f := fun entry : Operator V × OperatorInput V =>
    (inputKey entry, entry.2)) (fun _ => rfl) (operatorInputs operators) key
  rw [inputConnectors, hmap, operatorInputById, Option.map_map]
  rfl

/-- The output dictionary is the one of the output connectors. -/
theorem operatorOutputById_eq (operators : List (Operator V)) (key : UUID × UUID) :
    operatorOutputById operators key =
      (lastEntry Prod.fst (outputConnectors operators) key).map Prod.snd := by
  have hmap := lastEntry_map Prod.fst (f := fun entry : Operator V × OperatorOutput =>
    (outputKey entry, entry.2)) (fun _ => rfl) (operatorOutputs operators) key
  rw [outputConnectors, hmap, operatorOutputById, Option.map_map]
  rfl

@[simp] theorem operatorInputById_renameOperators (operators : List (Operator V)) :
    operatorInputById (renameOperators operators) = operatorInputById operators := by
  funext key
  rw [operatorInputById_eq, inputConnectors_renameOperators, ← operatorInputById_eq]

@[simp] theorem operatorOutputById_renameOperators (operators : List (Operator V)) :
    operatorOutputById (renameOperators operators) = operatorOutputById operators := by
  funext key
  rw [operatorOutputById_eq, outputConnectors_renameOperators, ← operatorOutputById_eq]

@[simp] theorem linkMatchesOperators_renameOperators (operators : List (Operator V)) :
    linkMatchesOperators (renameOperators operators) = linkMatchesOperators operators := by
  funext link
  simp only [linkMatchesOperators, linkInvalidDueToOperatorOutput, linkInvalidDueToOperatorInput,
    operatorInputById_renameOperators, operatorOutputById_renameOperators]

@[simp] theorem wfInputKept_renameOperators (operators : List (Operator V)) :
    wfInputKept (renameOperators operators) = wfInputKept operators := by
  funext links wfInput
  simp only [wfInputKept, wfInputUnnecessary, operatorInputById_renameOperators]

@[simp] theorem wfOutputKept_renameOperators (operators : List (Operator V)) :
    wfOutputKept (renameOperators operators) = wfOutputKept operators := by
  funext links wfOutput
  simp only [wfOutputKept, wfOutputUnnecessary, operatorOutputById_renameOperators]

/-! ## Parts of the data which are kept -/

namespace WorkflowContent

/-- The links which match the operators; the cycle check and all ios are about these. -/
def matchedLinks (data : WorkflowContent V) : List Link :=
  linkConnectorsMatchOperatorIos data.operators data.links

/-- The dynamic inputs which survive the clean-up. -/
def keptInputs (data : WorkflowContent V) : List (WorkflowContentDynamicInput V) :=
  data.inputs.filter (wfInputKept data.operators data.matchedLinks)

/-- The outputs which survive the clean-up. -/
def keptOutputs (data : WorkflowContent V) : List WorkflowContentOutput :=
  data.outputs.filter (wfOutputKept data.operators data.matchedLinks)

/-- The inputs generated for data. -/
def newInputs (uuid4 : ℕ → UUID) (data : WorkflowContent V) :
    List (WorkflowContentDynamicInput V) :=
  addedInputs uuid4 (renameOperators data.operators) data.matchedLinks data.constants
    data.keptInputs

/-- The outputs generated for data. -/
def newOutputs (uuid4 : ℕ → UUID) (data : WorkflowContent V) : List WorkflowContentOutput :=
  addedOutputs (fun i => uuid4 ((data.newInputs uuid4).length + i))
    (renameOperators data.operators) data.matchedLinks data.keptOutputs

/-- The inputs generated for data with some keys. -/
def newInputsWith (keys : IoKeys) (uuid4 : ℕ → UUID) (data : WorkflowContent V) :
    List (WorkflowContentDynamicInput V) :=
  if keys.inputs then data.newInputs uuid4 else []

/-- The outputs generated for data with some keys. -/
def newOutputsWith (keys : IoKeys) (uuid4 : ℕ → UUID) (data : WorkflowContent V) :
    List WorkflowContentOutput :=
  if keys.outputs then
    addedOutputs (fun i => uuid4 ((data.newInputsWith keys uuid4).length + i))
      (renameOperators data.operators) data.matchedLinks data.keptOutputs
  else []

/-- The relation between data with some keys and the content made of it by validation. -/
structure AcceptedWith [UnicodeData] (keys : IoKeys) (uuid4 : ℕ → UUID)
    (data content : WorkflowContent V) : Prop where
  strings : data.operators.all Operator.stringsValid
  operators : content.operators = renameOperators data.operators
  acyclic : linksAcyclicDirectedGraph data.matchedLinks
  constants : content.constants = data.constants
  inputs : content.inputs = data.keptInputs ++ data.newInputsWith keys uuid4
  outputs : content.outputs = data.keptOutputs ++ data.newOutputsWith keys uuid4
  links : SameButPositions content.links
    (cleanUpOuterLinks data.constants content.inputs content.outputs data.matchedLinks)
  inputNames : namesEmptyOrUnique (fun wfInput => wfInput.toIo) content.inputs
  outputNames : namesEmptyOrUnique (fun wfOutput => wfOutput.toIo) content.outputs

/-- The relation between data with all keys and the content made of it by validation. -/
abbrev Accepted [UnicodeData] (uuid4 : ℕ → UUID) (data content : WorkflowContent V) : Prop :=
  data.AcceptedWith .all uuid4 content

end WorkflowContent

/-- The inputs to be added do not depend on link positions. -/
theorem SameButPositions.addedInputs {links links' : List Link} (h : SameButPositions links links')
    (uuid4 : ℕ → UUID) (operators : List (Operator V))
    (constants : List WorkflowContentConstantInput)
    (inputs : List (WorkflowContentDynamicInput V)) :
    HetidaDesigner.addedInputs uuid4 operators links constants inputs =
      HetidaDesigner.addedInputs uuid4 operators links' constants inputs := by
  unfold HetidaDesigner.addedInputs
  congr 1
  refine List.filter_congr fun entry _ => ?_
  rw [← operatorInputUnlinked_atOrigin links, ← operatorInputUnlinked_atOrigin links', h]

/-- The outputs to be added do not depend on link positions. -/
theorem SameButPositions.addedOutputs {links links' : List Link}
    (h : SameButPositions links links') (uuid4 : ℕ → UUID) (operators : List (Operator V))
    (outputs : List WorkflowContentOutput) :
    HetidaDesigner.addedOutputs uuid4 operators links outputs =
      HetidaDesigner.addedOutputs uuid4 operators links' outputs := by
  unfold HetidaDesigner.addedOutputs
  congr 1
  refine List.filter_congr fun entry _ => ?_
  rw [← operatorOutputUnlinked_atOrigin links, ← operatorOutputUnlinked_atOrigin links', h]

/-- Whether an outer link is valid does not depend on its positions. -/
theorem outerLinkValid_atOrigin (constants : List WorkflowContentConstantInput)
    (inputs : List (WorkflowContentDynamicInput V)) (outputs : List WorkflowContentOutput)
    (link : Link) :
    outerLinkValid constants inputs outputs link.atOrigin =
      outerLinkValid constants inputs outputs link := rfl

/-- Links between operators are valid whatever the outer ios are. -/
theorem outerLinkValid_of_inner (constants : List WorkflowContentConstantInput)
    (inputs : List (WorkflowContentDynamicInput V)) (outputs : List WorkflowContentOutput)
    {link : Link} (hstart : link.start.operator ≠ none) (hfinish : link.finish.operator ≠ none) :
    outerLinkValid constants inputs outputs link = true := by
  obtain ⟨start, hstart⟩ := Option.ne_none_iff_exists'.mp hstart
  obtain ⟨finish, hfinish⟩ := Option.ne_none_iff_exists'.mp hfinish
  simp [outerLinkValid, outerLinkInvalidDueToWorkflowInput, outerLinkInvalidDueToWorkflowOutput,
    hstart, hfinish]

namespace WorkflowContent

/-- The inputs of a content which is accepted with all keys. -/
theorem Accepted.inputs [UnicodeData] {uuid4 : ℕ → UUID} {data content : WorkflowContent V}
    (h : data.Accepted uuid4 content) :
    content.inputs = data.keptInputs ++ data.newInputs uuid4 :=
  AcceptedWith.inputs h

/-- The outputs of a content which is accepted with all keys. -/
theorem Accepted.outputs [UnicodeData] {uuid4 : ℕ → UUID} {data content : WorkflowContent V}
    (h : data.Accepted uuid4 content) :
    content.outputs = data.keptOutputs ++ data.newOutputs uuid4 :=
  AcceptedWith.outputs h

/-- An accepted content is made of the data which is kept and the ios which are generated. -/
theorem acceptedWith_of_validateWith [UnicodeData] {keys : IoKeys} {uuid4 : ℕ → UUID}
    {data content : WorkflowContent V} (h : data.validateWith keys uuid4 = .ok content) :
    (data.received keys).AcceptedWith keys uuid4 content := by
  unfold validateWith at h
  generalize data.received keys = data at h ⊢
  dsimp only at h
  have hmatched : linkConnectorsMatchOperatorIos (renameOperators data.operators) data.links =
      data.matchedLinks := by
    rw [matchedLinks, linkConnectorsMatchOperatorIos, linkMatchesOperators_renameOperators]
    rfl
  obtain ⟨hstrings, h⟩ := require_bind_eq_ok.mp h
  obtain ⟨hacyclic, h⟩ := require_bind_eq_ok.mp h
  obtain ⟨⟨kept, aligned⟩, hinputs, h⟩ := bind_eq_ok.mp h
  obtain ⟨hinputNames, h⟩ := require_bind_eq_ok.mp h
  obtain ⟨houtputNames, h⟩ := require_bind_eq_ok.mp h
  obtain rfl := return_eq_ok.mp h
  rw [hmatched] at hacyclic hinputs
  obtain ⟨hkept, hlinks⟩ := cleanUpWorkflowContentInputs_ok hinputs
  obtain ⟨hkeptOutputs, hlinks'⟩ := cleanUpWorkflowContentOutputs_spec
    (renameOperators data.operators) aligned data.outputs
  rw [wfInputKept_renameOperators, ← keptInputs] at hkept
  rw [wfOutputKept_renameOperators, hlinks.wfOutputKept, ← keptOutputs] at hkeptOutputs
  have hadded : (if keys.inputs = true then
      addedInputs uuid4 (renameOperators data.operators) aligned data.constants kept else []) =
        data.newInputsWith keys uuid4 := by
    rw [newInputsWith, newInputs, hlinks.addedInputs, hkept]
  refine ⟨hstrings, rfl, hacyclic, rfl, ?_, ?_, (hlinks'.trans hlinks).filter
    (outerLinkValid_atOrigin _ _ _), hinputNames, houtputNames⟩
  · exact congrArg₂ _ hkept hadded
  · refine congrArg₂ _ hkeptOutputs ?_
    rw [hkeptOutputs, hadded, newOutputsWith, (hlinks'.trans hlinks).addedOutputs]

/-- With all keys the data is what is received. -/
theorem accepted_of_validate [UnicodeData] {uuid4 : ℕ → UUID}
    {data content : WorkflowContent V} (h : data.validate uuid4 = .ok content) :
    data.Accepted uuid4 content :=
  acceptedWith_of_validateWith h

end WorkflowContent

end HetidaDesigner
