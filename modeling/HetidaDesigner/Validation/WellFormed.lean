import HetidaDesigner.Validation.Acceptance

/-!
# When accepted workflow contents are well-formed

In a well-formed content no two links end at the same place, every exposed operator input has
exactly one source, and all references lead to existing connectors and ios. Validation looks
for sources in a dictionary of links which keeps only the last link to an operator input, and
it never looks at the operators constants refer to. `SingleSources` says which data makes up
for that; the remaining parts of well-formedness hold for all accepted data.
-/

namespace HetidaDesigner

open LastEntry

variable {V : Type}

/-! ## Well-formed contents -/

/-- Some operator has an input under the key. -/
def HasInput (operators : List (Operator V)) (key : UUID × UUID) : Prop :=
  ∃ input, (key, input) ∈ inputConnectors operators

/-- Some operator has an exposed input under the key. -/
def HasExposedInput (operators : List (Operator V)) (key : UUID × UUID) : Prop :=
  ∃ input, (key, input) ∈ inputConnectors operators ∧ input.exposed = true

/-- Some operator has an output under the key. -/
def HasOutput (operators : List (Operator V)) (key : UUID × UUID) : Prop :=
  ∃ output, (key, output) ∈ outputConnectors operators

/-- The link comes from an operator and ends at the operator input under the key. -/
def linkFromOperatorTo (key : UUID × UUID) (link : Link) : Bool :=
  link.start.operator ≠ none ∧ link.finish.key = (some key.1, key.2)

/-- The number of links from operators, constants and dynamic inputs that feed an operator
input. -/
def sourceCount (links : List Link) (constants : List WorkflowContentConstantInput)
    (inputs : List (WorkflowContentDynamicInput V)) (key : UUID × UUID) : ℕ :=
  links.countP (linkFromOperatorTo key) + constants.countP (fun constant => constant.key = key) +
    inputs.countP (fun wfInput => wfInput.key = key)

namespace WorkflowContent

/-- All references of a content lead somewhere, and its connectors are fed as they should be. -/
structure WellFormed (content : WorkflowContent V) : Prop where
  linkStarts : ∀ link ∈ content.links, ∀ operator, link.start.operator = some operator →
    HasOutput content.operators (operator, link.start.connector.id)
  linkEnds : ∀ link ∈ content.links, ∀ operator, link.finish.operator = some operator →
    HasExposedInput content.operators (operator, link.finish.connector.id)
  oneLinkPerEnd : (content.links.map fun link => link.finish.key).Nodup
  oneSource : ∀ key, HasExposedInput content.operators key →
    sourceCount content.links content.constants content.inputs key = 1
  inputsRefer : ∀ wfInput ∈ content.inputs, HasInput content.operators wfInput.key
  constantsRefer : ∀ constant ∈ content.constants, HasInput content.operators constant.key
  outputsRefer : ∀ wfOutput ∈ content.outputs, HasOutput content.operators wfOutput.key
  outerStarts : ∀ link ∈ content.links, link.start.operator = none →
    (∃ constant ∈ content.constants, constant.id = link.start.connector.id) ∨
      ∃ wfInput ∈ content.inputs, wfInput.id = link.start.connector.id
  outerEnds : ∀ link ∈ content.links, link.finish.operator = none →
    ∃ wfOutput ∈ content.outputs, wfOutput.id = link.finish.connector.id

/-- The matched links whose outer ends are constants or kept named ios. -/
def survivingLinks (data : WorkflowContent V) : List Link :=
  cleanUpOuterLinks data.constants data.keptInputs data.keptOutputs data.matchedLinks

/-- The number of exposed operator inputs under a key. -/
def exposedCount (operators : List (Operator V)) (key : UUID × UUID) : ℕ :=
  (inputConnectors operators).countP fun connector => connector.1 = key ∧ connector.2.exposed

/-- Validation sees no source for the operator input under the key: no kept dynamic input, no
constant, and the last link to it, if any, comes from outside. -/
def sourceMissing (data : WorkflowContent V) (key : UUID × UUID) : Bool :=
  !(data.keptInputs.any fun wfInput => wfInput.key = key) &&
    !(data.constants.any fun constant => constant.key = key) &&
    match linkByEnd data.matchedLinks (some key.1, key.2) with
    | none => true
    | some link => link.start.operator = none

/-- The sources of an operator input in the data, before any is generated. -/
def dataSources (data : WorkflowContent V) (key : UUID × UUID) : ℕ :=
  sourceCount data.matchedLinks data.constants data.keptInputs key

/-- Data on which the unchecked cases do not arise: constants refer to operator inputs, no two
surviving links end at the same place, and an exposed operator input has one source, which validation
must not overlook if it looks for one, or has none, but is the only one of its key and inputs are
given. -/
structure SingleSources (keys : IoKeys) (data : WorkflowContent V) : Prop where
  constantsRefer : ∀ constant ∈ data.constants, HasInput data.operators constant.key
  endsDiffer : (data.survivingLinks.map fun link => link.finish.key).Nodup
  sources : ∀ key, HasExposedInput data.operators key →
    (data.dataSources key = 1 ∧ (keys.inputs = true → data.sourceMissing key = false)) ∨
      (keys.inputs = true ∧ data.dataSources key = 0 ∧ exposedCount data.operators key = 1)

/-- Generated ids differ from the ids which the links of the data mention. -/
def FreshIds (uuid4 : ℕ → UUID) (data : WorkflowContent V) : Prop :=
  ∀ i, ∀ link ∈ data.links,
    uuid4 i ≠ link.start.connector.id ∧ uuid4 i ≠ link.finish.connector.id

end WorkflowContent

/-! ## Existing connectors -/

/-- Renaming does not touch connectors. -/
@[simp] theorem hasInput_renameOperators (operators : List (Operator V)) (key : UUID × UUID) :
    HasInput (renameOperators operators) key ↔ HasInput operators key := by
  simp only [HasInput, inputConnectors_renameOperators]

@[simp] theorem hasExposedInput_renameOperators (operators : List (Operator V))
    (key : UUID × UUID) :
    HasExposedInput (renameOperators operators) key ↔ HasExposedInput operators key := by
  simp only [HasExposedInput, inputConnectors_renameOperators]

@[simp] theorem hasOutput_renameOperators (operators : List (Operator V)) (key : UUID × UUID) :
    HasOutput (renameOperators operators) key ↔ HasOutput operators key := by
  simp only [HasOutput, outputConnectors_renameOperators]

/-- An input found in the dictionary exists. -/
theorem mem_inputConnectors_of_operatorInputById {operators : List (Operator V)}
    {key : UUID × UUID} {input : OperatorInput V}
    (h : operatorInputById operators key = some input) :
    (key, input) ∈ inputConnectors operators := by
  rw [operatorInputById_eq, Option.map_eq_some_iff] at h
  obtain ⟨⟨key', input'⟩, hlast, rfl⟩ := h
  obtain ⟨hmem, rfl⟩ := mem_of_lastEntry hlast
  exact hmem

/-- An output found in the dictionary exists. -/
theorem mem_outputConnectors_of_operatorOutputById {operators : List (Operator V)}
    {key : UUID × UUID} {output : OperatorOutput}
    (h : operatorOutputById operators key = some output) :
    (key, output) ∈ outputConnectors operators := by
  rw [operatorOutputById_eq, Option.map_eq_some_iff] at h
  obtain ⟨⟨key', output'⟩, hlast, rfl⟩ := h
  obtain ⟨hmem, rfl⟩ := mem_of_lastEntry hlast
  exact hmem

/-- A link that matches the operators starts outside or at an operator output. -/
theorem hasOutput_of_linkMatchesOperators {operators : List (Operator V)} {link : Link}
    (h : linkMatchesOperators operators link = true) {operator : UUID}
    (hstart : link.start.operator = some operator) :
    HasOutput operators (operator, link.start.connector.id) := by
  simp only [linkMatchesOperators, linkInvalidDueToOperatorOutput, hstart] at h
  cases houtput : operatorOutputById operators (operator, link.start.connector.id) with
  | none => simp [houtput] at h
  | some output => exact ⟨output, mem_outputConnectors_of_operatorOutputById houtput⟩

/-- A link that matches the operators ends outside or at an exposed operator input. -/
theorem hasExposedInput_of_linkMatchesOperators {operators : List (Operator V)} {link : Link}
    (h : linkMatchesOperators operators link = true) {operator : UUID}
    (hfinish : link.finish.operator = some operator) :
    HasExposedInput operators (operator, link.finish.connector.id) := by
  simp only [linkMatchesOperators, linkInvalidDueToOperatorInput, hfinish] at h
  cases hinput : operatorInputById operators (operator, link.finish.connector.id) with
  | none => simp [hinput] at h
  | some input =>
    simp only [hinput, Bool.not_or, Bool.not_not, Bool.and_eq_true] at h
    exact ⟨input, mem_inputConnectors_of_operatorInputById hinput, h.2.2⟩

/-- A kept dynamic input refers to an operator input. -/
theorem hasInput_of_wfInputKept {operators : List (Operator V)} {links : List Link}
    {wfInput : WorkflowContentDynamicInput V} (h : wfInputKept operators links wfInput = true) :
    HasInput operators wfInput.key := by
  simp only [wfInputKept, wfInputUnnecessary] at h
  cases hinput : operatorInputById operators wfInput.key with
  | none => simp [hinput] at h
  | some input => exact ⟨input, mem_inputConnectors_of_operatorInputById hinput⟩

/-- A kept output refers to an operator output. -/
theorem hasOutput_of_wfOutputKept {operators : List (Operator V)} {links : List Link}
    {wfOutput : WorkflowContentOutput} (h : wfOutputKept operators links wfOutput = true) :
    HasOutput operators wfOutput.key := by
  simp only [wfOutputKept, wfOutputUnnecessary] at h
  cases houtput : operatorOutputById operators wfOutput.key with
  | none => simp [houtput] at h
  | some output => exact ⟨output, mem_outputConnectors_of_operatorOutputById houtput⟩

/-- The outer start of a valid link is a constant or a named dynamic input. -/
theorem outerStart_of_outerLinkValid {constants : List WorkflowContentConstantInput}
    {inputs : List (WorkflowContentDynamicInput V)} {outputs : List WorkflowContentOutput}
    {link : Link} (h : outerLinkValid constants inputs outputs link = true)
    (hstart : link.start.operator = none) :
    (∃ constant ∈ constants, constant.id = link.start.connector.id) ∨
      ∃ wfInput ∈ inputs, wfInput.id = link.start.connector.id ∧ wfInput.named = true := by
  simp only [outerLinkValid, outerLinkInvalidDueToWorkflowInput, hstart, Bool.and_eq_true] at h
  by_cases hconstant : (constants.any fun constant => constant.id = link.start.connector.id) = true
  · obtain ⟨constant, hmem, hid⟩ := List.any_eq_true.mp hconstant
    exact Or.inl ⟨constant, hmem, of_decide_eq_true hid⟩
  · cases hinput : lastEntry (fun wfInput => wfInput.id) inputs link.start.connector.id with
    | none => simp [hconstant, hinput] at h
    | some wfInput =>
      obtain ⟨hmem, hid⟩ := mem_of_lastEntry hinput
      exact Or.inr ⟨wfInput, hmem, hid, by simpa [hconstant, hinput] using h.1⟩

/-- The outer end of a valid link is a named output. -/
theorem outerEnd_of_outerLinkValid {constants : List WorkflowContentConstantInput}
    {inputs : List (WorkflowContentDynamicInput V)} {outputs : List WorkflowContentOutput}
    {link : Link} (h : outerLinkValid constants inputs outputs link = true)
    (hfinish : link.finish.operator = none) :
    ∃ wfOutput ∈ outputs, wfOutput.id = link.finish.connector.id ∧ wfOutput.named = true := by
  simp only [outerLinkValid, outerLinkInvalidDueToWorkflowOutput, hfinish, Bool.and_eq_true] at h
  cases houtput : lastEntry (fun wfOutput => wfOutput.id) outputs link.finish.connector.id with
  | none => simp [houtput] at h
  | some wfOutput =>
    obtain ⟨hmem, hid⟩ := mem_of_lastEntry houtput
    exact ⟨wfOutput, hmem, hid, by simpa [houtput] using h.2⟩

end HetidaDesigner
