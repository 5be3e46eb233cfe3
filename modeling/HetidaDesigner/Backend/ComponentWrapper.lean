import HetidaDesigner.Runtime.Nodes

/-!
# Components wrapped into workflows

For its execution a component becomes the only operator of a workflow. This is the method
`wrap_component_in_tr_workflow` with the methods it uses. Each id is drawn where the source draws
it; the draws of validation come after those of the parts.

The content of the wrapper has been validated when the wrapper itself is, and is not validated
again then.
-/

namespace HetidaDesigner

open Checks

/-- The places where ids of a wrapper are drawn. -/
inductive WrapperDraw
  | operatorInput (index : ℕ)
  | operatorOutput (index : ℕ)
  | operator
  | workflowInput (index : ℕ)
  | workflowOutput (index : ℕ)
  | inputLink (index : ℕ)
  | outputLink (index : ℕ)
  | content (index : ℕ)
  | wrapper
  | revisionGroup
  deriving DecidableEq, Repr

/-- The documentation of revisions which are given none. -/
def defaultDocumentation : PyStr :=
  ("# New Component/Workflow\n## Description\n## Inputs\n## Outputs\n## Details\n" ++
    "## Examples\n").toList

section Wrap

variable {V W : Type}

/-- `from_transformation_input` -/
def OperatorInput.ofTransformationInput (id : UUID) (input : TransformationInput V) :
    OperatorInput V where
  id := id
  name := input.name
  dataType := input.dataType
  position := .origin
  toInputTypeMixIn := input.toInputTypeMixIn
  exposed := true
  required_inputs_exposed := fun _ => rfl

/-- `from_transformation_output` -/
def operatorOutputOfTransformationOutput (id : UUID) (output : TransformationOutput) :
    OperatorOutput where
  id := id
  name := output.name
  dataType := output.dataType
  position := .origin

/-- `to_operator` -/
def TransformationRevision.toOperator (uuid4 : WrapperDraw → UUID)
    (revision : TransformationRevision V W) : Operator V where
  id := uuid4 .operator
  revisionGroupId := revision.revisionGroupId
  name := revision.name
  type := revision.type
  state := revision.state
  versionTag := revision.versionTag
  transformationId := revision.id
  inputs := revision.ioInterface.inputs.mapIdx fun i input =>
    .ofTransformationInput (uuid4 (.operatorInput i)) input
  outputs := revision.ioInterface.outputs.mapIdx fun i output =>
    operatorOutputOfTransformationOutput (uuid4 (.operatorOutput i)) output
  position := .origin

/-- `from_operator_input` -/
def WorkflowContentDynamicInput.ofOperatorInput (id : UUID) (operator : Operator V)
    (input : OperatorInput V) : WorkflowContentDynamicInput V where
  id := id
  name := input.name
  dataType := input.dataType
  position := .origin
  operatorId := operator.id
  connectorId := input.id
  operatorName := operator.name
  connectorName := input.name
  toInputTypeMixIn := input.toInputTypeMixIn

/-- `from_operator_output` -/
def workflowOutputOfOperatorOutput (id : UUID) (operator : Operator V) (output : OperatorOutput) :
    WorkflowContentOutput where
  id := id
  name := output.name
  dataType := output.dataType
  position := .origin
  operatorId := operator.id
  connectorId := output.id
  operatorName := operator.name
  connectorName := output.name

/-- The link from a workflow input to the operator input it was made of. -/
def inputLink (linkId wfInputId : UUID) (operator : Operator V) (input : OperatorInput V) :
    Link where
  id := linkId
  start := {
    operator := none
    connector := (WorkflowContentDynamicInput.ofOperatorInput wfInputId operator input).toConnector }
  finish := { operator := some operator.id, connector := input.toConnector }
  path := []
  types_match := Or.inl rfl
  no_self_reference := nofun
  no_link_without_operator := nofun

/-- The link from an operator output to the workflow output made of it. -/
def outputLink (linkId wfOutputId : UUID) (operator : Operator V) (output : OperatorOutput) :
    Link where
  id := linkId
  start := { operator := some operator.id, connector := output }
  finish := {
    operator := none
    connector := (workflowOutputOfOperatorOutput wfOutputId operator output).toConnector }
  path := []
  types_match := Or.inl rfl
  no_self_reference := nofun
  no_link_without_operator := nofun

/-- The data of the content which wraps an operator. -/
def wrapperContent (uuid4 : WrapperDraw → UUID) (operator : Operator V) : WorkflowContent V where
  operators := [operator]
  links :=
    (operator.inputs.mapIdx fun i input =>
      inputLink (uuid4 (.inputLink i)) (uuid4 (.workflowInput i)) operator input) ++
    operator.outputs.mapIdx fun i output =>
      outputLink (uuid4 (.outputLink i)) (uuid4 (.workflowOutput i)) operator output
  constants := []
  inputs := operator.inputs.mapIdx fun i input =>
    .ofOperatorInput (uuid4 (.workflowInput i)) operator input
  outputs := operator.outputs.mapIdx fun i output =>
    workflowOutputOfOperatorOutput (uuid4 (.workflowOutput i)) operator output

variable [UnicodeData] [DecidableEq V]

/-- Validation of a workflow revision whose content has been validated before. -/
def TransformationRevision.validateWithContent (data : TransformationRevision V W)
    (content : WorkflowContent V) : Except ValidationError (TransformationRevision V W) := do
  require data.stringsValid .invalidString
  require data.versionTagNotLatest .versionTagLatest
  require data.timestampsFitState .timestampsNotFittingToState
  require data.ioInterface.ioNamesUnique .duplicateNames
  require data.ioInterfaceNamed .emptyIoName
  onlyDraftsAllowedInDraftWorkflows data.state content.operators
  let filtered := content.filterUnnamedOperatorInputsAndOutputs
  return { data with
    releasedTimestamp := data.releasedTimestampOrDisabled
    content := .workflow filtered
    ioInterface := fitIoInterface filtered data.ioInterface }

/-- The name of a wrapper. -/
def wrapperName (text : TextTools V) (revision : TransformationRevision V W) : PyStr :=
  "COMPONENT EXECUTION WRAPPER WORKFLOW for component ".toList ++ revision.name ++ " (".toList ++
    revision.versionTag ++ ") with id ".toList ++ text.uuidStr revision.id

/-- `wrap_component_in_tr_workflow` -/
def TransformationRevision.wrapComponentInTrWorkflow (text : TextTools V)
    (uuid4 : WrapperDraw → UUID) (revision : TransformationRevision V W) :
    Except ValidationError (TransformationRevision V W) := do
  let data := wrapperContent uuid4 (revision.toOperator uuid4)
  let content ← data.validate fun i => uuid4 (.content i)
  let wrapper : TransformationRevision V W := {
    id := uuid4 .wrapper
    revisionGroupId := uuid4 .revisionGroup
    name := wrapperName text revision
    description := []
    category := revision.category
    versionTag := revision.versionTag
    disabledTimestamp := revision.disabledTimestamp
    releasedTimestamp := revision.releasedTimestamp
    state := revision.state
    type := .workflow
    ioInterface := {
      inputs := data.inputs.map fun wfInput => wfInput.toTransformationInput
      outputs := data.outputs.map fun wfOutput => wfOutput.toTransformationOutput }
    documentation := defaultDocumentation
    content := .workflow content
    testWiring := revision.testWiring
    releaseWiring := revision.releaseWiring }
  wrapper.validateWithContent content

end Wrap

end HetidaDesigner
