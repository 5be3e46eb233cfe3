import HetidaDesigner.Models.Lifecycle

/-!
# Nodes of the runtime

The data of `models/workflow.py` and `models/component.py` which the backend hands to the
runtime, and the methods which convert ios, links and contents to it. Ids become texts, by `str`;
constants are texts and become values of arbitrary type. Values which the models reject cannot be
built; a conversion that would build one fails.
-/

namespace HetidaDesigner

open Checks

/-- `str` on ids, and texts as values of arbitrary type. -/
structure TextTools (V : Type) where
  uuidStr : UUID → PyStr
  ofStr : PyStr → V

/-- Reasons for not building the input of an execution. -/
inductive ExecutionError
  | validation
  | integrity
  | wrongType
  | keyError
  | assertion
  deriving DecidableEq, Repr

/-- An input of a workflow node. A constant one has no name but a value. That others have a name is
only checked if it is given whether they are constant. -/
structure WorkflowInput (V : Type) where
  id : UUID
  name : Option PyStr
  type : DataType
  idOfSubNode : PyStr
  nameInSubnode : PyStr
  constantValue : Option V
  defaultValue : Option V
  constant : Bool
  default : Bool
  name_or_constant_data_provided : constant = true → name = none ∧ constantValue ≠ none

/-- An output of a workflow node. -/
structure WorkflowOutput where
  id : UUID
  name : PyStr
  type : DataType
  idOfSubNode : PyStr
  nameInSubnode : PyStr
  deriving DecidableEq

/-- A connection leads from an output, which its first two fields are about, to an input. -/
structure WorkflowConnection where
  inputInWorkflowId : PyStr
  inputName : PyStr
  outputInWorkflowId : PyStr
  outputName : PyStr
  deriving DecidableEq

/-- A component used in a workflow node. -/
structure ComponentNode where
  id : PyStr
  componentUuid : PyStr
  name : Option PyStr
  deriving DecidableEq

/-- The data of a workflow node apart from its sub nodes. -/
structure WorkflowNodeData (V : Type) where
  id : PyStr
  connections : List WorkflowConnection
  inputs : List (WorkflowInput V)
  outputs : List WorkflowOutput
  name : Option PyStr
  trId : UUID
  trName : PyStr
  trTag : PyStr

/-- Component nodes and workflow nodes with their sub nodes. -/
inductive SubNode (V : Type)
  | component (node : ComponentNode)
  | workflow (node : WorkflowNodeData V) (subNodes : List (SubNode V))

/-- The id of a node in its workflow. -/
def SubNode.id {V : Type} : SubNode V → PyStr
  | .component node => node.id
  | .workflow node _ => node.id

section Convert

variable {V : Type} (text : TextTools V)

/-- A name which has to be there. -/
def requireName : Option PyStr → Except ExecutionError PyStr
  | some name => .ok name
  | none => .error .validation

/-- A name which has to be an identifier; that names which are not empty are identifiers has been
checked before. -/
def requireIdentifier : Option PyStr → Except ExecutionError PyStr
  | some (c :: name) => .ok (c :: name)
  | _ => .error .validation

/-- `to_workflow_input` for dynamic inputs -/
def WorkflowContentDynamicInput.toWorkflowInput (wfInput : WorkflowContentDynamicInput V) :
    Except ExecutionError (WorkflowInput V) := do
  let name ← requireIdentifier wfInput.name
  let nameInSubnode ← requireName wfInput.connectorName
  return {
    id := wfInput.id
    name := some name
    type := wfInput.dataType
    idOfSubNode := text.uuidStr wfInput.operatorId
    nameInSubnode := nameInSubnode
    constantValue := none
    defaultValue := wfInput.value
    constant := false
    default := wfInput.type = .optional
    name_or_constant_data_provided := by simp }

/-- `to_workflow_input` for constants -/
def WorkflowContentConstantInput.toWorkflowInput (constant : WorkflowContentConstantInput) :
    Except ExecutionError (WorkflowInput V) := do
  let nameInSubnode ← requireName constant.connectorName
  return {
    id := constant.id
    name := none
    type := constant.dataType
    idOfSubNode := text.uuidStr constant.operatorId
    nameInSubnode := nameInSubnode
    constantValue := some (text.ofStr constant.value)
    defaultValue := none
    constant := true
    default := false
    name_or_constant_data_provided := by simp }

/-- `to_workflow_output` -/
def WorkflowContentIo.toWorkflowOutput (wfOutput : WorkflowContentOutput) :
    Except ExecutionError WorkflowOutput := do
  let name ← requireIdentifier wfOutput.name
  let nameInSubnode ← requireName wfOutput.connectorName
  return {
    id := wfOutput.id
    name := name
    type := wfOutput.dataType
    idOfSubNode := text.uuidStr wfOutput.operatorId
    nameInSubnode := nameInSubnode }

/-- `to_connection` for a link between operators; other links are no connections. -/
def Link.toConnection (link : Link) : Except ExecutionError (Option WorkflowConnection) :=
  match link.start.operator, link.finish.operator with
  | some start, some finish => do
    let inputName ← requireName link.start.connector.name
    let outputName ← requireName link.finish.connector.name
    return some {
      inputInWorkflowId := text.uuidStr start
      inputName := inputName
      outputInWorkflowId := text.uuidStr finish
      outputName := outputName }
  | _, _ => return none

/-- `to_workflow_node` of workflow contents; the id is a text already. -/
def WorkflowContent.toWorkflowNode (content : WorkflowContent V) (transformationId : UUID)
    (transformationName transformationTag : PyStr) (operatorId : PyStr)
    (operatorName : Option PyStr) (subNodes : List (SubNode V)) :
    Except ExecutionError (SubNode V) := do
  let dynamicInputs ← content.inputs.mapM fun wfInput => wfInput.toWorkflowInput text
  let constantInputs ← content.constants.mapM fun constant => constant.toWorkflowInput text
  let outputs ← content.outputs.mapM fun wfOutput => wfOutput.toWorkflowOutput text
  let connections ← content.links.mapM fun link => link.toConnection text
  return .workflow
    { id := operatorId
      connections := connections.filterMap id
      inputs := dynamicInputs ++ constantInputs
      outputs := outputs
      name := operatorName
      trId := transformationId
      trName := transformationName
      trTag := transformationTag }
    subNodes

/-- `to_component_node` -/
def TransformationRevision.toComponentNode {W : Type} (revision : TransformationRevision V W)
    (operatorId : UUID) (operatorName : PyStr) : Except ExecutionError (SubNode V) := do
  require (revision.type = .component) .wrongType
  return .component
    { id := text.uuidStr operatorId
      componentUuid := text.uuidStr revision.id
      name := some operatorName }

end Convert

end HetidaDesigner
