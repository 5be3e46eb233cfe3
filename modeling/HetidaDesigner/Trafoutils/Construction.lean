import HetidaDesigner.Backend.Wrapping
import HetidaDesigner.Models.Lifecycle

/-!
# Workflows constructed by calls

The class `WorkflowConstructor` of `trafoutils/workflow_construction.py`: its methods declare
operators, links, ios and constants, and `finalize` makes a revision of them, whose validators add
what is missing. The infos which the methods return are named by the number of the operator and the
name of its input or output.
-/

namespace HetidaDesigner

open Checks KeyedList LastEntry

/-! ## Calls -/

/-- The places where ids are drawn during a construction. Calls are numbered. -/
inductive ConstructionDraw
  | operator (call : ℕ) (draw : WrapperDraw)
  | link (call : ℕ)
  | ioLink (call : ℕ)
  | io (call : ℕ)
  | content (index : ℕ)
  | release (index : ℕ)
  deriving DecidableEq, Repr

/-- An input or output of an operator by the number of the operator and by its name. -/
structure ConnectorRef where
  operator : ℕ
  name : PyStr
  deriving DecidableEq, Repr

/-- Calls of the methods which declare something. A default value may be `None`. -/
inductive ConstructionCall (V W : Type)
  | op (trafo : TransformationRevision V W) (name : Option PyStr)
  | link (start finish : ConnectorRef)
  | output (name : PyStr) (source : ConnectorRef)
  | input (name : PyStr) (target : ConnectorRef) (optional : Bool) (defaultValue : Option V)
  | constant (target : ConnectorRef) (value : PyStr)

/-- Reasons for a call to raise. -/
inductive ConstructionError
  | notFound
  | invalidOperator
  | invalidLink
  | inputOccupied
  | alreadyOutput
  | alreadyLinkStart
  deriving DecidableEq, Repr

/-- What has been declared so far. The flags of the infos are the keys of the inputs which are
blocked, of the outputs at which links start, and of the outputs of the workflow. -/
structure Construction (V : Type) where
  calls : ℕ
  position : Position
  operators : List (Operator V)
  links : List Link
  ioLinks : List Link
  contentOutputs : List WorkflowContentOutput
  contentInputs : List (WorkflowContentDynamicInput V)
  trafoOutputs : List TransformationOutput
  trafoInputs : List (TransformationInput V)
  constants : List WorkflowContentConstantInput
  blocked : List (UUID × UUID)
  linkStarts : List (UUID × UUID)
  trafoOutputKeys : List (UUID × UUID)

/-- The options of a construction: how default values are written into contents, and whether
operators are arranged. -/
structure ConstructionOptions (V : Type) where
  contentValue : Option V → V
  autoarrange : Bool

section Calls

variable {V W : Type}

/-- Nothing is declared at first. -/
def Construction.empty : Construction V :=
  ⟨0, .origin, [], [], [], [], [], [], [], [], [], [], []⟩

namespace Construction

/-- The output of an operator with a name; of several with one name the last one. -/
def findOutput (state : Construction V) (ref : ConnectorRef) :
    Except ConstructionError (Operator V × OperatorOutput) :=
  match state.operators[ref.operator]? with
  | none => .error .notFound
  | some operator =>
    match lastEntry (fun output => output.name) operator.outputs (some ref.name) with
    | none => .error .notFound
    | some output => .ok (operator, output)

/-- The input of an operator with a name; of several with one name the last one. -/
def findInput (state : Construction V) (ref : ConnectorRef) :
    Except ConstructionError (Operator V × OperatorInput V) :=
  match state.operators[ref.operator]? with
  | none => .error .notFound
  | some operator =>
    match lastEntry (fun input => input.name) operator.inputs (some ref.name) with
    | none => .error .notFound
    | some input => .ok (operator, input)

end Construction

/-- The end of a link at an operator, with the connector at the origin. -/
def operatorVertex (operatorId : UUID) (io : Io) : Vertex :=
  ⟨some operatorId, { toIo := io, position := .origin }⟩

/-- The end of a link at an io of the workflow. -/
def outerVertex (id : UUID) (name : Option PyStr) (dataType : DataType) : Vertex :=
  ⟨none, { id := id, name := name, dataType := dataType, position := .origin }⟩

instance (start finish : DataType) : Decidable (typesMatch start finish) :=
  inferInstanceAs (Decidable (_ ∨ _ ∨ _))

/-- A link, if the validators of links accept it. -/
def Link.create (id : UUID) (start finish : Vertex) : Except ConstructionError Link :=
  if h : typesMatch start.connector.dataType finish.connector.dataType ∧
      start.operator ≠ finish.operator ∧ ¬ (start.operator = none ∧ finish.operator = none) then
    .ok ⟨id, start, finish, [], h.1, h.2.1, h.2.2⟩
  else .error .invalidLink

/-- The link from an io of the workflow to an operator input. -/
def linkToInput (id ioId : UUID) (name : Option PyStr) (operator : Operator V)
    (input : OperatorInput V) : Link where
  id := id
  start := outerVertex ioId name input.dataType
  finish := operatorVertex operator.id input.toIo
  path := []
  types_match := Or.inl rfl
  no_self_reference := nofun
  no_link_without_operator := nofun

/-- The link from an operator output to an output of the workflow. -/
def linkFromOutput (id ioId : UUID) (name : PyStr) (operator : Operator V)
    (output : OperatorOutput) : Link where
  id := id
  start := operatorVertex operator.id output.toIo
  finish := outerVertex ioId (some name) output.dataType
  path := []
  types_match := Or.inl rfl
  no_self_reference := nofun
  no_link_without_operator := nofun

/-- The upper edge of the io with an index at an operator. -/
def ioHeight (operator : Operator V) (index : ℕ) : ℚ :=
  operator.position.y + 50 + 10 + (20 + 10) * index

/-- The kind of an input of the workflow. -/
def inputKind (optional : Bool) (value : Option V) : InputTypeMixIn V where
  type := if optional then .optional else .required
  value := if optional then value else none
  value_set_only_for_optional_input := by cases optional <;> simp

/-- The output of the content for an operator output. -/
def declaredOutput (id : UUID) (name : PyStr) (operator : Operator V) (output : OperatorOutput) :
    WorkflowContentOutput where
  id := id
  name := some name
  dataType := output.dataType
  position := ⟨operator.position.x + 450,
    ioHeight operator (operator.outputs.findIdx fun other => other.name = output.name)⟩
  operatorId := operator.id
  connectorId := output.id
  operatorName := operator.name
  connectorName := output.name

/-- The input of the content for an operator input; it is placed later. -/
def declaredInput (id : UUID) (name : PyStr) (kind : InputTypeMixIn V) (operator : Operator V)
    (input : OperatorInput V) : WorkflowContentDynamicInput V where
  id := id
  name := some name
  dataType := input.dataType
  position := .origin
  operatorId := operator.id
  connectorId := input.id
  operatorName := operator.name
  connectorName := input.name
  toInputTypeMixIn := kind

/-- The constant for an operator input. -/
def declaredConstant (id : UUID) (value : PyStr) (operator : Operator V) (input : OperatorInput V) :
    WorkflowContentConstantInput where
  id := id
  name := some []
  dataType := input.dataType
  position := .origin
  operatorId := operator.id
  connectorId := input.id
  operatorName := operator.name
  connectorName := input.name
  value := value
  name_none := Or.inr rfl

namespace Construction

/-- One more link. -/
def withLink (state : Construction V) (made : Link) (start finish : UUID × UUID) :
    Construction V :=
  { state with
    calls := state.calls + 1
    links := state.links ++ [made]
    blocked := finish :: state.blocked
    linkStarts := start :: state.linkStarts }

/-- One more output. -/
def withOutput (state : Construction V) (wfOutput : WorkflowContentOutput) (made : Link) :
    Construction V :=
  { state with
    calls := state.calls + 1
    contentOutputs := state.contentOutputs ++ [wfOutput]
    ioLinks := state.ioLinks ++ [made]
    trafoOutputs := state.trafoOutputs ++ [wfOutput.toTransformationOutput]
    trafoOutputKeys := wfOutput.key :: state.trafoOutputKeys }

/-- One more input, whose kind in the interface has the default value as it was given. -/
def withInput (state : Construction V) (wfInput : WorkflowContentDynamicInput V)
    (kind : InputTypeMixIn V) (made : Link) : Construction V :=
  { state with
    calls := state.calls + 1
    contentInputs := state.contentInputs ++ [wfInput]
    ioLinks := state.ioLinks ++ [made]
    trafoInputs := state.trafoInputs ++ [{ toIo := wfInput.toIo, toInputTypeMixIn := kind }]
    blocked := wfInput.key :: state.blocked }

/-- One more constant. -/
def withConstant (state : Construction V) (wfConstant : WorkflowContentConstantInput)
    (made : Link) : Construction V :=
  { state with
    calls := state.calls + 1
    constants := state.constants ++ [wfConstant]
    ioLinks := state.ioLinks ++ [made]
    blocked := wfConstant.key :: state.blocked }

variable (options : ConstructionOptions V) (uuid4 : ConstructionDraw → UUID)

/-- The method `op` -/
def op [UnicodeData] (state : Construction V) (trafo : TransformationRevision V W)
    (name : Option PyStr) : Except ConstructionError (Construction V) := do
  let operator := trafo.toOperator fun draw => uuid4 (.operator state.calls draw)
  let operator := { operator with
    name := name.getD operator.name
    position := if options.autoarrange then state.position else operator.position }
  require operator.stringsValid .invalidOperator
  return { state with
    calls := state.calls + 1
    position := if options.autoarrange then ⟨state.position.x + 700, state.position.y + 300⟩
      else state.position
    operators := state.operators ++ [operator] }

/-- The method `link` -/
def link (state : Construction V) (start finish : ConnectorRef) :
    Except ConstructionError (Construction V) := do
  let (startOperator, output) ← state.findOutput start
  let (finishOperator, input) ← state.findInput finish
  require (decide ((finishOperator.id, input.id) ∉ state.blocked)) .inputOccupied
  require (decide ((startOperator.id, output.id) ∉ state.trafoOutputKeys)) .alreadyOutput
  let made ← Link.create (uuid4 (.link state.calls)) (operatorVertex startOperator.id output.toIo)
    (operatorVertex finishOperator.id input.toIo)
  return state.withLink made (startOperator.id, output.id) (finishOperator.id, input.id)

/-- The method `output` -/
def output (state : Construction V) (name : PyStr) (source : ConnectorRef) :
    Except ConstructionError (Construction V) := do
  let (operator, output) ← state.findOutput source
  require (decide ((operator.id, output.id) ∉ state.linkStarts)) .alreadyLinkStart
  return state.withOutput (declaredOutput (uuid4 (.io state.calls)) name operator output)
    (linkFromOutput (uuid4 (.ioLink state.calls)) (uuid4 (.io state.calls)) name operator output)

/-- The method `input`; the operator input is exposed already. -/
def input (state : Construction V) (name : PyStr) (target : ConnectorRef) (optional : Bool)
    (defaultValue : Option V) : Except ConstructionError (Construction V) := do
  let (operator, input) ← state.findInput target
  require (decide ((operator.id, input.id) ∉ state.blocked)) .inputOccupied
  return state.withInput (declaredInput (uuid4 (.io state.calls)) name
      (inputKind optional (some (options.contentValue defaultValue))) operator input)
    (inputKind optional defaultValue)
    (linkToInput (uuid4 (.ioLink state.calls)) (uuid4 (.io state.calls)) (some name) operator input)

/-- The method `constant` -/
def constant (state : Construction V) (target : ConnectorRef) (value : PyStr) :
    Except ConstructionError (Construction V) := do
  let (operator, input) ← state.findInput target
  require (decide ((operator.id, input.id) ∉ state.blocked)) .inputOccupied
  return state.withConstant (declaredConstant (uuid4 (.io state.calls)) value operator input)
    (linkToInput (uuid4 (.ioLink state.calls)) (uuid4 (.io state.calls)) none operator input)

/-- One call. -/
def call [UnicodeData] (state : Construction V) :
    ConstructionCall V W → Except ConstructionError (Construction V)
  | .op trafo name => state.op options uuid4 trafo name
  | .link start finish => state.link uuid4 start finish
  | .output name source => state.output uuid4 name source
  | .input name target optional defaultValue =>
    state.input options uuid4 name target optional defaultValue
  | .constant target value => state.constant uuid4 target value

end Construction

/-- The state after calls none of which raises. -/
def construct [UnicodeData] (options : ConstructionOptions V) (uuid4 : ConstructionDraw → UUID)
    (calls : List (ConstructionCall V W)) : Except ConstructionError (Construction V) :=
  calls.foldlM (fun state call => state.call options uuid4 call) .empty

end Calls

/-! ## The workflow -/

/-- What is known of the revision from the start. -/
structure WorkflowMetadata where
  id : UUID
  revisionGroupId : UUID
  name : PyStr
  description : PyStr
  category : PyStr
  versionTag : PyStr
  disabledTimestamp : Option Timestamp
  releasedTimestamp : Option Timestamp
  state : State
  documentation : PyStr
  autoRelease : Bool
  deriving DecidableEq

section Finalize

variable {V W : Type}

/-- `order_operator_inputs` -/
def orderOperatorInputs (inputs : List (OperatorInput V)) : List (OperatorInput V) :=
  (inputs.filter fun input => input.type = .required) ++
    inputs.filter fun input => input.type = .optional

/-- `fix_input_ordering` -/
def Operator.fixInputOrdering (operator : Operator V) : Operator V :=
  { operator with inputs := orderOperatorInputs operator.inputs }

namespace Construction

/-- An input next to the operator input to which it leads. -/
def placedInput (operators : List (Operator V)) (wfInput : WorkflowContentDynamicInput V) :
    WorkflowContentDynamicInput V :=
  match operators.find? fun operator => operator.id = wfInput.operatorId with
  | none => wfInput
  | some operator =>
    let positionIndex := (operator.inputs.filter fun input => input.exposed).findIdx
      fun input => input.name = wfInput.connectorName
    { wfInput with position := ⟨operator.position.x - 270, ioHeight operator positionIndex⟩ }

/-- The data of the content. -/
def contentData (state : Construction V) : WorkflowContent V :=
  let operators := state.operators.map Operator.fixInputOrdering
  { operators := operators
    links := state.links ++ state.ioLinks
    constants := state.constants
    inputs := state.contentInputs.map (placedInput operators)
    outputs := state.contentOutputs }

/-- The data of the revision with a content. -/
def revisionData (metadata : WorkflowMetadata) (testWiring : W) (state : Construction V)
    (content : WorkflowContent V) : TransformationRevision V W where
  id := metadata.id
  revisionGroupId := metadata.revisionGroupId
  name := metadata.name
  description := metadata.description
  category := metadata.category
  versionTag := metadata.versionTag
  disabledTimestamp := metadata.disabledTimestamp
  releasedTimestamp := metadata.releasedTimestamp
  state := metadata.state
  type := .workflow
  ioInterface := ⟨state.trafoInputs, state.trafoOutputs⟩
  documentation := metadata.documentation
  content := .workflow content
  testWiring := testWiring
  releaseWiring := none

variable [UnicodeData] [DecidableEq V]

/-- The revision before it is released. -/
def validated (metadata : WorkflowMetadata) (testWiring : W) (uuid4 : ConstructionDraw → UUID)
    (state : Construction V) : Except ValidationError (TransformationRevision V W) := do
  let content ← state.contentData.validate fun i => uuid4 (.content i)
  (state.revisionData metadata testWiring state.contentData).validateWithContent content

/-- The method `finalize` -/
def finalize (metadata : WorkflowMetadata) (testWiring : W) (uuid4 : ConstructionDraw → UUID)
    (now : Timestamp) (state : Construction V) :
    Except ValidationError (TransformationRevision V W) := do
  let result ← state.validated metadata testWiring uuid4
  if metadata.autoRelease then result.release (fun i => uuid4 (.release i)) now
  else return result

end Construction

end Finalize

end HetidaDesigner
