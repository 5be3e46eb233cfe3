import HetidaDesigner.Library.KeyedList
import HetidaDesigner.Models.WorkflowContent

/-!
# Transformation revisions and their validation

The data and the validators of `persistence/models/transformation.py`. Timestamps are instants,
so turning them into UTC changes nothing. Wirings are not looked into by validation; their type
`W` is a parameter.

The io interface of a workflow is made to fit its content after all fields are validated. The
source works through the entries of the interface with a dictionary of the content ios, from
which it deletes what it has seen; what is left in the dictionary is appended.
-/

namespace HetidaDesigner

open Checks KeyedList LastEntry

/-- An instant. -/
abbrev Timestamp := ℤ

/-- The content of a revision is code or a workflow. -/
inductive Content (V : Type)
  | code (text : PyStr)
  | workflow (content : WorkflowContent V)
  deriving DecidableEq

/-- A component or workflow revision. -/
structure TransformationRevision (V W : Type) where
  id : UUID
  revisionGroupId : UUID
  name : PyStr
  description : PyStr
  category : PyStr
  versionTag : PyStr
  disabledTimestamp : Option Timestamp
  releasedTimestamp : Option Timestamp
  state : State
  type : TrafoType
  ioInterface : IOInterface V
  documentation : PyStr
  content : Content V
  testWiring : W
  releaseWiring : Option W
  deriving DecidableEq

/-- Strings accepted as `ValidStr`. -/
def validStr [UnicodeData] (s : PyStr) : Bool :=
  (if s.getLast? = some '\n' then s.dropLast else s).all allowedChar

section Fit

variable {A B : Type}

/-- The values of a dictionary comprehension over a list, in insertion order. -/
def dictById (key : A → UUID) (l : List A) : List A := l.foldl (insertEntry key) []

/-- The loop over the entries of one side of the io interface: the entries after adjustment,
the surplus ones among them, and the content ios without a counterpart. -/
def adjustEntries (key : A → UUID) (key' : B → UUID) (fits : A → B → Bool) (toEntry : A → B) :
    List A → List B → List B × List B × List A
  | dict, [] => ([], [], dict)
  | dict, entry :: rest =>
    match dict.find? fun a => key a = key' entry with
    | none =>
      let (entries, surplus, dict) := adjustEntries key key' fits toEntry dict rest
      (entry :: entries, entry :: surplus, dict)
    | some a =>
      let (entries, surplus, dict) :=
        adjustEntries key key' fits toEntry (dict.filter fun b => key b ≠ key' entry) rest
      ((if fits a entry then entry else toEntry a) :: entries, surplus, dict)

/-- One side of the io interface after fitting it to the content ios: surplus entries are
removed, each at its first occurrence, and the missing ones are appended. -/
def fitEntries [DecidableEq B] (key : A → UUID) (key' : B → UUID) (fits : A → B → Bool)
    (toEntry : A → B) (ios : List A) (entries : List B) : List B :=
  let (adjusted, surplus, dict) := adjustEntries key key' fits toEntry (dictById key ios) entries
  surplus.foldl List.erase adjusted ++ dict.map toEntry

end Fit

section Validate

variable {V : Type}

/-- The io interface fitted to a workflow content. -/
def fitIoInterface [DecidableEq V] (content : WorkflowContent V) (ioInterface : IOInterface V) :
    IOInterface V where
  inputs := fitEntries (fun wfInput => wfInput.id) (fun trInput => trInput.id)
    WorkflowContentDynamicInput.matchesTrafoInput
    WorkflowContentDynamicInput.toTransformationInput content.inputs ioInterface.inputs
  outputs := fitEntries (fun wfOutput => wfOutput.id) (fun trOutput => trOutput.id)
    WorkflowContentIo.matchesTrafoOutput
    WorkflowContentIo.toTransformationOutput content.outputs ioInterface.outputs

/-- An operator without its unnamed inputs and outputs. -/
def filterUnnamedOperatorIos (operator : Operator V) : Operator V :=
  { operator with
    inputs := operator.inputs.filter fun input => input.named
    outputs := operator.outputs.filter fun output => output.named }

/-- The validator `filter_unnamed_operator_inputs_and_outputs`. -/
def WorkflowContent.filterUnnamedOperatorInputsAndOutputs (content : WorkflowContent V) :
    WorkflowContent V :=
  { content with operators := content.operators.map filterUnnamedOperatorIos }

/-- The validator `content_operators_only_drafts_allowed_in_draft_workflows`. -/
def onlyDraftsAllowedInDraftWorkflows (state : State) (operators : List (Operator V)) :
    Except ValidationError Unit :=
  match operators.find? fun operator => operator.state = .draft ∧ state ≠ .draft with
  | none => .ok ()
  | some operator => .error (.draftOperatorInNonDraftWorkflow operator.id operator.name)

/-- The validators of the field `content` for workflows, for data with some keys. -/
def validateWorkflowContentWith [UnicodeData] (keys : IoKeys) (uuid4 : ℕ → UUID) (state : State)
    (data : WorkflowContent V) : Except ValidationError (WorkflowContent V) := do
  let content ← data.validateWith keys uuid4
  onlyDraftsAllowedInDraftWorkflows state content.operators
  return content.filterUnnamedOperatorInputsAndOutputs

/-- The validators of the field `content` for workflows, for data with all keys. -/
def validateWorkflowContent [UnicodeData] (uuid4 : ℕ → UUID) (state : State)
    (data : WorkflowContent V) : Except ValidationError (WorkflowContent V) :=
  validateWorkflowContentWith .all uuid4 state data

variable {W : Type}

namespace TransformationRevision

/-- The strings of a revision pass their own validation. -/
def stringsValid [UnicodeData] (data : TransformationRevision V W) : Bool :=
  nonEmptyValidStr data.name ∧ validStr data.description ∧ nonEmptyValidStr data.category ∧
    shortNonEmptyValidStr data.versionTag

/-- The validator `version_tag_not_latest`. -/
def versionTagNotLatest (data : TransformationRevision V W) : Bool :=
  data.versionTag.map Char.toLower ≠ ['l', 'a', 't', 'e', 's', 't']

/-- The released timestamp, for which the disabled timestamp stands in if it is unset. -/
def releasedTimestampOrDisabled (data : TransformationRevision V W) : Option Timestamp :=
  data.releasedTimestamp.or data.disabledTimestamp

/-- The validator `timestamps_set_corresponding_to_state`. -/
def timestampsFitState (data : TransformationRevision V W) : Bool :=
  match data.state with
  | .draft => data.releasedTimestampOrDisabled = none
  | .released => data.releasedTimestampOrDisabled ≠ none ∧ data.disabledTimestamp = none
  | .disabled => data.disabledTimestamp ≠ none

/-- The validator `io_interface_no_names_empty`. -/
def ioInterfaceNamed (data : TransformationRevision V W) : Bool :=
  data.state = .draft ∨
    (data.ioInterface.inputs.all fun input => input.named) ∧
      data.ioInterface.outputs.all fun output => output.named

/-- Validation of the data of a transformation revision, in whose workflow content some keys may be
missing. -/
def validateWith [UnicodeData] [DecidableEq V] (keys : IoKeys) (uuid4 : ℕ → UUID)
    (data : TransformationRevision V W) : Except ValidationError (TransformationRevision V W) := do
  require data.stringsValid .invalidString
  require data.versionTagNotLatest .versionTagLatest
  require data.timestampsFitState .timestampsNotFittingToState
  require data.ioInterface.ioNamesUnique .duplicateNames
  require data.ioInterfaceNamed .emptyIoName
  let data := { data with releasedTimestamp := data.releasedTimestampOrDisabled }
  match data.type, data.content with
  | .component, .code _ => return data
  | .workflow, .workflow contentData =>
    let content ← validateWorkflowContentWith keys uuid4 data.state contentData
    return { data with
      content := .workflow content
      ioInterface := fitIoInterface content data.ioInterface }
  | _, _ => throw .contentTypeMismatch

/-- Validation of the data of a transformation revision with all keys. -/
def validate [UnicodeData] [DecidableEq V] (uuid4 : ℕ → UUID)
    (data : TransformationRevision V W) : Except ValidationError (TransformationRevision V W) :=
  data.validateWith .all uuid4

end TransformationRevision

end Validate

end HetidaDesigner
