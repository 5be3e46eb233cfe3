import HetidaDesigner.Library.Checks
import HetidaDesigner.Library.LastEntry
import HetidaDesigner.Models.LinkCycles
import HetidaDesigner.Models.Operator

/-!
# Validation of workflow contents

The validators of `WorkflowContent` in `persistence/models/workflow.py`, in the order in which
pydantic runs them: first the operators, then the links, the inputs and the outputs, and last
the links at outer connectors.

The helper dictionaries of the source are lookups in the lists they are built from. A list the
source shrinks by `remove` is filtered: elements which compare equal get the same verdict, so
all of them are removed. Links are shared between the list and the dictionaries, hence a
position adjusted through a dictionary shows in the list as well.

The lists of inputs and outputs have defaults, on which their validators do not run: if one of these
keys is missing, the list stays empty. Operators and links which are missing are the same as empty
ones.
-/

namespace HetidaDesigner

open Checks LastEntry

/-- Reasons for rejecting a workflow content or a transformation revision. -/
inductive ValidationError
  | invalidString
  | linksFormLoop
  | moreThanOneLinkStartingAtInput (id : UUID)
  | duplicateNames
  | draftOperatorInNonDraftWorkflow (operatorId : UUID) (operatorName : PyStr)
  | emptyIoName
  | contentTypeMismatch
  | timestampsNotFittingToState
  | versionTagLatest
  deriving DecidableEq, Repr

/-- The content of a workflow. -/
structure WorkflowContent (V : Type) where
  operators : List (Operator V)
  links : List Link
  constants : List WorkflowContentConstantInput
  inputs : List (WorkflowContentDynamicInput V)
  outputs : List WorkflowContentOutput
  deriving DecidableEq

section Lookups

variable {V : Type}

/-- All operator inputs with their operator, in the order in which the dictionary takes them. -/
def operatorInputs (operators : List (Operator V)) : List (Operator V × OperatorInput V) :=
  operators.flatMap fun operator => operator.inputs.map fun input => (operator, input)

/-- All operator outputs with their operator. -/
def operatorOutputs (operators : List (Operator V)) : List (Operator V × OperatorOutput) :=
  operators.flatMap fun operator => operator.outputs.map fun output => (operator, output)

/-- Key of an operator input in the dictionaries. -/
def inputKey (entry : Operator V × OperatorInput V) : UUID × UUID := (entry.1.id, entry.2.id)

/-- Key of an operator output in the dictionaries. -/
def outputKey (entry : Operator V × OperatorOutput) : UUID × UUID := (entry.1.id, entry.2.id)

/-- The dictionary `operator_input_by_id_tuple_dict`. -/
def operatorInputById (operators : List (Operator V)) (key : UUID × UUID) :
    Option (OperatorInput V) :=
  (lastEntry inputKey (operatorInputs operators) key).map Prod.snd

/-- The dictionary `operator_output_by_id_tuple_dict`. -/
def operatorOutputById (operators : List (Operator V)) (key : UUID × UUID) :
    Option OperatorOutput :=
  (lastEntry outputKey (operatorOutputs operators) key).map Prod.snd

/-- The dictionary `links_by_start_id_tuple_dict`; a missing key gives no links. -/
def linksByStart (links : List Link) (key : Option UUID × UUID) : List Link :=
  entries (fun link => link.start.key) links key

/-- The dictionary `link_by_end_id_tuple_dict`. -/
def linkByEnd (links : List Link) (key : Option UUID × UUID) : Option Link :=
  lastEntry (fun link => link.finish.key) links key

end Lookups

section LinkChecks

variable {V : Type}

/-- A link whose start does not fit an operator output; links starting outside always pass. -/
def linkInvalidDueToOperatorOutput (operators : List (Operator V)) (link : Link) : Bool :=
  match link.start.operator with
  | none => false
  | some operator =>
    match operatorOutputById operators (operator, link.start.connector.id) with
    | none => true
    | some output => !link.start.connector.matchesConnector output

/-- A link whose end does not fit an exposed operator input; links ending outside always pass. -/
def linkInvalidDueToOperatorInput (operators : List (Operator V)) (link : Link) : Bool :=
  match link.finish.operator with
  | none => false
  | some operator =>
    match operatorInputById operators (operator, link.finish.connector.id) with
    | none => true
    | some input => !link.finish.connector.matchesConnector input.toConnector || !input.exposed

/-- A link both of whose operator ends fit the operators. -/
def linkMatchesOperators (operators : List (Operator V)) (link : Link) : Bool :=
  !linkInvalidDueToOperatorOutput operators link && !linkInvalidDueToOperatorInput operators link

/-- The validator `link_connectors_match_operator_ios`. -/
def linkConnectorsMatchOperatorIos (operators : List (Operator V)) (links : List Link) :
    List Link :=
  links.filter (linkMatchesOperators operators)

end LinkChecks

section Inputs

variable {V : Type}

/-- A dynamic input whose operator input is missing, does not match, is not exposed, or is fed
by a link from elsewhere. -/
def wfInputUnnecessary (operators : List (Operator V)) (links : List Link)
    (wfInput : WorkflowContentDynamicInput V) : Bool :=
  match operatorInputById operators wfInput.key with
  | none => true
  | some operatorInput =>
    !wfInput.matchesOperatorIo operatorInput.toConnector || !operatorInput.exposed ||
      match linkByEnd links (some wfInput.operatorId, wfInput.connectorId) with
      | none => false
      | some link => wfInput.id ≠ link.start.connector.id

/-- The link a named input needs: it starts at the input and ends where the input refers to. -/
def linkFitsInput (wfInput : WorkflowContentDynamicInput V) (link : Link) : Bool :=
  wfInput.matchesIo link.start.connector.toIo ∧
    link.finish.key = (some wfInput.operatorId, wfInput.connectorId)

/-- A named dynamic input without a link that fits it; more than one link is an error. -/
def namedWfInputUnnecessary (links : List Link) (wfInput : WorkflowContentDynamicInput V) :
    Except ValidationError Bool :=
  match linksByStart links (none, wfInput.id) with
  | [] => .ok true
  | [link] => .ok !linkFitsInput wfInput link
  | _ => .error (.moreThanOneLinkStartingAtInput wfInput.id)

/-- The side effect of `named_wf_input_unnecessary`: the start connector of the link at the
input takes over the position of the input, once their other data matches. -/
def alignStartPosition (wfInput : WorkflowContentDynamicInput V) (links : List Link) : List Link :=
  links.map fun link =>
    if link.start.key = (none, wfInput.id) ∧ wfInput.matchesIo link.start.connector.toIo then
      link.setStartPosition wfInput.position
    else link

/-- The validator `clean_up_workflow_content_inputs`: the inputs kept, and the links. -/
def cleanUpWorkflowContentInputs (operators : List (Operator V)) :
    List Link → List (WorkflowContentDynamicInput V) →
      Except ValidationError (List (WorkflowContentDynamicInput V) × List Link)
  | links, [] => .ok ([], links)
  | links, wfInput :: rest =>
    if wfInputUnnecessary operators links wfInput then
      cleanUpWorkflowContentInputs operators links rest
    else if wfInput.named then do
      let unnecessary ← namedWfInputUnnecessary links wfInput
      let (kept, links) ←
        cleanUpWorkflowContentInputs operators (alignStartPosition wfInput links) rest
      return (if unnecessary then kept else wfInput :: kept, links)
    else do
      let (kept, links) ← cleanUpWorkflowContentInputs operators links rest
      return (wfInput :: kept, links)

/-- An operator input for which a dynamic input has to be added: it is exposed, no input or
constant refers to it, and no link comes from an operator. -/
def operatorInputUnlinked (links : List Link) (constants : List WorkflowContentConstantInput)
    (inputs : List (WorkflowContentDynamicInput V)) (entry : Operator V × OperatorInput V) : Bool :=
  entry.2.exposed &&
    !(inputs.any fun wfInput => wfInput.key = inputKey entry) &&
    !(constants.any fun constant => constant.key = inputKey entry) &&
    match linkByEnd links (some entry.1.id, entry.2.id) with
    | none => true
    | some link => link.start.operator = none

/-- The unnamed dynamic input generated for an operator input. -/
def generatedInput (id : UUID) (entry : Operator V × OperatorInput V) :
    WorkflowContentDynamicInput V where
  id := id
  name := none
  dataType := entry.2.dataType
  position := .origin
  operatorId := entry.1.id
  connectorId := entry.2.id
  operatorName := entry.1.name
  connectorName := entry.2.name
  type := .required
  value := none
  value_set_only_for_optional_input := fun _ => rfl

/-- The dynamic inputs which the validator
`add_workflow_content_inputs_for_unlinked_operator_inputs` appends. -/
def addedInputs (uuid4 : ℕ → UUID) (operators : List (Operator V)) (links : List Link)
    (constants : List WorkflowContentConstantInput)
    (inputs : List (WorkflowContentDynamicInput V)) : List (WorkflowContentDynamicInput V) :=
  ((operatorInputs operators).filter (operatorInputUnlinked links constants inputs)).mapIdx
    fun i entry => generatedInput (uuid4 i) entry

end Inputs

section Outputs

variable {V : Type}

/-- An output whose operator output is missing, does not match, or feeds a link to elsewhere. -/
def wfOutputUnnecessary (operators : List (Operator V)) (links : List Link)
    (wfOutput : WorkflowContentOutput) : Bool :=
  match operatorOutputById operators wfOutput.key with
  | none => true
  | some operatorOutput =>
    !wfOutput.matchesOperatorIo operatorOutput ||
      (linksByStart links (some wfOutput.operatorId, wfOutput.connectorId)).any fun link =>
        wfOutput.id ≠ link.finish.connector.id

/-- The link a named output needs: it ends at the output and starts where the output refers to. -/
def linkFitsOutput (wfOutput : WorkflowContentOutput) (link : Link) : Bool :=
  wfOutput.matchesIo link.finish.connector.toIo ∧
    link.start.key = (some wfOutput.operatorId, wfOutput.connectorId)

/-- A named output without a link that fits it. -/
def namedWfOutputUnnecessary (links : List Link) (wfOutput : WorkflowContentOutput) : Bool :=
  match linkByEnd links (none, wfOutput.id) with
  | none => true
  | some link => !linkFitsOutput wfOutput link

/-- Apply a change to the last element with some property. -/
def modifyLast (p : Link → Bool) (f : Link → Link) : List Link → List Link
  | [] => []
  | link :: rest =>
    if p link ∧ ¬ rest.any p then f link :: rest else link :: modifyLast p f rest

/-- The side effect of `named_wf_output_unnecessary`: the end connector of the link filed under
the output takes over the position of the output, once their other data matches. -/
def alignEndPosition (wfOutput : WorkflowContentOutput) (links : List Link) : List Link :=
  modifyLast (fun link => link.finish.key = (none, wfOutput.id))
    (fun link =>
      if wfOutput.matchesIo link.finish.connector.toIo then
        link.setFinishPosition wfOutput.position
      else link)
    links

/-- The validator `clean_up_workflow_content_outputs`: the outputs kept, and the links. -/
def cleanUpWorkflowContentOutputs (operators : List (Operator V)) :
    List Link → List WorkflowContentOutput → List WorkflowContentOutput × List Link
  | links, [] => ([], links)
  | links, wfOutput :: rest =>
    if wfOutputUnnecessary operators links wfOutput then
      cleanUpWorkflowContentOutputs operators links rest
    else if wfOutput.named then
      let unnecessary := namedWfOutputUnnecessary links wfOutput
      let (kept, links) :=
        cleanUpWorkflowContentOutputs operators (alignEndPosition wfOutput links) rest
      (if unnecessary then kept else wfOutput :: kept, links)
    else
      let (kept, links) := cleanUpWorkflowContentOutputs operators links rest
      (wfOutput :: kept, links)

/-- An operator output for which an output has to be added: no output refers to it, and no
link starts at it or one of them leaves the workflow. -/
def operatorOutputUnlinked (links : List Link) (outputs : List WorkflowContentOutput)
    (entry : Operator V × OperatorOutput) : Bool :=
  !(outputs.any fun wfOutput => wfOutput.key = outputKey entry) &&
    match linksByStart links (some entry.1.id, entry.2.id) with
    | [] => true
    | starting => starting.any fun link => link.finish.operator = none

/-- The unnamed output generated for an operator output. -/
def generatedOutput (id : UUID) (entry : Operator V × OperatorOutput) : WorkflowContentOutput where
  id := id
  name := none
  dataType := entry.2.dataType
  position := .origin
  operatorId := entry.1.id
  connectorId := entry.2.id
  operatorName := entry.1.name
  connectorName := entry.2.name

/-- The outputs which the validator
`add_workflow_content_outputs_for_unlinked_operator_outputs` appends. -/
def addedOutputs (uuid4 : ℕ → UUID) (operators : List (Operator V)) (links : List Link)
    (outputs : List WorkflowContentOutput) : List WorkflowContentOutput :=
  ((operatorOutputs operators).filter (operatorOutputUnlinked links outputs)).mapIdx
    fun i entry => generatedOutput (uuid4 i) entry

end Outputs

section OuterLinks

variable {V : Type}

/-- A link from outside whose workflow input is missing or an unnamed dynamic input; under an
id shared with a constant the dictionary holds the constant. -/
def outerLinkInvalidDueToWorkflowInput (constants : List WorkflowContentConstantInput)
    (inputs : List (WorkflowContentDynamicInput V)) (link : Link) : Bool :=
  match link.start.operator with
  | some _ => false
  | none =>
    if constants.any fun constant => constant.id = link.start.connector.id then false
    else
      match lastEntry (fun wfInput => wfInput.id) inputs link.start.connector.id with
      | none => true
      | some wfInput => !wfInput.named

/-- A link to the outside whose workflow output is missing or unnamed. -/
def outerLinkInvalidDueToWorkflowOutput (outputs : List WorkflowContentOutput) (link : Link) :
    Bool :=
  match link.finish.operator with
  | some _ => false
  | none =>
    match lastEntry (fun wfOutput => wfOutput.id) outputs link.finish.connector.id with
    | none => true
    | some wfOutput => !wfOutput.named

/-- A link whose outer end, if it has one, is a constant or a named io. -/
def outerLinkValid (constants : List WorkflowContentConstantInput)
    (inputs : List (WorkflowContentDynamicInput V)) (outputs : List WorkflowContentOutput)
    (link : Link) : Bool :=
  !outerLinkInvalidDueToWorkflowInput constants inputs link &&
    !outerLinkInvalidDueToWorkflowOutput outputs link

/-- The validator `clean_up_outer_links`. -/
def cleanUpOuterLinks (constants : List WorkflowContentConstantInput)
    (inputs : List (WorkflowContentDynamicInput V)) (outputs : List WorkflowContentOutput)
    (links : List Link) : List Link :=
  links.filter (outerLinkValid constants inputs outputs)

end OuterLinks

section Keys

variable {V : Type}

/-- Which of the keys `inputs` and `outputs` of a content are given. -/
structure IoKeys where
  inputs : Bool
  outputs : Bool
  deriving DecidableEq, Repr

/-- Both keys are given. -/
def IoKeys.all : IoKeys := ⟨true, true⟩

@[simp] theorem IoKeys.all_inputs : IoKeys.all.inputs = true := rfl

@[simp] theorem IoKeys.all_outputs : IoKeys.all.outputs = true := rfl

/-- The data with the defaults for keys which are missing. -/
def WorkflowContent.received (keys : IoKeys) (data : WorkflowContent V) : WorkflowContent V :=
  { data with
    inputs := if keys.inputs then data.inputs else []
    outputs := if keys.outputs then data.outputs else [] }

/-- If all keys are given, no defaults are needed. -/
@[simp] theorem WorkflowContent.received_all (data : WorkflowContent V) :
    data.received .all = data := rfl

end Keys

section Validate

variable {V : Type} [UnicodeData]

/-- The strings of an operator pass their own validation. -/
def Operator.stringsValid (operator : Operator V) : Bool :=
  nonEmptyValidStr operator.name ∧ shortNonEmptyValidStr operator.versionTag

/-- Validation of workflow content data of which some keys may be missing. -/
def WorkflowContent.validateWith (keys : IoKeys) (uuid4 : ℕ → UUID) (data : WorkflowContent V) :
    Except ValidationError (WorkflowContent V) := do
  let data := data.received keys
  require (data.operators.all Operator.stringsValid) .invalidString
  let operators := renameOperators data.operators
  let matched := linkConnectorsMatchOperatorIos operators data.links
  require (linksAcyclicDirectedGraph matched) .linksFormLoop
  -- without inputs there is nothing to clean up, and their names are unique
  let (kept, aligned) ← cleanUpWorkflowContentInputs operators matched data.inputs
  let added := if keys.inputs then addedInputs uuid4 operators aligned data.constants kept else []
  let inputs := kept ++ added
  require (namesEmptyOrUnique (fun wfInput => wfInput.toIo) inputs) .duplicateNames
  let (keptOutputs, links) := cleanUpWorkflowContentOutputs operators aligned data.outputs
  let outputs := keptOutputs ++
    if keys.outputs then
      addedOutputs (fun i => uuid4 (added.length + i)) operators links keptOutputs
    else []
  require (namesEmptyOrUnique (fun wfOutput => wfOutput.toIo) outputs) .duplicateNames
  return {
    operators := operators
    links := cleanUpOuterLinks data.constants inputs outputs links
    constants := data.constants
    inputs := inputs
    outputs := outputs }

/-- Validation of the data of a content with all keys, as every dump of a content has them. -/
def WorkflowContent.validate (uuid4 : ℕ → UUID) (data : WorkflowContent V) :
    Except ValidationError (WorkflowContent V) :=
  data.validateWith .all uuid4

end Validate

end HetidaDesigner
