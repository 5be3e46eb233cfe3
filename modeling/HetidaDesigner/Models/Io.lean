import Mathlib.Data.Rat.Defs
import Mathlib.Data.List.Basic

/-!
# Inputs, outputs and connectors

The data of `persistence/models/io.py`: ios of transformation revisions, connectors of
operators and the ios of workflow contents, with the matching tests the validators use.
Checks which a nested model makes on its own data are fields of its structure, so a value
that fails them cannot be built.

Default values are only compared by `==` here, so their type is a parameter `V` with
decidable equality. Positions are compared coordinate by coordinate and never computed with.
-/

namespace HetidaDesigner

/-- Identifiers are only compared, so any natural number stands for a UUID. -/
abbrev UUID := ℕ

/-- A Python string as its list of characters. -/
abbrev PyStr := List Char

/-- Equal texts have the same characters. -/
instance PyStr.lawfulBEq : LawfulBEq PyStr := inferInstance

/-- Equal optional texts are both absent or have the same characters. -/
instance PyStr.optionLawfulBEq : LawfulBEq (Option PyStr) := inferInstance

/-- Data types of component and workflow ios. -/
inductive DataType
  | integer | float | string | dataFrame | series | multiTSFrame | boolean | any | plotlyJson
  deriving DecidableEq, Repr

/-- Life cycle states of a transformation revision. -/
inductive State
  | draft | released | disabled
  deriving DecidableEq, Repr

/-- The two kinds of transformation revisions; `Type` in the source. -/
inductive TrafoType
  | component | workflow
  deriving DecidableEq, Repr

/-- Inputs are required, or optional with a default value. -/
inductive InputType
  | required | optional
  deriving DecidableEq, Repr

/-- A position in the workflow editor. -/
structure Position where
  x : ℚ
  y : ℚ
  deriving DecidableEq, Repr

/-- The position given to ios which are generated rather than placed. -/
def Position.origin : Position := ⟨0, 0⟩

/-- An input or output with an optional name. -/
structure Io where
  id : UUID
  name : Option PyStr
  dataType : DataType
  deriving DecidableEq, Repr

/-- An io counts as named if its name is neither `None` nor the empty string. -/
def Io.named (io : Io) : Bool := io.name ≠ none ∧ io.name ≠ some []

/-- Input kind and default value; the value stays unset for required inputs. -/
structure InputTypeMixIn (V : Type) where
  type : InputType
  value : Option V
  value_set_only_for_optional_input : type = .required → value = none
  deriving DecidableEq

/-- Required inputs without a value meet the condition of their kind. -/
theorem InputType.required_without_value {V : Type} :
    InputType.required = .required → (none : Option V) = none :=
  fun _ => rfl

/-- Outputs of a transformation revision carry no further data. -/
abbrev TransformationOutput := Io

/-- Inputs of a transformation revision. -/
structure TransformationInput (V : Type) extends Io, InputTypeMixIn V
  deriving DecidableEq

/-- Names are unique among the named ios of a list, as `names_unique` demands. -/
def namesEmptyOrUnique {A : Type} (io : A → Io) (ios : List A) : Bool :=
  (((ios.map io).filter Io.named).map Io.name).Nodup

/-- The io interface of a transformation revision, with unique names on each side. -/
structure IOInterface (V : Type) where
  inputs : List (TransformationInput V)
  outputs : List TransformationOutput
  deriving DecidableEq

/-- The check which the io interface makes on each of its two lists. -/
def IOInterface.ioNamesUnique {V : Type} (ioInterface : IOInterface V) : Bool :=
  namesEmptyOrUnique TransformationInput.toIo ioInterface.inputs ∧
    namesEmptyOrUnique id ioInterface.outputs

/-- A placed io. -/
structure Connector extends Io where
  position : Position
  deriving DecidableEq, Repr

/-- Connectors match if all their data agrees. -/
def Connector.matchesConnector (connector other : Connector) : Bool :=
  connector.id = other.id ∧ connector.name = other.name ∧ connector.dataType = other.dataType ∧
    connector.position.x = other.position.x ∧ connector.position.y = other.position.y

/-- Matching up to the position. -/
def Connector.matchesIo (connector : Connector) (other : Io) : Bool :=
  connector.id = other.id ∧ connector.name = other.name ∧ connector.dataType = other.dataType

/-- Outputs of an operator carry no further data. -/
abbrev OperatorOutput := Connector

/-- Inputs of an operator; required inputs are always exposed. -/
structure OperatorInput (V : Type) extends Connector, InputTypeMixIn V where
  exposed : Bool
  required_inputs_exposed : type = .required → exposed = true
  deriving DecidableEq

/-- An io of a workflow content, with the operator connector it exposes. -/
structure WorkflowContentIo extends Connector where
  operatorId : UUID
  connectorId : UUID
  operatorName : PyStr
  connectorName : Option PyStr
  deriving DecidableEq, Repr

/-- The connector an io refers to, as the key of the validation dictionaries. -/
def WorkflowContentIo.key (io : WorkflowContentIo) : UUID × UUID := (io.operatorId, io.connectorId)

/-- Ids agree and the data types are equal or one of them is `ANY`. -/
def WorkflowContentIo.matchesOperatorIo (io : WorkflowContentIo) (other : Connector) : Bool :=
  io.connectorId = other.id ∧
    (io.dataType = .any ∨ other.dataType = .any ∨ io.dataType = other.dataType)

/-- Outputs of a workflow content carry no further data. -/
abbrev WorkflowContentOutput := WorkflowContentIo

/-- Dynamic inputs of a workflow content. -/
structure WorkflowContentDynamicInput (V : Type) extends WorkflowContentIo, InputTypeMixIn V
  deriving DecidableEq

/-- Constant inputs of a workflow content; they have no name. -/
structure WorkflowContentConstantInput extends WorkflowContentIo where
  value : PyStr
  name_none : name = none ∨ name = some []
  deriving DecidableEq

/-- An output agrees with its counterpart in the io interface. -/
def WorkflowContentIo.matchesTrafoOutput (wfOutput : WorkflowContentOutput)
    (other : TransformationOutput) : Bool :=
  wfOutput.id = other.id ∧ wfOutput.name = other.name ∧ wfOutput.dataType = other.dataType

/-- The io interface output of a workflow output. -/
def WorkflowContentIo.toTransformationOutput (wfOutput : WorkflowContentOutput) :
    TransformationOutput := wfOutput.toIo

section Inputs

variable {V : Type}

/-- A dynamic input agrees with its counterpart in the io interface. -/
def WorkflowContentDynamicInput.matchesTrafoInput [DecidableEq V]
    (wfInput : WorkflowContentDynamicInput V) (other : TransformationInput V) : Bool :=
  wfInput.id = other.id ∧ wfInput.name = other.name ∧ wfInput.dataType = other.dataType ∧
    wfInput.type = other.type ∧ wfInput.value = other.value

/-- The io interface input of a dynamic workflow input. -/
def WorkflowContentDynamicInput.toTransformationInput (wfInput : WorkflowContentDynamicInput V) :
    TransformationInput V :=
  { toIo := wfInput.toIo, toInputTypeMixIn := wfInput.toInputTypeMixIn }

/-- A matching io interface input is the one the dynamic input generates. -/
theorem matchesTrafoInput_iff [DecidableEq V] (wfInput : WorkflowContentDynamicInput V)
    (other : TransformationInput V) :
    wfInput.matchesTrafoInput other = true ↔ other = wfInput.toTransformationInput := by
  obtain ⟨⟨id, name, dataType⟩, ⟨type, value, hvalue⟩⟩ := other
  simp only [WorkflowContentDynamicInput.matchesTrafoInput,
    WorkflowContentDynamicInput.toTransformationInput, decide_eq_true_eq]
  constructor
  · rintro ⟨rfl, rfl, rfl, rfl, rfl⟩
    rfl
  · intro h
    injection h with hio hmix
    rw [← hio, ← hmix]
    exact ⟨rfl, rfl, rfl, rfl, rfl⟩

/-- A matching io interface output is the one the workflow output generates. -/
theorem matchesTrafoOutput_iff (wfOutput : WorkflowContentOutput) (other : TransformationOutput) :
    wfOutput.matchesTrafoOutput other = true ↔ other = wfOutput.toTransformationOutput := by
  obtain ⟨id, name, dataType⟩ := other
  simp only [WorkflowContentIo.matchesTrafoOutput, WorkflowContentIo.toTransformationOutput,
    decide_eq_true_eq]
  constructor
  · rintro ⟨rfl, rfl, rfl⟩
    rfl
  · intro h
    rw [← h]
    exact ⟨rfl, rfl, rfl⟩

end Inputs

end HetidaDesigner
