import HetidaDesigner.Models.Transformation

/-!
# Wirings and changes of state

The methods of `TransformationRevision` which change an instance: stripping wirings, assigning
a content, releasing and deprecating. Assigning to a field validates that field and fits the io
interface to the content again. Of a wiring the adapter id is all that these methods look at;
its other data has type `D`.
-/

namespace HetidaDesigner

open Checks

/-- Adapter ids are integers or strings. -/
inductive AdapterId
  | int (n : ℤ)
  | str (s : PyStr)
  deriving DecidableEq, Repr

/-- The wiring of one input or output. -/
structure Wiring (D : Type) where
  adapterId : AdapterId
  data : D
  deriving DecidableEq

/-- Whether an item of a dashboard belongs to an input or an output. -/
inductive GridstackPositioningType
  | input | output
  deriving DecidableEq, Repr

/-- The place of an item on a dashboard. -/
structure GridstackItemPositioning where
  x : Option ℕ
  y : Option ℕ
  w : Option ℕ
  h : Option ℕ
  id : PyStr
  type : GridstackPositioningType
  allowedInputValues : List PyStr
  deriving DecidableEq, Repr

/-- The wiring of a revision. -/
structure WorkflowWiring (D : Type) where
  inputWirings : List (Wiring D)
  outputWirings : List (Wiring D)
  dashboardPositionings : List GridstackItemPositioning
  deriving DecidableEq

namespace WorkflowWiring

variable {D : Type}

/-- A wiring without entries, the default. -/
def empty : WorkflowWiring D := ⟨[], [], []⟩

/-- Keep the wirings whose adapter id passes a test. -/
def keepAdapters (keep : AdapterId → Bool) (wiring : WorkflowWiring D) : WorkflowWiring D :=
  { wiring with
    inputWirings := wiring.inputWirings.filter fun w => keep w.adapterId
    outputWirings := wiring.outputWirings.filter fun w => keep w.adapterId }

/-- Strip wirings by adapter ids to drop and by adapter ids to keep; an empty set has no
effect. -/
def stripAdapters (strip keepOnly : List AdapterId) (wiring : WorkflowWiring D) :
    WorkflowWiring D :=
  let wiring := if strip = [] then wiring else wiring.keepAdapters fun id => id ∉ strip
  if keepOnly = [] then wiring else wiring.keepAdapters fun id => id ∈ keepOnly

end WorkflowWiring

/-- The options of `strip_wirings`; sets which are not given are empty. -/
structure StripOptions where
  stripWiring : Bool
  stripReleaseWiring : Bool
  stripWiringsWithAdapterIds : List AdapterId
  keepOnlyWiringsWithAdapterIds : List AdapterId
  stripReleaseWiringsWithAdapterIds : List AdapterId
  keepOnlyReleaseWiringsWithAdapterIds : List AdapterId
  deriving DecidableEq

/-- Strip nothing, the default. -/
def StripOptions.none : StripOptions := ⟨false, false, [], [], [], []⟩

namespace TransformationRevision

variable {V D : Type}

/-- The method `strip_wirings`. -/
def stripWirings (options : StripOptions)
    (revision : TransformationRevision V (WorkflowWiring D)) :
    TransformationRevision V (WorkflowWiring D) :=
  let testWiring := if options.stripWiring then .empty else revision.testWiring
  let releaseWiring := if options.stripReleaseWiring then .none else revision.releaseWiring
  { revision with
    testWiring := testWiring.stripAdapters options.stripWiringsWithAdapterIds
      options.keepOnlyWiringsWithAdapterIds
    releaseWiring := releaseWiring.map (WorkflowWiring.stripAdapters
      options.stripReleaseWiringsWithAdapterIds options.keepOnlyReleaseWiringsWithAdapterIds) }

variable {W : Type} [DecidableEq V]

/-- Assign to the field `content`. -/
def assignContent (content : Content V) (revision : TransformationRevision V W) :
    Except ValidationError (TransformationRevision V W) :=
  match revision.type, content with
  | .component, .code text => return { revision with content := .code text }
  | .workflow, .workflow workflowContent => do
    onlyDraftsAllowedInDraftWorkflows revision.state workflowContent.operators
    let filtered := workflowContent.filterUnnamedOperatorInputsAndOutputs
    return { revision with
      content := .workflow filtered
      ioInterface := fitIoInterface filtered revision.ioInterface }
  | _, _ => throw .contentTypeMismatch

variable [UnicodeData]

/-- The method `release`; the result of the final validation is only looked at for errors. -/
def release (uuid4 : ℕ → UUID) (now : Timestamp) (revision : TransformationRevision V W) :
    Except ValidationError (TransformationRevision V W) := do
  let released := { revision with
    releasedTimestamp := some now
    releaseWiring := some revision.testWiring
    state := .released }
  require released.timestampsFitState .timestampsNotFittingToState
  let _ ← released.validate uuid4
  return released

/-- The method `deprecate`; the plain word is a keyword here. -/
def deprecateRevision (uuid4 : ℕ → UUID) (now : Timestamp) (revision : TransformationRevision V W) :
    Except ValidationError (TransformationRevision V W) := do
  let deprecated := { revision with
    disabledTimestamp := some now
    state := .disabled }
  require deprecated.timestampsFitState .timestampsNotFittingToState
  let _ ← deprecated.validate uuid4
  return deprecated

end TransformationRevision

end HetidaDesigner
