import HetidaDesigner.Backend.Execution
import HetidaDesigner.Library.Collecting
import HetidaDesigner.Validation.IoInterface

/-!
# Components which import components

How `backend/execution.py` collects the components of an execution: those of the workflow, those
used by the wiring, and what their code imports, read by `persistence/dbservice/revision.py`. Then
the context which `runtime/service.py` makes of them, and the lookup of `import_comp` in it.

Imports are read off the code as texts. The database takes any spelling of an id, whereas the
runtime compares texts.
-/

namespace HetidaDesigner

open Checks LastEntry

/-! ## Collecting components -/

/-- Keys of the dictionary of fetched revisions. Those given are in it under their ids, imported
ones under the text that was found, and no text is an id. -/
inductive TrafoKey
  | id (id : UUID)
  | text (found : ImportedText)
  deriving DecidableEq

section Collect

variable [UnicodeData] {V D : Type} [DecidableEq V]

/-- Load a revision by a key. -/
def loadTrafo (db : Database V D) (uuid4 : TrafoKey → ℕ → UUID) :
    TrafoKey → Except StoreError (Revision V D)
  | .id id => db.selectTrById (uuid4 (.id id)) id
  | .text found => db.selectTrById (uuid4 (.text found)) found.id

omit [UnicodeData] [DecidableEq V] in
/-- The imports of a revision; workflows have none. -/
def directImports (tools : CodeTools V D) (trafo : Revision V D) :
    Except StoreError (List TrafoKey) :=
  match trafo.type, trafo.content with
  | .workflow, _ => .ok []
  | .component, .workflow _ => .error .assertion
  | .component, .code code =>
    ((getGlobalComponentImports tools code).mapError .code).map fun imports =>
      imports.map .text

/-- `recursively_load_with_component_imports`, given how revisions are loaded. -/
def recursivelyLoadWithComponentImports (tools : CodeTools V D)
    (load : TrafoKey → Except StoreError (Revision V D)) (levels : ℕ) (currentIds : List TrafoKey)
    (alreadyFetchedDict : List (TrafoKey × Revision V D)) :
    Option (Except StoreError (List (TrafoKey × Revision V D))) :=
  Collecting.fill load (directImports tools) levels currentIds alreadyFetchedDict

/-- `read_component_imports_recursively`: the imported components without those given. -/
def readComponentImportsRecursively (tools : CodeTools V D)
    (load : TrafoKey → Except StoreError (Revision V D)) (levels : ℕ)
    (trafos : List (Revision V D)) : Option (Except StoreError (List (Revision V D))) :=
  let initialComponents :=
    dictById (fun trafo => trafo.id) (trafos.filter fun trafo => trafo.type = .component)
  match initialComponents.mapM (directImports tools) with
  | .error error => some (.error error)
  | .ok allDirectImports =>
    (recursivelyLoadWithComponentImports tools load levels allDirectImports.flatten
      (initialComponents.map fun trafo => (.id trafo.id, trafo))).map fun loaded =>
        loaded.map fun loaded =>
          (loaded.filter fun entry =>
            entry.1 ∉ initialComponents.map fun trafo => .id trafo.id).map Prod.snd

/-- The dictionary `all_components_dict` of the components in a workflow, those which the wiring
uses, and those imported. -/
def allComponents (tools : CodeTools V D) (db : Database V D) (uuid4 : TrafoKey → ℕ → UUID)
    (levels : ℕ) (nestedComponents componentAdapterComponents : List (Revision V D)) :
    Option (Except StoreError (List (Revision V D))) :=
  (readComponentImportsRecursively tools (loadTrafo db uuid4) levels
    (nestedComponents ++ componentAdapterComponents)).map fun imported =>
      imported.map fun imported => dictById (fun trafo => trafo.id)
        (nestedComponents ++ componentAdapterComponents ++ imported)

end Collect

/-! ## Components of the runtime -/

/-- The code of a component. -/
structure CodeModule where
  code : PyStr
  uuid : UUID
  deriving DecidableEq

/-- An input of a component. -/
structure ComponentInput (V : Type) where
  id : UUID
  type : DataType
  name : PyStr
  default : Bool
  defaultValue : Option V
  deriving DecidableEq

/-- An output of a component. -/
structure ComponentOutput where
  id : UUID
  name : PyStr
  type : DataType
  deriving DecidableEq

/-- A component as the runtime knows it. -/
structure ComponentRevision (V : Type) where
  uuid : UUID
  name : PyStr
  tag : PyStr
  codeModuleUuid : UUID
  functionName : PyStr
  inputs : List (ComponentInput V)
  outputs : List ComponentOutput
  input_names_unique : (inputs.map fun input => input.name).Nodup
  output_names_unique : (outputs.map fun output => output.name).Nodup

section Convert

variable {V D : Type}

/-- `to_component_input` -/
def TransformationInput.toComponentInput (input : TransformationInput V) :
    Except ExecutionError (ComponentInput V) := do
  let name ← requireIdentifier input.name
  return {
    id := input.id
    type := input.dataType
    name := name
    default := input.type = .optional
    defaultValue := input.value }

/-- `to_component_output` -/
def Io.toComponentOutput (output : Io) : Except ExecutionError ComponentOutput := do
  let name ← requireIdentifier output.name
  return { id := output.id, name := name, type := output.dataType }

/-- `to_code_module` -/
def TransformationRevision.toCodeModule (revision : Revision V D) :
    Except ExecutionError CodeModule :=
  match revision.type, revision.content with
  | .workflow, _ => .error .wrongType
  | .component, .workflow _ => .error .validation
  | .component, .code code => .ok { code := code, uuid := revision.id }

/-- `to_component_revision` -/
def TransformationRevision.toComponentRevision (revision : Revision V D) :
    Except ExecutionError (ComponentRevision V) := do
  require (revision.type = .component) .wrongType
  let inputs ← revision.ioInterface.inputs.mapM TransformationInput.toComponentInput
  let outputs ← revision.ioInterface.outputs.mapM Io.toComponentOutput
  if h : (inputs.map fun input => input.name).Nodup ∧ (outputs.map fun output => output.name).Nodup
  then return {
    uuid := revision.id
    name := revision.name
    tag := revision.versionTag
    codeModuleUuid := revision.id
    functionName := "main".toList
    inputs := inputs
    outputs := outputs
    input_names_unique := h.1
    output_names_unique := h.2 }
  else throw .validation

/-- The components of the input of an execution and their code. -/
structure ExecutionComponents (V : Type) where
  codeModules : List CodeModule
  components : List (ComponentRevision V)
  code_modules_unique : (codeModules.map fun codeModule => codeModule.uuid).Nodup
  components_unique : (components.map fun component => component.uuid).Nodup

/-- The components which `prepare_execution_input` hands to the runtime. Code modules are put into
a set, and components into a dictionary. -/
def executionComponents (components : List (Revision V D)) :
    Except ExecutionError (ExecutionComponents V) := do
  let codeModules ← components.mapM TransformationRevision.toCodeModule
  let components ← components.mapM TransformationRevision.toComponentRevision
  if h : (codeModules.dedup.map fun codeModule => codeModule.uuid).Nodup ∧
      ((dictById (fun component => component.uuid) components).map
        fun component => component.uuid).Nodup
  then return {
    codeModules := codeModules.dedup
    components := dictById (fun component => component.uuid) components
    code_modules_unique := h.1
    components_unique := h.2 }
  else throw .validation

end Convert

/-! ## Imports at runtime -/

/-- The part of the execution context by which code imports components. -/
structure ImportContext (V : Type) where
  codeModulesById : PyStr → Option CodeModule
  componentRevisionsByTrafoId : PyStr → Option (ComponentRevision V)

/-- Reasons for failing to import a component. -/
inductive ComponentCodeImportError
  | missingComponentRevision (trafoId : PyStr)
  | missingCodeModule (codeModuleUuid : PyStr)
  deriving DecidableEq, Repr

section Runtime

variable {V : Type}

/-- `prepare_runtime_context_bindings` -/
def prepareRuntimeContextBindings (runtimeInput : ExecutionComponents V) : ImportContext V where
  codeModulesById := lastEntry (fun codeModule => uuidStr codeModule.uuid) runtimeInput.codeModules
  componentRevisionsByTrafoId :=
    lastEntry (fun component => uuidStr component.uuid) runtimeInput.components

/-- `import_comp`: the component and the code to be imported. -/
def importComp (context : ImportContext V) (trafoId : PyStr) :
    Except ComponentCodeImportError (CodeModule × ComponentRevision V) :=
  match context.componentRevisionsByTrafoId trafoId with
  | none => .error (.missingComponentRevision trafoId)
  | some componentRevision =>
    match context.codeModulesById (uuidStr componentRevision.codeModuleUuid) with
    | none => .error (.missingCodeModule (uuidStr componentRevision.codeModuleUuid))
    | some codeModule => .ok (codeModule, componentRevision)

end Runtime

end HetidaDesigner
