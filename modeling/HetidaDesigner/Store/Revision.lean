import HetidaDesigner.Store.Nesting

/-!
# Storing, updating and deleting revisions

The operations of `persistence/dbservice/revision.py` which change the database. A call runs in
one transaction; it sees its own changes and leaves nothing behind if it fails.

Every load of a revision validates it and draws ids for unnamed ios, as does every validation in
between. The draws of a call are told apart by the place where they happen.
-/

namespace HetidaDesigner

open Checks

/-- The places of a call at which a revision is validated. -/
inductive Draw
  | imported (id : UUID)
  | existing
  | checked
  | copied
  | contained (operatorId : UUID)
  | container (position : ℕ)
  | stored
  deriving DecidableEq

/-- What a call takes from its surroundings: ids for each draw and the time. -/
structure Surroundings where
  uuid4 : Draw → ℕ → UUID
  now : Timestamp

/-- The options of `update_or_create_single_transformation_revision`. -/
structure PutOptions where
  allowOverwriteReleased : Bool
  updateComponentCode : Bool
  expandComponentCode : Bool
  strip : StripOptions

/-- The default options. -/
def PutOptions.default : PutOptions := ⟨false, true, false, .none⟩

/-- The operators of a revision; a component has none. -/
def TransformationRevision.operators {V W : Type} (revision : TransformationRevision V W) :
    List (Operator V) :=
  match revision.content with
  | .code _ => []
  | .workflow content => content.operators

section Operations

variable [UnicodeData] {V D : Type} [DecidableEq V] [DecidableEq D]

/-! ## Checks of a payload -/

/-- `tr_same_except_for_wiring_and_docu` -/
def trSameExceptForWiringAndDocu (trA trB : Revision V D) : Bool :=
  { trA with testWiring := trB.testWiring, documentation := trB.documentation } = trB

/-- `is_modifiable` -/
def isModifiable (existing updated : Revision V D) (allowOverwriteReleased : Bool) : Bool :=
  existing.type = updated.type ∧
    (trSameExceptForWiringAndDocu existing updated ∨
      ¬(existing.state = .disabled ∧ allowOverwriteReleased = false) ∧
        ¬(existing.state = .released ∧ updated.state ≠ .disabled ∧
          allowOverwriteReleased = false))

/-- An imported component which does not exist is an error of the import. -/
def StoreError.ofImport : StoreError → StoreError
  | .notFound _ => .componentImport
  | error => error

/-- `check_direct_component_imports` as the update runs it: with checks for components which are
not drafts only. -/
def checkDirectComponentImports (tools : CodeTools V D) (surroundings : Surroundings)
    (db : Database V D) (component : Revision V D) : Except StoreError Unit :=
  match component.type, component.state, component.content with
  | .workflow, _, _ => return ()
  | .component, .draft, _ => return ()
  | .component, _, .workflow _ => throw .assertion
  | .component, _, .code text => do
    let directImports ← (getGlobalComponentImports tools text).mapError .code
    let directImportTrafos ← directImports.mapM fun found =>
      (db.selectTrById (surroundings.uuid4 (.imported found.id)) found.id).mapError
        StoreError.ofImport
    directImportTrafos.forM fun trafo => do
      require (trafo.type = .component) .componentImport
      require (trafo.state ≠ .draft) .componentImport

/-! ## What gets stored -/

/-- `if_applicable_release_or_deprecate` for a revision which exists. At most one of the two
changes of state applies, since the existing state is not changed in between. -/
def ifApplicableReleaseOrDeprecate (surroundings : Surroundings)
    (existing updated : Revision V D) : Except StoreError (Revision V D) :=
  match existing.state, updated.state with
  | .draft, .released => do
    let released ← (updated.release (surroundings.uuid4 .checked) surroundings.now).mapError
      .validation
    (released.assignContent existing.content).mapError .validation
  | .released, .disabled => do
    let copied ← (existing.validate (surroundings.uuid4 .copied)).mapError .validation
    let deprecated ←
      (copied.deprecateRevision (surroundings.uuid4 .checked) surroundings.now).mapError .validation
    (deprecated.assignContent existing.content).mapError .validation
  | _, _ => return updated

/-- `contains_deprecated` -/
def containsDeprecated (uuid4 : ℕ → UUID) (db : Database V D) (transformationId : UUID) :
    Except StoreError Bool := do
  let revision ← db.selectTrById uuid4 transformationId
  match revision.content with
  | .code _ => throw .integrity
  | .workflow content => return content.operators.any fun operator => operator.state = .disabled

/-- The state of a new workflow operator is set according to the workflow it refers to. -/
def pullDeprecation (surroundings : Surroundings) (db : Database V D)
    (existingOperatorIds : List UUID) (operator : Operator V) :
    Except StoreError (Operator V) :=
  if operator.type = .workflow ∧ operator.id ∉ existingOperatorIds then do
    let deprecated ← containsDeprecated (surroundings.uuid4 (.contained operator.id)) db
      operator.transformationId
    return if deprecated then { operator with state := .disabled } else operator
  else return operator

/-- The new code of a component. -/
def updatedCode (tools : CodeTools V D) (doExpandCode : Bool) (component : Revision V D)
    (text : PyStr) : Except CodeError PyStr := do
  let code ← updateCode tools component text
  if doExpandCode then expandCode tools { component with content := .code code } code
  else return code

/-- `update_content`; workflows are changed only if they exist. -/
def updateContent (tools : CodeTools V D) (surroundings : Surroundings) (db : Database V D)
    (options : PutOptions) (existing : Option (Revision V D)) (updated : Revision V D) :
    Except StoreError (Revision V D) :=
  match updated.content, existing with
  | .code text, _ =>
    if options.updateComponentCode then do
      let code ← (updatedCode tools options.expandComponentCode updated text).mapError .code
      return { updated with content := .code code }
    else return updated
  | .workflow _, none => return updated
  | .workflow content, some existing => do
    let operators ← content.operators.mapM
      (pullDeprecation surroundings db (existing.operators.map fun operator => operator.id))
    return { updated with content := .workflow { content with operators := operators } }

/-- Write a revision: the database after the insertion or update, and what has been written. -/
def writeRevision (tools : CodeTools V D) (surroundings : Surroundings) (db : Database V D)
    (options : PutOptions) (payload : Revision V D) :
    Except StoreError (Database V D × Revision V D) :=
  match db.selectTrById (surroundings.uuid4 .existing) payload.id with
  | .error (.notFound _) => do
    let created ← updateContent tools surroundings db options none payload
    let db ← db.addTr created
    return (db, created)
  | .error error => throw error
  | .ok existing => do
    require (isModifiable existing payload options.allowOverwriteReleased) .modifyForbidden
    let updated ← ifApplicableReleaseOrDeprecate surroundings existing payload
    let updated ← updateContent tools surroundings db options (some existing) updated
    let db ← db.updateTr updated
    return (db, updated)

/-! ## Passing on deprecations -/

/-- Mark an operator as deprecated. -/
def markDisabled (operatorId : UUID) (operator : Operator V) : Operator V :=
  if operator.id = operatorId then { operator with state := .disabled } else operator

/-- Mark the operator via which a workflow contains a revision. -/
def passOnAlong (surroundings : Surroundings) (db : Database V D) (nesting : Nesting × ℕ) :
    Except StoreError (Database V D) := do
  let revision ← db.selectTrById (surroundings.uuid4 (.container nesting.2)) nesting.1.workflowId
  match revision.content with
  | .code _ => throw .assertion
  | .workflow content => db.updateTr { revision with
      content := .workflow { content with
        operators := content.operators.map (markDisabled nesting.1.viaOperatorId) } }

/-- `pass_on_deprecation` -/
def passOnDeprecation (surroundings : Surroundings) (db : Database V D) (transformationId : UUID) :
    Except StoreError (Database V D) :=
  (db.findAllNestings transformationId).zipIdx.foldlM (passOnAlong surroundings) db

/-! ## The operations -/

/-- `store_single_transformation_revision` -/
def storeSingleTransformationRevision (db : Database V D) (revision : Revision V D) :
    Except StoreError (Database V D) := do
  let db ← db.addTr revision
  match revision.type, revision.content with
  | .component, _ => return db
  | .workflow, .code _ => throw .assertion
  | .workflow, .workflow content => db.updateNesting revision.id content.operators

/-- The nestings or marks which change with a written revision. -/
def propagate (surroundings : Surroundings) (db : Database V D) (written : Revision V D) :
    Except StoreError (Database V D) :=
  match written.state, written.type, written.content with
  | .disabled, _, _ => passOnDeprecation surroundings db written.id
  | _, .component, _ => return db
  | _, .workflow, .code _ => throw .assertion
  | _, .workflow, .workflow content => db.updateNesting written.id content.operators

/-- `update_or_create_single_transformation_revision` -/
def updateOrCreateSingleTransformationRevision (tools : CodeTools V D)
    (surroundings : Surroundings) (db : Database V D) (options : PutOptions)
    (payload : Revision V D) : Except StoreError (Database V D × Revision V D) := do
  let payload := payload.stripWirings options.strip
  checkDirectComponentImports tools surroundings db payload
  let (db, written) ← writeRevision tools surroundings db options payload
  let db ← propagate surroundings db written
  let stored ← db.selectTrById (surroundings.uuid4 .stored) written.id
  return (db, stored)

/-- `delete_single_transformation_revision` -/
def deleteSingleTransformationRevision (surroundings : Surroundings) (db : Database V D)
    (id : UUID) (type : Option TrafoType) (ignoreState : Bool) :
    Except StoreError (Database V D) := do
  let revision ← db.selectTrById (surroundings.uuid4 .existing) id
  require (type = none ∨ type = some revision.type) .typeConflict
  require (ignoreState ∨ revision.state = .draft) .stateConflict
  (db.deleteOwnNestings revision.id).deleteTr revision.id

end Operations

end HetidaDesigner
