import HetidaDesigner.Library.KeyedList
import HetidaDesigner.Models.ComponentCode

/-!
# The two tables

The tables of `persistence/dbmodels.py` with the statements which `persistence/dbservice` runs
on them. Keys and foreign keys are fields of the database, so every statement has to keep them;
a statement which would violate a constraint fails. A call is one transaction, so a failing call
leaves the database as it was.

Of the columns of a revision nothing gets lost in the tables: a row is the revision which has
been stored. Reading a row validates it.
-/

namespace HetidaDesigner

open Checks KeyedList

/-- A revision with wirings. -/
abbrev Revision (V D : Type) := TransformationRevision V (WorkflowWiring D)

/-- Errors of the database service. An invalid row is an integrity error, too, which tells what
validation has found. -/
inductive StoreError
  | notFound (id : UUID)
  | validation (error : ValidationError)
  | integrity
  | invalidRow (error : ValidationError)
  | nestingCycleDetected
  | modifyForbidden
  | typeConflict
  | stateConflict
  | componentImport
  | code (error : CodeError)
  | assertion
  deriving DecidableEq, Repr

/-- A row of the table of nestings. -/
structure Nesting where
  workflowId : UUID
  viaTransformationId : UUID
  viaOperatorId : UUID
  depth : ℕ
  nestedTransformationId : UUID
  nestedOperatorId : UUID
  deriving DecidableEq, Repr

namespace Nesting

/-- The primary key. -/
def key (nesting : Nesting) : UUID × UUID × ℕ × UUID :=
  (nesting.workflowId, nesting.viaOperatorId, nesting.depth, nesting.nestedOperatorId)

/-- The foreign keys. -/
def references (nesting : Nesting) : List UUID :=
  [nesting.workflowId, nesting.viaTransformationId, nesting.nestedTransformationId]

/-- The check constraints: depths are positive, and either the nesting is deep or the nested
operator is the one on the way. -/
def checkConstraints (nesting : Nesting) : Bool :=
  0 < nesting.depth ∧
    (1 < nesting.depth ↔ ¬(nesting.viaTransformationId = nesting.nestedTransformationId ∧
      nesting.viaOperatorId = nesting.nestedOperatorId))

/-- No nestings have distinct keys. -/
theorem nil_keys_nodup : (([] : List Nesting).map key).Nodup := List.nodup_nil

end Nesting

/-- The contents of the two tables. -/
structure Database (V D : Type) where
  revisions : List (Revision V D)
  nestings : List Nesting
  ids_unique : (revisions.map fun row => row.id).Nodup
  nesting_keys_unique : (nestings.map Nesting.key).Nodup
  references_exist : ∀ nesting ∈ nestings, ∀ id ∈ nesting.references,
    ∃ row ∈ revisions, row.id = id

namespace Database

variable {V D : Type}

/-- The empty tables. -/
def empty : Database V D := ⟨[], [], List.nodup_nil, List.nodup_nil, by simp⟩

/-- The row of a revision. -/
def find (db : Database V D) (id : UUID) : Option (Revision V D) :=
  lookup (fun row : Revision V D => row.id) id db.revisions

/-- No other revision of the group has the version tag. -/
def tagFree (db : Database V D) (revision : Revision V D) : Bool :=
  db.revisions.all fun row => row.id = revision.id ∨
    row.revisionGroupId ≠ revision.revisionGroupId ∨ row.versionTag ≠ revision.versionTag

/-- Insert a revision. -/
def addTr (db : Database V D) (revision : Revision V D) : Except StoreError (Database V D) :=
  if hnew : ∀ row ∈ db.revisions, row.id ≠ revision.id then
    if db.tagFree revision then .ok { db with
      revisions := db.revisions ++ [revision]
      ids_unique := append_nodup db.ids_unique hnew
      references_exist := fun nesting hnesting id hid =>
        (db.references_exist nesting hnesting id hid).imp fun _ h =>
          ⟨List.mem_append_left _ h.1, h.2⟩ }
    else .error .integrity
  else .error .integrity

/-- Overwrite the row of a revision, if there is one. -/
def updateTr (db : Database V D) (revision : Revision V D) : Except StoreError (Database V D) :=
  if db.tagFree revision then .ok { db with
    revisions := replace (fun row => row.id) db.revisions revision
    ids_unique := by rw [map_key_replace]; exact db.ids_unique
    references_exist := fun nesting hnesting id hid => by
      have hrow := List.mem_map.mpr (db.references_exist nesting hnesting id hid)
      rw [← @map_key_replace _ _ _ (fun row : Revision V D => row.id) _ revision] at hrow
      exact List.mem_map.mp hrow }
  else .error .integrity

/-- Delete the row of a revision. -/
def deleteTr (db : Database V D) (trId : UUID) : Except StoreError (Database V D) :=
  if hfree : ∀ nesting ∈ db.nestings, trId ∉ nesting.references then .ok { db with
    revisions := db.revisions.filter fun row => row.id ≠ trId
    ids_unique := filter_nodup db.ids_unique _
    references_exist := fun nesting hnesting id hid => by
      obtain ⟨row, hrow, rfl⟩ := db.references_exist nesting hnesting id hid
      refine ⟨row, List.mem_filter.mpr ⟨hrow, ?_⟩, rfl⟩
      have hne : row.id ≠ trId := fun heq => hfree nesting hnesting (heq ▸ hid)
      simpa using hne }
  else .error .integrity

/-- Insert a nesting or overwrite the one with its key. -/
def addSingleNesting (db : Database V D) (nesting : Nesting) :
    Except StoreError (Database V D) :=
  if hids : ∀ id ∈ nesting.references, ∃ row ∈ db.revisions, row.id = id then
    if nesting.checkConstraints then .ok { db with
      nestings := insertEntry Nesting.key db.nestings nesting
      nesting_keys_unique := insertEntry_nodup db.nesting_keys_unique nesting
      references_exist := fun other hother => by
        rcases mem_insertEntry_iff.mp hother with rfl | ⟨hmem, -⟩
        · exact hids
        · exact db.references_exist other hmem }
    else .error .integrity
  else .error .integrity

/-- Delete the nestings of a workflow. -/
def deleteOwnNestings (db : Database V D) (workflowId : UUID) : Database V D :=
  { db with
    nestings := db.nestings.filter fun nesting => nesting.workflowId ≠ workflowId
    nesting_keys_unique := filter_nodup db.nesting_keys_unique _
    references_exist := fun nesting hnesting =>
      db.references_exist nesting (List.mem_of_mem_filter hnesting) }

/-- The nestings in a workflow. -/
def findAllNestedTransformationRevisions (db : Database V D) (workflowId : UUID) :
    List Nesting :=
  db.nestings.filter fun nesting => nesting.workflowId = workflowId

/-- The nestings of a revision in workflows. -/
def findAllNestings (db : Database V D) (nestedTransformationId : UUID) : List Nesting :=
  db.nestings.filter fun nesting => nesting.nestedTransformationId = nestedTransformationId

/-- Read and validate the row of a revision. -/
def selectTrById [UnicodeData] [DecidableEq V] (db : Database V D) (uuid4 : ℕ → UUID)
    (id : UUID) : Except StoreError (Revision V D) :=
  match db.find id with
  | none => .error (.notFound id)
  | some row => (row.validate uuid4).mapError .invalidRow

/-! ## What the statements do -/

variable {db db' : Database V D}

/-- A revision with a row is found by its id. -/
theorem find_eq_some {id : UUID} {row : Revision V D} (h : db.find id = some row) :
    row ∈ db.revisions ∧ row.id = id := lookup_eq_some h

/-- Every row is found by its id. -/
theorem find_of_mem {row : Revision V D} (h : row ∈ db.revisions) : db.find row.id = some row :=
  lookup_of_mem db.ids_unique h

/-- What a nesting refers to has a row. -/
theorem exists_find_of_reference {nesting : Nesting} (hnesting : nesting ∈ db.nestings)
    {id : UUID} (hid : id ∈ nesting.references) : ∃ row, db.find id = some row := by
  obtain ⟨row, hrow, rfl⟩ := db.references_exist nesting hnesting id hid
  exact ⟨row, find_of_mem hrow⟩

/-- An insertion adds a revision which was not there. -/
theorem addTr_eq_ok {revision : Revision V D} (h : db.addTr revision = .ok db') :
    db.find revision.id = none ∧ db'.nestings = db.nestings ∧
      ∀ id, db'.find id = if id = revision.id then some revision else db.find id := by
  unfold addTr at h
  split at h
  · rename_i hnew
    split at h
    · cases h
      exact ⟨lookup_eq_none.mpr hnew, rfl, lookup_append hnew⟩
    · cases h
  · cases h

/-- An update changes the row of the revision only. -/
theorem updateTr_eq_ok {revision : Revision V D} (h : db.updateTr revision = .ok db') :
    db'.nestings = db.nestings ∧
      ∀ id, db'.find id =
        if id = revision.id then (db.find id).map fun _ => revision else db.find id := by
  unfold updateTr at h
  split at h
  · cases h
    exact ⟨rfl, fun id => lookup_replace id db.revisions revision⟩
  · cases h

/-- A deletion removes a revision which nothing refers to. -/
theorem deleteTr_eq_ok {trId : UUID} (h : db.deleteTr trId = .ok db') :
    (∀ nesting ∈ db.nestings, trId ∉ nesting.references) ∧ db'.nestings = db.nestings ∧
      ∀ id, db'.find id = if id = trId then none else db.find id := by
  unfold deleteTr at h
  split at h
  · rename_i hfree
    cases h
    exact ⟨hfree, rfl, fun id => lookup_filter_ne id trId db.revisions⟩
  · cases h

/-- A nesting is entered under its key. -/
theorem addSingleNesting_eq_ok {nesting : Nesting} (h : db.addSingleNesting nesting = .ok db') :
    db'.revisions = db.revisions ∧ db'.nestings = insertEntry Nesting.key db.nestings nesting := by
  unfold addSingleNesting at h
  split at h
  · split at h
    · cases h
      exact ⟨rfl, rfl⟩
    · cases h
  · cases h

/-- What a nesting refers to is stored, and it satisfies the constraints. -/
def Addable (db : Database V D) (nesting : Nesting) : Prop :=
  (∀ id ∈ nesting.references, ∃ row ∈ db.revisions, row.id = id) ∧
    nesting.checkConstraints = true

/-- Such a nesting can be added. -/
theorem exists_addSingleNesting {nesting : Nesting} (h : db.Addable nesting) :
    ∃ db', db.addSingleNesting nesting = .ok db' := by
  unfold addSingleNesting
  rw [dif_pos h.1, if_pos h.2]
  exact ⟨_, rfl⟩

/-- The nestings of other workflows stay. -/
theorem mem_deleteOwnNestings {workflowId : UUID} {nesting : Nesting} :
    nesting ∈ (db.deleteOwnNestings workflowId).nestings ↔
      nesting ∈ db.nestings ∧ nesting.workflowId ≠ workflowId := by
  simp [deleteOwnNestings]

/-- Deleting nestings leaves the revisions. -/
@[simp] theorem revisions_deleteOwnNestings (workflowId : UUID) :
    (db.deleteOwnNestings workflowId).revisions = db.revisions := rfl

/-- The nestings in a workflow are those with its id. -/
theorem mem_findAllNestedTransformationRevisions {workflowId : UUID} {nesting : Nesting} :
    nesting ∈ db.findAllNestedTransformationRevisions workflowId ↔
      nesting ∈ db.nestings ∧ nesting.workflowId = workflowId := by
  simp [findAllNestedTransformationRevisions]

/-- The nestings of a revision are those with its id. -/
theorem mem_findAllNestings {nestedTransformationId : UUID} {nesting : Nesting} :
    nesting ∈ db.findAllNestings nestedTransformationId ↔
      nesting ∈ db.nestings ∧ nesting.nestedTransformationId = nestedTransformationId := by
  simp [findAllNestings]

/-- A revision is read exactly if its row is valid. -/
theorem selectTrById_eq_ok [UnicodeData] [DecidableEq V] {uuid4 : ℕ → UUID} {id : UUID}
    {revision : Revision V D} : db.selectTrById uuid4 id = .ok revision ↔
      ∃ row, db.find id = some row ∧ row.validate uuid4 = .ok revision := by
  unfold selectTrById
  cases db.find id with
  | none => simp
  | some row => simp [mapError_eq_ok]

end Database

end HetidaDesigner
