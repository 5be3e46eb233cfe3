import HetidaDesigner.Library.Upserts
import HetidaDesigner.Structure.Sorting
import Mathlib.Data.Finset.Union

/-!
# Updating the stored structure

The tables of `persistence/structure_service_dbmodels.py` and the function `update_structure` of
`structure/db/structure_service.py` with the upserts it makes. A row has the columns of its model;
the association tables are sets of pairs of a thing node id and the id of a source or sink.

Primary keys and unique columns are looked at when the transaction ends, which lets through what a
database may refuse earlier. Foreign keys are not looked at: one of the two supported databases
does not enforce them.
-/

namespace HetidaDesigner

open Checks

variable {J : Type}

/-! ## Tables -/

/-- The keys, the ids and the names of the rows of a table are distinct. -/
structure UniqueColumns {A : Type} (common : A → StructureServiceCommonFields) (id : A → UUID)
    (rows : List A) : Prop where
  keys : (rows.map fun row => (common row).key).Nodup
  ids : (rows.map id).Nodup
  names : (rows.map fun row => (common row).name).Nodup

/-- The tables of the structure service. -/
@[ext]
structure StructureTables (J : Type) where
  elementTypes : List StructureServiceElementType
  thingNodes : List (StructureServiceThingNode J)
  sources : List (StructureServiceSource J)
  sinks : List (StructureServiceSink J)
  sourceAssociation : Finset (UUID × UUID)
  sinkAssociation : Finset (UUID × UUID)

/-- The constraints of the tables. -/
structure StructureTables.Constraints (tables : StructureTables J) : Prop where
  elementTypes : UniqueColumns (fun row => row.toStructureServiceCommonFields) (fun row => row.id)
    tables.elementTypes
  thingNodes : UniqueColumns (fun row => row.toStructureServiceCommonFields) (fun row => row.id)
    tables.thingNodes
  sources : UniqueColumns (fun row => row.toStructureServiceCommonFields) (fun row => row.id)
    tables.sources
  sinks : UniqueColumns (fun row => row.toStructureServiceCommonFields) (fun row => row.id)
    tables.sinks

instance {A : Type} (common : A → StructureServiceCommonFields) (id : A → UUID) (rows : List A) :
    Decidable (UniqueColumns common id rows) :=
  decidable_of_iff ((rows.map fun row => (common row).key).Nodup ∧ (rows.map id).Nodup ∧
      (rows.map fun row => (common row).name).Nodup)
    ⟨fun ⟨hkeys, hids, hnames⟩ => ⟨hkeys, hids, hnames⟩,
      fun h => ⟨h.keys, h.ids, h.names⟩⟩

instance (tables : StructureTables J) : Decidable tables.Constraints :=
  decidable_of_iff
    (UniqueColumns (fun row => row.toStructureServiceCommonFields) (fun row => row.id)
        tables.elementTypes ∧
      UniqueColumns (fun row => row.toStructureServiceCommonFields) (fun row => row.id)
        tables.thingNodes ∧
      UniqueColumns (fun row => row.toStructureServiceCommonFields) (fun row => row.id)
        tables.sources ∧
      UniqueColumns (fun row => row.toStructureServiceCommonFields) (fun row => row.id)
        tables.sinks)
    ⟨fun ⟨helementTypes, hthingNodes, hsources, hsinks⟩ =>
        ⟨helementTypes, hthingNodes, hsources, hsinks⟩,
      fun h => ⟨h.elementTypes, h.thingNodes, h.sources, h.sinks⟩⟩

/-- A state of the database. -/
structure StructureDb (J : Type) extends StructureTables J where
  constraints : toStructureTables.Constraints

/-- Reasons for an update to fail; the first one stands for a sort which does not end. -/
inductive StructureUpdateError
  | unfinished
  | integrity
  deriving DecidableEq, Repr

/-! ## Element types and thing nodes -/

/-- A dictionary of those rows, by their keys, which an upsert of some elements returns. -/
def returned {A B : Type} (key : A → PyStr × PyStr) (given : List B) (givenKey : B → PyStr × PyStr)
    (rows : List A) (k : PyStr × PyStr) : Option A :=
  if given.any fun element => givenKey element = k then KeyedList.lookup key k rows else none

/-- A stored element type takes over all columns but the id. -/
def mergeElementType (old new : StructureServiceElementType) : StructureServiceElementType :=
  { new with id := old.id }

/-- The function `upsert_element_types`. -/
def upsertElementTypes (given rows : List StructureServiceElementType) :
    List StructureServiceElementType :=
  Upserts.upsertAll (fun row => row.key) mergeElementType rows given

/-- The values to be written for nodes; nodes without element type are skipped. -/
def thingNodeDicts (existingElementTypes : PyStr × PyStr → Option StructureServiceElementType)
    (nodes : List (StructureServiceThingNode J)) : List (StructureServiceThingNode J) :=
  nodes.filterMap fun node =>
    (existingElementTypes (node.stakeholderKey, node.elementTypeExternalId)).map fun elementType =>
      { node with elementTypeId := elementType.id }

/-- A stored node takes over all columns but the id and the parent's id. -/
def mergeThingNode (old new : StructureServiceThingNode J) : StructureServiceThingNode J :=
  { new with id := old.id, parentNodeId := old.parentNodeId }

/-- What `update_parent_ids` does to one row. -/
def updateParentId (dict : PyStr × PyStr → Option (StructureServiceThingNode J))
    (row : StructureServiceThingNode J) : StructureServiceThingNode J :=
  match row.parentExternalNodeId with
  | none => row
  | some parentExternalId =>
    if parentExternalId = [] then row
    else
      match dict (row.stakeholderKey, parentExternalId) with
      | none => row
      | some parent => { row with parentNodeId := some parent.id }

/-- The function `update_parent_ids` on the table; only rows of the dictionary are changed. -/
def updateParentIds (dict : PyStr × PyStr → Option (StructureServiceThingNode J))
    (rows : List (StructureServiceThingNode J)) : List (StructureServiceThingNode J) :=
  rows.map fun row => if (dict row.key).isSome then updateParentId dict row else row

/-- The function `upsert_thing_nodes`: the table. -/
def upsertThingNodes (dicts rows : List (StructureServiceThingNode J)) :
    List (StructureServiceThingNode J) :=
  let rows := Upserts.upsertAll (fun row => row.key) mergeThingNode rows dicts
  updateParentIds (returned (fun row => row.key) dicts (fun dict => dict.key) rows) rows

/-! ## Sources and sinks -/

/-- A stored source or sink takes over all columns but the id. -/
def mergeSourceOrSink (old new : SourceOrSink J) : SourceOrSink J := { new with id := old.id }

/-- The upsert of `upsert_sources` and `upsert_sinks`. -/
def upsertSourcesOrSinks (given rows : List (SourceOrSink J)) : List (SourceOrSink J) :=
  Upserts.upsertAll (fun row => row.key) mergeSourceOrSink rows given

/-- The pairs for the thing nodes a source or sink lists, as far as they exist. -/
def associations (existingThingNodes : PyStr × PyStr → Option (StructureServiceThingNode J))
    (row : SourceOrSink J) : Finset (UUID × UUID) :=
  (((row.thingNodeExternalIds.getD []).filterMap fun tnExternalId =>
    existingThingNodes (row.stakeholderKey, tnExternalId)).map fun node =>
      (node.id, row.id)).toFinset

/-- Assign the thing nodes of sources or sinks, one after the other. -/
def assignThingNodes (existingThingNodes : PyStr × PyStr → Option (StructureServiceThingNode J))
    (association : Finset (UUID × UUID)) (rows : List (SourceOrSink J)) : Finset (UUID × UUID) :=
  rows.foldl
    (fun association row =>
      (association.filter fun pair => pair.2 ≠ row.id) ∪ associations existingThingNodes row)
    association

/-- The rows which an upsert of sources or sinks returns. -/
def returnedRows (given rows : List (SourceOrSink J)) : List (SourceOrSink J) :=
  given.filterMap fun element => KeyedList.lookup (fun row => row.key) element.key rows

/-! ## The update -/

/-- The values which an update writes for thing nodes. -/
def writtenNodes (completeStructure : CompleteStructure J) (tables : StructureTables J) :
    List (StructureServiceThingNode J) :=
  thingNodeDicts
    (returned (fun row => row.key) completeStructure.elementTypes (fun element => element.key)
      (upsertElementTypes completeStructure.elementTypes tables.elementTypes))
    (setParentIds completeStructure.thingNodes)

/-- The dictionary `existing_thing_nodes` of an update. -/
def existingThingNodes (completeStructure : CompleteStructure J) (tables : StructureTables J) :
    PyStr × PyStr → Option (StructureServiceThingNode J) :=
  returned (fun row => row.key) (writtenNodes completeStructure tables) (fun dict => dict.key)
    (upsertThingNodes (writtenNodes completeStructure tables) tables.thingNodes)

/-- The tables after an update. -/
def updatedTables (completeStructure : CompleteStructure J) (tables : StructureTables J) :
    StructureTables J where
  elementTypes := upsertElementTypes completeStructure.elementTypes tables.elementTypes
  thingNodes := upsertThingNodes (writtenNodes completeStructure tables) tables.thingNodes
  sources := upsertSourcesOrSinks completeStructure.sources tables.sources
  sinks := upsertSourcesOrSinks completeStructure.sinks tables.sinks
  sourceAssociation := assignThingNodes (existingThingNodes completeStructure tables)
    tables.sourceAssociation
    (returnedRows completeStructure.sources
      (upsertSourcesOrSinks completeStructure.sources tables.sources))
  sinkAssociation := assignThingNodes (existingThingNodes completeStructure tables)
    tables.sinkAssociation
    (returnedRows completeStructure.sinks
      (upsertSourcesOrSinks completeStructure.sinks tables.sinks))

/-- The end of the transaction. -/
def commit (tables : StructureTables J) : Except StructureUpdateError (StructureDb J) :=
  if h : tables.Constraints then .ok ⟨tables, h⟩ else .error .integrity

/-- The function `update_structure`. It throws the sorted nodes away; the sort matters because it
sets parent ids, and because it has to end. -/
def updateStructure (rounds : ℕ) (completeStructure : CompleteStructure J) (db : StructureDb J) :
    Except StructureUpdateError (StructureDb J) := do
  require (sortThingNodes rounds completeStructure.thingNodes).isSome .unfinished
  commit (updatedTables completeStructure db.toStructureTables)

/-- A transaction ends in the state which has its tables. -/
theorem commit_eq_ok {tables : StructureTables J} {db : StructureDb J} :
    commit tables = .ok db ↔ db.toStructureTables = tables := by
  unfold commit
  split
  · rename_i hconstraints
    constructor
    · intro h
      rw [← Except.ok.inj h]
    · rintro rfl
      rfl
  · rename_i hconstraints
    constructor
    · intro h
      exact absurd h (by simp)
    · rintro rfl
      exact absurd db.constraints hconstraints

/-- A successful update gives the updated tables. -/
theorem updateStructure_eq_ok {rounds : ℕ} {completeStructure : CompleteStructure J}
    {db db' : StructureDb J} :
    updateStructure rounds completeStructure db = .ok db' ↔
      (sortThingNodes rounds completeStructure.thingNodes).isSome ∧
        db'.toStructureTables = updatedTables completeStructure db.toStructureTables := by
  rw [updateStructure, require_bind_eq_ok, commit_eq_ok]

end HetidaDesigner
