import HetidaDesigner.Structure.Orders
import HetidaDesigner.Structure.Update

/-!
# What an update leaves in the database

After an update each thing node should have the parent the structure gives it, and each source and
sink the thing nodes the structure lists. The upsert leaves the stored parent id alone, and the
pass behind it only sets parents which the structure contains; so a node which is made a root keeps
the parent it had. Thing nodes are looked up under the stakeholder of a source or sink, while the
validation of a structure compares external ids alone; so thing nodes may be left out.
-/

namespace HetidaDesigner

open Checks KeyedList Upserts

variable {J : Type}

/-! ## The promise and its condition -/

/-- The parent of a stored node is the stored node of a key, or there is none. -/
def StoredParent (thingNodes : List (StructureServiceThingNode J))
    (parentKey : Option (PyStr × PyStr)) (parentNodeId : Option UUID) : Prop :=
  match parentKey with
  | none => parentNodeId = none
  | some key => ∃ parent ∈ thingNodes, parent.key = key ∧ parentNodeId = some parent.id

/-- A source or sink is stored, and associated with the thing nodes it lists and no others. -/
def StoredAssociations (thingNodes : List (StructureServiceThingNode J))
    (rows : List (SourceOrSink J)) (association : Finset (UUID × UUID))
    (element : SourceOrSink J) : Prop :=
  ∃ row ∈ rows, row.key = element.key ∧
    (∀ tnExternalId ∈ element.thingNodeExternalIds.getD [], ∃ node ∈ thingNodes,
      node.key = (element.stakeholderKey, tnExternalId) ∧ (node.id, row.id) ∈ association) ∧
    ∀ id, (id, row.id) ∈ association →
      ∃ tnExternalId ∈ element.thingNodeExternalIds.getD [], ∃ node ∈ thingNodes,
        node.key = (element.stakeholderKey, tnExternalId) ∧ node.id = id

/-- The stored hierarchy is that of a structure. -/
structure StoredAs (completeStructure : CompleteStructure J) (tables : StructureTables J) :
    Prop where
  parents : ∀ node ∈ completeStructure.thingNodes, ∃ row ∈ tables.thingNodes,
    row.key = node.key ∧ StoredParent tables.thingNodes node.parentKey row.parentNodeId
  sources : ∀ source ∈ completeStructure.sources,
    StoredAssociations tables.thingNodes tables.sources tables.sourceAssociation source
  sinks : ∀ sink ∈ completeStructure.sinks,
    StoredAssociations tables.thingNodes tables.sinks tables.sinkAssociation sink

/-- The element types of all thing nodes are in the structure. -/
def ElementTypesExist (completeStructure : CompleteStructure J) : Prop :=
  ∀ node ∈ completeStructure.thingNodes, ∃ elementType ∈ completeStructure.elementTypes,
    elementType.key = (node.stakeholderKey, node.elementTypeExternalId)

/-- The parent id a node has unless the update sets it: the stored one, or that of the given node
if none is stored. -/
def keptParentId (tables : StructureTables J) (node : StructureServiceThingNode J) : Option UUID :=
  match lookup (fun row => row.key) node.key tables.thingNodes with
  | none => node.parentNodeId
  | some row => row.parentNodeId

/-- Sources or sinks which list thing nodes of their own stakeholder. -/
def ListsOwnNodes (nodes : List (StructureServiceThingNode J))
    (sourcesOrSinks : List (SourceOrSink J)) : Prop :=
  ∀ element ∈ sourcesOrSinks, ∀ tnExternalId ∈ element.thingNodeExternalIds.getD [],
    ∃ node ∈ nodes, node.key = (element.stakeholderKey, tnExternalId)

/-- The kept parent ids are right for nodes whose parent is not in the structure, and thing nodes
are listed under their stakeholder. -/
structure KeepsRightParents (completeStructure : CompleteStructure J) (tables : StructureTables J) :
    Prop where
  parents : ∀ node ∈ completeStructure.thingNodes,
    (∀ other ∈ completeStructure.thingNodes, node.parentKey ≠ some other.key) →
      StoredParent tables.thingNodes node.parentKey (keptParentId tables node)
  sources : ListsOwnNodes completeStructure.thingNodes completeStructure.sources
  sinks : ListsOwnNodes completeStructure.thingNodes completeStructure.sinks

instance (completeStructure : CompleteStructure J) : Decidable (ElementTypesExist completeStructure) :=
  inferInstanceAs (Decidable (∀ node ∈ completeStructure.thingNodes,
    ∃ elementType ∈ completeStructure.elementTypes,
      elementType.key = (node.stakeholderKey, node.elementTypeExternalId)))

instance (thingNodes : List (StructureServiceThingNode J)) (parentKey : Option (PyStr × PyStr))
    (parentNodeId : Option UUID) : Decidable (StoredParent thingNodes parentKey parentNodeId) :=
  match parentKey with
  | none => inferInstanceAs (Decidable (parentNodeId = none))
  | some key => inferInstanceAs (Decidable (∃ parent ∈ thingNodes,
      parent.key = key ∧ parentNodeId = some parent.id))

instance (nodes : List (StructureServiceThingNode J)) (sourcesOrSinks : List (SourceOrSink J)) :
    Decidable (ListsOwnNodes nodes sourcesOrSinks) :=
  inferInstanceAs (Decidable (∀ element ∈ sourcesOrSinks,
    ∀ tnExternalId ∈ element.thingNodeExternalIds.getD [],
      ∃ node ∈ nodes, node.key = (element.stakeholderKey, tnExternalId)))

instance (completeStructure : CompleteStructure J) (tables : StructureTables J) :
    Decidable (KeepsRightParents completeStructure tables) :=
  decidable_of_iff
    ((∀ node ∈ completeStructure.thingNodes,
        (∀ other ∈ completeStructure.thingNodes, node.parentKey ≠ some other.key) →
          StoredParent tables.thingNodes node.parentKey (keptParentId tables node)) ∧
      ListsOwnNodes completeStructure.thingNodes completeStructure.sources ∧
      ListsOwnNodes completeStructure.thingNodes completeStructure.sinks)
    ⟨fun ⟨hparents, hsources, hsinks⟩ => ⟨hparents, hsources, hsinks⟩,
      fun h => ⟨h.parents, h.sources, h.sinks⟩⟩

/-! ## Written nodes -/

/-- The keys of the thing nodes of a valid structure are distinct, and so are those of its other
elements. -/
theorem keys_nodup_of_validate {completeStructure : CompleteStructure J}
    (h : completeStructure.validate = .ok ()) :
    (completeStructure.elementTypes.map fun element => element.key).Nodup ∧
      (completeStructure.thingNodes.map fun element => element.key).Nodup ∧
      (completeStructure.sources.map fun element => element.key).Nodup ∧
      (completeStructure.sinks.map fun element => element.key).Nodup := by
  obtain ⟨-, h⟩ := require_bind_eq_ok.mp h
  obtain ⟨-, h⟩ := check_bind_eq_ok.mp h
  obtain ⟨hkeys, -⟩ := check_bind_eq_ok.mp h
  obtain ⟨helementTypes, hkeys⟩ := check_bind_eq_ok.mp hkeys
  obtain ⟨hthingNodes, hkeys⟩ := check_bind_eq_ok.mp hkeys
  obtain ⟨hsources, hsinks⟩ := check_bind_eq_ok.mp hkeys
  exact ⟨checkKeys_eq_ok.mp helementTypes, checkKeys_eq_ok.mp hthingNodes,
    checkKeys_eq_ok.mp hsources, checkKeys_eq_ok.mp hsinks⟩

/-- A returned row is found in the table under the key of a given element. -/
theorem returned_eq_some {A B : Type} {key : A → PyStr × PyStr} {given : List B}
    {givenKey : B → PyStr × PyStr} {rows : List A} {k : PyStr × PyStr} {row : A} :
    returned key given givenKey rows k = some row ↔
      (∃ element ∈ given, givenKey element = k) ∧ lookup key k rows = some row := by
  unfold returned
  split
  · rename_i hany
    have hgiven : ∃ element ∈ given, givenKey element = k := by simpa using hany
    exact ⟨fun h => ⟨hgiven, h⟩, And.right⟩
  · rename_i hany
    have hgiven : ¬ ∃ element ∈ given, givenKey element = k := by simpa using hany
    exact ⟨fun h => absurd h (by simp), fun h => absurd h.1 hgiven⟩

/-- A written node is a given one with another element type id. -/
theorem exists_node_of_mem_writtenNodes {completeStructure : CompleteStructure J}
    {tables : StructureTables J} {dict : StructureServiceThingNode J}
    (h : dict ∈ writtenNodes completeStructure tables) :
    ∃ node ∈ completeStructure.thingNodes, ∃ elementTypeId, dict =
      { withParentId completeStructure.thingNodes node with elementTypeId := elementTypeId } := by
  obtain ⟨given, hgiven, hdict⟩ := List.mem_filterMap.mp h
  obtain ⟨node, hnode, rfl⟩ := List.mem_map.mp hgiven
  obtain ⟨elementType, -, rfl⟩ := Option.map_eq_some_iff.mp hdict
  exact ⟨node, hnode, elementType.id, rfl⟩

/-- The keys of written element types. -/
theorem key_mergeElementType (old new : StructureServiceElementType) (_ : old.key = new.key) :
    (mergeElementType old new).key = new.key := rfl

/-- The keys of written nodes. -/
theorem key_mergeThingNode (old new : StructureServiceThingNode J) (_ : old.key = new.key) :
    (mergeThingNode old new).key = new.key := rfl

/-- The keys of written sources and sinks. -/
theorem key_mergeSourceOrSink (old new : SourceOrSink J) (_ : old.key = new.key) :
    (mergeSourceOrSink old new).key = new.key := rfl

/-- Every node whose element type exists is written, with the id of the parent found for it. -/
theorem exists_mem_writtenNodes {completeStructure : CompleteStructure J}
    (helementTypes : ElementTypesExist completeStructure)
    (hkeys : (completeStructure.elementTypes.map fun element => element.key).Nodup)
    (tables : StructureTables J) {node : StructureServiceThingNode J}
    (hnode : node ∈ completeStructure.thingNodes) :
    ∃ dict ∈ writtenNodes completeStructure tables, dict.key = node.key ∧
      dict.parentKey = node.parentKey ∧ dict.parentNodeId =
        ((parentIn completeStructure.thingNodes node).map fun parent => parent.id).or
          node.parentNodeId := by
  obtain ⟨elementType, helementType, hkey⟩ := helementTypes node hnode
  have hreturned : returned (fun row => row.key) completeStructure.elementTypes
      (fun element => element.key)
      (upsertElementTypes completeStructure.elementTypes tables.elementTypes) elementType.key =
        some (merged (fun row => row.key) mergeElementType tables.elementTypes elementType) :=
    returned_eq_some.mpr ⟨⟨elementType, helementType, rfl⟩,
      lookup_upsertAll key_mergeElementType hkeys helementType tables.elementTypes⟩
  have hgiven : withParentId completeStructure.thingNodes node ∈
      setParentIds completeStructure.thingNodes := List.mem_map_of_mem hnode
  have hreferenced : ((withParentId completeStructure.thingNodes node).stakeholderKey,
      (withParentId completeStructure.thingNodes node).elementTypeExternalId) =
        elementType.key := by
    rw [hkey]
    unfold withParentId
    split <;> rfl
  refine ⟨_, List.mem_filterMap.mpr ⟨_, hgiven, Option.map_eq_some_iff.mpr
    ⟨_, by rw [hreferenced]; exact hreturned, rfl⟩⟩, by simp, ?_, ?_⟩
  · exact withParentId_parentKey completeStructure.thingNodes node
  · unfold withParentId
    cases parentIn completeStructure.thingNodes node <;> rfl

/-- Written nodes have distinct keys. -/
theorem writtenNodes_nodup {completeStructure : CompleteStructure J}
    (hkeys : (completeStructure.thingNodes.map fun element => element.key).Nodup)
    (tables : StructureTables J) :
    ((writtenNodes completeStructure tables).map fun dict => dict.key).Nodup := by
  rw [← map_key_setParentIds] at hkeys
  refine List.Nodup.sublist ?_ hkeys
  unfold writtenNodes thingNodeDicts
  generalize returned _ _ _ _ = dict
  induction setParentIds completeStructure.thingNodes with
  | nil => exact List.Sublist.refl _
  | cons node rest ih =>
    rw [List.filterMap_cons]
    split
    · exact ih.cons _
    · rename_i written hwritten
      obtain ⟨elementType, -, rfl⟩ := Option.map_eq_some_iff.mp hwritten
      exact ih.cons_cons _

/-! ## Stored nodes -/

@[simp] theorem updateParentId_common (dict : PyStr × PyStr → Option (StructureServiceThingNode J))
    (row : StructureServiceThingNode J) :
    (updateParentId dict row).toStructureServiceCommonFields =
      row.toStructureServiceCommonFields := by
  unfold updateParentId
  repeat' split
  all_goals rfl

@[simp] theorem updateParentId_id (dict : PyStr × PyStr → Option (StructureServiceThingNode J))
    (row : StructureServiceThingNode J) : (updateParentId dict row).id = row.id := by
  unfold updateParentId
  repeat' split
  all_goals rfl

@[simp] theorem updateParentId_parentKey
    (dict : PyStr × PyStr → Option (StructureServiceThingNode J))
    (row : StructureServiceThingNode J) : (updateParentId dict row).parentKey = row.parentKey := by
  unfold updateParentId
  repeat' split
  all_goals rfl

/-- A dictionary which has rows under their keys. -/
def UnderKeys (dict : PyStr × PyStr → Option (StructureServiceThingNode J)) : Prop :=
  ∀ key row, dict key = some row → row.key = key

/-- What `update_parent_ids` does, by the key of the parent. -/
theorem updateParentId_eq {dict : PyStr × PyStr → Option (StructureServiceThingNode J)}
    (hdict : UnderKeys dict) (row : StructureServiceThingNode J) : updateParentId dict row =
      match row.parentKey.bind dict with
      | none => row
      | some parent => { row with parentNodeId := some parent.id } := by
  unfold updateParentId StructureServiceThingNode.parentKey
  cases row.parentExternalNodeId with
  | none => rfl
  | some parentExternalId =>
    by_cases hempty : parentExternalId = []
    · have hnone : dict (row.stakeholderKey, parentExternalId) = none := by
        refine Option.eq_none_iff_forall_ne_some.mpr fun parent hparent => ?_
        have hkey : parent.externalId = parentExternalId := congrArg Prod.snd (hdict _ _ hparent)
        exact parent.external_id_not_empty (hkey.trans hempty)
      simp [hempty ▸ hnone, hempty]
    · cases hparent : dict (row.stakeholderKey, parentExternalId) with
      | none => simp [hempty, hparent]
      | some parent => simp [hempty, hparent]

/-- The parent's id after an update. -/
theorem updateParentId_parentNodeId
    {dict : PyStr × PyStr → Option (StructureServiceThingNode J)} (hdict : UnderKeys dict)
    (row : StructureServiceThingNode J) : (updateParentId dict row).parentNodeId =
      ((row.parentKey.bind dict).map fun parent => parent.id).or row.parentNodeId := by
  rw [updateParentId_eq hdict]
  cases row.parentKey.bind dict <;> rfl

/-- A dictionary with the same ids has the same effect. -/
theorem updateParentId_updateParentId
    {dict dict' : PyStr × PyStr → Option (StructureServiceThingNode J)} (hdict : UnderKeys dict)
    (hdict' : UnderKeys dict')
    (hids : ∀ key, (dict' key).map (fun row => row.id) = (dict key).map fun row => row.id)
    (row : StructureServiceThingNode J) :
    updateParentId dict' (updateParentId dict row) = updateParentId dict row := by
  rw [updateParentId_eq hdict', updateParentId_parentKey, updateParentId_eq hdict]
  cases hkey : row.parentKey with
  | none => rfl
  | some key =>
    have hid := hids key
    simp only [Option.bind_some]
    cases hparent : dict key with
    | none =>
      rw [hparent] at hid
      rw [Option.map_eq_none_iff.mp hid]
    | some parent =>
      rw [hparent] at hid
      obtain ⟨parent', hparent', hsame⟩ := Option.map_eq_some_iff.mp hid
      rw [hparent']
      simp only [hsame]

/-- The dictionary which `upsert_thing_nodes` hands to `update_parent_ids`. -/
def upsertedThingNodes (dicts rows : List (StructureServiceThingNode J)) :
    PyStr × PyStr → Option (StructureServiceThingNode J) :=
  returned (fun row => row.key) dicts (fun dict => dict.key)
    (upsertAll (fun row => row.key) mergeThingNode rows dicts)

/-- Returned rows are under their keys. -/
theorem underKeys_returned (dicts rows : List (StructureServiceThingNode J)) :
    UnderKeys (returned (fun row => row.key) dicts (fun dict => dict.key) rows) :=
  fun _ _ h => (lookup_eq_some (returned_eq_some.mp h).2).2

/-- Upserted rows are under their keys. -/
theorem underKeys_upsertedThingNodes (dicts rows : List (StructureServiceThingNode J)) :
    UnderKeys (upsertedThingNodes dicts rows) :=
  underKeys_returned dicts _

/-- Lookup in the updated table. -/
theorem lookup_upsertThingNodes (dicts rows : List (StructureServiceThingNode J))
    (key : PyStr × PyStr) :
    lookup (fun row => row.key) key (upsertThingNodes dicts rows) =
      (lookup (fun row => row.key) key
        (upsertAll (fun row => row.key) mergeThingNode rows dicts)).map fun row =>
          if (upsertedThingNodes dicts rows row.key).isSome then
            updateParentId (upsertedThingNodes dicts rows) row
          else row := by
  refine lookup_map (fun row => ?_) key _
  split
  · exact congrArg StructureServiceCommonFields.key (updateParentId_common _ row)
  · rfl

/-- Merging keeps the parent's key of the new row. -/
theorem merged_parentKey (rows : List (StructureServiceThingNode J))
    (new : StructureServiceThingNode J) :
    (merged (fun row => row.key) mergeThingNode rows new).parentKey = new.parentKey := by
  unfold merged
  split <;> rfl

/-- Merging keeps the parent's id of the stored row. -/
theorem merged_parentNodeId (rows : List (StructureServiceThingNode J))
    (new : StructureServiceThingNode J) :
    (merged (fun row => row.key) mergeThingNode rows new).parentNodeId =
      match lookup (fun row => row.key) new.key rows with
      | none => new.parentNodeId
      | some row => row.parentNodeId := by
  unfold merged
  split
  all_goals rename_i hrow
  all_goals rw [hrow]
  rfl

section Nodup

variable {dicts : List (StructureServiceThingNode J)}
  (hdicts : (dicts.map fun dict => dict.key).Nodup) (rows : List (StructureServiceThingNode J))

include hdicts

/-- The row a written node gives. -/
theorem lookup_upsertThingNodes_of_mem {dict : StructureServiceThingNode J} (hdict : dict ∈ dicts) :
    lookup (fun row => row.key) dict.key (upsertThingNodes dicts rows) =
      some (updateParentId (upsertedThingNodes dicts rows)
        (merged (fun row => row.key) mergeThingNode rows dict)) := by
  have hstored := lookup_upsertAll key_mergeThingNode hdicts hdict rows
  have hreturned : upsertedThingNodes dicts rows dict.key =
      some (merged (fun row => row.key) mergeThingNode rows dict) :=
    returned_eq_some.mpr ⟨⟨dict, hdict, rfl⟩, hstored⟩
  have hkey := key_merged key_mergeThingNode rows dict
  rw [lookup_upsertThingNodes, hstored, Option.map_some, hkey, hreturned]
  rfl

omit hdicts in
/-- Rows with other keys stay as they are. -/
theorem lookup_upsertThingNodes_of_ne {key : PyStr × PyStr}
    (hkey : ∀ dict ∈ dicts, dict.key ≠ key) :
    lookup (fun row => row.key) key (upsertThingNodes dicts rows) =
      lookup (fun row => row.key) key rows := by
  rw [lookup_upsertThingNodes, lookup_upsertAll_of_ne key_mergeThingNode hkey]
  cases hrow : lookup (fun row : StructureServiceThingNode J => row.key) key rows with
  | none => rfl
  | some row =>
    have hnone : (upsertedThingNodes dicts rows row.key).isSome = false := by
      rw [(lookup_eq_some hrow).2, Option.isSome_eq_false_iff, Option.isNone_iff_eq_none]
      refine Option.eq_none_iff_forall_ne_some.mpr fun found hfound => ?_
      obtain ⟨⟨dict, hdict, heq⟩, -⟩ := returned_eq_some.mp hfound
      exact hkey dict hdict heq
    rw [Option.map_some, hnone]
    rfl

end Nodup

/-- Updating parent ids keeps keys distinct. -/
theorem map_key_updateParentIds (dict : PyStr × PyStr → Option (StructureServiceThingNode J))
    (rows : List (StructureServiceThingNode J)) :
    ((updateParentIds dict rows).map fun row => row.key) = rows.map fun row => row.key := by
  rw [updateParentIds, List.map_map]
  refine List.map_congr_left fun row _ => ?_
  simp only [Function.comp_apply]
  split
  · rw [updateParentId_common]
  · rfl

/-- The ids of returned rows are those before parents have been updated. -/
theorem map_id_returned (dicts rows : List (StructureServiceThingNode J)) (key : PyStr × PyStr) :
    (returned (fun row => row.key) dicts (fun dict => dict.key) (upsertThingNodes dicts rows)
        key).map (fun row => row.id) =
      (upsertedThingNodes dicts rows key).map fun row => row.id := by
  unfold upsertedThingNodes returned
  split
  · rw [lookup_upsertThingNodes, Option.map_map]
    congr 1
    funext row
    simp only [Function.comp_apply]
    split
    · exact updateParentId_id _ row
    · rfl
  · rfl

/-- Merging a node into the row it gave changes nothing. -/
theorem mergeThingNode_updateParentId
    (dict : PyStr × PyStr → Option (StructureServiceThingNode J))
    (rows : List (StructureServiceThingNode J)) (new : StructureServiceThingNode J) :
    mergeThingNode (updateParentId dict (merged (fun row => row.key) mergeThingNode rows new)) new =
      updateParentId dict (merged (fun row => row.key) mergeThingNode rows new) := by
  unfold updateParentId merged
  repeat' split
  all_goals rfl

/-- Writing thing nodes twice is as good as once. -/
theorem upsertThingNodes_idem {dicts rows : List (StructureServiceThingNode J)}
    (hdicts : (dicts.map fun dict => dict.key).Nodup)
    (hrows : (rows.map fun row => row.key).Nodup) :
    upsertThingNodes dicts (upsertThingNodes dicts rows) = upsertThingNodes dicts rows := by
  have hnodup : ((upsertThingNodes dicts rows).map fun row => row.key).Nodup := by
    rw [upsertThingNodes, map_key_updateParentIds]
    exact upsertAll_nodup hrows dicts
  have hwritten : upsertAll (fun row => row.key) mergeThingNode (upsertThingNodes dicts rows) dicts =
      upsertThingNodes dicts rows := by
    refine upsertAll_self hnodup fun dict hdict => ?_
    obtain ⟨hmem, hkey⟩ := lookup_eq_some (lookup_upsertThingNodes_of_mem hdicts rows hdict)
    exact ⟨_, hmem, hkey, mergeThingNode_updateParentId _ rows dict⟩
  rw [upsertThingNodes, hwritten]
  refine (List.map_congr_left fun row' hrow' => ?_).trans (List.map_id _)
  obtain ⟨row, -, rfl⟩ := List.mem_map.mp hrow'
  have hids := map_id_returned dicts rows
  have hsome : (upsertedThingNodes dicts rows row.key).isSome =
      (returned (fun row => row.key) dicts (fun dict => dict.key) (upsertThingNodes dicts rows)
        row.key).isSome := by
    have hboth := congrArg Option.isSome (hids row.key)
    rw [Option.isSome_map, Option.isSome_map] at hboth
    exact hboth.symm
  by_cases hrow : (upsertedThingNodes dicts rows row.key).isSome = true
  · have hupdate := updateParentId_updateParentId (underKeys_returned dicts _)
      (underKeys_returned dicts (upsertThingNodes dicts rows)) hids row
    simp only [id, upsertedThingNodes] at hrow hupdate ⊢
    rw [if_pos hrow, hupdate, ite_self]
  · have hrow' : ¬ (returned (fun row => row.key) dicts (fun dict => dict.key)
        (upsertThingNodes dicts rows) row.key).isSome = true := hsome ▸ hrow
    simp only [id, upsertedThingNodes] at hrow ⊢
    rw [if_neg hrow, if_neg hrow']

/-! ## Associations -/

section Assign

variable {existing : PyStr × PyStr → Option (StructureServiceThingNode J)}

/-- The associations of one source or sink. -/
theorem mem_associations {row : SourceOrSink J} {pair : UUID × UUID} :
    pair ∈ associations existing row ↔ pair.2 = row.id ∧
      ∃ tnExternalId ∈ row.thingNodeExternalIds.getD [],
        ∃ node, existing (row.stakeholderKey, tnExternalId) = some node ∧ node.id = pair.1 := by
  rw [associations, List.mem_toFinset, List.mem_map]
  constructor
  · rintro ⟨node, hnode, rfl⟩
    obtain ⟨tnExternalId, hid, hexisting⟩ := List.mem_filterMap.mp hnode
    exact ⟨rfl, tnExternalId, hid, node, hexisting, rfl⟩
  · rintro ⟨hrow, tnExternalId, hid, node, hexisting, hnode⟩
    exact ⟨node, List.mem_filterMap.mpr ⟨tnExternalId, hid, hexisting⟩, Prod.ext hnode hrow.symm⟩

/-- Associations of other sources or sinks stay as they are. -/
theorem mem_assignThingNodes_of_ne {rows : List (SourceOrSink J)} {pair : UUID × UUID}
    (h : ∀ row ∈ rows, row.id ≠ pair.2) (association : Finset (UUID × UUID)) :
    pair ∈ assignThingNodes existing association rows ↔ pair ∈ association := by
  induction rows generalizing association with
  | nil => rfl
  | cons row rest ih =>
    obtain ⟨hrow, hrest⟩ := List.forall_mem_cons.mp h
    rw [assignThingNodes, List.foldl_cons, ← assignThingNodes, ih hrest, Finset.mem_union,
      Finset.mem_filter]
    have hnot : pair ∉ associations existing row := fun hpair =>
      hrow (mem_associations.mp hpair).1.symm
    constructor
    · rintro (hpair | hpair)
      · exact hpair.1
      · exact absurd hpair hnot
    · exact fun hpair => Or.inl ⟨hpair, hrow.symm⟩

/-- A source or sink has the associations assigned to it. -/
theorem mem_assignThingNodes_of_mem {rows : List (SourceOrSink J)}
    (hids : ∀ row ∈ rows, ∀ other ∈ rows, row.id = other.id → row = other)
    {row : SourceOrSink J} (hrow : row ∈ rows) {pair : UUID × UUID} (hpair : pair.2 = row.id)
    (association : Finset (UUID × UUID)) :
    pair ∈ assignThingNodes existing association rows ↔ pair ∈ associations existing row := by
  induction rows generalizing association with
  | nil => exact absurd hrow List.not_mem_nil
  | cons first rest ih =>
    rw [assignThingNodes, List.foldl_cons, ← assignThingNodes]
    by_cases hagain : row ∈ rest
    · exact ih (fun a ha b hb => hids a (List.mem_cons_of_mem _ ha) b (List.mem_cons_of_mem _ hb))
        hagain _
    · obtain rfl := (List.mem_cons.mp hrow).resolve_right hagain
      have hothers : ∀ other ∈ rest, other.id ≠ pair.2 := by
        intro other hother heq
        have hsame := hids row hrow other (List.mem_cons_of_mem _ hother) (heq.trans hpair).symm
        exact hagain (hsame ▸ hother)
      rw [mem_assignThingNodes_of_ne hothers, Finset.mem_union, Finset.mem_filter]
      constructor
      · rintro (hold | hnew)
        · exact absurd hpair hold.2
        · exact hnew
      · exact Or.inr

/-- Assigning twice is as good as once. -/
theorem assignThingNodes_idem {rows : List (SourceOrSink J)}
    (hids : ∀ row ∈ rows, ∀ other ∈ rows, row.id = other.id → row = other)
    (association : Finset (UUID × UUID)) :
    assignThingNodes existing (assignThingNodes existing association rows) rows =
      assignThingNodes existing association rows := by
  ext pair
  by_cases hpair : ∃ row ∈ rows, pair.2 = row.id
  · obtain ⟨row, hrow, hid⟩ := hpair
    rw [mem_assignThingNodes_of_mem hids hrow hid, mem_assignThingNodes_of_mem hids hrow hid]
  · exact mem_assignThingNodes_of_ne (fun row hrow heq => hpair ⟨row, hrow, heq.symm⟩) _

end Assign

/-! ## Applying a structure twice -/

/-- Returned rows are stored ones. -/
theorem mem_of_mem_returnedRows {given rows : List (SourceOrSink J)} {row : SourceOrSink J}
    (h : row ∈ returnedRows given rows) : row ∈ rows := by
  obtain ⟨element, -, hrow⟩ := List.mem_filterMap.mp h
  exact (lookup_eq_some hrow).1

/-- Returned rows with the same id are the same. -/
theorem returnedRows_ids {given rows : List (SourceOrSink J)}
    (hids : (rows.map fun row => row.id).Nodup) :
    ∀ row ∈ returnedRows given rows, ∀ other ∈ returnedRows given rows,
      row.id = other.id → row = other :=
  fun _ hrow _ hother => List.inj_on_of_nodup_map hids (mem_of_mem_returnedRows hrow)
    (mem_of_mem_returnedRows hother)

/-- Writing sources or sinks twice is as good as once. -/
theorem upsertSourcesOrSinks_idem {given rows : List (SourceOrSink J)}
    (hgiven : (given.map fun element => element.key).Nodup)
    (hrows : (rows.map fun row => row.key).Nodup) :
    upsertSourcesOrSinks given (upsertSourcesOrSinks given rows) =
      upsertSourcesOrSinks given rows :=
  upsertAll_idem key_mergeSourceOrSink (fun _ => rfl) (fun _ _ => rfl) hrows hgiven

section Update

variable {completeStructure : CompleteStructure J} {tables : StructureTables J}
  (hvalid : completeStructure.validate = .ok ()) (htables : tables.Constraints)

include hvalid htables

/-- The second time the same nodes are written. -/
theorem writtenNodes_updatedTables :
    writtenNodes completeStructure (updatedTables completeStructure tables) =
      writtenNodes completeStructure tables := by
  have hidem : upsertElementTypes completeStructure.elementTypes
      (upsertElementTypes completeStructure.elementTypes tables.elementTypes) =
        upsertElementTypes completeStructure.elementTypes tables.elementTypes :=
    upsertAll_idem key_mergeElementType (fun _ => rfl) (fun _ _ => rfl) htables.elementTypes.keys
      (keys_nodup_of_validate hvalid).1
  exact congrArg (fun rows => thingNodeDicts
    (returned (fun row => row.key) completeStructure.elementTypes (fun element => element.key) rows)
    (setParentIds completeStructure.thingNodes)) hidem

/-- The second time the same rows are returned. -/
theorem existingThingNodes_updatedTables :
    existingThingNodes completeStructure (updatedTables completeStructure tables) =
      existingThingNodes completeStructure tables := by
  unfold existingThingNodes
  rw [writtenNodes_updatedTables hvalid htables]
  exact congrArg (returned (fun row => row.key) (writtenNodes completeStructure tables)
    fun dict => dict.key)
    (upsertThingNodes_idem (writtenNodes_nodup (keys_nodup_of_validate hvalid).2.1 tables)
      htables.thingNodes.keys)

/-- Applying a structure twice is as good as once. -/
theorem updatedTables_idem (hupdated : (updatedTables completeStructure tables).Constraints) :
    updatedTables completeStructure (updatedTables completeStructure tables) =
      updatedTables completeStructure tables := by
  obtain ⟨helementTypeKeys, hthingNodeKeys, hsourceKeys, hsinkKeys⟩ := keys_nodup_of_validate hvalid
  have helementTypes : (updatedTables completeStructure
      (updatedTables completeStructure tables)).elementTypes =
        (updatedTables completeStructure tables).elementTypes :=
    upsertAll_idem key_mergeElementType (fun _ => rfl) (fun _ _ => rfl) htables.elementTypes.keys
      helementTypeKeys
  have hthingNodes : (updatedTables completeStructure
      (updatedTables completeStructure tables)).thingNodes =
        (updatedTables completeStructure tables).thingNodes := by
    refine (congrArg (fun dicts => upsertThingNodes dicts _)
      (writtenNodes_updatedTables hvalid htables)).trans ?_
    exact upsertThingNodes_idem (writtenNodes_nodup hthingNodeKeys tables) htables.thingNodes.keys
  have hsources : (updatedTables completeStructure
      (updatedTables completeStructure tables)).sources =
        (updatedTables completeStructure tables).sources :=
    upsertSourcesOrSinks_idem hsourceKeys htables.sources.keys
  have hsinks : (updatedTables completeStructure
      (updatedTables completeStructure tables)).sinks =
        (updatedTables completeStructure tables).sinks :=
    upsertSourcesOrSinks_idem hsinkKeys htables.sinks.keys
  have hsourceAssociation : (updatedTables completeStructure
      (updatedTables completeStructure tables)).sourceAssociation =
        (updatedTables completeStructure tables).sourceAssociation := by
    refine Eq.trans ?_ (assignThingNodes_idem (returnedRows_ids hupdated.sources.ids) _)
    exact congr (congrArg (fun existing => assignThingNodes existing _)
      (existingThingNodes_updatedTables hvalid htables)) (congrArg (returnedRows _) hsources)
  have hsinkAssociation : (updatedTables completeStructure
      (updatedTables completeStructure tables)).sinkAssociation =
        (updatedTables completeStructure tables).sinkAssociation := by
    refine Eq.trans ?_ (assignThingNodes_idem (returnedRows_ids hupdated.sinks.ids) _)
    exact congr (congrArg (fun existing => assignThingNodes existing _)
      (existingThingNodes_updatedTables hvalid htables)) (congrArg (returnedRows _) hsinks)
  exact StructureTables.ext helementTypes hthingNodes hsources hsinks hsourceAssociation
    hsinkAssociation

end Update

/-! ## What is stored -/

/-- A stored parent is found under its key. -/
theorem storedParent_iff {rows : List (StructureServiceThingNode J)}
    (hrows : (rows.map fun row => row.key).Nodup) {key : PyStr × PyStr}
    {parentNodeId : Option UUID} :
    StoredParent rows (some key) parentNodeId ↔
      ∃ parent, lookup (fun row => row.key) key rows = some parent ∧
        parentNodeId = some parent.id := by
  constructor
  · rintro ⟨parent, hparent, rfl, hid⟩
    exact ⟨parent, lookup_of_mem hrows hparent, hid⟩
  · rintro ⟨parent, hparent, hid⟩
    obtain ⟨hmem, hkey⟩ := lookup_eq_some hparent
    exact ⟨parent, hmem, hkey, hid⟩

section Stored

variable {completeStructure : CompleteStructure J}
  (hvalid : completeStructure.validate = .ok ())
  (helementTypes : ElementTypesExist completeStructure) (tables : StructureTables J)

include hvalid helementTypes

/-- The keys of written nodes are those of the structure. -/
theorem exists_written_iff (key : PyStr × PyStr) :
    (∃ dict ∈ writtenNodes completeStructure tables, dict.key = key) ↔
      ∃ node ∈ completeStructure.thingNodes, node.key = key := by
  constructor
  · rintro ⟨dict, hdict, rfl⟩
    obtain ⟨node, hnode, elementTypeId, rfl⟩ := exists_node_of_mem_writtenNodes hdict
    exact ⟨node, hnode, by simp⟩
  · rintro ⟨node, hnode, rfl⟩
    obtain ⟨dict, hdict, hkey, -⟩ :=
      exists_mem_writtenNodes helementTypes (keys_nodup_of_validate hvalid).1 tables hnode
    exact ⟨dict, hdict, hkey⟩

/-- The thing nodes to which sources and sinks are assigned. -/
theorem existingThingNodes_eq_some {key : PyStr × PyStr} {row : StructureServiceThingNode J} :
    existingThingNodes completeStructure tables key = some row ↔
      (∃ node ∈ completeStructure.thingNodes, node.key = key) ∧
        lookup (fun row => row.key) key (updatedTables completeStructure tables).thingNodes =
          some row :=
  returned_eq_some.trans (and_congr_left' (exists_written_iff hvalid helementTypes tables key))

/-- Rows which the structure does not mention stay as they are. -/
theorem lookup_updatedTables_of_ne {key : PyStr × PyStr}
    (hkey : ∀ node ∈ completeStructure.thingNodes, node.key ≠ key) :
    lookup (fun row => row.key) key (updatedTables completeStructure tables).thingNodes =
      lookup (fun row => row.key) key tables.thingNodes := by
  apply lookup_upsertThingNodes_of_ne
  intro dict hdict heq
  obtain ⟨node, hnode, hsame⟩ :=
    (exists_written_iff hvalid helementTypes tables key).mp ⟨dict, hdict, heq⟩
  exact hkey node hnode hsame

/-- The row of a node has the id of the parent which the structure contains, or else the kept one. -/
theorem exists_row_of_mem {node : StructureServiceThingNode J}
    (hnode : node ∈ completeStructure.thingNodes) :
    ∃ row, lookup (fun row => row.key) node.key (updatedTables completeStructure tables).thingNodes =
        some row ∧
      row.parentNodeId =
        ((node.parentKey.bind (existingThingNodes completeStructure tables)).map
          fun parent => parent.id).or (keptParentId tables node) := by
  obtain ⟨helementTypeKeys, hthingNodeKeys, -⟩ := keys_nodup_of_validate hvalid
  have hdicts := writtenNodes_nodup hthingNodeKeys tables
  obtain ⟨dict, hdict, hkey, hparentKey, hparentId⟩ :=
    exists_mem_writtenNodes helementTypes helementTypeKeys tables hnode
  have hrow := lookup_upsertThingNodes_of_mem hdicts tables.thingNodes hdict
  rw [hkey] at hrow
  refine ⟨_, hrow, ?_⟩
  have hid : (node.parentKey.bind (upsertedThingNodes (writtenNodes completeStructure tables)
      tables.thingNodes)).map (fun parent => parent.id) =
        (node.parentKey.bind (existingThingNodes completeStructure tables)).map
          fun parent => parent.id := by
    cases node.parentKey with
    | none => rfl
    | some key => exact (map_id_returned _ _ key).symm
  rw [updateParentId_parentNodeId (underKeys_upsertedThingNodes _ _), merged_parentKey, hparentKey,
    hid, merged_parentNodeId, hkey, hparentId]
  cases hparent : node.parentKey.bind (existingThingNodes completeStructure tables) with
  | some parent => rfl
  | none =>
    have horphan : parentIn completeStructure.thingNodes node = none := by
      refine Option.eq_none_iff_forall_ne_some.mpr fun parent hin => ?_
      obtain ⟨hmem, hparentKey⟩ := parentIn_eq_some hin
      obtain ⟨other, hother, hotherKey, -⟩ :=
        exists_mem_writtenNodes helementTypes helementTypeKeys tables hmem
      have hfound := lookup_upsertThingNodes_of_mem hdicts tables.thingNodes hother
      have hexisting := (existingThingNodes_eq_some hvalid helementTypes tables).mpr
        ⟨⟨parent, hmem, rfl⟩, hotherKey ▸ hfound⟩
      rw [hparentKey, Option.bind_some, hexisting] at hparent
      exact absurd hparent (by simp)
    rw [horphan]
    rfl

/-- A node is stored with the right parent exactly if a kept one is right. -/
theorem storedParent_updatedTables_iff (htables : tables.Constraints)
    (hupdated : (updatedTables completeStructure tables).Constraints)
    {node : StructureServiceThingNode J} (hnode : node ∈ completeStructure.thingNodes) :
    (∃ row ∈ (updatedTables completeStructure tables).thingNodes, row.key = node.key ∧
        StoredParent (updatedTables completeStructure tables).thingNodes node.parentKey
          row.parentNodeId) ↔
      ((∀ other ∈ completeStructure.thingNodes, node.parentKey ≠ some other.key) →
        StoredParent tables.thingNodes node.parentKey (keptParentId tables node)) := by
  obtain ⟨row, hrow, hparentId⟩ := exists_row_of_mem hvalid helementTypes tables hnode
  have hstored : (∃ row ∈ (updatedTables completeStructure tables).thingNodes,
      row.key = node.key ∧ StoredParent (updatedTables completeStructure tables).thingNodes
        node.parentKey row.parentNodeId) ↔
      StoredParent (updatedTables completeStructure tables).thingNodes node.parentKey
        row.parentNodeId := by
    constructor
    · rintro ⟨row', hmem, hkey, hparent⟩
      have hfound := lookup_of_mem hupdated.thingNodes.keys hmem
      simp only [hkey] at hfound
      rwa [Option.some.inj (hrow.symm.trans hfound)]
    · intro hparent
      obtain ⟨hmem, hkey⟩ := lookup_eq_some hrow
      exact ⟨row, hmem, hkey, hparent⟩
  rw [hstored, hparentId]
  cases hparentKey : node.parentKey with
  | none =>
    constructor
    · exact fun h _ => h
    · exact fun h => h fun other _ heq => absurd heq (by simp)
  | some key =>
    by_cases hgiven : ∃ other ∈ completeStructure.thingNodes, other.key = key
    · obtain ⟨other, hother, hkey⟩ := hgiven
      obtain ⟨parent, hparent, -⟩ := exists_row_of_mem hvalid helementTypes tables hother
      rw [hkey] at hparent
      have hexisting := (existingThingNodes_eq_some hvalid helementTypes tables).mpr
        ⟨⟨other, hother, hkey⟩, hparent⟩
      constructor
      · exact fun _ h => absurd (congrArg some hkey.symm) (h other hother)
      · intro _
        rw [Option.bind_some, hexisting]
        exact (storedParent_iff hupdated.thingNodes.keys).mpr ⟨parent, hparent, rfl⟩
    · have hne : ∀ other ∈ completeStructure.thingNodes, other.key ≠ key :=
        fun other hother heq => hgiven ⟨other, hother, heq⟩
      have hnone : existingThingNodes completeStructure tables key = none := by
        refine Option.eq_none_iff_forall_ne_some.mpr fun parent hparent => hgiven ?_
        exact ((existingThingNodes_eq_some hvalid helementTypes tables).mp hparent).1
      have hsame : ∀ parentNodeId,
          StoredParent (updatedTables completeStructure tables).thingNodes (some key)
            parentNodeId ↔ StoredParent tables.thingNodes (some key) parentNodeId := by
        intro parentNodeId
        rw [storedParent_iff hupdated.thingNodes.keys, storedParent_iff htables.thingNodes.keys,
          lookup_updatedTables_of_ne hvalid helementTypes tables hne]
      rw [Option.bind_some, hnone, Option.map_none, Option.none_or, hsame]
      constructor
      · exact fun h _ => h
      · exact fun h => h fun other hother heq => hne other hother (Option.some.inj heq).symm

/-- Sources or sinks are associated with the nodes they list exactly if those are of their
stakeholder. -/
theorem storedAssociations_updatedTables_iff
    (hupdated : (updatedTables completeStructure tables).Constraints)
    {given rows : List (SourceOrSink J)}
    (hgiven : (given.map fun element => element.key).Nodup)
    (hkeys : ((upsertSourcesOrSinks given rows).map fun row => row.key).Nodup)
    (hids : ((upsertSourcesOrSinks given rows).map fun row => row.id).Nodup)
    (association : Finset (UUID × UUID)) {element : SourceOrSink J} (helement : element ∈ given) :
    StoredAssociations (updatedTables completeStructure tables).thingNodes
        (upsertSourcesOrSinks given rows)
        (assignThingNodes (existingThingNodes completeStructure tables) association
          (returnedRows given (upsertSourcesOrSinks given rows))) element ↔
      ∀ tnExternalId ∈ element.thingNodeExternalIds.getD [],
        ∃ node ∈ completeStructure.thingNodes,
          node.key = (element.stakeholderKey, tnExternalId) := by
  have hfound := lookup_upsertAll key_mergeSourceOrSink hgiven helement rows
  obtain ⟨row, hrowEq⟩ : ∃ row, row = merged (fun row => row.key) mergeSourceOrSink rows element :=
    ⟨_, rfl⟩
  rw [← hrowEq] at hfound
  obtain ⟨hrow, hkey⟩ := lookup_eq_some hfound
  have hstakeholder : row.stakeholderKey = element.stakeholderKey := congrArg Prod.fst hkey
  have hlisted : row.thingNodeExternalIds = element.thingNodeExternalIds := by
    rw [hrowEq]
    unfold merged
    split <;> rfl
  have hreturned : row ∈ returnedRows given (upsertSourcesOrSinks given rows) :=
    List.mem_filterMap.mpr ⟨element, helement, hfound⟩
  have hassigned : ∀ id, (id, row.id) ∈ assignThingNodes
      (existingThingNodes completeStructure tables) association
        (returnedRows given (upsertSourcesOrSinks given rows)) ↔
      ∃ tnExternalId ∈ element.thingNodeExternalIds.getD [], ∃ node,
        existingThingNodes completeStructure tables (element.stakeholderKey, tnExternalId) =
          some node ∧ node.id = id := by
    intro id
    rw [mem_assignThingNodes_of_mem (returnedRows_ids hids) hreturned rfl, mem_associations,
      hstakeholder, hlisted]
    exact and_iff_right rfl
  constructor
  · rintro ⟨row', hmem', hkey', hlists, -⟩ tnExternalId hid
    obtain rfl : row' = row := KeyedList.eq_of_key_eq hkeys hmem' hrow (hkey'.trans hkey.symm)
    obtain ⟨node, hnode, hnodeKey, hpair⟩ := hlists tnExternalId hid
    obtain ⟨other, -, node', hexisting, hsame⟩ := (hassigned node.id).mp hpair
    obtain ⟨⟨given', hgiven', hgivenKey⟩, hlookup⟩ :=
      (existingThingNodes_eq_some hvalid helementTypes tables).mp hexisting
    obtain ⟨hnode', hnodeKey'⟩ := lookup_eq_some hlookup
    obtain rfl : node' = node :=
      List.inj_on_of_nodup_map hupdated.thingNodes.ids hnode' hnode hsame
    exact ⟨given', hgiven', hgivenKey.trans (hnodeKey'.symm.trans hnodeKey)⟩
  · intro hown
    refine ⟨row, hrow, hkey, fun tnExternalId hid => ?_, fun id hpair => ?_⟩
    · obtain ⟨node, hnode, hnodeKey⟩ := hown tnExternalId hid
      obtain ⟨stored, hlookup, -⟩ := exists_row_of_mem hvalid helementTypes tables hnode
      obtain ⟨hstored, hstoredKey⟩ := lookup_eq_some hlookup
      refine ⟨stored, hstored, hstoredKey.trans hnodeKey, ?_⟩
      refine (hassigned stored.id).mpr ⟨tnExternalId, hid, stored, ?_, rfl⟩
      exact (existingThingNodes_eq_some hvalid helementTypes tables).mpr
        ⟨⟨node, hnode, hnodeKey⟩, hnodeKey ▸ hlookup⟩
    · obtain ⟨tnExternalId, hid, node, hexisting, hnode⟩ := (hassigned id).mp hpair
      obtain ⟨-, hlookup⟩ := (existingThingNodes_eq_some hvalid helementTypes tables).mp hexisting
      obtain ⟨hmem, hnodeKey⟩ := lookup_eq_some hlookup
      exact ⟨tnExternalId, hid, node, hmem, hnodeKey, hnode⟩

/-- The hierarchy of a structure is stored exactly if the kept parent ids are right and thing
nodes are listed under their stakeholder. -/
theorem storedAs_updatedTables_iff (htables : tables.Constraints)
    (hupdated : (updatedTables completeStructure tables).Constraints) :
    StoredAs completeStructure (updatedTables completeStructure tables) ↔
      KeepsRightParents completeStructure tables := by
  obtain ⟨-, -, hsourceKeys, hsinkKeys⟩ := keys_nodup_of_validate hvalid
  constructor
  · rintro ⟨hparents, hsources, hsinks⟩
    refine ⟨fun node hnode => ?_, fun source hsource => ?_, fun sink hsink => ?_⟩
    · exact (storedParent_updatedTables_iff hvalid helementTypes tables htables hupdated hnode).mp
        (hparents node hnode)
    · exact (storedAssociations_updatedTables_iff hvalid helementTypes tables hupdated hsourceKeys
        hupdated.sources.keys hupdated.sources.ids _ hsource).mp (hsources source hsource)
    · exact (storedAssociations_updatedTables_iff hvalid helementTypes tables hupdated hsinkKeys
        hupdated.sinks.keys hupdated.sinks.ids _ hsink).mp (hsinks sink hsink)
  · rintro ⟨hparents, hsources, hsinks⟩
    refine ⟨fun node hnode => ?_, fun source hsource => ?_, fun sink hsink => ?_⟩
    · exact (storedParent_updatedTables_iff hvalid helementTypes tables htables hupdated hnode).mpr
        (hparents node hnode)
    · exact (storedAssociations_updatedTables_iff hvalid helementTypes tables hupdated hsourceKeys
        hupdated.sources.keys hupdated.sources.ids _ hsource).mpr (hsources source hsource)
    · exact (storedAssociations_updatedTables_iff hvalid helementTypes tables hupdated hsinkKeys
        hupdated.sinks.keys hupdated.sinks.ids _ hsink).mpr (hsinks sink hsink)

end Stored

/-- A valid structure whose element types exist is stored as it is, and stays so when it is applied
again, exactly if the kept parent ids are right and thing nodes are listed under their
stakeholder. -/
theorem updateStructure_stores_iff {rounds : ℕ} {completeStructure : CompleteStructure J}
    {db db' : StructureDb J} (hvalid : completeStructure.validate = .ok ())
    (helementTypes : ElementTypesExist completeStructure)
    (h : updateStructure rounds completeStructure db = .ok db') :
    (StoredAs completeStructure db'.toStructureTables ∧
        updateStructure rounds completeStructure db' = .ok db') ↔
      KeepsRightParents completeStructure db.toStructureTables := by
  obtain ⟨hsorted, htables⟩ := updateStructure_eq_ok.mp h
  have hupdated : (updatedTables completeStructure db.toStructureTables).Constraints :=
    htables ▸ db'.constraints
  have hagain : updateStructure rounds completeStructure db' = .ok db' := by
    refine updateStructure_eq_ok.mpr ⟨hsorted, ?_⟩
    rw [htables]
    exact (updatedTables_idem hvalid db.constraints hupdated).symm
  rw [and_iff_left hagain, htables]
  exact storedAs_updatedTables_iff hvalid helementTypes db.toStructureTables db.constraints hupdated

/-! ## A child which becomes a root -/

/-- A root with a child. -/
def rootWithChild : CompleteStructure ℤ where
  elementTypes := [plainElementType]
  thingNodes := [plainNode 41 'A' 'x' none, plainNode 42 'A' 'y' (some ['x'])]
  sources := []
  sinks := []

/-- The same two nodes as roots. -/
def rootsOnly : CompleteStructure ℤ where
  elementTypes := [plainElementType]
  thingNodes := [plainNode 51 'A' 'x' none, plainNode 52 'A' 'y' none]
  sources := []
  sinks := []

/-- A database which has stored nothing. -/
def emptyStructureDb : StructureDb ℤ := ⟨⟨[], [], [], [], ∅, ∅⟩, by decide⟩

/-- The database after the root with its child has been stored. -/
def rootWithChildDb : StructureDb ℤ :=
  ⟨updatedTables rootWithChild emptyStructureDb.toStructureTables, by decide⟩

/-- The database after the two roots have been stored in turn. -/
def rootsOnlyDb : StructureDb ℤ :=
  ⟨updatedTables rootsOnly rootWithChildDb.toStructureTables, by decide⟩

/-- The root with its child is stored. -/
theorem updateStructure_rootWithChild :
    updateStructure 2 rootWithChild emptyStructureDb = .ok rootWithChildDb := by
  refine updateStructure_eq_ok.mpr ⟨?_, rfl⟩
  have hforest : IsForest rootWithChild.thingNodes :=
    ⟨by decide, acyclic_singleton (by decide)⟩
  obtain ⟨sorted, hsorted, -⟩ := sortsNodes_of_isForest (by decide) hforest (by decide)
  exact Option.isSome_of_mem hsorted

/-- The child keeps its parent when it becomes a root. -/
theorem updateStructure_not_storedAs :
    rootsOnly.validate = .ok () ∧ ElementTypesExist rootsOnly ∧
      updateStructure 2 rootWithChild emptyStructureDb = .ok rootWithChildDb ∧
      updateStructure 2 rootsOnly rootWithChildDb = .ok rootsOnlyDb ∧
      ¬ StoredAs rootsOnly rootsOnlyDb.toStructureTables := by
  refine ⟨by decide, by decide, updateStructure_rootWithChild, ?_, fun hstored => ?_⟩
  · refine updateStructure_eq_ok.mpr ⟨?_, rfl⟩
    have hforest : IsForest rootsOnly.thingNodes :=
      ⟨by decide, fun key hcycle => by
        obtain ⟨_, hedge⟩ := EdgeList.exists_edge_to_of_transGen hcycle
        exact absurd hedge List.not_mem_nil⟩
    obtain ⟨sorted, hsorted, -⟩ := sortsNodes_of_isForest (by decide) hforest (by decide)
    exact Option.isSome_of_mem hsorted
  · obtain ⟨row, hrow, hkey, hparent⟩ :=
      hstored.parents (plainNode 52 'A' 'y' none) (by decide)
    have hkept : ∀ row ∈ rootsOnlyDb.thingNodes, row.key = (['A'], ['y']) →
        row.parentNodeId ≠ none := by decide
    exact hkept row hrow hkey hparent

/-- Texts of one character are not empty. -/
theorem text_ne_nil (character : Char) : ([character] : PyStr) ≠ [] := List.cons_ne_nil _ _

/-- The key of the stakeholder of the sources is not empty. -/
theorem listingNodes_key_ne_nil : (['A'] : PyStr) ≠ [] := text_ne_nil 'A'

/-- A source or sink which lists thing nodes. -/
def listingNodes (id : UUID) (externalId : Char) (thingNodes : List PyStr) : SourceOrSink ℤ where
  externalId := [externalId]
  stakeholderKey := ['A']
  name := [externalId]
  external_id_not_empty := text_ne_nil externalId
  stakeholder_key_not_empty := listingNodes_key_ne_nil
  name_not_empty := text_ne_nil externalId
  id := id
  type := .dataframe
  visible := true
  displayPath := []
  presetFilters := []
  passthroughFilters := none
  adapterKey := ['k']
  referencedId := ['r']
  refKey := none
  refId := []
  metaData := none
  thingNodeExternalIds := some thingNodes

/-- The root and its child with new ids, a child of the child, a source at both children and a sink
at the root. -/
def grownStructure : CompleteStructure ℤ where
  elementTypes := [plainElementType]
  thingNodes := [plainNode 61 'A' 'x' none, plainNode 62 'A' 'y' (some ['x']),
    plainNode 63 'A' 'z' (some ['y'])]
  sources := [listingNodes 71 's' [['y'], ['z']]]
  sinks := [listingNodes 81 's' [['x']]]

/-- The database after the structure has grown. -/
def grownStructureDb : StructureDb ℤ :=
  ⟨updatedTables grownStructure rootWithChildDb.toStructureTables, by decide⟩

/-- The root which was stored before keeps having no parent, so the grown structure is stored as it
is, under the ids which its first two nodes had before. -/
theorem grownStructure_storedAs :
    KeepsRightParents grownStructure rootWithChildDb.toStructureTables ∧
      updateStructure 3 grownStructure rootWithChildDb = .ok grownStructureDb ∧
      grownStructureDb.thingNodes.map (fun row => (row.id, row.parentNodeId)) =
        [(41, none), (42, some 41), (63, some 42)] ∧
      StoredAs grownStructure grownStructureDb.toStructureTables ∧
      updateStructure 3 grownStructure grownStructureDb = .ok grownStructureDb := by
  have hforest : IsForest grownStructure.thingNodes :=
    ⟨by decide, EdgeList.acyclic_of_rank (fun key => if key.2 = ['z'] then 2 else
      if key.2 = ['y'] then 1 else 0) (by decide)⟩
  have hkeeps : KeepsRightParents grownStructure rootWithChildDb.toStructureTables := by decide
  have hgrown : updateStructure 3 grownStructure rootWithChildDb = .ok grownStructureDb := by
    refine updateStructure_eq_ok.mpr ⟨?_, rfl⟩
    obtain ⟨sorted, hsorted, -⟩ := sortsNodes_of_isForest (by decide) hforest (by decide)
    exact Option.isSome_of_mem hsorted
  exact ⟨hkeeps, hgrown, by decide,
    (updateStructure_stores_iff (by decide) (by decide) hgrown).mpr hkeeps⟩

end HetidaDesigner
