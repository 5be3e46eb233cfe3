import HetidaDesigner.Library.Levels
import HetidaDesigner.Structure.Hierarchy
import Mathlib.Data.Char
import Mathlib.Data.List.Lex

/-!
# Sorting thing nodes

The functions `set_parent_ids` and `sort_thing_nodes` of `structure/db/structure_service.py`. Nodes
are collected under the `id` of their parent, which structures may give freely. The sort lists each
node of a forest once and behind its parent exactly if no node shares its `id` with a parent.
-/

namespace HetidaDesigner

open LastEntry

variable {J : Type}

/-! ## Parents and children -/

/-- The dictionary `thing_node_map`. -/
def thingNodeMap (nodes : List (StructureServiceThingNode J)) (key : PyStr × PyStr) :
    Option (StructureServiceThingNode J) :=
  lastEntry (fun node => node.key) nodes key

/-- The parent `set_parent_ids` finds for a node; orphans are skipped. -/
def parentIn (nodes : List (StructureServiceThingNode J)) (node : StructureServiceThingNode J) :
    Option (StructureServiceThingNode J) :=
  match node.parentExternalNodeId with
  | none => none
  | some parentExternalId =>
    if parentExternalId = [] then none
    else thingNodeMap nodes (node.stakeholderKey, parentExternalId)

/-- A node with the id of its parent, if that is found. -/
def withParentId (nodes : List (StructureServiceThingNode J)) (node : StructureServiceThingNode J) :
    StructureServiceThingNode J :=
  match parentIn nodes node with
  | none => node
  | some parent => { node with parentNodeId := some parent.id }

/-- The nodes as `set_parent_ids` leaves them. -/
def setParentIds (nodes : List (StructureServiceThingNode J)) : List (StructureServiceThingNode J) :=
  nodes.map (withParentId nodes)

/-- The dictionary `children_by_node_id`, which `set_parent_ids` returns. -/
def childrenByNodeId (nodes : List (StructureServiceThingNode J)) (id : UUID) :
    List (StructureServiceThingNode J) :=
  (nodes.filter fun node => (parentIn nodes node).any fun parent => parent.id = id).map
    (withParentId nodes)

/-- The children of a node, by external id. -/
def childrenSorted (nodes : List (StructureServiceThingNode J)) (node : StructureServiceThingNode J) :
    List (StructureServiceThingNode J) :=
  (childrenByNodeId nodes node.id).mergeSort fun a b => a.externalId ≤ b.externalId

/-- The function `sort_thing_nodes`, whose loop treats one level in a round. -/
def sortThingNodes (rounds : ℕ) (nodes : List (StructureServiceThingNode J)) :
    Option (List (StructureServiceThingNode J)) :=
  Levels.traverse (childrenSorted nodes) rounds (rootNodes (setParentIds nodes))

@[simp] theorem withParentId_common (nodes : List (StructureServiceThingNode J))
    (node : StructureServiceThingNode J) :
    (withParentId nodes node).toStructureServiceCommonFields =
      node.toStructureServiceCommonFields := by
  unfold withParentId
  split <;> rfl

@[simp] theorem withParentId_id (nodes : List (StructureServiceThingNode J))
    (node : StructureServiceThingNode J) : (withParentId nodes node).id = node.id := by
  unfold withParentId
  split <;> rfl

@[simp] theorem withParentId_parentExternalNodeId (nodes : List (StructureServiceThingNode J))
    (node : StructureServiceThingNode J) :
    (withParentId nodes node).parentExternalNodeId = node.parentExternalNodeId := by
  unfold withParentId
  split <;> rfl

@[simp] theorem withParentId_parentKey (nodes : List (StructureServiceThingNode J))
    (node : StructureServiceThingNode J) :
    (withParentId nodes node).parentKey = node.parentKey := by
  simp [StructureServiceThingNode.parentKey]

/-- Setting parent ids keeps keys. -/
theorem map_key_setParentIds (nodes : List (StructureServiceThingNode J)) :
    ((setParentIds nodes).map fun node => node.key) = nodes.map fun node => node.key := by
  rw [setParentIds, List.map_map]
  exact List.map_congr_left fun node _ => by simp

/-- The parent is found under the parent key. -/
theorem parentIn_eq_some {nodes : List (StructureServiceThingNode J)}
    {node parent : StructureServiceThingNode J} (h : parentIn nodes node = some parent) :
    parent ∈ nodes ∧ node.parentKey = some parent.key := by
  unfold parentIn at h
  split at h
  · exact absurd h (by simp)
  · rename_i parentExternalId hparent
    split at h
    · exact absurd h (by simp)
    · obtain ⟨hmem, hkey⟩ := mem_of_lastEntry h
      refine ⟨hmem, ?_⟩
      rw [hkey]
      exact parentKey_eq_some.mpr ⟨rfl, hparent⟩

section Keys

variable {nodes : List (StructureServiceThingNode J)}
  (hkeys : (nodes.map fun node => node.key).Nodup)

include hkeys

/-- With distinct keys the parent is found if it is there. -/
theorem parentIn_of_parentKey {node parent : StructureServiceThingNode J} (hparent : parent ∈ nodes)
    (hkey : node.parentKey = some parent.key) : parentIn nodes node = some parent := by
  obtain ⟨hstakeholder, hid⟩ := parentKey_eq_some.mp hkey
  obtain ⟨found, hfound⟩ :=
    exists_lastEntry (fun node : StructureServiceThingNode J => node.key) hparent
  obtain ⟨hfoundMem, hfoundKey⟩ := mem_of_lastEntry hfound
  obtain rfl := eq_of_key_eq hkeys hfoundMem hparent hfoundKey
  have hne : found.key.2 ≠ [] := found.external_id_not_empty
  simp only [parentIn, hid, if_neg hne, hstakeholder]
  exact hfound

/-- Setting parent ids keeps nodes apart. -/
theorem setParentIds_nodup : (setParentIds nodes).Nodup := by
  rw [← map_key_setParentIds] at hkeys
  exact hkeys.of_map _

end Keys

/-- The children of a node are those whose parent has its id. -/
theorem mem_childrenSorted {nodes : List (StructureServiceThingNode J)}
    {node child : StructureServiceThingNode J} :
    child ∈ childrenSorted nodes node ↔ ∃ given ∈ nodes, withParentId nodes given = child ∧
      ∃ parent, parentIn nodes given = some parent ∧ parent.id = node.id := by
  rw [childrenSorted, List.mem_mergeSort, childrenByNodeId, List.mem_map]
  simp only [List.mem_filter, Option.any_eq_true, decide_eq_true_eq]
  constructor
  · rintro ⟨given, ⟨hgiven, hparent⟩, hchild⟩
    exact ⟨given, hgiven, hchild, hparent⟩
  · rintro ⟨given, hgiven, hchild, hparent⟩
    exact ⟨given, ⟨hgiven, hparent⟩, hchild⟩

/-! ## What the sort lists -/

/-- No node shares its id with another one which is a parent. -/
def ParentsOwnIds (nodes : List (StructureServiceThingNode J)) : Prop :=
  ∀ node ∈ nodes, ∀ parent ∈ nodes, node.parentKey = some parent.key →
    ∀ other ∈ nodes, other.id = parent.id → other = parent

instance [DecidableEq J] (nodes : List (StructureServiceThingNode J)) :
    Decidable (ParentsOwnIds nodes) :=
  inferInstanceAs (Decidable (∀ node ∈ nodes, ∀ parent ∈ nodes, node.parentKey = some parent.key →
    ∀ other ∈ nodes, other.id = parent.id → other = parent))

/-- The nodes are listed once each, and none before its parent. -/
structure SortsNodes (nodes sorted : List (StructureServiceThingNode J)) : Prop where
  once : sorted.Perm (setParentIds nodes)
  parentsFirst : sorted.Pairwise fun node later => node.parentKey ≠ some later.key

/-- If parents have ids of their own, a node is among the children of its parent only. -/
theorem parentKey_of_mem_childrenSorted (hids : ParentsOwnIds nodes)
    {node child : StructureServiceThingNode J} (hnode : node ∈ setParentIds nodes)
    (hchild : child ∈ childrenSorted nodes node) :
    child ∈ setParentIds nodes ∧ child.parentKey = some node.key := by
  obtain ⟨given, hgiven, rfl, parent, hparent, hid⟩ := mem_childrenSorted.mp hchild
  obtain ⟨givenNode, hgivenNode, rfl⟩ := List.mem_map.mp hnode
  obtain ⟨hparentMem, hkey⟩ := parentIn_eq_some hparent
  rw [withParentId_id] at hid
  obtain rfl := hids given hgiven parent hparentMem hkey givenNode hgivenNode hid.symm
  exact ⟨List.mem_map_of_mem hgiven, by simpa using hkey⟩

section Sorted

variable {nodes : List (StructureServiceThingNode J)}
  (hkeys : (nodes.map fun node => node.key).Nodup)

include hkeys

/-- A node is among the children of its parent. -/
theorem mem_childrenSorted_of_parentKey {node parent : StructureServiceThingNode J}
    (hnode : node ∈ setParentIds nodes) (hparent : parent ∈ setParentIds nodes)
    (hkey : node.parentKey = some parent.key) : node ∈ childrenSorted nodes parent := by
  obtain ⟨given, hgiven, rfl⟩ := List.mem_map.mp hnode
  obtain ⟨givenParent, hgivenParent, rfl⟩ := List.mem_map.mp hparent
  rw [withParentId_parentKey, withParentId_common] at hkey
  refine mem_childrenSorted.mpr ⟨given, hgiven, rfl, givenParent, ?_, (withParentId_id ..).symm⟩
  exact parentIn_of_parentKey hkeys hgivenParent hkey

/-- Roots and children of a list whose parents have ids of their own branch. -/
theorem branches_childrenSorted (hids : ParentsOwnIds nodes) :
    Levels.Branches (childrenSorted nodes) (setParentIds nodes)
      (rootNodes (setParentIds nodes)) where
  roots_sub := fun _ hroot => (List.mem_filter.mp hroot).1
  children_sub := fun _ hnode _ hchild =>
    (parentKey_of_mem_childrenSorted hids hnode hchild).1
  roots_nodup := (setParentIds_nodup hkeys).filter _
  children_nodup := by
    intro node _
    rw [childrenSorted, (List.mergeSort_perm _ _).nodup_iff, childrenByNodeId]
    have hsub : ((nodes.filter fun given =>
        (parentIn nodes given).any fun parent => parent.id = node.id).map (withParentId nodes)).Sublist
        (setParentIds nodes) := List.filter_sublist.map _
    exact hsub.nodup (setParentIds_nodup hkeys)
  root_no_child := by
    intro node hnode child hchild hroot
    have hnone : child.parentExternalNodeId = none := of_decide_eq_true (List.mem_filter.mp hroot).2
    have hkey := (parentKey_of_mem_childrenSorted hids hnode hchild).2
    rw [StructureServiceThingNode.parentKey, hnone] at hkey
    exact absurd hkey (by simp)
  one_parent := by
    intro node hnode other hother child hchild hchild'
    have hkey := (parentKey_of_mem_childrenSorted hids hnode hchild).2
    have hkey' := (parentKey_of_mem_childrenSorted hids hother hchild').2
    have hkeys' : ((setParentIds nodes).map fun node => node.key).Nodup := by
      rwa [map_key_setParentIds]
    exact eq_of_key_eq hkeys' hnode hother (Option.some.inj (hkey.symm.trans hkey'))

/-- A forest whose parents have ids of their own is sorted, in as many rounds as it has nodes. -/
theorem sortsNodes_of_isForest (hforest : IsForest nodes) (hids : ParentsOwnIds nodes) :
    ∃ sorted, sortThingNodes nodes.length nodes = some sorted ∧ SortsNodes nodes sorted := by
  have hbranches := branches_childrenSorted hkeys hids
  have hnodup := setParentIds_nodup hkeys
  have hrounds : (setParentIds nodes).length ≤ nodes.length := by
    rw [setParentIds, List.length_map]
  obtain ⟨sorted, hsorted⟩ := hbranches.exists_traverse hrounds
  have hdescend : ∀ node ∈ setParentIds nodes, node ∉ rootNodes (setParentIds nodes) →
      ∃ parent ∈ setParentIds nodes, node ∈ childrenSorted nodes parent := by
    intro node hnode hnotRoot
    obtain ⟨given, hgiven, rfl⟩ := List.mem_map.mp hnode
    cases hkey : given.parentKey with
    | none =>
      refine absurd (List.mem_filter.mpr ⟨hnode, ?_⟩) hnotRoot
      rw [StructureServiceThingNode.parentKey, Option.map_eq_none_iff] at hkey
      simpa using hkey
    | some key =>
      obtain ⟨parent, hparent, rfl⟩ := hforest.parents given hgiven key hkey
      refine ⟨_, List.mem_map_of_mem hparent,
        mem_childrenSorted_of_parentKey hkeys hnode (List.mem_map_of_mem hparent) ?_⟩
      simpa using hkey
  have hwf : WellFounded fun parent node : StructureServiceThingNode J =>
      parent ∈ setParentIds nodes ∧ node ∈ childrenSorted nodes parent := by
    refine Subrelation.wf ?_ (InvImage.wf (fun node : StructureServiceThingNode J => node.key)
      hforest.acyclic.wellFounded)
    rintro parent node ⟨hparent, hchild⟩
    obtain ⟨hnode, hkey⟩ := parentKey_of_mem_childrenSorted hids hparent hchild
    obtain ⟨given, hgiven, rfl⟩ := List.mem_map.mp hnode
    rw [withParentId_parentKey] at hkey
    have hadj := adj_of_parentKey hgiven hkey
    exact .single (by simpa using hadj)
  have honce := hbranches.traverse_perm hsorted hnodup hdescend hwf
  have hsortedNodup := honce.nodup_iff.mpr hnodup
  refine ⟨sorted, hsorted, honce, ?_⟩
  refine (Levels.pairwise_of_traverse hsorted hsortedNodup).imp_of_mem ?_
  intro node later hnode hlater hnotChild hkey
  exact hnotChild (mem_childrenSorted_of_parentKey hkeys (honce.mem_iff.mp hnode)
    (honce.mem_iff.mp hlater) hkey)

/-- If the sort lists each node once, parents have ids of their own. -/
theorem parentsOwnIds_of_sort {rounds : ℕ} {sorted : List (StructureServiceThingNode J)}
    (hsort : sortThingNodes rounds nodes = some sorted)
    (honce : sorted.Perm (setParentIds nodes)) : ParentsOwnIds nodes := by
  intro node hnode parent hparent hkey other hother hid
  have hnodup : sorted.Nodup := honce.nodup_iff.mpr (setParentIds_nodup hkeys)
  have hlisted {given : StructureServiceThingNode J} (hgiven : given ∈ nodes) :
      withParentId nodes given ∈ sorted := honce.mem_iff.mpr (List.mem_map_of_mem hgiven)
  have hchild {given : StructureServiceThingNode J} (hgiven : given.id = parent.id) :
      withParentId nodes node ∈ childrenSorted nodes (withParentId nodes given) :=
    mem_childrenSorted.mpr ⟨node, hnode, rfl, parent, parentIn_of_parentKey hkeys hparent hkey,
      by rw [withParentId_id, hgiven]⟩
  have heq := Levels.one_parent_of_traverse hsort hnodup (hlisted hother) (hlisted hparent)
    (hchild hid) (hchild rfl)
  have hcommon := congrArg (fun given : StructureServiceThingNode J => given.key) heq
  simp only [withParentId_common] at hcommon
  exact eq_of_key_eq hkeys hother hparent hcommon

end Sorted

end HetidaDesigner
