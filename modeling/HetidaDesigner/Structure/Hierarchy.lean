import HetidaDesigner.Library.EdgeList
import HetidaDesigner.Structure.Models

/-!
# Hierarchies of thing nodes

The parent of a node is the node with the same stakeholder key and the external id it names.
The validators compare external ids alone. As long as each external id that is named as a parent
belongs to nodes of the stakeholder who names it, this makes no difference, and the validators
accept exactly the forests.
-/

namespace HetidaDesigner

open Checks LastEntry

variable {J : Type}

/-! ## Forests -/

/-- The key of the parent, if one is given. -/
def StructureServiceThingNode.parentKey (node : StructureServiceThingNode J) :
    Option (PyStr × PyStr) :=
  node.parentExternalNodeId.map fun parentExternalId => (node.stakeholderKey, parentExternalId)

/-- The edges from the keys of parents to the keys of their children. -/
def parentEdges (nodes : List (StructureServiceThingNode J)) :
    List ((PyStr × PyStr) × (PyStr × PyStr)) :=
  nodes.filterMap fun node => node.parentKey.map fun parentKey => (parentKey, node.key)

/-- Each given parent exists, and no node is above itself. -/
structure IsForest (nodes : List (StructureServiceThingNode J)) : Prop where
  parents : ∀ node ∈ nodes, ∀ key, node.parentKey = some key → ∃ parent ∈ nodes, parent.key = key
  acyclic : EdgeList.Acyclic (parentEdges nodes)

/-- An external id that is named as a parent belongs to nodes of that stakeholder only. -/
def SameStakeholders (nodes : List (StructureServiceThingNode J)) : Prop :=
  ∀ node ∈ nodes, ∀ other ∈ nodes, node.parentExternalNodeId = some other.externalId →
    other.stakeholderKey = node.stakeholderKey

instance (nodes : List (StructureServiceThingNode J)) : Decidable (SameStakeholders nodes) :=
  inferInstanceAs (Decidable (∀ node ∈ nodes, ∀ other ∈ nodes,
    node.parentExternalNodeId = some other.externalId → other.stakeholderKey = node.stakeholderKey))

/-- A node with a parent gives an edge. -/
theorem adj_of_parentKey {nodes : List (StructureServiceThingNode J)}
    {node : StructureServiceThingNode J} (hnode : node ∈ nodes) {key : PyStr × PyStr}
    (hparent : node.parentKey = some key) : EdgeList.Adj (parentEdges nodes) key node.key :=
  List.mem_filterMap.mpr ⟨node, hnode, by rw [hparent]; rfl⟩

/-- An edge comes from a node with a parent. -/
theorem exists_node_of_adj {nodes : List (StructureServiceThingNode J)} {parent child : PyStr × PyStr}
    (h : EdgeList.Adj (parentEdges nodes) parent child) :
    ∃ node ∈ nodes, node.parentKey = some parent ∧ node.key = child := by
  obtain ⟨node, hnode, hedge⟩ := List.mem_filterMap.mp h
  obtain ⟨key, hkey, heq⟩ := Option.map_eq_some_iff.mp hedge
  obtain ⟨rfl, rfl⟩ := Prod.mk.inj heq
  exact ⟨node, hnode, hkey, rfl⟩

/-- The parent key is made of the stakeholder key and the parent's external id. -/
theorem parentKey_eq_some {node : StructureServiceThingNode J} {key : PyStr × PyStr} :
    node.parentKey = some key ↔
      node.stakeholderKey = key.1 ∧ node.parentExternalNodeId = some key.2 := by
  obtain ⟨stakeholderKey, externalId⟩ := key
  rw [StructureServiceThingNode.parentKey, Option.map_eq_some_iff]
  constructor
  · rintro ⟨parentExternalId, hparent, heq⟩
    obtain ⟨rfl, rfl⟩ := Prod.mk.inj heq
    exact ⟨rfl, hparent⟩
  · rintro ⟨rfl, hparent⟩
    exact ⟨externalId, hparent, rfl⟩

/-- Nodes with the same stakeholder key and external id are the same. -/
theorem eq_of_key_eq {nodes : List (StructureServiceThingNode J)}
    (hkeys : (nodes.map fun node => node.key).Nodup) {node other : StructureServiceThingNode J}
    (hnode : node ∈ nodes) (hother : other ∈ nodes) (h : node.key = other.key) : node = other :=
  List.inj_on_of_nodup_map hkeys hnode hother h

/-! ## The first two validators -/

/-- Every parent which is named has an external id of the list. -/
theorem validateRootNodesParentIdsAreNone_eq_ok {nodes : List (StructureServiceThingNode J)} :
    validateRootNodesParentIdsAreNone nodes = .ok () ↔
      ∀ node ∈ nodes, ∀ parentExternalId, node.parentExternalNodeId = some parentExternalId →
        ∃ other ∈ nodes, other.externalId = parentExternalId := by
  rw [validateRootNodesParentIdsAreNone, forM_eq_ok]
  refine forall₂_congr fun node _ => ?_
  cases hparent : node.parentExternalNodeId with
  | none => simp
  | some parentExternalId => simp [require_eq_ok]

/-- No duplicate is found exactly if there is none. -/
theorem firstDuplicate_eq_none {A : Type} [DecidableEq A] {seen l : List A} :
    firstDuplicate seen l = none ↔ l.Nodup ∧ ∀ a ∈ l, a ∉ seen := by
  induction l generalizing seen with
  | nil => simp [firstDuplicate]
  | cons a rest ih =>
    rw [firstDuplicate]
    split
    · rename_i hseen
      simp [hseen]
    · rename_i hseen
      rw [ih, List.nodup_cons, List.forall_mem_cons]
      constructor
      · rintro ⟨hnodup, hrest⟩
        refine ⟨⟨fun ha => hrest a ha (List.mem_cons_self ..), hnodup⟩, hseen, fun b hb => ?_⟩
        exact fun hmem => hrest b hb (List.mem_cons_of_mem _ hmem)
      · rintro ⟨⟨ha, hnodup⟩, -, hrest⟩
        refine ⟨hnodup, fun b hb hmem => ?_⟩
        rcases List.mem_cons.mp hmem with rfl | hmem
        · exact ha hb
        · exact hrest b hb hmem

/-- The check of keys passes exactly on distinct keys. -/
theorem checkKeys_eq_ok {elements : StructureList} {keys : List (PyStr × PyStr)} :
    checkKeys elements keys = .ok () ↔ keys.Nodup := by
  have hnone : firstDuplicate [] keys = none ↔ keys.Nodup ∧ ∀ key ∈ keys, key ∉ [] :=
    firstDuplicate_eq_none
  simp only [List.not_mem_nil, not_false_eq_true, implies_true, and_true] at hnone
  rw [checkKeys, ← hnone]
  cases firstDuplicate [] keys <;> simp

/-! ## Consistency of stakeholder keys -/

/-- Below a root all nodes have its stakeholder key if no parent is confused. -/
theorem checkHierarchy_eq_ok {nodes : List (StructureServiceThingNode J)}
    (hsame : SameStakeholders nodes) {expected : PyStr} (rounds : ℕ) (visited : List PyStr)
    {stack : List (StructureServiceThingNode J)}
    (hstack : ∀ node ∈ stack, node ∈ nodes ∧ node.stakeholderKey = expected) :
    checkHierarchy nodes expected rounds visited stack = .ok () := by
  induction rounds generalizing visited stack with
  | zero => cases stack <;> rfl
  | succ rounds ih =>
    cases stack with
    | nil => rfl
    | cons current stack =>
      have hrest : ∀ node ∈ stack, node ∈ nodes ∧ node.stakeholderKey = expected :=
        fun node hnode => hstack node (List.mem_cons_of_mem _ hnode)
      obtain ⟨hmem, hcurrent⟩ := hstack current (List.mem_cons_self ..)
      rw [checkHierarchy]
      split
      · exact ih visited hrest
      · rw [if_neg (by simp [hcurrent])]
        refine ih _ fun node hnode => ?_
        rcases List.mem_append.mp hnode with hchild | hnode
        · obtain ⟨hchildMem, hparent⟩ := List.mem_filter.mp (List.mem_reverse.mp hchild)
          have hkey := hsame node hchildMem current hmem (of_decide_eq_true hparent)
          exact ⟨hchildMem, hkey.symm.trans hcurrent⟩
        · exact hrest node hnode

/-- The validator accepts nodes whose parents are not confused. -/
theorem checkStakeholderKeyConsistency_eq_ok {nodes : List (StructureServiceThingNode J)}
    (hsame : SameStakeholders nodes) : checkStakeholderKeyConsistency nodes = .ok () := by
  refine forM_eq_ok.mpr fun root hroot => checkHierarchy_eq_ok hsame _ _ fun node hnode => ?_
  obtain rfl := List.mem_singleton.mp hnode
  exact ⟨(List.mem_filter.mp hroot).1, rfl⟩

/-- What is still to come in the loop: the stack, and the nodes whose parent is not visited. -/
def remaining (nodes : List (StructureServiceThingNode J)) (visited : List PyStr)
    (stack : List (StructureServiceThingNode J)) : ℕ :=
  stack.length + nodes.countP fun node =>
    node.parentExternalNodeId.any fun parentExternalId => parentExternalId ∉ visited

/-- Visiting a node moves its children to the stack. -/
theorem remaining_visit (nodes : List (StructureServiceThingNode J)) {visited : List PyStr}
    {externalId : PyStr} (h : externalId ∉ visited)
    (stack : List (StructureServiceThingNode J)) :
    remaining nodes (externalId :: visited) ((childNodes nodes externalId).reverse ++ stack) =
      remaining nodes visited stack := by
  have hcount : (childNodes nodes externalId).length + nodes.countP (fun node =>
      node.parentExternalNodeId.any fun parentExternalId =>
        parentExternalId ∉ externalId :: visited) =
      nodes.countP fun node =>
        node.parentExternalNodeId.any fun parentExternalId => parentExternalId ∉ visited := by
    rw [childNodes, ← List.countP_eq_length_filter]
    induction nodes with
    | nil => rfl
    | cons node rest ih =>
      simp only [List.countP_cons]
      cases hparent : node.parentExternalNodeId with
      | none => simpa using ih
      | some parentExternalId =>
        by_cases heq : parentExternalId = externalId
        · subst heq
          simp [h] at ih ⊢
          omega
        · simp [heq] at ih ⊢
          omega
  rw [remaining, remaining, List.length_append, List.length_reverse]
  omega

/-- What a walk down the hierarchy meets by external ids: depth first, later children first, and of
the nodes with one external id the first which it comes upon. -/
inductive WalksDown (nodes : List (StructureServiceThingNode J)) :
    List PyStr → List (StructureServiceThingNode J) → List (StructureServiceThingNode J) → Prop
  | done {met : List PyStr} : WalksDown nodes met [] []
  | again {met : List PyStr} {current : StructureServiceThingNode J}
      {pending found : List (StructureServiceThingNode J)} : current.externalId ∈ met →
      WalksDown nodes met pending found → WalksDown nodes met (current :: pending) found
  | meets {met : List PyStr} {current : StructureServiceThingNode J}
      {pending found : List (StructureServiceThingNode J)} : current.externalId ∉ met →
      WalksDown nodes (current.externalId :: met)
        ((childNodes nodes current.externalId).reverse ++ pending) found →
      WalksDown nodes met (current :: pending) (current :: found)

/-- Walks come to an end. -/
theorem exists_walksDown (nodes : List (StructureServiceThingNode J)) (met : List PyStr)
    (pending : List (StructureServiceThingNode J)) : ∃ found, WalksDown nodes met pending found := by
  generalize hrounds : remaining nodes met pending = rounds
  induction rounds generalizing met pending with
  | zero =>
    cases pending with
    | nil => exact ⟨[], .done⟩
    | cons current pending =>
      simp only [remaining, List.length_cons] at hrounds
      omega
  | succ rounds ih =>
    cases pending with
    | nil => exact ⟨[], .done⟩
    | cons current pending =>
      have hrest : remaining nodes met pending = rounds := by
        simp only [remaining, List.length_cons] at hrounds ⊢
        omega
      by_cases hmet : current.externalId ∈ met
      · obtain ⟨found, hfound⟩ := ih met pending hrest
        exact ⟨found, .again hmet hfound⟩
      · obtain ⟨found, hfound⟩ := ih _ _ ((remaining_visit nodes hmet pending).trans hrest)
        exact ⟨current :: found, .meets hmet hfound⟩

/-- With a round for all that remains, the loop accepts exactly if the walk meets nodes of the
expected stakeholder only. -/
theorem checkHierarchy_eq_ok_iff {nodes : List (StructureServiceThingNode J)} {expected : PyStr}
    {met : List PyStr} {pending found : List (StructureServiceThingNode J)}
    (hwalk : WalksDown nodes met pending found) {rounds : ℕ}
    (hrounds : remaining nodes met pending ≤ rounds) :
    checkHierarchy nodes expected rounds met pending = .ok () ↔
      ∀ node ∈ found, node.stakeholderKey = expected := by
  have hpos {met : List PyStr} {current : StructureServiceThingNode J}
      {pending : List (StructureServiceThingNode J)} {rounds : ℕ}
      (h : remaining nodes met (current :: pending) ≤ rounds) :
      ∃ fewer, rounds = fewer + 1 ∧ remaining nodes met pending ≤ fewer := by
    simp only [remaining, List.length_cons] at h ⊢
    exact ⟨rounds - 1, by omega, by omega⟩
  induction hwalk generalizing rounds with
  | done =>
    cases rounds <;> simp [checkHierarchy]
  | again hmet _ ih =>
    obtain ⟨rounds, rfl, hrest⟩ := hpos hrounds
    rw [checkHierarchy, if_pos hmet]
    exact ih hrest
  | @meets met current pending found hmet _ ih =>
    obtain ⟨rounds, rfl, hrest⟩ := hpos hrounds
    rw [checkHierarchy, if_neg hmet, List.forall_mem_cons]
    split
    · rename_i hforeign
      exact iff_of_false (by simp) fun h => hforeign h.1
    · rename_i hsame
      exact (ih ((remaining_visit nodes hmet pending).le.trans hrest)).trans
        (and_iff_right (not_ne_iff.mp hsame)).symm

/-- Walks from the roots meet nodes of the stakeholder of the root only. -/
def StaysWithStakeholders (nodes : List (StructureServiceThingNode J)) : Prop :=
  ∀ root ∈ rootNodes nodes, ∀ found, WalksDown nodes [] [root] found →
    ∀ node ∈ found, node.stakeholderKey = root.stakeholderKey

/-- The validator finds out whether walks stay with their stakeholders. -/
theorem checkStakeholderKeyConsistency_eq_ok_iff {nodes : List (StructureServiceThingNode J)} :
    checkStakeholderKeyConsistency nodes = .ok () ↔ StaysWithStakeholders nodes := by
  rw [checkStakeholderKeyConsistency, forM_eq_ok]
  refine forall₂_congr fun root _ => ?_
  have hremaining : remaining nodes [] [root] ≤ nodes.length + 1 := by
    have hle := List.countP_le_length (p := fun node : StructureServiceThingNode J =>
      node.parentExternalNodeId.any fun parentExternalId => parentExternalId ∉ ([] : List PyStr))
      (l := nodes)
    simp only [remaining, List.length_singleton]
    omega
  constructor
  · exact fun hok found hwalk => (checkHierarchy_eq_ok_iff hwalk hremaining).mp hok
  · intro hstays
    obtain ⟨found, hwalk⟩ := exists_walksDown nodes [] [root]
    exact (checkHierarchy_eq_ok_iff hwalk hremaining).mpr (hstays found hwalk)

/-! ## Circular references -/

/-- Following parents by their external ids leads to an external id. -/
inductive LeadsTo (nodes : List (StructureServiceThingNode J)) :
    StructureServiceThingNode J → PyStr → Prop
  | parent {node parent : StructureServiceThingNode J} {externalId : PyStr} :
      node.parentExternalNodeId = some externalId → externalId ≠ [] →
      nodesByExternalId nodes externalId = some parent → LeadsTo nodes node externalId
  | further {node parent : StructureServiceThingNode J} {externalId target : PyStr} :
      node.parentExternalNodeId = some externalId → externalId ≠ [] →
      nodesByExternalId nodes externalId = some parent → LeadsTo nodes parent target →
      LeadsTo nodes node target

/-- The visited external ids are different ones of nodes, and there are rounds for the others. -/
structure VisitsNodes (nodes : List (StructureServiceThingNode J)) (visited : List PyStr)
    (rounds : ℕ) : Prop where
  nodup : visited.Nodup
  mem : ∀ externalId ∈ visited, ∃ node ∈ nodes, node.externalId = externalId
  rounds_le : nodes.length + 1 ≤ visited.length + rounds

/-- There are as many rounds as it takes. -/
theorem VisitsNodes.rounds_ne_zero {nodes : List (StructureServiceThingNode J)}
    {visited : List PyStr} {rounds : ℕ} (h : VisitsNodes nodes visited rounds) : rounds ≠ 0 := by
  rintro rfl
  have hsub : visited ⊆ nodes.map fun node => node.externalId := fun externalId hmem =>
    List.mem_map.mpr (h.mem externalId hmem)
  have hle := (List.subperm_of_subset h.nodup hsub).length_le
  have hrounds := h.rounds_le
  rw [List.length_map] at hle
  omega

/-- Visiting a node which is not visited uses a round. -/
theorem VisitsNodes.visit {nodes : List (StructureServiceThingNode J)} {visited : List PyStr}
    {rounds : ℕ} (h : VisitsNodes nodes visited (rounds + 1)) {node : StructureServiceThingNode J}
    (hmem : node ∈ nodes) (hnew : node.externalId ∉ visited) :
    VisitsNodes nodes (node.externalId :: visited) rounds := by
  have hrounds := h.rounds_le
  refine ⟨List.nodup_cons.mpr ⟨hnew, h.nodup⟩, ?_, by rw [List.length_cons]; omega⟩
  exact List.forall_mem_cons.mpr ⟨⟨node, hmem, rfl⟩, h.mem⟩

/-- A visit which passes leads back to nothing that has been visited. -/
theorem not_leadsTo_of_visitParents {nodes : List (StructureServiceThingNode J)} {rounds : ℕ}
    {visited : List PyStr} {node : StructureServiceThingNode J} (hmem : node ∈ nodes)
    (hvisits : VisitsNodes nodes visited rounds)
    (h : visitParents nodes rounds visited node = .ok ()) :
    node.externalId ∉ visited ∧
      ∀ target, LeadsTo nodes node target → target ∉ node.externalId :: visited := by
  induction rounds generalizing visited node with
  | zero => exact absurd rfl hvisits.rounds_ne_zero
  | succ rounds ih =>
    rw [visitParents] at h
    split at h
    · exact absurd h (by simp)
    · rename_i hnew
      have hdeeper {parent : StructureServiceThingNode J} {externalId : PyStr}
          (hparent : node.parentExternalNodeId = some externalId) (hne : externalId ≠ [])
          (hdict : nodesByExternalId nodes externalId = some parent) :
          parent.externalId = externalId ∧ parent.externalId ∉ node.externalId :: visited ∧
            ∀ target, LeadsTo nodes parent target →
              target ∉ parent.externalId :: node.externalId :: visited := by
        obtain ⟨hparentMem, hparentId⟩ := mem_of_lastEntry hdict
        simp only [hparent, if_neg hne, hdict] at h
        obtain ⟨hnotMem, htargets⟩ := ih hparentMem (hvisits.visit hmem hnew) h
        exact ⟨hparentId, hnotMem, htargets⟩
      refine ⟨hnew, fun target hleads => ?_⟩
      cases hleads with
      | parent hparent hne hdict =>
        obtain ⟨hid, hnotMem, -⟩ := hdeeper hparent hne hdict
        exact hid ▸ hnotMem
      | further hparent hne hdict hfurther =>
        obtain ⟨-, -, htargets⟩ := hdeeper hparent hne hdict
        exact fun hmem => htargets target hfurther (List.mem_cons_of_mem _ hmem)

/-- No node of accepted nodes leads back to itself. -/
theorem not_leadsTo_of_checkForCircularReference {nodes : List (StructureServiceThingNode J)}
    (h : checkForCircularReference nodes = .ok ()) {node : StructureServiceThingNode J}
    (hmem : node ∈ nodes) : ¬ LeadsTo nodes node node.externalId := by
  have hvisits : VisitsNodes nodes [] (nodes.length + 1) :=
    ⟨List.nodup_nil, fun _ hmem => absurd hmem List.not_mem_nil, by simp⟩
  have hok := forM_eq_ok.mp h node hmem
  exact fun hleads =>
    (not_leadsTo_of_visitParents hmem hvisits hok).2 _ hleads (List.mem_cons_self ..)

/-- No node leads back to its own external id. -/
def NeverLeadsBack (nodes : List (StructureServiceThingNode J)) : Prop :=
  ∀ node ∈ nodes, ¬ LeadsTo nodes node node.externalId

/-- A visit passes if the node leads to nothing that has been visited, and no node leads back. -/
theorem visitParents_eq_ok_of_not_leadsTo {nodes : List (StructureServiceThingNode J)}
    (hback : NeverLeadsBack nodes) (rounds : ℕ) {visited : List PyStr}
    {node : StructureServiceThingNode J} (hmem : node ∈ nodes) (hnew : node.externalId ∉ visited)
    (hvisited : ∀ target ∈ visited, ¬ LeadsTo nodes node target) :
    visitParents nodes rounds visited node = .ok () := by
  induction rounds generalizing visited node with
  | zero => rfl
  | succ rounds ih =>
    rw [visitParents, if_neg hnew]
    cases hparent : node.parentExternalNodeId with
    | none => rfl
    | some parentExternalId =>
      simp only
      split
      · rfl
      · rename_i hne
        cases hdict : nodesByExternalId nodes parentExternalId with
        | none => rfl
        | some parent =>
          obtain ⟨hparentMem, hparentId⟩ := mem_of_lastEntry hdict
          have hleads : LeadsTo nodes node parent.externalId :=
            hparentId ▸ LeadsTo.parent hparent hne hdict
          refine ih hparentMem ?_ (List.forall_mem_cons.mpr ⟨fun htarget => ?_, ?_⟩)
          · rintro hvisitedParent
            rcases List.mem_cons.mp hvisitedParent with heq | hvisitedParent
            · exact hback node hmem (heq ▸ hleads)
            · exact hvisited _ hvisitedParent hleads
          · exact hback node hmem (.further hparent hne hdict htarget)
          · exact fun target htarget hfurther =>
              hvisited target htarget (.further hparent hne hdict hfurther)

/-- The validator finds out whether some node leads back to itself. -/
theorem checkForCircularReference_eq_ok_iff {nodes : List (StructureServiceThingNode J)} :
    checkForCircularReference nodes = .ok () ↔ NeverLeadsBack nodes := by
  constructor
  · exact fun h node hmem => not_leadsTo_of_checkForCircularReference h hmem
  · exact fun hback => forM_eq_ok.mpr fun node hmem => visitParents_eq_ok_of_not_leadsTo hback _
      hmem List.not_mem_nil fun _ htarget => absurd htarget List.not_mem_nil

section Same

variable {nodes : List (StructureServiceThingNode J)} (hsame : SameStakeholders nodes)

include hsame

/-- The dictionary finds the parent if no parent is confused. -/
theorem key_of_nodesByExternalId {node parent : StructureServiceThingNode J} (hmem : node ∈ nodes)
    {externalId : PyStr} (hparent : node.parentExternalNodeId = some externalId)
    (hdict : nodesByExternalId nodes externalId = some parent) :
    node.parentKey = some parent.key := by
  obtain ⟨hparentMem, hparentId⟩ := mem_of_lastEntry hdict
  have hstakeholder := hsame node hmem parent hparentMem (by rw [hparent, hparentId])
  exact parentKey_eq_some.mpr ⟨hstakeholder.symm, hparent.trans (congrArg some hparentId.symm)⟩

/-- What is above a node is found by following parents. -/
theorem leadsTo_of_transGen
    (hparents : ∀ node ∈ nodes, ∀ key, node.parentKey = some key → ∃ parent ∈ nodes, parent.key = key)
    (hkeys : (nodes.map fun node => node.key).Nodup) {above : PyStr × PyStr}
    {node : StructureServiceThingNode J} (hmem : node ∈ nodes)
    (h : Relation.TransGen (EdgeList.Adj (parentEdges nodes)) above node.key) :
    LeadsTo nodes node above.2 := by
  have hstep {node : StructureServiceThingNode J} (hmem : node ∈ nodes) {key : PyStr × PyStr}
      (hkey : node.parentKey = some key) :
      ∃ parent ∈ nodes, parent.key = key ∧ node.parentExternalNodeId = some key.2 ∧ key.2 ≠ [] ∧
        nodesByExternalId nodes key.2 = some parent := by
    obtain ⟨parent, hparentMem, hparentKey⟩ := hparents node hmem key hkey
    obtain ⟨-, hparent⟩ := parentKey_eq_some.mp hkey
    have hid : parent.externalId = key.2 := congrArg Prod.snd hparentKey
    obtain ⟨found, hfound⟩ :=
      exists_lastEntry (fun node : StructureServiceThingNode J => node.externalId) hparentMem
    rw [hid] at hfound
    have hfoundKey := key_of_nodesByExternalId hsame hmem hparent hfound
    have heq : found = parent := by
      refine eq_of_key_eq hkeys (mem_of_lastEntry hfound).1 hparentMem ?_
      exact (Option.some.inj (hfoundKey.symm.trans hkey)).trans hparentKey.symm
    exact ⟨parent, hparentMem, hparentKey, hparent, hid ▸ parent.external_id_not_empty,
      heq ▸ hfound⟩
  generalize hkey : node.key = key at h
  induction h generalizing node with
  | single hadj =>
    obtain ⟨child, hchild, hchildKey, heq⟩ := exists_node_of_adj hadj
    obtain rfl := eq_of_key_eq hkeys hchild hmem (heq.trans hkey.symm)
    obtain ⟨parent, -, -, hparent, hne, hdict⟩ := hstep hmem hchildKey
    exact .parent hparent hne hdict
  | tail habove hadj ih =>
    obtain ⟨child, hchild, hchildKey, heq⟩ := exists_node_of_adj hadj
    obtain rfl := eq_of_key_eq hkeys hchild hmem (heq.trans hkey.symm)
    obtain ⟨parent, hparentMem, hparentKey, hparent, hne, hdict⟩ := hstep hmem hchildKey
    exact .further hparent hne hdict (ih hparentMem hparentKey)

/-- A visit passes if what has been visited is below the node and no node is above itself. -/
theorem visitParents_eq_ok (hacyclic : EdgeList.Acyclic (parentEdges nodes)) (rounds : ℕ)
    {visited : List PyStr} {node : StructureServiceThingNode J} (hmem : node ∈ nodes)
    (hvisited : ∀ externalId ∈ visited, Relation.TransGen (EdgeList.Adj (parentEdges nodes))
      node.key (node.stakeholderKey, externalId)) :
    visitParents nodes rounds visited node = .ok () := by
  induction rounds generalizing visited node with
  | zero => rfl
  | succ rounds ih =>
    rw [visitParents, if_neg fun hback => hacyclic _ (hvisited _ hback)]
    cases hparent : node.parentExternalNodeId with
    | none => rfl
    | some parentExternalId =>
      simp only
      split
      · rfl
      · cases hdict : nodesByExternalId nodes parentExternalId with
        | none => rfl
        | some parent =>
          have hkey := key_of_nodesByExternalId hsame hmem hparent hdict
          have hadj := adj_of_parentKey hmem hkey
          have hstakeholder : node.stakeholderKey = parent.stakeholderKey :=
            (parentKey_eq_some.mp hkey).1
          refine ih (mem_of_lastEntry hdict).1 (List.forall_mem_cons.mpr ⟨?_, ?_⟩)
          · rw [← hstakeholder]
            exact .single hadj
          · intro externalId hback
            rw [← hstakeholder]
            exact (hvisited externalId hback).head hadj

/-- Where no parent is confused, the last check finds out whether a node is above itself. -/
theorem checkForCircularReference_eq_ok
    (hparents : ∀ node ∈ nodes, ∀ key, node.parentKey = some key → ∃ parent ∈ nodes, parent.key = key)
    (hkeys : (nodes.map fun node => node.key).Nodup) :
    checkForCircularReference nodes = .ok () ↔ EdgeList.Acyclic (parentEdges nodes) := by
  constructor
  · intro h key hcycle
    obtain ⟨parent, hadj⟩ := EdgeList.exists_edge_to_of_transGen hcycle
    obtain ⟨node, hmem, -, rfl⟩ := exists_node_of_adj hadj
    exact not_leadsTo_of_checkForCircularReference h hmem
      (leadsTo_of_transGen hsame hparents hkeys hmem hcycle)
  · intro hacyclic
    refine forM_eq_ok.mpr fun node hmem => ?_
    exact visitParents_eq_ok hsame hacyclic _ hmem fun _ hback => absurd hback List.not_mem_nil

end Same

/-! ## Acceptance -/

/-- A structure of element types and thing nodes alone is accepted. -/
def AcceptsThingNodes (elementTypes : List StructureServiceElementType)
    (nodes : List (StructureServiceThingNode J)) : Prop :=
  (CompleteStructure.mk elementTypes nodes [] []).validate = .ok ()

instance (elementTypes : List StructureServiceElementType)
    (nodes : List (StructureServiceThingNode J)) : Decidable (AcceptsThingNodes elementTypes nodes) :=
  inferInstanceAs (Decidable (_ = _))

/-- Without sources and sinks the four checks of thing nodes decide. -/
theorem acceptsThingNodes_iff {elementTypes : List StructureServiceElementType}
    (hne : elementTypes ≠ []) (hdistinct : (elementTypes.map fun element => element.key).Nodup)
    {nodes : List (StructureServiceThingNode J)} :
    AcceptsThingNodes elementTypes nodes ↔
      validateRootNodesParentIdsAreNone nodes = .ok () ∧
        (nodes.map fun node => node.key).Nodup ∧
        checkStakeholderKeyConsistency nodes = .ok () ∧ checkForCircularReference nodes = .ok () := by
  have hkeys : checkForDuplicateKeyAndIdPairs (CompleteStructure.mk elementTypes nodes [] []) =
      .ok () ↔ (nodes.map fun node => node.key).Nodup := by
    rw [checkForDuplicateKeyAndIdPairs, check_bind_eq_ok, check_bind_eq_ok, check_bind_eq_ok,
      checkKeys_eq_ok, checkKeys_eq_ok, checkKeys_eq_ok, checkKeys_eq_ok]
    simp [hdistinct]
  have hlists : checkForDuplicateIdsInThingNodeExternalIds
      (CompleteStructure.mk elementTypes nodes [] []) = .ok () := rfl
  have hreferences : validateSourceSinkReferences (CompleteStructure.mk elementTypes nodes [] []) =
      .ok () := rfl
  rw [AcceptsThingNodes, CompleteStructure.validate, require_bind_of (by simpa using hne),
    check_bind_eq_ok, check_bind_eq_ok, check_bind_eq_ok, check_bind_eq_ok, check_bind_eq_ok, hkeys]
  simp [hlists, hreferences]

/-- The hierarchy as it looks by external ids alone: parents which are named are there, ways down
stay with the stakeholder of the root, and no way up, on which of the nodes with one external id the
last one counts, leads back. -/
structure LooksLikeForest (nodes : List (StructureServiceThingNode J)) : Prop where
  named : ∀ node ∈ nodes, ∀ parentExternalId,
    node.parentExternalNodeId = some parentExternalId →
      ∃ other ∈ nodes, other.externalId = parentExternalId
  waysDown : StaysWithStakeholders nodes
  waysUp : NeverLeadsBack nodes

/-- Validation accepts what looks like a forest by external ids. -/
theorem acceptsThingNodes_iff_looksLikeForest {elementTypes : List StructureServiceElementType}
    (hne : elementTypes ≠ []) (hdistinct : (elementTypes.map fun element => element.key).Nodup)
    {nodes : List (StructureServiceThingNode J)} (hkeys : (nodes.map fun node => node.key).Nodup) :
    AcceptsThingNodes elementTypes nodes ↔ LooksLikeForest nodes := by
  rw [acceptsThingNodes_iff hne hdistinct, validateRootNodesParentIdsAreNone_eq_ok,
    checkStakeholderKeyConsistency_eq_ok_iff, checkForCircularReference_eq_ok_iff]
  exact ⟨fun h => ⟨h.1, h.2.2.1, h.2.2.2⟩, fun h => ⟨h.named, hkeys, h.waysDown, h.waysUp⟩⟩

/-- Where no parent is confused, exactly the forests are accepted. -/
theorem acceptsThingNodes_iff_isForest {elementTypes : List StructureServiceElementType}
    (hne : elementTypes ≠ []) (hdistinct : (elementTypes.map fun element => element.key).Nodup)
    {nodes : List (StructureServiceThingNode J)} (hkeys : (nodes.map fun node => node.key).Nodup)
    (hsame : SameStakeholders nodes) : AcceptsThingNodes elementTypes nodes ↔ IsForest nodes := by
  rw [acceptsThingNodes_iff hne hdistinct, validateRootNodesParentIdsAreNone_eq_ok]
  constructor
  · rintro ⟨hexist, -, -, hcircular⟩
    have hparents : ∀ node ∈ nodes, ∀ key, node.parentKey = some key →
        ∃ parent ∈ nodes, parent.key = key := by
      intro node hmem key hkey
      obtain ⟨hstakeholder, hparent⟩ := parentKey_eq_some.mp hkey
      obtain ⟨other, hother, hid⟩ := hexist node hmem _ hparent
      have hotherKey := hsame node hmem other hother (by rw [hparent, hid])
      exact ⟨other, hother, Prod.ext (hotherKey.trans hstakeholder) hid⟩
    exact ⟨hparents, (checkForCircularReference_eq_ok hsame hparents hkeys).mp hcircular⟩
  · intro hforest
    refine ⟨fun node hmem parentExternalId hparent => ?_, hkeys,
      checkStakeholderKeyConsistency_eq_ok hsame,
      (checkForCircularReference_eq_ok hsame hforest.parents hkeys).mpr hforest.acyclic⟩
    obtain ⟨parent, hparentMem, hparentKey⟩ := hforest.parents node hmem
      (node.stakeholderKey, parentExternalId) (parentKey_eq_some.mpr ⟨rfl, hparent⟩)
    exact ⟨parent, hparentMem, congrArg Prod.snd hparentKey⟩

end HetidaDesigner
