import HetidaDesigner.Structure.Sorting
import Mathlib.Data.List.Chain

/-!
# Forests which are rejected in some order

If a parent is named by an external id which a node of another stakeholder has too, the nodes can
be ordered such that the validators come upon the confusion. The order leads a traversal straight
from a root to the node of the other stakeholder, and then to the one which names it.
-/

namespace HetidaDesigner

open Checks LastEntry

variable {J : Type}

/-! ## Ways from a root -/

/-- A node names the external id of another one as its parent. -/
def Names (parent node : StructureServiceThingNode J) : Prop :=
  node.parentExternalNodeId = some parent.externalId

/-- Each node of a forest is reached from a root over nodes of its stakeholder. -/
theorem exists_way {nodes : List (StructureServiceThingNode J)} (hforest : IsForest nodes)
    {node : StructureServiceThingNode J} (hnode : node ∈ nodes) :
    ∃ root way, (root :: way).getLast? = some node ∧ root.parentExternalNodeId = none ∧
      (root :: way).IsChain (fun parent child => child.parentKey = some parent.key) ∧
      ∀ step ∈ root :: way, step ∈ nodes ∧ step.stakeholderKey = node.stakeholderKey := by
  have hwf := InvImage.wf (fun node : StructureServiceThingNode J => node.key)
    hforest.acyclic.wellFounded
  induction node using hwf.induction with
  | _ node ih =>
    cases hkey : node.parentKey with
    | none =>
      have hroot : node.parentExternalNodeId = none := by
        rw [StructureServiceThingNode.parentKey, Option.map_eq_none_iff] at hkey
        exact hkey
      refine ⟨node, [], rfl, hroot, List.isChain_singleton node, fun step hstep => ?_⟩
      obtain rfl := List.mem_singleton.mp hstep
      exact ⟨hnode, rfl⟩
    | some key =>
      obtain ⟨parent, hparent, rfl⟩ := hforest.parents node hnode key hkey
      have habove : Relation.TransGen (EdgeList.Adj (parentEdges nodes)) parent.key node.key :=
        .single (adj_of_parentKey hnode hkey)
      obtain ⟨root, way, hlast, hroot, hchain, hsteps⟩ := ih parent habove hparent
      have hstakeholder : node.stakeholderKey = parent.stakeholderKey :=
        (parentKey_eq_some.mp hkey).1
      refine ⟨root, way ++ [node], ?_, hroot, ?_, fun step hstep => ?_⟩
      · rw [← List.cons_append, List.getLast?_concat]
      · rw [← List.cons_append]
        refine hchain.append (List.isChain_singleton node) fun before hbefore after hafter => ?_
        obtain rfl : parent = before := by
          rw [hlast] at hbefore
          exact Option.some.inj hbefore
        obtain rfl : node = after := Option.some.inj hafter
        exact hkey
      · rw [← List.cons_append] at hstep
        rcases List.mem_append.mp hstep with hstep | hstep
        · exact ⟨(hsteps step hstep).1, (hsteps step hstep).2.trans hstakeholder.symm⟩
        · obtain rfl := List.mem_singleton.mp hstep
          exact ⟨hnode, rfl⟩

/-- On such a way no external id comes up twice. -/
theorem externalIds_nodup_of_way {nodes : List (StructureServiceThingNode J)}
    (hforest : IsForest nodes) {way : List (StructureServiceThingNode J)} {stakeholderKey : PyStr}
    (hchain : way.IsChain fun parent child => child.parentKey = some parent.key)
    (hsteps : ∀ step ∈ way, step ∈ nodes ∧ step.stakeholderKey = stakeholderKey) :
    (way.map fun step => step.externalId).Nodup := by
  have habove : way.IsChain fun parent child : StructureServiceThingNode J =>
      Relation.TransGen (EdgeList.Adj (parentEdges nodes)) parent.key child.key :=
    hchain.imp_of_mem_imp fun parent child _ hchild hkey =>
      .single (adj_of_parentKey (hsteps child hchild).1 hkey)
  have : IsTrans (StructureServiceThingNode J) fun parent child =>
      Relation.TransGen (EdgeList.Adj (parentEdges nodes)) parent.key child.key :=
    ⟨fun _ _ _ => Relation.TransGen.trans⟩
  have hpairwise := List.isChain_iff_pairwise.mp habove
  refine List.pairwise_map.mpr (hpairwise.imp_of_mem fun {above below} hmem hmem' htrans hid => ?_)
  have hkey : above.key = below.key :=
    Prod.ext ((hsteps above hmem).2.trans (hsteps below hmem').2.symm) hid
  rw [hkey] at htrans
  exact hforest.acyclic _ htrans

/-! ## The order -/

/-- The nodes with some of them moved to the end. -/
def movedToEnd (nodes steps : List (StructureServiceThingNode J)) :
    List (StructureServiceThingNode J) :=
  (nodes.filter fun node => node.key ∉ steps.map fun step => step.key) ++ steps

/-- Moving nodes only changes their order. -/
theorem movedToEnd_perm {nodes steps : List (StructureServiceThingNode J)}
    (hkeys : (nodes.map fun node => node.key).Nodup) (hsub : ∀ step ∈ steps, step ∈ nodes)
    (hnodup : steps.Nodup) : (movedToEnd nodes steps).Perm nodes := by
  have hnodes : nodes.Nodup := hkeys.of_map _
  have hmoved : (movedToEnd nodes steps).Nodup := by
    refine (hnodes.filter _).append hnodup fun node hleft hright => ?_
    have hnot := of_decide_eq_true (List.mem_filter.mp hleft).2
    exact hnot (List.mem_map_of_mem hright)
  refine (List.perm_ext_iff_of_nodup hmoved hnodes).mpr fun node => ?_
  rw [movedToEnd, List.mem_append, List.mem_filter, decide_eq_true_eq]
  constructor
  · rintro (⟨hmem, -⟩ | hstep)
    · exact hmem
    · exact hsub node hstep
  · intro hmem
    by_cases hkey : node.key ∈ steps.map fun step => step.key
    · obtain ⟨step, hstep, heq⟩ := List.mem_map.mp hkey
      obtain rfl := eq_of_key_eq hkeys (hsub step hstep) hmem heq
      exact Or.inr hstep
    · exact Or.inl ⟨hmem, hkey⟩

section Way

variable {nodes way : List (StructureServiceThingNode J)} {root last : StructureServiceThingNode J}
  (hnames : (root :: way ++ [last]).IsChain Names)
  (hids : ((root :: way).map fun step => step.externalId).Nodup)

include hnames hids

/-- No two nodes on the way name the same parent. -/
theorem eq_of_parentExternalNodeId_eq {step other : StructureServiceThingNode J}
    (hstep : step ∈ way ++ [last]) (hother : other ∈ way ++ [last])
    (h : step.parentExternalNodeId = other.parentExternalNodeId) : step = other := by
  have hforall := List.isChain_cons_append_singleton_iff_forall₂.mp hnames
  have hmap : (way ++ [last]).map (fun step => step.parentExternalNodeId) =
      (root :: way).map fun step => some step.externalId := by
    have heq : List.Forall₂ (· = ·) ((way ++ [last]).map fun step => step.parentExternalNodeId)
        ((root :: way).map fun step => some step.externalId) :=
      List.forall₂_map_left_iff.mpr (List.forall₂_map_right_iff.mpr hforall.flip)
    rwa [List.forall₂_eq_eq_eq] at heq
  have hnodup : ((way ++ [last]).map fun step => step.parentExternalNodeId).Nodup := by
    rw [hmap]
    have hsome := hids.map (Option.some_injective PyStr)
    rwa [List.map_map] at hsome
  exact List.inj_on_of_nodup_map hnodup hstep hother h

/-- With the way at the end of the list the next step is the last child. -/
theorem getLast?_childNodes_movedToEnd {step next : StructureServiceThingNode J}
    (hnext : next ∈ way ++ [last]) (hstep : Names step next) :
    (childNodes (movedToEnd nodes (way ++ [last])) step.externalId).getLast? = some next := by
  have hmem : next ∈ childNodes (way ++ [last]) step.externalId :=
    List.mem_filter.mpr ⟨hnext, decide_eq_true hstep⟩
  cases hlast : (childNodes (way ++ [last]) step.externalId).getLast? with
  | none => exact absurd (List.getLast?_eq_none_iff.mp hlast) (List.ne_nil_of_mem hmem)
  | some child =>
    obtain ⟨hchild, hparent⟩ := List.mem_filter.mp (List.mem_of_getLast? hlast)
    obtain rfl := eq_of_parentExternalNodeId_eq hnames hids hchild hnext
      ((of_decide_eq_true hparent).trans hstep.symm)
    have happend : childNodes (movedToEnd nodes (way ++ [last])) step.externalId =
        childNodes (nodes.filter fun node => node.key ∉ (way ++ [last]).map fun step => step.key)
          step.externalId ++ childNodes (way ++ [last]) step.externalId := List.filter_append ..
    rw [happend, List.getLast?_append, hlast]
    rfl

end Way

/-! ## Rejection by stakeholder keys -/

/-- A way on which each next step is the last child leads the traversal to a node of another
stakeholder. -/
theorem checkHierarchy_ne_ok_of_way {nodes : List (StructureServiceThingNode J)} {expected : PyStr}
    {last : StructureServiceThingNode J} (hforeign : last.stakeholderKey ≠ expected)
    {way : List (StructureServiceThingNode J)} {current : StructureServiceThingNode J}
    (hchain : (current :: way ++ [last]).IsChain fun step next =>
      (childNodes nodes step.externalId).getLast? = some next)
    (hids : ((current :: way ++ [last]).map fun step => step.externalId).Nodup) {rounds : ℕ}
    (hrounds : way.length + 2 ≤ rounds) {visited : List PyStr}
    (hnew : ∀ step ∈ current :: way ++ [last], step.externalId ∉ visited)
    (stack : List (StructureServiceThingNode J)) :
    checkHierarchy nodes expected rounds visited (current :: stack) ≠ .ok () := by
  induction way generalizing current rounds visited stack with
  | nil =>
    rw [List.length_nil] at hrounds
    obtain ⟨rounds, rfl⟩ : ∃ fewer, rounds = fewer + 2 := ⟨rounds - 2, by omega⟩
    have hlast := List.isChain_pair.mp hchain
    have hchildren : (childNodes nodes current.externalId).reverse.head? = some last := by
      rw [List.head?_reverse, hlast]
    obtain ⟨others, hothers⟩ := List.head?_eq_some_iff.mp hchildren
    have hne : current.externalId ≠ last.externalId := by simpa using hids
    have hlastNew : last.externalId ∉ current.externalId :: visited :=
      List.not_mem_cons_of_ne_of_not_mem hne.symm (hnew last (by simp))
    rw [checkHierarchy, if_neg (hnew current (by simp)), hothers]
    split
    · simp
    · rw [List.cons_append, checkHierarchy, if_neg hlastNew, if_pos hforeign]
      simp
  | cons next way ih =>
    obtain ⟨hnext, hrest⟩ := List.isChain_cons_cons.mp hchain
    obtain ⟨hcurrent, hrestIds⟩ := List.nodup_cons.mp hids
    have hchildren : (childNodes nodes current.externalId).reverse.head? = some next := by
      rw [List.head?_reverse, hnext]
    obtain ⟨others, hothers⟩ := List.head?_eq_some_iff.mp hchildren
    rw [List.length_cons] at hrounds
    obtain ⟨rounds, rfl⟩ : ∃ fewer, rounds = fewer + 1 := ⟨rounds - 1, by omega⟩
    rw [checkHierarchy, if_neg (hnew current (by simp)), hothers]
    split
    · simp
    · rw [List.cons_append]
      refine ih hrest hrestIds (by omega) (fun step hstep => ?_) _
      refine List.not_mem_cons_of_ne_of_not_mem (fun heq => ?_)
        (hnew step (List.mem_cons_of_mem _ hstep))
      exact hcurrent (List.mem_map.mpr ⟨step, hstep, heq⟩)

/-! ## Rejection as a circular reference -/

section Circle

variable {nodes way : List (StructureServiceThingNode J)} {last : StructureServiceThingNode J}

/-- With the way at the end of the list its last node is found. -/
theorem nodesByExternalId_movedToEnd_last :
    nodesByExternalId (movedToEnd nodes (way ++ [last])) last.externalId = some last := by
  rw [movedToEnd, ← List.append_assoc]
  refine lastEntry_append_of_some ?_
  rw [← List.nil_append [last], ← List.singleton_append]
  simp [lastEntry, entries]

/-- With the way at the end of the list the nodes on it are found. -/
theorem nodesByExternalId_movedToEnd (hids : (way.map fun step => step.externalId).Nodup)
    {step : StructureServiceThingNode J} (hstep : step ∈ way)
    (hne : step.externalId ≠ last.externalId) :
    nodesByExternalId (movedToEnd nodes (way ++ [last])) step.externalId = some step := by
  refine lastEntry_append_of_some ?_
  rw [lastEntry_append_of_ne fun other hother => ?_]
  · exact lastEntry_of_nodup hids hstep
  · obtain rfl := List.mem_singleton.mp hother
    exact hne.symm

/-- If a node on the way has the external id of the node behind it, that one leads to itself. -/
theorem leadsTo_of_way {root first : StructureServiceThingNode J}
    {pre post : List (StructureServiceThingNode J)} {turn : StructureServiceThingNode J}
    (hway : root :: way = pre ++ turn :: first :: post) (hturn : turn.externalId = last.externalId)
    (hids : ((root :: way).map fun step => step.externalId).Nodup)
    (hnames : (root :: way).IsChain Names) {final : StructureServiceThingNode J}
    (hfinal : (root :: way).getLast? = some final) (hlast : Names final last) :
    LeadsTo (movedToEnd nodes (way ++ [last])) last last.externalId := by
  have hwayIds : (way.map fun step => step.externalId).Nodup := (List.nodup_cons.mp hids).2
  have hrestWay : ∀ step ∈ first :: post, step ∈ way := by
    intro step hstep
    cases pre with
    | nil =>
      obtain ⟨-, rfl⟩ := List.cons.inj hway
      exact hstep
    | cons other pre =>
      obtain ⟨-, rfl⟩ := List.cons.inj hway
      exact List.mem_append_right _ (List.mem_cons_of_mem _ hstep)
  have hrestIds : ∀ step ∈ first :: post, step.externalId ≠ last.externalId := by
    intro step hstep heq
    rw [hway, List.map_append, List.map_cons] at hids
    have hturnNew := (List.nodup_cons.mp (List.nodup_append.mp hids).2.1).1
    exact hturnNew (List.mem_map.mpr ⟨step, hstep, heq.trans hturn.symm⟩)
  have hfound : ∀ step ∈ first :: post,
      nodesByExternalId (movedToEnd nodes (way ++ [last])) step.externalId = some step :=
    fun step hstep =>
      nodesByExternalId_movedToEnd hwayIds (hrestWay step hstep) (hrestIds step hstep)
  rw [hway] at hnames hfinal
  have hrest := hnames.right_of_append
  have hfirst : LeadsTo (movedToEnd nodes (way ++ [last])) first last.externalId := by
    have hnamed : Names turn first := (List.isChain_cons_cons.mp hrest).1
    refine .parent ?_ last.external_id_not_empty nodesByExternalId_movedToEnd_last
    rw [← hturn]
    exact hnamed
  have hall : ∀ step ∈ post, LeadsTo (movedToEnd nodes (way ++ [last])) step last.externalId := by
    have hchain : (first :: post).IsChain fun step next =>
        Names step next ∧ step ∈ first :: post :=
      (List.isChain_cons_cons.mp hrest).2.imp_of_mem_imp fun step _ hstep _ hnamed =>
        ⟨hnamed, hstep⟩
    refine hchain.cons_induction _ _ (fun step next hnext hleads => ?_) hfirst
    exact .further hnext.1 step.external_id_not_empty (hfound step hnext.2) hleads
  have hfinalMem : final ∈ first :: post := by
    have hlastRest : (first :: post).getLast? = some final := by
      rw [← hfinal, List.getLast?_append, List.getLast?_cons_cons, List.getLast?_cons]
      rfl
    exact List.mem_of_getLast? hlastRest
  refine .further hlast final.external_id_not_empty (hfound final hfinalMem) ?_
  rcases List.mem_cons.mp hfinalMem with rfl | hfinalMem
  · exact hfirst
  · exact hall final hfinalMem

end Circle

/-! ## Every order is accepted only without confusion -/

/-- If a node of a forest names a parent by an external id of another stakeholder as well, the
nodes are rejected in some order. -/
theorem exists_order_rejected {elementTypes : List StructureServiceElementType}
    (hne : elementTypes ≠ []) (hdistinct : (elementTypes.map fun element => element.key).Nodup)
    {nodes : List (StructureServiceThingNode J)} (hkeys : (nodes.map fun node => node.key).Nodup)
    (hforest : IsForest nodes) (hconfused : ¬ SameStakeholders nodes) :
    ∃ order : List (StructureServiceThingNode J), order.Perm nodes ∧
      ¬ AcceptsThingNodes elementTypes order := by
  simp only [SameStakeholders, not_forall] at hconfused
  obtain ⟨last, hlast, final, hfinal, hnames, hforeign⟩ := hconfused
  obtain ⟨root, way, hend, hroot, hchain, hsteps⟩ := exists_way hforest hfinal
  have hids := externalIds_nodup_of_way hforest hchain hsteps
  have hwayNames : (root :: way).IsChain Names :=
    hchain.imp fun parent child (hkey : child.parentKey = some parent.key) =>
      (parentKey_eq_some.mp hkey).2
  have hnotOnWay : last ∉ root :: way := fun hmem => hforeign (hsteps last hmem).2.symm
  have hlastNodup : (root :: way ++ [last]).Nodup :=
    (hids.of_map _).append (List.nodup_singleton last) fun step hstep hstep' =>
      hnotOnWay (List.mem_singleton.mp hstep' ▸ hstep)
  have hsub : ∀ step ∈ way ++ [last], step ∈ nodes := by
    intro step hstep
    rcases List.mem_append.mp hstep with hstep | hstep
    · exact (hsteps step (List.mem_cons_of_mem _ hstep)).1
    · exact List.mem_singleton.mp hstep ▸ hlast
  have hperm := movedToEnd_perm hkeys hsub (List.nodup_cons.mp hlastNodup).2
  refine ⟨movedToEnd nodes (way ++ [last]), hperm, fun haccepts => ?_⟩
  obtain ⟨-, -, hconsistent, hcircular⟩ := (acceptsThingNodes_iff hne hdistinct).mp haccepts
  by_cases hturn : ∃ turn ∈ root :: way, turn.externalId = last.externalId
  · obtain ⟨turn, hturnMem, hturn⟩ := hturn
    obtain ⟨pre, post, hsplit⟩ := List.append_of_mem hturnMem
    cases post with
    | nil =>
      -- the last node would name itself as its parent
      have hfinalTurn : final = turn := by
        rw [hsplit, List.getLast?_concat] at hend
        exact (Option.some.inj hend).symm
      have hself : last.parentKey = some last.key :=
        parentKey_eq_some.mpr ⟨rfl, hnames.trans (congrArg some (hfinalTurn ▸ hturn))⟩
      exact hforest.acyclic _ (.single (adj_of_parentKey hlast hself))
    | cons first post =>
      refine not_leadsTo_of_checkForCircularReference hcircular (hperm.mem_iff.mpr hlast) ?_
      exact leadsTo_of_way hsplit hturn hids hwayNames hend hnames
  · have hrootMem : root ∈ rootNodes (movedToEnd nodes (way ++ [last])) := by
      refine List.mem_filter.mpr ⟨hperm.mem_iff.mpr (hsteps root (List.mem_cons_self ..)).1, ?_⟩
      exact decide_eq_true hroot
    have hallNames : (root :: way ++ [last]).IsChain Names := by
      refine hwayNames.append (List.isChain_singleton last) fun step hstep next hnext => ?_
      obtain rfl : final = step := by
        rw [hend] at hstep
        exact Option.some.inj hstep
      obtain rfl : last = next := Option.some.inj hnext
      exact hnames
    have hallIds : ((root :: way ++ [last]).map fun step => step.externalId).Nodup := by
      rw [List.map_append]
      refine hids.append (List.nodup_singleton _) fun externalId hmem hmem' => hturn ?_
      obtain ⟨step, hstep, rfl⟩ := List.mem_map.mp hmem
      exact ⟨step, hstep, List.mem_singleton.mp hmem'⟩
    have hlastChild : (root :: way ++ [last]).IsChain fun step next =>
        (childNodes (movedToEnd nodes (way ++ [last])) step.externalId).getLast? = some next :=
      hallNames.imp_of_mem_tail_imp fun _ _ _ hnext hstep =>
        getLast?_childNodes_movedToEnd hallNames hids hnext hstep
    have hlength : (root :: way ++ [last]).length ≤ (movedToEnd nodes (way ++ [last])).length := by
      refine (List.subperm_of_subset hlastNodup fun step hstep => hperm.mem_iff.mpr ?_).length_le
      rcases List.mem_cons.mp hstep with rfl | hstep
      · exact (hsteps step (List.mem_cons_self ..)).1
      · exact hsub step hstep
    have hrounds : way.length + 2 ≤ (movedToEnd nodes (way ++ [last])).length + 1 := by
      simp only [List.length_append, List.length_cons, List.length_nil] at hlength ⊢
      omega
    have hrootKey : last.stakeholderKey ≠ root.stakeholderKey := by
      rw [(hsteps root (List.mem_cons_self ..)).2]
      exact fun heq => hforeign heq.symm
    exact checkHierarchy_ne_ok_of_way hrootKey hlastChild hallIds hrounds
      (fun _ _ => List.not_mem_nil) [] (forM_eq_ok.mp hconsistent root hrootMem)

/-! ## Exactly the forests, sorted -/

/-- What validation and sort promise: forests are accepted and nothing else, and accepted nodes
are listed once each and behind their parents. -/
structure AcceptsForests (elementTypes : List StructureServiceElementType)
    (nodes : List (StructureServiceThingNode J)) : Prop where
  accepts : AcceptsThingNodes elementTypes nodes ↔ IsForest nodes
  sorts : AcceptsThingNodes elementTypes nodes →
    ∃ rounds sorted, sortThingNodes rounds nodes = some sorted ∧ SortsNodes nodes sorted

/-- Nodes whose parents can be told from others by their external id and by their id. -/
structure ParentsDistinct (nodes : List (StructureServiceThingNode J)) : Prop where
  sameStakeholders : SameStakeholders nodes
  ownIds : ParentsOwnIds nodes

/-- Being a forest does not depend on the order. -/
theorem IsForest.perm {nodes order : List (StructureServiceThingNode J)} (h : IsForest nodes)
    (hperm : order.Perm nodes) : IsForest order := by
  refine ⟨fun node hnode key hkey => ?_, h.acyclic.mono fun edge hedge => ?_⟩
  · obtain ⟨parent, hparent, hparentKey⟩ := h.parents node (hperm.mem_iff.mp hnode) key hkey
    exact ⟨parent, hperm.mem_iff.mpr hparent, hparentKey⟩
  · exact (hperm.filterMap _).mem_iff.mp hedge

/-- Whether parents can be told from others does not depend on the order. -/
theorem ParentsDistinct.perm {nodes order : List (StructureServiceThingNode J)}
    (h : ParentsDistinct nodes) (hperm : order.Perm nodes) : ParentsDistinct order := by
  have hmem {node : StructureServiceThingNode J} (hnode : node ∈ order) : node ∈ nodes :=
    hperm.mem_iff.mp hnode
  refine ⟨fun node hnode other hother => ?_, fun node hnode parent hparent hkey other hother => ?_⟩
  · exact h.sameStakeholders node (hmem hnode) other (hmem hother)
  · exact h.ownIds node (hmem hnode) parent (hmem hparent) hkey other (hmem hother)

/-- If parents can be told from others, validation and sort keep their promise. -/
theorem acceptsForests_of_parentsDistinct {elementTypes : List StructureServiceElementType}
    (hne : elementTypes ≠ []) (hdistinct : (elementTypes.map fun element => element.key).Nodup)
    {nodes : List (StructureServiceThingNode J)} (hkeys : (nodes.map fun node => node.key).Nodup)
    (hparents : ParentsDistinct nodes) : AcceptsForests elementTypes nodes := by
  have haccepts := acceptsThingNodes_iff_isForest hne hdistinct hkeys hparents.sameStakeholders
  refine ⟨haccepts, fun haccepted => ?_⟩
  obtain ⟨sorted, hsorted, hsorts⟩ :=
    sortsNodes_of_isForest hkeys (haccepts.mp haccepted) hparents.ownIds
  exact ⟨nodes.length, sorted, hsorted, hsorts⟩

/-- If validation and sort keep their promise on every order of a forest, parents can be told from
others. -/
theorem parentsDistinct_of_acceptsForests {elementTypes : List StructureServiceElementType}
    (hne : elementTypes ≠ []) (hdistinct : (elementTypes.map fun element => element.key).Nodup)
    {nodes : List (StructureServiceThingNode J)} (hkeys : (nodes.map fun node => node.key).Nodup)
    (hforest : IsForest nodes)
    (horders : ∀ order, order.Perm nodes → AcceptsForests elementTypes order) :
    ParentsDistinct nodes := by
  constructor
  · by_contra hconfused
    obtain ⟨order, hperm, hrejected⟩ :=
      exists_order_rejected hne hdistinct hkeys hforest hconfused
    exact hrejected ((horders order hperm).accepts.mpr (hforest.perm hperm))
  · obtain ⟨haccepts, hsorts⟩ := horders nodes (.refl _)
    obtain ⟨rounds, sorted, hsorted, hsorts⟩ := hsorts (haccepts.mpr hforest)
    exact parentsOwnIds_of_sort hkeys hsorted hsorts.once

/-- External ids are enough for these nodes: in a forest ways down stay with the stakeholder of the
root, ways up do not lead back and parents have ids of their own, and what looks like a forest is
one. -/
structure ExternalIdsSuffice (nodes : List (StructureServiceThingNode J)) : Prop where
  forest : IsForest nodes → StaysWithStakeholders nodes ∧ NeverLeadsBack nodes ∧ ParentsOwnIds nodes
  seeming : LooksLikeForest nodes → IsForest nodes

/-- An element type of stakeholder `A`. -/
def plainElementType : StructureServiceElementType where
  externalId := ['t']
  stakeholderKey := ['A']
  name := ['t']
  external_id_not_empty := by simp
  stakeholder_key_not_empty := by simp
  name_not_empty := by simp
  id := 1
  description := none

/-- A thing node without further data. -/
def plainNode (id : UUID) (stakeholder externalId : Char) (parent : Option PyStr) :
    StructureServiceThingNode ℤ where
  externalId := [externalId]
  stakeholderKey := [stakeholder]
  name := [stakeholder, externalId]
  external_id_not_empty := by simp
  stakeholder_key_not_empty := by simp
  name_not_empty := by simp
  id := id
  description := []
  parentNodeId := none
  parentExternalNodeId := parent
  elementTypeId := 1
  elementTypeExternalId := ['t']
  metaData := none

/-- A root of `A` with a child, and a root of `B` with the external id of the first one. -/
def twoRoots : List (StructureServiceThingNode ℤ) :=
  [plainNode 11 'A' 'x' none, plainNode 12 'B' 'x' none, plainNode 13 'A' 'y' (some ['x'])]

/-- A root of `A` with a child, and a node of `B` which names that root as its parent. -/
def foreignParent : List (StructureServiceThingNode ℤ) :=
  [plainNode 21 'A' 'x' none, plainNode 22 'B' 'y' (some ['x']), plainNode 23 'A' 'y' (some ['x'])]

/-- A root of `A` with a child. -/
def oneRoot : List (StructureServiceThingNode ℤ) :=
  [plainNode 31 'A' 'x' none, plainNode 32 'A' 'y' (some ['x'])]

/-- A single edge between different vertices is acyclic. -/
theorem acyclic_singleton {A : Type} [DecidableEq A] {a b : A} (h : a ≠ b) :
    EdgeList.Acyclic [(a, b)] := by
  intro v hcycle
  obtain ⟨c, hc⟩ := EdgeList.exists_edge_to_of_transGen hcycle
  obtain ⟨c', hc'⟩ := EdgeList.exists_edge_from_of_transGen hcycle
  have hb : v = b := congrArg Prod.snd (List.mem_singleton.mp hc)
  have ha : v = a := congrArg Prod.fst (List.mem_singleton.mp hc')
  exact h (ha.symm.trans hb)

/-- A forest of two stakeholders with external ids in common; in this order ways down do not meet the
nodes of the other stakeholder. -/
def sharedParent : List (StructureServiceThingNode ℤ) :=
  [plainNode 41 'A' 'r' none, plainNode 42 'B' 'e' none, plainNode 43 'A' 'e' (some ['r']),
    plainNode 44 'B' 'g' (some ['e']), plainNode 45 'A' 'g' (some ['r'])]

/-- Nodes of which one names a parent that is not there, and of which a parent and its child have
the same id. -/
def missingParent : List (StructureServiceThingNode ℤ) :=
  [plainNode 51 'A' 'a' none, plainNode 51 'A' 'b' (some ['a']), plainNode 53 'A' 'c' (some ['z'])]

end HetidaDesigner
