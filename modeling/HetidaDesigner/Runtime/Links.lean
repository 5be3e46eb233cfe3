import HetidaDesigner.Runtime.Placement

/-!
# Adding inputs to nested nodes

An input which is added to a node of a nesting is handed down to the sub nodes. The sources of all
inputs inside the nesting stay those of the connections and mappings, and objects outside of it are
not touched.
-/

namespace HetidaDesigner

open Checks KeyedList

attribute [local instance] nameBEq

section Mappings

variable {V : Type} {node : WorkflowNodeData V} {subNodes : List (SubNode V)} {start : ℕ}
  {mappings : List (Option PyStr × (ℕ × Option PyStr))}

/-- The entries of the input mappings are those of the inputs. -/
theorem mem_inputMappings_iff {positions : List (PyStr × ℕ)} {inputs : List (WorkflowInput V)}
    (h : obtainInputMappings positions inputs = .ok mappings)
    (mapping : Option PyStr × (ℕ × Option PyStr)) :
    mapping ∈ mappings ↔ ∃ input ∈ inputs, mapping.1 = input.mappedName ∧
      mappedTo positions input.idOfSubNode input.nameInSubnode = .ok mapping.2 := by
  obtain ⟨dynamic, hdynamic, h⟩ := bind_eq_ok.mp h
  obtain ⟨constant, hconstant, h⟩ := bind_eq_ok.mp h
  obtain rfl := return_eq_ok.mp h
  have hentry (name : Option PyStr) (input : WorkflowInput V) :
      (do return (name, ← mappedTo positions input.idOfSubNode input.nameInSubnode)) =
        (Except.ok mapping : Except ParsingError _) ↔
      mapping.1 = name ∧ mappedTo positions input.idOfSubNode input.nameInSubnode =
        .ok mapping.2 := by
    rw [bind_eq_ok]
    constructor
    · rintro ⟨target, htarget, hmapping⟩
      obtain rfl := return_eq_ok.mp hmapping
      exact ⟨rfl, htarget⟩
    · rintro ⟨hname, htarget⟩
      exact ⟨mapping.2, htarget, return_eq_ok.mpr (by rw [← hname])⟩
  rw [List.mem_append, mem_iff_of_mapM hdynamic, mem_iff_of_mapM hconstant]
  simp only [hentry, dynamicInputs, constantInputs, List.mem_append, List.mem_filter]
  constructor
  · rintro (⟨input, hinput, hmapping⟩ | ⟨input, ⟨hinput, hconst⟩, hmapping⟩)
    · have hdyn : input ∈ inputs ∧ input.constant = false := by
        rcases hinput with ⟨hinput, hkind⟩ | ⟨hinput, hkind⟩ <;>
          exact ⟨hinput, by simpa using (Bool.and_eq_true_iff.mp hkind).1⟩
      refine ⟨input, hdyn.1, ?_⟩
      rw [WorkflowInput.mappedName, hdyn.2]
      exact hmapping
    · refine ⟨input, hinput, ?_⟩
      rw [WorkflowInput.mappedName, hconst]
      exact hmapping
  · rintro ⟨input, hinput, hmapping⟩
    cases hconst : input.constant with
    | true =>
      rw [WorkflowInput.mappedName, hconst] at hmapping
      exact Or.inr ⟨input, ⟨hinput, hconst⟩, hmapping⟩
    | false =>
      rw [WorkflowInput.mappedName, hconst] at hmapping
      refine Or.inl ⟨input, ?_, hmapping⟩
      cases hdefault : input.default with
      | false => exact Or.inl ⟨hinput, by simp [hconst]⟩
      | true => exact Or.inr ⟨hinput, by simp [hconst]⟩

/-- The mapped place of an input. -/
theorem mappedTo_eq_ok_iff (hids : (subNodes.map SubNode.id).Nodup) {id name : PyStr}
    {target : ℕ × Option PyStr} :
    mappedTo (positions start subNodes) id name = .ok target ↔
      ∃ entry ∈ starts start subNodes, entry.2.id = id ∧ target = (objectOf entry, some name) := by
  unfold mappedTo
  constructor
  · intro h
    split at h
    · cases h
    · rename_i position hposition
      obtain ⟨entry, hentry, hid, rfl⟩ := (positions_lookup_iff hids).mp hposition
      exact ⟨entry, hentry, hid, (Except.ok.inj h).symm⟩
  · rintro ⟨entry, hentry, hid, rfl⟩
    rw [(positions_lookup_iff hids).mpr ⟨entry, hentry, hid, rfl⟩]

/-- An input of a workflow is mapped under a name. -/
theorem WorkflowNodeData.LevelWellFormed.exists_mappedName (hwf : node.LevelWellFormed subNodes)
    {input : WorkflowInput V} (hinput : input ∈ node.inputs) : ∃ name, input.mappedName = some name := by
  cases hconst : input.constant with
  | true => exact ⟨_, by rw [WorkflowInput.mappedName, if_pos hconst]⟩
  | false =>
    obtain ⟨name, hname⟩ := Option.ne_none_iff_exists'.mp (hwf.named input hinput hconst)
    exact ⟨name, by rw [WorkflowInput.mappedName, if_neg (by simp [hconst]), hname]⟩

/-- The inputs of a workflow are mapped to different places. -/
theorem WorkflowNodeData.LevelWellFormed.inputs_nodup (hwf : node.LevelWellFormed subNodes) :
    (node.inputs.map WorkflowInput.target).Nodup :=
  (List.nodup_append.mp hwf.targets).2.1

/-- Different connections lead to different inputs. -/
theorem WorkflowNodeData.LevelWellFormed.connections_nodup (hwf : node.LevelWellFormed subNodes) :
    (node.connections.map WorkflowConnection.target).Nodup :=
  (List.nodup_append.mp hwf.targets).1

/-- No connection leads to an input of a sub node to which one of the workflow is mapped. -/
theorem WorkflowNodeData.LevelWellFormed.linkTo_eq_none (hwf : node.LevelWellFormed subNodes)
    {id name outer : PyStr} (h : node.mappedFrom id name = some outer) :
    lookup WorkflowConnection.target (id, name) node.connections = none := by
  obtain ⟨input, hinput, -⟩ := Option.bind_eq_some_iff.mp h
  obtain ⟨hmem, htarget⟩ := lookup_eq_some hinput
  rw [lookup_eq_none]
  intro connection hconnection heq
  refine (List.nodup_append.mp hwf.targets).2.2 _ (List.mem_map_of_mem hconnection) _
    (List.mem_map_of_mem hmem) ?_
  rw [heq, htarget]

/-- The input mappings of a workflow lead from the inputs to those of the sub nodes. -/
theorem mem_inputMappings_iff_mappedFrom (hwf : node.LevelWellFormed subNodes)
    (h : obtainInputMappings (positions start subNodes) node.inputs = .ok mappings)
    (mapping : Option PyStr × (ℕ × Option PyStr)) :
    mapping ∈ mappings ↔ ∃ entry ∈ starts start subNodes, ∃ name outer,
      node.mappedFrom entry.2.id name = some outer ∧
        mapping = (some outer, (objectOf entry, some name)) := by
  rw [mem_inputMappings_iff h]
  constructor
  · rintro ⟨input, hinput, hname, htarget⟩
    obtain ⟨entry, hentry, hid, htarget⟩ := (mappedTo_eq_ok_iff hwf.ids).mp htarget
    obtain ⟨outer, houter⟩ := hwf.exists_mappedName hinput
    refine ⟨entry, hentry, input.nameInSubnode, outer, ?_, ?_⟩
    · have hfound : lookup WorkflowInput.target input.target node.inputs = some input :=
        lookup_of_mem hwf.inputs_nodup hinput
      rw [WorkflowNodeData.mappedFrom, hid]
      exact Option.bind_eq_some_iff.mpr ⟨input, hfound, houter⟩
    · rw [← houter, ← hname, ← htarget]
  · rintro ⟨entry, hentry, name, outer, hmapped, rfl⟩
    obtain ⟨input, hinput, houter⟩ := Option.bind_eq_some_iff.mp hmapped
    obtain ⟨hmem, htarget⟩ := lookup_eq_some hinput
    obtain ⟨hid, hname⟩ := Prod.mk.inj htarget
    refine ⟨input, hmem, houter.symm, (mappedTo_eq_ok_iff hwf.ids).mpr ⟨entry, hentry, ?_, ?_⟩⟩
    · exact hid.symm
    · rw [hname]

end Mappings

section Links

variable {V W X : Type} {tools : ParsingTools V W X}
  {nodes : List (EngineNode (Option PyStr) W X)} {inputs inputs' : EngineInputs (Option PyStr)}

/-- The links inside a nesting are about the inputs of its objects only. -/
theorem SubNode.Linked.congr {subNode : SubNode V} {start : ℕ} (h : subNode.Linked inputs start)
    (hsame : ∀ other, start ≤ other → other < start + subNode.size →
      inputs' other = inputs other) : subNode.Linked inputs' start := by
  refine SubNode.Everywhere.imp (fun node subNodes lower hlower hupper hlinked => ?_)
    (fun _ _ _ _ _ => trivial) h
  refine ⟨fun entry hentry key => ?_, fun other hlt hupper' => ?_⟩
  · have hrange := mem_starts_range hentry
    have hobject := objectOf_mem entry
    rw [hsame _ (by omega) (by omega), hsame _ (by omega) (by omega)]
    exact hlinked.sources entry hentry key
  · rw [hsame _ (by omega) (by omega)]
    exact hlinked.providers other hlt hupper'

/-- The object of a sub node is not the one of another sub node. -/
theorem eq_of_objectOf_eq {subNodes : List (SubNode V)} {start : ℕ} {entry entry' : ℕ × SubNode V}
    (h : entry ∈ starts start subNodes) (h' : entry' ∈ starts start subNodes)
    (heq : objectOf entry = objectOf entry') : entry = entry' := by
  have hobject := objectOf_mem entry
  have hobject' := objectOf_mem entry'
  rcases starts_disjoint h h' with hsame | hlt | hlt
  · exact hsame
  · omega
  · omega

/-- The names of one entry are distinct. -/
theorem nodup_single {N A : Type} (entry : N × A) : ([entry].map Prod.fst).Nodup :=
  List.nodup_singleton entry.1

/-- A change to the inputs of one sub node does not touch the objects of another one. -/
theorem eq_of_outside {subNodes : List (SubNode V)} {start : ℕ} {entry changed : ℕ × SubNode V}
    (hentry : entry ∈ starts start subNodes) (hchanged : changed ∈ starts start subNodes)
    (hframe : ∀ other, other < changed.1 ∨ changed.1 + changed.2.size ≤ other →
      inputs' other = inputs other) (hne : entry ≠ changed) (other : ℕ) (hlower : entry.1 ≤ other)
    (hupper : other < entry.1 + entry.2.size) : inputs' other = inputs other := by
  rcases starts_disjoint hentry hchanged with heq | hlt | hlt
  · exact absurd heq hne
  · exact hframe other (Or.inl (by omega))
  · exact hframe other (Or.inr (by omega))

/-- The sources of the inputs of sub nodes after one has been added. -/
theorem lookup_added (hnodes : MappedToEarlier nodes) {subNodes : List (SubNode V)} {start : ℕ}
    {entry changed : ℕ × SubNode V} (hentry : entry ∈ starts start subNodes)
    (hchanged : changed ∈ starts start subNodes)
    (hframe : ∀ other, other < changed.1 ∨ changed.1 + changed.2.size ≤ other →
      inputs' other = inputs other) {levels : ℕ} {name : Option PyStr} {source : ℕ × Option PyStr}
    (hadded : addInputsWithin nodes levels (objectOf changed) [(name, source)] inputs =
      some inputs') (key : Option PyStr) :
    (inputs' (objectOf entry)).lookup key =
      if objectOf entry = objectOf changed ∧ key = name then some source
      else (inputs (objectOf entry)).lookup key := by
  by_cases hsame : objectOf entry = objectOf changed
  · rw [hsame, addInputsWithin_self hnodes hadded, list_lookup_insertAll (nodup_single _)]
    by_cases hkey : key = name
    · rw [if_pos ⟨rfl, hkey⟩, hkey]
      simp
    · have hne : (key == name) = false := beq_eq_false_iff_ne.mpr hkey
      rw [if_neg fun hboth => hkey hboth.2]
      simp [List.lookup_cons, hne]
  · have hobject := objectOf_mem entry
    rw [if_neg fun hboth => hsame hboth.1, eq_of_outside hentry hchanged hframe
      (fun heq => hsame (congrArg objectOf heq)) _ hobject.1 hobject.2]

/-- Inputs of sub nodes which are handed down one after the other. -/
theorem linked_of_foldlM {node : WorkflowNodeData V} {subNodes : List (SubNode V)} {start levels : ℕ}
    (hnodes : MappedToEarlier nodes) (hwf : node.LevelWellFormed subNodes)
    {workflow : Workflow (Option PyStr)}
    (hmappings : obtainInputMappings (positions start subNodes) node.inputs =
      .ok workflow.inputMappings)
    (hlevels : ∀ entry ∈ starts start subNodes, ∀ {newInputs inputs inputs'},
      entry.2.Linked inputs entry.1 →
      (newInputs.map Prod.fst).Nodup →
      addInputsWithin nodes levels (objectOf entry) newInputs inputs = some inputs' →
      entry.2.Linked inputs' entry.1 ∧ ∀ other,
        other < entry.1 ∨ entry.1 + entry.2.size ≤ other → inputs' other = inputs other)
    {newInputs : List (Option PyStr × (ℕ × Option PyStr))}
    {outer : List (Option PyStr × (ℕ × Option PyStr))}
    (hnodup : (newInputs.map Prod.fst).Nodup)
    (houter : ∀ entry ∈ newInputs, outer.lookup entry.1 = some entry.2)
    (hall : ∀ entry ∈ starts start subNodes, entry.2.Linked inputs entry.1)
    (hlinked : ∀ entry ∈ starts start subNodes, ∀ key,
      (∀ newInput ∈ newInputs, workflow.inputMappings.lookup newInput.1 ≠
        some (objectOf entry, key)) →
      (inputs (objectOf entry)).lookup key = linkedSource node.connections node
        (positions start subNodes) outer entry key)
    (h : newInputs.foldlM (fun inputs newInput => do
      let (subNode, subNodeInputName) ← workflow.inputMappings.lookup newInput.1
      addInputsWithin nodes levels subNode [(subNodeInputName, newInput.2)] inputs) inputs =
        some inputs') :
    (∀ entry ∈ starts start subNodes, entry.2.Linked inputs' entry.1) ∧
      (∀ entry ∈ starts start subNodes, ∀ key, (inputs' (objectOf entry)).lookup key =
        linkedSource node.connections node (positions start subNodes) outer entry key) ∧
      ∀ other, other < start ∨ start + sizeAll subNodes ≤ other → inputs' other = inputs other := by
  induction newInputs generalizing inputs with
  | nil =>
    obtain rfl := Option.some.inj h
    exact ⟨hall, fun entry hentry key => hlinked entry hentry key nofun, fun _ _ => rfl⟩
  | cons newInput rest ih =>
    rw [List.foldlM_cons] at h
    obtain ⟨between, hfirst, hrest⟩ := Option.bind_eq_some_iff.mp h
    obtain ⟨target, htarget, hadded⟩ := Option.bind_eq_some_iff.mp hfirst
    obtain ⟨changed, hchanged, name, outerName, hmapped, hmapping⟩ :=
      (mem_inputMappings_iff_mappedFrom hwf hmappings _).mp (mem_of_lookup_eq_some htarget)
    obtain ⟨hname, rfl⟩ := Prod.mk.inj hmapping
    obtain ⟨hchangedLinked, hframe⟩ :=
      hlevels changed hchanged (hall changed hchanged) (nodup_single _) hadded
    have hrange := mem_starts_range hchanged
    obtain ⟨hall', hlinked', hframe'⟩ := ih (List.nodup_cons.mp hnodup).2
      (fun entry hentry => houter entry (List.mem_cons_of_mem _ hentry))
      (fun entry hentry => by
        by_cases hentryChanged : entry = changed
        · rw [hentryChanged]
          exact hchangedLinked
        · exact (hall entry hentry).congr
            (eq_of_outside hentry hchanged hframe hentryChanged))
      (fun entry hentry key hkey => by
        rw [lookup_added hnodes hentry hchanged hframe hadded]
        split
        · rename_i hslot
          obtain rfl := eq_of_objectOf_eq hentry hchanged hslot.1
          obtain rfl := hslot.2
          have hsource : outer.lookup (some outerName) = some newInput.2 := by
            rw [← hname]
            exact houter newInput List.mem_cons_self
          rw [linkedSource, hwf.linkTo_eq_none hmapped, hmapped, Option.bind_some, hsource]
          rfl
        · rename_i hslot
          refine hlinked entry hentry key fun other hmem heq => ?_
          rcases List.mem_cons.mp hmem with rfl | hmem
          · rw [htarget] at heq
            obtain ⟨hobject, hkeyName⟩ := Prod.mk.inj (Option.some.inj heq)
            exact hslot ⟨hobject.symm, hkeyName.symm⟩
          · exact hkey other hmem heq) hrest
    refine ⟨hall', hlinked', fun other houtside => ?_⟩
    rw [hframe' other houtside]
    exact hframe other (by omega)

/-- What adding inputs to a node of a nesting does inside of it and outside. -/
theorem addInputsWithin_linked (hnodes : MappedToEarlier nodes) {levels : ℕ} {subNode : SubNode V}
    {start : ℕ} (hwf : subNode.WellFormed) (hplaced : subNode.Placed tools nodes start)
    (h : subNode.Linked inputs start) {newInputs : List (Option PyStr × (ℕ × Option PyStr))}
    (hnodup : (newInputs.map Prod.fst).Nodup)
    (hadded : addInputsWithin nodes levels (subNode.position start) newInputs inputs =
      some inputs') :
    subNode.Linked inputs' start ∧ ∀ other,
      other < start ∨ start + subNode.size ≤ other → inputs' other = inputs other := by
  induction levels generalizing subNode start inputs inputs' newInputs with
  | zero => cases hadded
  | succ levels ih =>
    rw [addInputsWithin] at hadded
    dsimp only at hadded
    cases subNode with
    | component component =>
      obtain ⟨computation, -, hcomputation⟩ := hplaced
      refine ⟨trivial, fun other houtside => ?_⟩
      rw [SubNode.position, hcomputation] at hadded
      obtain rfl := Option.some.inj hadded
      have hne : other ≠ start := by
        rw [SubNode.size] at houtside
        omega
      exact Function.update_of_ne hne _ _
    | workflow node subNodes =>
      obtain ⟨⟨-, workflow, hworkflow, hmappings, -⟩, hplaced⟩ := hplaced
      obtain ⟨hlevel, hall⟩ := hwf
      obtain ⟨hlinked, hlinkedAll⟩ := h
      rw [everywhereAll_iff] at hplaced hlinkedAll
      rw [allWellFormed_iff] at hall
      rw [SubNode.position, hworkflow] at hadded
      dsimp only at hadded
      have hself : Function.update inputs (start + sizeAll subNodes) (insertAll Prod.fst
          (inputs (start + sizeAll subNodes)) newInputs) (start + sizeAll subNodes) =
            insertAll Prod.fst (inputs (start + sizeAll subNodes)) newInputs :=
        Function.update_self ..
      have hothers : ∀ other ≠ start + sizeAll subNodes, Function.update inputs
          (start + sizeAll subNodes) (insertAll Prod.fst (inputs (start + sizeAll subNodes))
            newInputs) other = inputs other := fun other hother => Function.update_of_ne hother _ _
      generalize Function.update inputs (start + sizeAll subNodes) (insertAll Prod.fst
        (inputs (start + sizeAll subNodes)) newInputs) = updated at hadded hself hothers
      have houter : ∀ entry ∈ newInputs,
          (updated (start + sizeAll subNodes)).lookup entry.1 = some entry.2 := by
        intro entry hentry
        rw [hself, list_lookup_insertAll hnodup, (lookup_eq_some_iff_mem hnodup).mpr hentry,
          Option.some_or]
      have hupdated : ∀ entry ∈ starts start subNodes, entry.2.Linked updated entry.1 := by
        intro entry hentry
        have hrange := mem_starts_range hentry
        exact SubNode.Linked.congr (hlinkedAll entry hentry) fun other hlower hupper =>
          hothers other (by omega)
      have hheld : ∀ entry ∈ starts start subNodes, ∀ key,
          (∀ newInput ∈ newInputs, workflow.inputMappings.lookup newInput.1 ≠
            some (objectOf entry, key)) →
          (updated (objectOf entry)).lookup key = linkedSource node.connections node
            (positions start subNodes) (updated (start + sizeAll subNodes)) entry key := by
        intro entry hentry key hkey
        have hrange := mem_starts_range hentry
        have hobject := objectOf_mem entry
        rw [hothers (objectOf entry) (by omega), hlinked.sources entry hentry key]
        cases key with
        | none => rfl
        | some name =>
          rw [linkedSource, linkedSource]
          cases lookup WorkflowConnection.target (entry.2.id, name) node.connections with
          | some connection => rfl
          | none =>
            dsimp only
            cases hmapped : node.mappedFrom entry.2.id name with
            | none => rfl
            | some outerName =>
              have hmapping : workflow.inputMappings.lookup (some outerName) =
                  some (objectOf entry, some name) :=
                (lookup_eq_some_iff_mem workflow.inputMappings_unique).mpr
                  ((mem_inputMappings_iff_mappedFrom hlevel hmappings _).mpr
                    ⟨entry, hentry, name, outerName, hmapped, rfl⟩)
              have hnone : newInputs.lookup (some outerName) = none := by
                rw [lookup_eq_none_iff_notMem, List.mem_map]
                rintro ⟨newInput, hmem, hname⟩
                exact hkey newInput hmem (by rw [hname, hmapping])
              rw [Option.bind_some, Option.bind_some, hself, list_lookup_insertAll hnodup, hnone,
                Option.none_or]
      obtain ⟨hall', hlinked', hframe⟩ := linked_of_foldlM hnodes hlevel hmappings
        (fun entry hentry _ _ _ hentryLinked hentryNodup hentryAdded =>
          ih (hall entry.2 (mem_of_mem_starts hentry)) (hplaced entry hentry) hentryLinked
            hentryNodup hentryAdded) hnodup houter hupdated hheld hadded
      have htop : inputs' (start + sizeAll subNodes) = updated (start + sizeAll subNodes) :=
        hframe _ (Or.inr le_rfl)
      refine ⟨⟨⟨fun entry hentry key => ?_, fun other hlt hupper => ?_⟩,
        everywhereAll_iff.mpr hall'⟩, fun other houtside => ?_⟩
      · rw [htop]
        exact hlinked' entry hentry key
      · rw [hframe other (Or.inr hlt.le), hothers other (Nat.ne_of_gt hlt)]
        exact hlinked.providers other hlt hupper
      · rw [SubNode.size] at houtside
        rw [hframe other (by omega)]
        exact hothers other (by omega)

end Links

end HetidaDesigner
