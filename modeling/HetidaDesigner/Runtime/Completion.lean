import HetidaDesigner.Library.EdgeList
import HetidaDesigner.Runtime.Execution

/-!
# Executions which complete

If no level of a workflow node has a cycle, every connected output exists, every required input has
a source and no component raises, then all nodes have results in the reference evaluation: sources
on the same level come first, those on outer levels before. So the runtime service completes without
reporting a circular dependency, and every component has been run.
-/

namespace HetidaDesigner

open Checks KeyedList

attribute [local instance] nameBEq

section Definitions

variable {V W X : Type} (tools : ParsingTools V W X) (config : EngineConfig W)
  (data : PyStr → Option W) (root : SubNode V)

/-- Whether a node returns an output whenever it returns. -/
def SubNode.ReturnsOutput (name : PyStr) : SubNode V → Prop
  | .component node => ∀ computation, tools.loadComponent node.componentUuid = some computation →
      ∀ values result, computation.func values = .ok result → (result.lookup (some name)).isSome
  | .workflow node _ => name ∈ node.outputs.map WorkflowOutput.name

/-- A component which is loaded, gets its required inputs and returns if it gets them. -/
def Runs (names : List (Option PyStr)) (component : ComponentNode) : Prop :=
  ∃ computation, tools.loadComponent component.componentUuid = some computation ∧
    computation.requiredParams ⊆ names ∧
      ∀ values, computation.requiredParams ⊆ values.map Prod.fst →
        ∃ result, computation.func values = .ok result

/-- No level has a cycle, what is connected exists, inputs have sources and components return. -/
structure Runnable : Prop where
  acyclic : ∀ path node subNodes, root.nodeAt path = some (.workflow node subNodes) →
    EdgeList.Acyclic (node.connections.map fun connection =>
      (connection.inputInWorkflowId, connection.outputInWorkflowId))
  connected : ∀ path node subNodes, root.nodeAt path = some (.workflow node subNodes) →
    ∀ connection ∈ node.connections, ∃ source,
      lookup SubNode.id connection.inputInWorkflowId subNodes = some source ∧
        source.ReturnsOutput tools connection.inputName
  mapped : ∀ path node subNodes, root.nodeAt path = some (.workflow node subNodes) →
    ∀ output ∈ node.outputs, ∃ source,
      lookup SubNode.id output.idOfSubNode subNodes = some source ∧
        source.ReturnsOutput tools output.nameInSubnode
  inputs : ∀ path node subNodes, root.nodeAt path = some (.workflow node subNodes) →
    ∀ input ∈ node.inputs, ∃ name, input.mappedName = some name ∧
      (inputSource tools data root path name).isSome
  runs : ∀ path component, root.nodeAt path = some (.component component) →
    Runs tools ((providedInputs tools data root path).map some) component

/-- A node has a result with all outputs which it returns. -/
def Evaluates (path : List PyStr) (subNode : SubNode V) : Prop :=
  ∃ depth result, referenceResult tools config data root depth path = some result ∧
    ∀ name, subNode.ReturnsOutput tools name → (result.lookup (some name)).isSome

/-- The sources of all inputs of a node have values. -/
def SourcesEvaluate (path : List PyStr) : Prop :=
  ∀ name source, inputSource tools data root path name = some source → ∃ depth value,
    source.value? (referenceResult tools config data root depth) = some value

end Definitions

/-! ## Depths -/

section Depths

variable {V W X : Type} {tools : ParsingTools V W X} {config : EngineConfig W}
  {data : PyStr → Option W} {root : SubNode V}

/-- More results lead to the same values. -/
theorem InputSource.value?_mono {results results' : List PyStr → Option (List (Option PyStr × W))}
    (h : ∀ path result, results path = some result → results' path = some result)
    {source : InputSource W} {value : W} (hvalue : source.value? results = some value) :
    source.value? results' = some value := by
  cases source with
  | output path name =>
    obtain ⟨result, hresult, hlookup⟩ := Option.bind_eq_some_iff.mp hvalue
    exact Option.bind_eq_some_iff.mpr ⟨result, h path result hresult, hlookup⟩
  | value given => exact hvalue

/-- More results lead to the same inputs. -/
theorem sourceOutput_mono {results results' : List PyStr → Option (List (Option PyStr × W))}
    (h : ∀ path result, results path = some result → results' path = some result)
    {path : List PyStr} {key : Option PyStr} {value : Option PyStr × W}
    (hvalue : sourceOutput tools data root results path key = some value) :
    sourceOutput tools data root results' path key = some value := by
  obtain ⟨source, hsource, hvalue⟩ := Option.bind_eq_some_iff.mp hvalue
  obtain ⟨found, hfound, rfl⟩ := Option.map_eq_some_iff.mp hvalue
  exact Option.bind_eq_some_iff.mpr ⟨source, hsource,
    Option.map_eq_some_iff.mpr ⟨found, source.value?_mono h hfound, rfl⟩⟩

/-- More results lead to the same outputs of workflows. -/
theorem referenceMapped_mono {results results' : List PyStr → Option (List (Option PyStr × W))}
    (h : ∀ path result, results path = some result → results' path = some result)
    {path : List PyStr} {output : WorkflowOutput} {value : Option PyStr × W}
    (hvalue : referenceMapped tools config root results path output = some value) :
    referenceMapped tools config root results' path output = some value := by
  unfold referenceMapped at hvalue ⊢
  split
  · rename_i hskipped
    rwa [if_pos hskipped] at hvalue
  · rename_i hskipped
    rw [if_neg hskipped] at hvalue
    obtain ⟨found, hfound, rfl⟩ := Option.map_eq_some_iff.mp hvalue
    exact Option.map_eq_some_iff.mpr ⟨found, InputSource.value?_mono h hfound, rfl⟩

/-- A larger bound on the depth does not change a result of the reference evaluation. -/
theorem referenceResult_mono {depth : ℕ} {path : List PyStr} {result : List (Option PyStr × W)}
    (h : referenceResult tools config data root depth path = some result) :
    referenceResult tools config data root (depth + 1) path = some result := by
  induction depth generalizing path result with
  | zero => cases h
  | succ depth ih =>
    rw [referenceResult] at h ⊢
    split at h
    · obtain ⟨computation, hload, hresult⟩ := Option.bind_eq_some_iff.mp h
      refine Option.bind_eq_some_iff.mpr ⟨computation, hload, ?_⟩
      unfold componentResult at hresult ⊢
      split at hresult
      · rename_i hparams
        rw [if_pos hparams]
        obtain ⟨values, hvalues, hresult⟩ := Option.bind_eq_some_iff.mp hresult
        exact Option.bind_eq_some_iff.mpr
          ⟨values, mapM_mono (fun _ _ => sourceOutput_mono fun _ _ => ih) hvalues, hresult⟩
      · cases hresult
    · split at h
      · rename_i hinputs
        rw [if_pos hinputs]
        exact mapM_mono (fun _ _ => referenceMapped_mono fun _ _ => ih) h
      · cases h
    · cases h

/-- A larger bound on the depth does not change results of the reference evaluation. -/
theorem referenceResult_le {depth more : ℕ} (hle : depth ≤ more) {path : List PyStr}
    {result : List (Option PyStr × W)}
    (h : referenceResult tools config data root depth path = some result) :
    referenceResult tools config data root more path = some result := by
  induction hle with
  | refl => exact h
  | step _ ih => exact referenceResult_mono ih

/-- Values which are found with some depths are found with a common one. -/
theorem exists_mapM_of_depths {A B : Type} {f : ℕ → A → Option B}
    (hmono : ∀ n m, n ≤ m → ∀ a b, f n a = some b → f m a = some b) {as : List A}
    (h : ∀ a ∈ as, ∃ n b, f n a = some b) : ∃ n bs, as.mapM (f n) = some bs := by
  induction as with
  | nil => exact ⟨0, [], rfl⟩
  | cons a rest ih =>
    obtain ⟨⟨n, b, hfirst⟩, hrest⟩ := List.forall_mem_cons.mp h
    obtain ⟨m, bs, hbs⟩ := ih hrest
    obtain ⟨depth, hdepth⟩ := mapM_cons_of_depths hmono ⟨n, hfirst⟩ ⟨m, hbs⟩
    exact ⟨depth, b :: bs, hdepth⟩

end Depths

/-! ## Evaluating all nodes -/

section Evaluating

variable {V W X : Type} {tools : ParsingTools V W X} {config : EngineConfig W}
  {data : PyStr → Option W} {root : SubNode V}

/-- Provided inputs have sources. -/
theorem isSome_of_mem_providedInputs {path : List PyStr} {name : PyStr}
    (h : name ∈ providedInputs tools data root path) :
    (inputSource tools data root path name).isSome := by
  cases path with
  | nil => cases h
  | cons id path =>
    rw [providedInputs] at h
    split at h
    · exact (List.mem_filter.mp h).2
    · cases h

/-- The entries of a result of a workflow have the names of its outputs. -/
theorem key_of_referenceMapped {results : List PyStr → Option (List (Option PyStr × W))}
    {path : List PyStr} {output : WorkflowOutput} {value : Option PyStr × W}
    (h : referenceMapped tools config root results path output = some value) :
    value.1 = some output.name := by
  unfold referenceMapped at h
  split at h
  · rw [← Option.some.inj h]
  · obtain ⟨found, -, rfl⟩ := Option.map_eq_some_iff.mp h
    rfl

/-- A result of a workflow has its outputs. -/
theorem map_fst_of_referenceResult {path : List PyStr} {node : WorkflowNodeData V}
    {subNodes : List (SubNode V)} (hnode : root.nodeAt path = some (.workflow node subNodes))
    {depth : ℕ} {result : List (Option PyStr × W)}
    (h : referenceResult tools config data root depth path = some result) :
    result.map Prod.fst = node.outputs.map fun output => some output.name := by
  cases depth with
  | zero => cases h
  | succ depth =>
    rw [referenceResult_workflow hnode] at h
    split at h
    · exact map_fst_of_mapM (fun output value hvalue => key_of_referenceMapped hvalue) h
    · cases h

/-- A component evaluates if the sources of its inputs do. -/
theorem Runnable.evaluates_component (h : Runnable tools data root) {path : List PyStr}
    {component : ComponentNode} (hnode : root.nodeAt path = some (.component component))
    (hsources : SourcesEvaluate tools config data root path) :
    Evaluates tools config data root path (.component component) := by
  obtain ⟨computation, hload, hparams, hfunc⟩ := h.runs path component hnode
  have hvalues : ∀ key ∈ (providedInputs tools data root path).map some, ∃ depth value,
      sourceOutput tools data root (referenceResult tools config data root depth) path key =
        some value := by
    intro key hkey
    obtain ⟨name, hname, rfl⟩ := List.mem_map.mp hkey
    obtain ⟨source, hsource⟩ :=
      Option.isSome_iff_exists.mp (isSome_of_mem_providedInputs hname)
    obtain ⟨depth, value, hvalue⟩ := hsources name source hsource
    exact ⟨depth, (some name, value), by
      rw [sourceOutput, Option.bind_some, hsource, Option.bind_some, hvalue]
      rfl⟩
  obtain ⟨depth, values, hmapM⟩ := exists_mapM_of_depths
    (f := fun depth => sourceOutput tools data root (referenceResult tools config data root depth)
      path) (fun n m hle key value => sourceOutput_mono fun _ _ => referenceResult_le hle) hvalues
  have hnames := map_fst_of_mapM (fun key value hvalue => key_of_sourceOutput hvalue) hmapM
  rw [List.map_id'] at hnames
  obtain ⟨result, hresult⟩ := hfunc values (by rw [hnames]; exact hparams)
  refine ⟨depth + 1, result, ?_, fun name hreturns =>
    hreturns computation hload values result hresult⟩
  rw [referenceResult_component hnode hload, componentResult, hmapM, Option.bind_some, hresult,
    if_pos (List.all_eq_true.mpr fun param hparam => decide_eq_true (hparams hparam))]
  rfl

/-- A workflow evaluates if its sub nodes do. -/
theorem Runnable.evaluates_workflow (h : Runnable tools data root) {path : List PyStr}
    {node : WorkflowNodeData V} {subNodes : List (SubNode V)}
    (hnode : root.nodeAt path = some (.workflow node subNodes))
    (hsubNodes : ∀ id subNode, lookup SubNode.id id subNodes = some subNode →
      Evaluates tools config data root (id :: path) subNode) :
    Evaluates tools config data root path (.workflow node subNodes) := by
  have hvalues : ∀ output ∈ node.outputs, ∃ depth value,
      referenceMapped tools config root (referenceResult tools config data root depth) path output =
        some value := by
    intro output houtput
    obtain ⟨source, hsource, hreturns⟩ := h.mapped path node subNodes hnode output houtput
    obtain ⟨depth, result, hresult, houtputs⟩ := hsubNodes _ source hsource
    obtain ⟨value, hvalue⟩ := Option.isSome_iff_exists.mp (houtputs _ hreturns)
    refine ⟨depth, ?_⟩
    rw [referenceMapped]
    split
    · exact ⟨_, rfl⟩
    · rw [InputSource.value?, hresult, Option.bind_some, hvalue]
      exact ⟨_, rfl⟩
  obtain ⟨depth, result, hmapM⟩ := exists_mapM_of_depths
    (f := fun depth => referenceMapped tools config root
      (referenceResult tools config data root depth) path)
    (fun n m hle output value => referenceMapped_mono fun _ _ => referenceResult_le hle) hvalues
  have hresult : referenceResult tools config data root (depth + 1) path = some result := by
    rw [referenceResult_workflow hnode, if_pos, hmapM]
    refine List.all_eq_true.mpr fun input hinput => ?_
    obtain ⟨name, hname, hsource⟩ := h.inputs path node subNodes hnode input hinput
    rw [hname]
    exact hsource
  refine ⟨depth + 1, result, hresult, fun name hname => ?_⟩
  rw [Option.isSome_iff_ne_none, Ne, lookup_eq_none_iff_notMem, not_not,
    map_fst_of_referenceResult hnode hresult]
  obtain ⟨output, houtput, rfl⟩ := List.mem_map.mp hname
  exact List.mem_map.mpr ⟨output, houtput, rfl⟩

/-- The sources of the inputs of a sub node evaluate, if those of the workflow do and the nodes with
connections to it evaluate. -/
theorem Runnable.sourcesEvaluate (h : Runnable tools data root) {path : List PyStr}
    {node : WorkflowNodeData V} {subNodes : List (SubNode V)}
    (hnode : root.nodeAt path = some (.workflow node subNodes))
    (hsources : SourcesEvaluate tools config data root path) {id : PyStr}
    (hearlier : ∀ connection ∈ node.connections, connection.outputInWorkflowId = id →
      ∀ source, lookup SubNode.id connection.inputInWorkflowId subNodes = some source →
        Evaluates tools config data root (connection.inputInWorkflowId :: path) source) :
    SourcesEvaluate tools config data root (id :: path) := by
  intro name source hsource
  rw [inputSource, hnode] at hsource
  dsimp only at hsource
  cases hlink : node.linkTo id name with
  | some connection =>
    rw [hlink] at hsource
    obtain rfl := Option.some.inj hsource
    obtain ⟨hmem, htarget⟩ := lookup_eq_some hlink
    obtain ⟨hid, -⟩ := Prod.mk.inj htarget
    obtain ⟨other, hother, hreturns⟩ := h.connected path node subNodes hnode connection hmem
    obtain ⟨depth, result, hresult, houtputs⟩ := hearlier connection hmem hid other hother
    obtain ⟨value, hvalue⟩ := Option.isSome_iff_exists.mp (houtputs _ hreturns)
    exact ⟨depth, value, Option.bind_eq_some_iff.mpr ⟨result, hresult, hvalue⟩⟩
  | none =>
    rw [hlink] at hsource
    rcases Option.or_eq_some_iff.mp hsource with hmapped | ⟨-, hown⟩
    · obtain ⟨outer, -, houter⟩ := Option.bind_eq_some_iff.mp hmapped
      exact hsources outer source houter
    · obtain ⟨value, -, rfl⟩ := Option.map_eq_some_iff.mp hown
      exact ⟨0, value, rfl⟩

/-- A sub node has fewer objects than its workflow. -/
theorem SubNode.size_lt {node : WorkflowNodeData V} {subNodes : List (SubNode V)}
    {subNode : SubNode V} (h : subNode ∈ subNodes) :
    subNode.size < (SubNode.workflow node subNodes).size := by
  rw [← map_snd_starts 0 subNodes] at h
  obtain ⟨entry, hentry, rfl⟩ := List.mem_map.mp h
  have hrange := mem_starts_range hentry
  rw [SubNode.size]
  omega

/-- Nodes inside a node are found together with it. -/
theorem exists_nodeAt_of_append {path inner : List PyStr} {innerNode : SubNode V}
    (h : root.nodeAt (inner ++ path) = some innerNode) :
    ∃ subNode, root.nodeAt path = some subNode := by
  induction inner generalizing innerNode with
  | nil => exact ⟨innerNode, h⟩
  | cons id inner ih =>
    obtain ⟨parent, hparent, -⟩ := Option.bind_eq_some_iff.mp h
    exact ih hparent

/-- A node inside a workflow is inside one of its sub nodes. -/
theorem exists_subNode_of_nodeAt {path inner : List PyStr} {subNode innerNode : SubNode V}
    (hnode : root.nodeAt path = some subNode) (hne : inner ≠ [])
    (hinner : root.nodeAt (inner ++ path) = some innerNode) :
    ∃ front id sub, inner ++ path = front ++ id :: path ∧
      lookup SubNode.id id subNode.subNodes = some sub ∧ root.nodeAt (id :: path) = some sub := by
  obtain ⟨front, id, rfl⟩ : ∃ front id, inner = front ++ [id] :=
    ⟨_, _, (List.dropLast_append_getLast hne).symm⟩
  have hsplit : front ++ [id] ++ path = front ++ id :: path := by simp
  rw [hsplit] at hinner
  obtain ⟨sub, hsub⟩ := exists_nodeAt_of_append hinner
  refine ⟨front, id, sub, hsplit, ?_, hsub⟩
  rw [SubNode.nodeAt, hnode, Option.bind_some] at hsub
  exact hsub

/-- All nodes inside a workflow evaluate, if the sources of its inputs do. The first induction is on
the size of the node, the second one along the connections of its level. -/
theorem Runnable.evaluates (h : Runnable tools data root) {path : List PyStr} {subNode : SubNode V}
    (hnode : root.nodeAt path = some subNode)
    (hsources : SourcesEvaluate tools config data root path) {inner : List PyStr}
    {innerNode : SubNode V} (hinner : root.nodeAt (inner ++ path) = some innerNode) :
    Evaluates tools config data root (inner ++ path) innerNode := by
  induction hsize : subNode.size using Nat.strong_induction_on
    generalizing path subNode inner innerNode with
  | _ size ih =>
    cases subNode with
    | component component =>
      by_cases hne : inner = []
      · subst hne
        obtain rfl := Option.some.inj (hnode.symm.trans hinner)
        exact h.evaluates_component hnode hsources
      · obtain ⟨front, id, sub, -, hsub, -⟩ := exists_subNode_of_nodeAt hnode hne hinner
        cases hsub
    | workflow node subNodes =>
      have hinside : ∀ id sub, lookup SubNode.id id subNodes = some sub → ∀ front frontNode,
          root.nodeAt (front ++ id :: path) = some frontNode →
            Evaluates tools config data root (front ++ id :: path) frontNode := by
        intro id
        induction id using (h.acyclic path node subNodes hnode).wellFounded.induction with
        | _ id ihid =>
          intro sub hsub front frontNode hfront
          have hat : root.nodeAt (id :: path) = some sub := by
            rw [SubNode.nodeAt, hnode]
            exact hsub
          refine ih sub.size (hsize ▸ SubNode.size_lt (lookup_eq_some hsub).1) hat
            (h.sourcesEvaluate hnode hsources fun connection hconnection hid source hsource => ?_)
            hfront rfl
          have hsourceAt : root.nodeAt (connection.inputInWorkflowId :: path) = some source := by
            rw [SubNode.nodeAt, hnode]
            exact hsource
          exact ihid connection.inputInWorkflowId
            (.single (List.mem_map.mpr ⟨connection, hconnection, by rw [hid]⟩)) source hsource []
            source hsourceAt
      by_cases hne : inner = []
      · subst hne
        obtain rfl := Option.some.inj (hnode.symm.trans hinner)
        refine h.evaluates_workflow hnode fun id sub hsub => ?_
        refine hinside id sub hsub [] sub ?_
        rw [List.nil_append, SubNode.nodeAt, hnode]
        exact hsub
      · obtain ⟨front, id, sub, hsplit, hsub, -⟩ := exists_subNode_of_nodeAt hnode hne hinner
        rw [hsplit] at hinner ⊢
        exact hinside id sub hsub front innerNode hinner

/-- All nodes of a nesting evaluate. -/
theorem Runnable.evaluates_all (h : Runnable tools data root) {path : List PyStr}
    {subNode : SubNode V} (hnode : root.nodeAt path = some subNode) :
    Evaluates tools config data root path subNode := by
  have hroot : SourcesEvaluate tools config data root [] := by
    intro name source hsource
    obtain ⟨value, -, rfl⟩ := Option.map_eq_some_iff.mp hsource
    exact ⟨0, value, rfl⟩
  have hinner : root.nodeAt (path ++ []) = some subNode := by rwa [List.append_nil]
  simpa using h.evaluates rfl hroot hinner

end Evaluating

/-! ## Completion -/

section Main

variable {V W X J E : Type} {tools : ParsingTools V W X} {loading : LoadingTools J W E}
  {config : EngineConfig W} {node : WorkflowNodeData V} {subNodes : List (SubNode V)}

/-- Prepared objects of a runnable workflow are executed with a value for each output, and after it
the results of all components which are requested in any case are kept. -/
theorem completes_of_prepared (hwf : (SubNode.workflow node subNodes).WellFormed)
    (hkeyword : KeywordArguments tools) {data : PyStr → Option W} {objects : EngineObjects W X}
    (hobjects : Prepared tools data (.workflow node subNodes) objects)
    (hrunnable : Runnable tools data (.workflow node subNodes)) :
    ∃ fuel result state, executeWorkflow config objects fuel
        ((SubNode.workflow node subNodes).position 0) = some (.ok (result, state)) ∧
      result.map Prod.fst = node.outputs.map (fun output => some output.name) ∧
      ∀ path start component, Located (.workflow node subNodes) path (start, .component component) →
        Requested config tools (.workflow node subNodes) path →
          ∃ result', state.cachedResult start = some result' := by
  obtain ⟨depth, result, hresult, -⟩ :=
    @Runnable.evaluates_all V W X tools config _ _ hrunnable [] _ rfl
  have hcomponents : ∀ path, Requested config tools (.workflow node subNodes) path →
      ∃ depth result', referenceResult tools config data (.workflow node subNodes) depth
        path = some result' := by
    rintro path ⟨component, hcomponent, -⟩
    obtain ⟨depth, found, hfound, -⟩ := hrunnable.evaluates_all hcomponent
    exact ⟨depth, found, hfound⟩
  obtain ⟨fuel, state, hreturned⟩ :=
    exists_executeWorkflow hwf hkeyword hobjects ⟨depth, hresult⟩ hcomponents
  refine ⟨fuel, result, state, hreturned, map_fst_of_referenceResult rfl hresult,
    fun path start component hlocated hrun => ?_⟩
  obtain ⟨-, hkept⟩ := referenceResult_of_executeWorkflow hwf hkeyword hobjects hreturned
  obtain ⟨depth, found, -, hfound⟩ := hkept path _ component hlocated rfl hrun
  exact ⟨found, hfound⟩

/-- The runtime service completes with a value for each output of a runnable workflow, and after it
the results of all components which are requested in any case are kept. -/
theorem executeWorkflow_completes (hwf : (SubNode.workflow node subNodes).WellFormed)
    (hkeyword : KeywordArguments tools) {wiring : WorkflowWiring (WiringData J)} {parsedWf : ℕ}
    {objects : EngineObjects W X}
    (hprepared : prepareWorkflow tools loading (.workflow node subNodes) wiring =
      .ok (parsedWf, objects))
    {data : List (PyStr × W) × List (PyStr × W)}
    (hdata : loadedData tools loading (.workflow node subNodes) wiring = .ok data)
    (hrunnable : Runnable tools (dataOf data) (.workflow node subNodes)) :
    ∃ fuel result state, executeWorkflow config objects fuel parsedWf = some (.ok (result, state)) ∧
      result.map Prod.fst = node.outputs.map (fun output => some output.name) ∧
      ∀ path start component, Located (.workflow node subNodes) path (start, .component component) →
        Requested config tools (.workflow node subNodes) path →
          ∃ result', state.cachedResult start = some result' := by
  obtain ⟨data', hdata', rfl, hobjects⟩ := prepared_of_prepareWorkflow hwf hprepared
  obtain rfl := Except.ok.inj (hdata.symm.trans hdata')
  exact completes_of_prepared hwf hkeyword hobjects hrunnable

end Main

/-! ## Sums -/

/-- The workflows of `outerSum`. -/
theorem outerSum_workflows {path : List PyStr} {node : WorkflowNodeData ℕ}
    {subNodes : List (SubNode ℕ)}
    (h : outerSum.nodeAt path = some (.workflow node subNodes)) :
    (path = [] ∧ SubNode.workflow node subNodes = outerSum) ∨
      (path = [['w']] ∧ SubNode.workflow node subNodes = innerSum) := by
  obtain ⟨start, hlocated⟩ := exists_located_of_nodeAt h
  rcases located_outerSum hlocated with heq | heq | heq | heq <;> cases heq
  · exact Or.inl ⟨rfl, rfl⟩
  · exact Or.inr ⟨rfl, rfl⟩

/-- The workflow is runnable with a value for its input. -/
theorem outerSum_runnable : Runnable sumTools (dataOf ([(['x'], 3)], [])) outerSum where
  acyclic := by
    intro path node subNodes hnode vertex hcycle
    obtain ⟨tail, htail⟩ := EdgeList.exists_edge_from_of_transGen hcycle
    obtain ⟨head, hhead⟩ := EdgeList.exists_edge_to_of_transGen hcycle
    rcases outerSum_workflows hnode with ⟨-, heq⟩ | ⟨-, heq⟩ <;> cases heq
    · obtain ⟨rfl, -⟩ := Prod.mk.inj (List.mem_singleton.mp htail)
      obtain ⟨-, heq⟩ := Prod.mk.inj (List.mem_singleton.mp hhead)
      exact absurd heq (by decide)
    · cases htail
  connected := by
    intro path node subNodes hnode connection hconnection
    rcases outerSum_workflows hnode with ⟨-, heq⟩ | ⟨-, heq⟩ <;> cases heq
    · obtain rfl := List.mem_singleton.mp hconnection
      exact ⟨innerSum, rfl, List.mem_cons_self⟩
    · cases hconnection
  mapped := by
    intro path node subNodes hnode output houtput
    rcases outerSum_workflows hnode with ⟨-, heq⟩ | ⟨-, heq⟩ <;> cases heq <;>
      obtain rfl := List.mem_singleton.mp houtput
    · refine ⟨_, rfl, fun computation hload values result hresult => ?_⟩
      obtain rfl := Option.some.inj hload
      rw [← Except.ok.inj hresult]
      rfl
    · refine ⟨_, rfl, fun computation hload values result hresult => ?_⟩
      obtain rfl := Option.some.inj hload
      rw [← Except.ok.inj hresult]
      rfl
  inputs := by
    intro path node subNodes hnode input hinput
    rcases outerSum_workflows hnode with ⟨rfl, heq⟩ | ⟨rfl, heq⟩ <;> cases heq
    · obtain rfl := List.mem_singleton.mp hinput
      exact ⟨['x'], rfl, by decide +kernel⟩
    · rcases List.mem_pair.mp hinput with rfl | rfl
      · exact ⟨['x'], rfl, by decide +kernel⟩
      · exact ⟨['k'], rfl, by decide +kernel⟩
  runs := by
    intro path component hnode
    refine ⟨_, rfl, ?_, fun values _ => ⟨_, rfl⟩⟩
    obtain ⟨start, hlocated⟩ := exists_located_of_nodeAt hnode
    rcases located_outerSum hlocated with heq | heq | heq | heq <;> cases heq <;> decide +kernel

/-- Instance of `executeWorkflow_completes`. -/
theorem outerSum_completes : ∃ parsedWf objects,
    prepareWorkflow sumTools threeLoading outerSum sumWiring = .ok (parsedWf, objects) ∧
      ∃ fuel result state, executeWorkflow ⟨true, 0⟩ objects fuel parsedWf =
          some (.ok (result, state)) ∧ result.map Prod.fst = [some ['z']] := by
  obtain ⟨parsedWf, objects, hprepared⟩ : ∃ parsedWf objects,
      prepareWorkflow sumTools threeLoading outerSum sumWiring = .ok (parsedWf, objects) :=
    ⟨_, _, rfl⟩
  have hloaded : loadedData sumTools threeLoading outerSum sumWiring =
      .ok ([(['x'], 3)], []) := rfl
  obtain ⟨fuel, result, state, hreturned, hnames, -⟩ := executeWorkflow_completes
    outerSum_wellFormed sumTools_keywordArguments hprepared hloaded outerSum_runnable
  exact ⟨parsedWf, objects, hprepared, fuel, result, state, hreturned, hnames⟩

end HetidaDesigner
