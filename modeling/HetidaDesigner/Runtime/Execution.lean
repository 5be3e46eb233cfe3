import HetidaDesigner.Runtime.Denotation

/-!
# Executing a workflow in the runtime service

The runtime service requests the result of the parsed workflow and then the result of each
computation node inside, so that every node is run. It returns exactly if the workflow and each
component inside have a result in the reference evaluation, and then it returns that of the
workflow.
-/

namespace HetidaDesigner

open Checks KeyedList Demands

attribute [local instance] nameBEq

section Definitions

variable {W X : Type} (nodes : List (EngineNode (Option PyStr) W X)) (config : EngineConfig W)

/-- `obtain_all_nodes`, with a bound on the levels of workflows inside each other. -/
def obtainAllNodes (subNodes : ℕ → List ℕ) : ℕ → ℕ → Option (List ℕ)
  | 0, _ => none
  | levels + 1, wf => ((subNodes wf).mapM fun node =>
      if isComputation nodes node then some [node] else obtainAllNodes subNodes levels node).map
        List.flatten

/-- Whether an object is left out when the results of all nodes are requested. -/
def isLeftOut (node : ℕ) : Bool :=
  nodes[node]?.any EngineNode.hasOnlyPlotOutputs && !config.runPurePlotOperators

/-- The loop which makes sure that the result of every computation node is requested at least
once. -/
def requestAll (fuel : ℕ) : List ℕ → EngineState (Option PyStr) W →
    Option (Except (Interruption (EngineError X)) (EngineState (Option PyStr) W))
  | [], state => some (.ok state)
  | node :: rest, state =>
    if isLeftOut nodes config node then requestAll fuel rest state
    else match nodeResult nodes config fuel node state with
      | none => none
      | some (.error interruption) => some (.error interruption)
      | some (.ok (_, state)) => requestAll fuel rest state

/-- The stage `EXECUTING_COMPONENT_CODE` of `runtime_service`, for a parsed workflow. -/
def executeWorkflow (objects : EngineObjects W X) (fuel parsedWf : ℕ) :
    Option (Except (Interruption (EngineError X))
      (List (Option PyStr × W) × EngineState (Option PyStr) W)) :=
  match obtainAllNodes objects.nodes objects.subNodes fuel parsedWf with
  | none => none
  | some allNodes =>
    match nodeResult objects.nodes config fuel parsedWf (freshState W objects.inputs) with
    | none => none
    | some (.error interruption) => some (.error interruption)
    | some (.ok (workflowResult, state)) =>
      (requestAll objects.nodes config fuel allNodes state).map fun requested =>
        requested.map fun state => (workflowResult, state)

/-- A component at a path whose result is requested in any case. -/
def Requested {V : Type} (tools : ParsingTools V W X) (root : SubNode V) (path : List PyStr) : Prop :=
  ∃ component, root.nodeAt path = some (.component component) ∧
    ((SubNode.component component : SubNode V).hasOnlyPlotOutputs tools &&
      !config.runPurePlotOperators) = false

end Definitions

/-! ## Requesting results -/

section Requests

variable {W X : Type} {nodes : List (EngineNode (Option PyStr) W X)} {config : EngineConfig W}
  {inputs : EngineInputs (Option PyStr)} {before : ℕ → Option (List (Option PyStr × W))}
  {state state' : EngineState (Option PyStr) W}

/-- More fuel does not change what the loop returns. -/
theorem requestAll_mono {fuel more : ℕ} (hmore : fuel ≤ more) {all : List ℕ}
    {outcome : Except (Interruption (EngineError X)) (EngineState (Option PyStr) W)}
    (h : requestAll nodes config fuel all state = some outcome) :
    requestAll nodes config more all state = some outcome := by
  induction all generalizing state with
  | nil => exact h
  | cons node rest ih =>
    rw [requestAll] at h ⊢
    split
    · rename_i hleft
      rw [if_pos hleft] at h
      exact ih h
    · rename_i hleft
      rw [if_neg hleft] at h
      cases hresult : nodeResult nodes config fuel node state with
      | none => rw [hresult] at h; cases h
      | some result =>
        rw [hresult] at h
        rw [nodeResult] at hresult ⊢
        rw [System.evaluate_mono hmore hresult]
        cases result with
        | error interruption => exact h
        | ok result => exact ih h

/-- After the loop, the results of all nodes which are not left out are kept, and they are those of
the recursion. -/
theorem PlainInvariant.of_requestAll (hstate : PlainInvariant nodes config inputs before [] state)
    (h : Constructed nodes inputs) (hsettled : SettledInputs nodes inputs) {fuel : ℕ} {all : List ℕ}
    (hreturned : requestAll nodes config fuel all state = some (.ok state')) :
    PlainInvariant nodes config inputs state.cachedResult [] state' ∧
      ∀ node ∈ all, isLeftOut nodes config node = false → ∃ result,
        state'.cachedResult node = some result := by
  induction all generalizing state before with
  | nil =>
    obtain rfl := Except.ok.inj (Option.some.inj hreturned)
    exact ⟨⟨hstate.invariant, hstate.inputs_eq, hstate.kept, fun _ _ => id⟩,
      fun _ hnode => absurd hnode List.not_mem_nil⟩
  | cons node rest ih =>
    rw [requestAll] at hreturned
    split at hreturned
    · rename_i hleft
      obtain ⟨hstate', hrest⟩ := ih hstate hreturned
      refine ⟨hstate', List.forall_mem_cons.mpr ⟨fun hnot => ?_, hrest⟩⟩
      rw [hleft] at hnot
      cases hnot
    · split at hreturned
      · cases hreturned
      · cases hreturned
      · rename_i result between hresult
        obtain ⟨-, hbetween, hkept⟩ := hstate.of_nodeResult h hsettled hresult
        obtain ⟨hstate', hrest⟩ := ih hbetween hreturned
        refine ⟨⟨hstate'.invariant, hstate'.inputs_eq, hstate'.kept, fun other found hfound =>
          hstate'.before other found (hbetween.before other found hfound)⟩,
            List.forall_mem_cons.mpr ⟨fun _ => ?_, hrest⟩⟩
        exact ⟨result, hstate'.before node result hkept⟩

/-- The loop returns if all nodes which are not left out have results by recursion. -/
theorem PlainInvariant.exists_requestAll
    (hstate : PlainInvariant nodes config inputs before [] state) (h : Constructed nodes inputs)
    (hsettled : SettledInputs nodes inputs) {all : List ℕ}
    (hresults : ∀ node ∈ all, isLeftOut nodes config node = false →
      ∃ result depth, plainResult nodes config inputs depth node = some result) :
    ∃ fuel state', requestAll nodes config fuel all state = some (.ok state') := by
  induction all generalizing state before with
  | nil => exact ⟨0, state, rfl⟩
  | cons node rest ih =>
    obtain ⟨hnode, hrest⟩ := List.forall_mem_cons.mp hresults
    cases hleft : isLeftOut nodes config node with
    | true =>
      obtain ⟨fuel, state', hreturned⟩ := ih hstate hrest
      exact ⟨fuel, state', by rw [requestAll, hleft, if_pos rfl, hreturned]⟩
    | false =>
      obtain ⟨result, depth, hresult⟩ := hnode hleft
      obtain ⟨fuel, between, hreturned⟩ := hstate.exists_nodeResult h hsettled hresult
      obtain ⟨-, hbetween, -⟩ := hstate.of_nodeResult h hsettled hreturned
      obtain ⟨fuel', state', hloop⟩ := ih hbetween hrest
      refine ⟨max fuel fuel', state', ?_⟩
      rw [nodeResult] at hreturned
      rw [requestAll, hleft, if_neg Bool.false_ne_true, nodeResult,
        System.evaluate_mono (le_max_left _ _) hreturned]
      exact requestAll_mono (le_max_right _ _) hloop

end Requests

/-! ## Obtaining all nodes -/

section AllNodes

variable {V W X : Type} {tools : ParsingTools V W X} {data : PyStr → Option W} {root : SubNode V}
  {objects : EngineObjects W X}

/-- Values which are collected and joined have a property, if all of them have. -/
theorem exists_mapM_flatten {A B : Type} {f : A → Option (List B)} {P : B → Prop} {as : List A}
    (h : ∀ a ∈ as, ∃ bs, f a = some bs ∧ ∀ b ∈ bs, P b) :
    ∃ all, (as.mapM f).map List.flatten = some all ∧ ∀ b ∈ all, P b := by
  induction as with
  | nil => exact ⟨[], rfl, fun _ hb => absurd hb List.not_mem_nil⟩
  | cons a rest ih =>
    obtain ⟨⟨bs, hbs, hfirst⟩, hrest⟩ := List.forall_mem_cons.mp h
    obtain ⟨all, hall, hothers⟩ := ih hrest
    obtain ⟨parts, hparts, rfl⟩ := Option.map_eq_some_iff.mp hall
    refine ⟨bs ++ parts.flatten, ?_, fun b hb =>
      (List.mem_append.mp hb).elim (hfirst b) (hothers b)⟩
    rw [List.mapM_cons, hbs, hparts]
    rfl

/-- Values which are collected and joined contain each of them. -/
theorem subset_of_mapM_flatten {A B : Type} {f : A → Option (List B)} {as : List A} {all : List B}
    (h : (as.mapM f).map List.flatten = some all) {a : A} (ha : a ∈ as) :
    ∃ bs, f a = some bs ∧ bs ⊆ all := by
  induction as generalizing all with
  | nil => cases ha
  | cons first rest ih =>
    obtain ⟨parts, hparts, rfl⟩ := Option.map_eq_some_iff.mp h
    rw [List.mapM_cons] at hparts
    obtain ⟨bs, hbs, hparts⟩ := Option.bind_eq_some_iff.mp hparts
    obtain ⟨others, hothers, hparts⟩ := Option.bind_eq_some_iff.mp hparts
    obtain rfl := Option.some.inj hparts
    rcases List.mem_cons.mp ha with rfl | ha
    · exact ⟨bs, hbs, List.subset_append_left _ _⟩
    · obtain ⟨bs', hbs', hsubset⟩ := ih (by rw [hothers]; rfl) ha
      exact ⟨bs', hbs', List.Subset.trans hsubset (List.subset_append_right _ _)⟩

/-- More levels do not change which nodes are obtained. -/
theorem obtainAllNodes_mono {nodes : List (EngineNode (Option PyStr) W X)}
    {subNodes : ℕ → List ℕ} {levels more : ℕ} (hmore : levels ≤ more) {wf : ℕ} {all : List ℕ}
    (h : obtainAllNodes nodes subNodes levels wf = some all) :
    obtainAllNodes nodes subNodes more wf = some all := by
  induction levels generalizing more wf all with
  | zero => cases h
  | succ levels ih =>
    obtain ⟨more, rfl⟩ := Nat.exists_eq_add_of_lt hmore
    obtain ⟨parts, hparts, rfl⟩ := Option.map_eq_some_iff.mp h
    rw [obtainAllNodes, Option.map_eq_some_iff]
    refine ⟨parts, mapM_mono (fun node part hpart => ?_) hparts, rfl⟩
    split
    · rename_i hkind
      rwa [if_pos hkind] at hpart
    · rename_i hkind
      rw [if_neg hkind] at hpart
      exact ih (Nat.le_add_right _ _) hpart

/-- The object of a component is a computation node. -/
theorem isComputation_component (hplaced : root.Placed tools objects.nodes 0) {path : List PyStr}
    {entry : ℕ × SubNode V} (h : Located root path entry) {component : ComponentNode}
    (hcomponent : entry.2 = .component component) :
    isComputation objects.nodes (objectOf entry) = true := by
  obtain ⟨computation, -, hobject⟩ :=
    exists_component_of_placed (h.everywhere hplaced) hcomponent
  rw [isComputation, hobject]

/-- The object of a workflow is none. -/
theorem isComputation_workflow (hplaced : root.Placed tools objects.nodes 0) {path : List PyStr}
    {start : ℕ} {node : WorkflowNodeData V} {subNodes : List (SubNode V)}
    (h : Located root path (start, .workflow node subNodes)) :
    isComputation objects.nodes (start + sizeAll subNodes) = false := by
  obtain ⟨⟨-, workflow, hobject, -⟩, -⟩ := h.everywhere hplaced
  rw [isComputation, hobject]

/-- All nodes which are obtained belong to components inside, or provide constants. -/
theorem Prepared.exists_obtainAllNodes (hprepared : Prepared tools data root objects)
    {levels : ℕ} {path : List PyStr} {start : ℕ} {node : WorkflowNodeData V}
    {subNodes : List (SubNode V)} (h : Located root path (start, .workflow node subNodes))
    (hlevels : start + sizeAll subNodes < levels) :
    ∃ all, obtainAllNodes objects.nodes objects.subNodes levels (start + sizeAll subNodes) =
        some all ∧
      ∀ object ∈ all, (∃ path entry component, Located root path entry ∧
          entry.2 = .component component ∧ objectOf entry = object) ∨
        IsProvider objects.nodes object ∧ objects.inputs object = [] := by
  induction levels generalizing path start node subNodes with
  | zero => cases hlevels
  | succ levels ih =>
    obtain ⟨others, hsubNodes, hothers⟩ := hprepared.contains path start node subNodes h
    rw [obtainAllNodes, hsubNodes]
    refine exists_mapM_flatten fun object hobject => ?_
    rcases List.mem_append.mp hobject with hobject | hobject
    · obtain ⟨position, hposition, rfl⟩ := List.mem_map.mp hobject
      obtain ⟨⟨lower, subNode⟩, hentry, rfl⟩ := List.mem_map.mp hposition
      have hlocated := h.sub hentry
      have hrange := mem_starts_range hentry
      cases subNode with
      | component component =>
        rw [if_pos (isComputation_component hprepared.placed hlocated rfl)]
        refine ⟨_, rfl, fun other hother => Or.inl ⟨_, _, component, hlocated, rfl, ?_⟩⟩
        exact (List.mem_singleton.mp hother).symm
      | workflow inner innerNodes =>
        have hkind := isComputation_workflow hprepared.placed hlocated
        rw [objectOf, SubNode.position, if_neg (by rw [hkind]; exact Bool.false_ne_true)]
        refine ih hlocated ?_
        rw [SubNode.size] at hrange
        dsimp only at hrange
        omega
    · obtain ⟨⟨values, hvalues⟩, hinputs⟩ := hothers object hobject
      have hkind : isComputation objects.nodes object = true := by rw [isComputation, hvalues]
      rw [if_pos hkind]
      refine ⟨_, rfl, fun other hother => Or.inr ?_⟩
      rw [List.mem_singleton.mp hother]
      exact ⟨⟨values, hvalues⟩, hinputs⟩

/-- The nodes which are obtained from a workflow inside are among those from the root, and those of
components inside are. -/
theorem Prepared.mem_obtainAllNodes (hprepared : Prepared tools data root objects) {levels : ℕ}
    {all : List ℕ}
    (hall : obtainAllNodes objects.nodes objects.subNodes levels (root.position 0) = some all)
    (hroot : ∀ component, root ≠ .component component) {path : List PyStr} {entry : ℕ × SubNode V}
    (h : Located root path entry) :
    (∀ component, entry.2 = .component component → objectOf entry ∈ all) ∧
      ∀ node subNodes, entry.2 = .workflow node subNodes → ∃ levels inner,
        obtainAllNodes objects.nodes objects.subNodes levels (objectOf entry) = some inner ∧
          inner ⊆ all := by
  induction h with
  | root =>
    exact ⟨fun component hcomponent => absurd hcomponent (hroot component),
      fun _ _ _ => ⟨levels, all, hall, List.Subset.refl all⟩⟩
  | @sub path start node subNodes hparent entry hentry ih =>
    obtain ⟨levels', inner, hinner, hsubset⟩ := ih.2 node subNodes rfl
    obtain ⟨others, hsubNodes, -⟩ := hprepared.contains path start node subNodes hparent
    have hmem : objectOf entry ∈ objects.subNodes (start + sizeAll subNodes) := by
      rw [hsubNodes]
      exact List.mem_append_left _ (List.mem_map.mpr
        ⟨(entry.2.id, objectOf entry), List.mem_map_of_mem hentry, rfl⟩)
    cases levels' with
    | zero => cases hinner
    | succ levels' =>
      obtain ⟨part, hpart, hpartSubset⟩ := subset_of_mapM_flatten hinner hmem
      constructor
      · intro component hcomponent
        rw [if_pos (isComputation_component hprepared.placed (hparent.sub hentry) hcomponent)]
          at hpart
        obtain rfl := Option.some.inj hpart
        exact hsubset (hpartSubset List.mem_cons_self)
      · intro inner' innerNodes hworkflow
        obtain ⟨lower, subNode⟩ := entry
        obtain rfl := hworkflow
        have hkind := isComputation_workflow hprepared.placed (hparent.sub hentry)
        rw [objectOf, SubNode.position, if_neg (by rw [hkind]; exact Bool.false_ne_true)] at hpart
        exact ⟨levels', part, hpart, List.Subset.trans hpartSubset hsubset⟩

/-- Each node which is found is located inside the nesting. -/
theorem exists_located_of_nodeAt {path : List PyStr} {subNode : SubNode V}
    (h : root.nodeAt path = some subNode) : ∃ start, Located root path (start, subNode) := by
  induction path generalizing subNode with
  | nil =>
    obtain rfl := Option.some.inj h
    exact ⟨0, .root⟩
  | cons id path ih =>
    obtain ⟨parent, hparent, hsub⟩ := Option.bind_eq_some_iff.mp h
    obtain ⟨start, hlocated⟩ := ih hparent
    obtain ⟨hmem, rfl⟩ := lookup_eq_some hsub
    cases parent with
    | component component => cases hmem
    | workflow node subNodes =>
      rw [SubNode.subNodes, ← map_snd_starts start subNodes] at hmem
      obtain ⟨entry, hentry, rfl⟩ := List.mem_map.mp hmem
      exact ⟨entry.1, hlocated.sub hentry⟩

/-- An object which provides constants has a result. -/
theorem exists_plainResult_provider {config : EngineConfig W} {object : ℕ}
    (hprovider : IsProvider objects.nodes object) (hinputs : objects.inputs object = []) :
    ∃ result depth, plainResult objects.nodes config objects.inputs depth object = some result := by
  obtain ⟨values, hvalues⟩ := hprovider
  refine ⟨values.map fun entry => (some entry.1, entry.2), 1, ?_⟩
  rw [plainResult, hvalues, hinputs]
  rfl

/-- An object is left out exactly if the result of its component is not requested in any case. -/
theorem isLeftOut_eq_false_iff {config : EngineConfig W} (hwf : root.WellFormed)
    (hplaced : root.Placed tools objects.nodes 0) {path : List PyStr} {entry : ℕ × SubNode V}
    (h : Located root path entry) {component : ComponentNode}
    (hcomponent : entry.2 = .component component) :
    isLeftOut objects.nodes config (objectOf entry) = false ↔ Requested config tools root path := by
  rw [isLeftOut, hasOnlyPlotOutputs_iff hplaced h, hcomponent, Requested, h.nodeAt hwf, hcomponent]
  constructor
  · exact fun hleft => ⟨component, rfl, hleft⟩
  · rintro ⟨component', heq, hleft⟩
    obtain rfl := SubNode.component.inj (Option.some.inj heq)
    exact hleft

end AllNodes

/-! ## The runtime service and the reference evaluation -/

section Main

variable {V W X J E : Type} {tools : ParsingTools V W X} {loading : LoadingTools J W E}
  {config : EngineConfig W} {node : WorkflowNodeData V} {subNodes : List (SubNode V)}

/-- What the execution returns comes from the reference evaluation, and the results of all components
which are requested in any case are kept. -/
theorem referenceResult_of_executeWorkflow (hwf : (SubNode.workflow node subNodes).WellFormed)
    (hkeyword : KeywordArguments tools) {data : PyStr → Option W} {objects : EngineObjects W X}
    (hprepared : Prepared tools data (.workflow node subNodes) objects) {fuel : ℕ}
    {result : List (Option PyStr × W)} {state : EngineState (Option PyStr) W}
    (hreturned : executeWorkflow config objects fuel
      ((SubNode.workflow node subNodes).position 0) = some (.ok (result, state))) :
    (∃ depth, referenceResult tools config data (.workflow node subNodes) depth [] =
        some result) ∧
      ∀ path entry component, Located (.workflow node subNodes) path entry →
        entry.2 = .component component → Requested config tools (.workflow node subNodes) path →
          ∃ depth result', referenceResult tools config data (.workflow node subNodes) depth path =
            some result' ∧ state.cachedResult (objectOf entry) = some result' := by
  have hroot : ∀ component, SubNode.workflow node subNodes ≠ .component component := nofun
  have hsettled := hprepared.settled hwf
  rw [executeWorkflow] at hreturned
  split at hreturned
  · cases hreturned
  · rename_i all hall
    split at hreturned
    · cases hreturned
    · cases hreturned
    · rename_i first between hfirst
      obtain ⟨requested, hrequested, hstate⟩ := Option.map_eq_some_iff.mp hreturned
      cases requested with
      | error interruption => cases hstate
      | ok last =>
        obtain ⟨rfl, rfl⟩ := Prod.mk.inj (Except.ok.inj hstate)
        obtain ⟨hresult, hbetween, -⟩ :=
          (plainInvariant_fresh hprepared.built).of_nodeResult hprepared.built hsettled hfirst
        obtain ⟨hlast, hkept⟩ := hbetween.of_requestAll hprepared.built hsettled hrequested
        refine ⟨(plainResult_iff_referenceResult hwf hkeyword hroot hprepared .root _).mp hresult,
          fun path entry component hlocated hcomponent hrun => ?_⟩
        have hmem := (hprepared.mem_obtainAllNodes hall hroot hlocated).1 component hcomponent
        obtain ⟨found, hfound⟩ := hkept _ hmem
          ((isLeftOut_eq_false_iff hwf hprepared.placed hlocated hcomponent).mpr hrun)
        obtain ⟨depth, hdepth⟩ := (plainResult_iff_referenceResult hwf hkeyword hroot hprepared
          hlocated found).mp (hlast.kept _ found hfound)
        exact ⟨depth, found, hdepth, hfound⟩

/-- The execution returns if the workflow and all components which are requested in any case have
results in the reference evaluation. -/
theorem exists_executeWorkflow (hwf : (SubNode.workflow node subNodes).WellFormed)
    (hkeyword : KeywordArguments tools) {data : PyStr → Option W} {objects : EngineObjects W X}
    (hprepared : Prepared tools data (.workflow node subNodes) objects)
    {result : List (Option PyStr × W)}
    (hresult : ∃ depth, referenceResult tools config data (.workflow node subNodes) depth [] =
      some result)
    (hcomponents : ∀ path, Requested config tools (.workflow node subNodes) path →
      ∃ depth result', referenceResult tools config data (.workflow node subNodes) depth path =
        some result') :
    ∃ fuel state, executeWorkflow config objects fuel
      ((SubNode.workflow node subNodes).position 0) = some (.ok (result, state)) := by
  have hroot : ∀ component, SubNode.workflow node subNodes ≠ .component component := nofun
  have hsettled := hprepared.settled hwf
  obtain ⟨all, hall, hnodes⟩ := hprepared.exists_obtainAllNodes .root (Nat.lt_succ_self _)
  obtain ⟨depth, hplain⟩ :=
    (plainResult_iff_referenceResult hwf hkeyword hroot hprepared .root result).mpr hresult
  have hfresh : PlainInvariant objects.nodes config objects.inputs (fun _ => none) []
      (freshState W objects.inputs) := plainInvariant_fresh hprepared.built
  obtain ⟨fuel, between, hfirst⟩ := hfresh.exists_nodeResult hprepared.built hsettled hplain
  obtain ⟨-, hbetween, -⟩ := hfresh.of_nodeResult hprepared.built hsettled hfirst
  have hresults : ∀ object ∈ all, isLeftOut objects.nodes config object = false →
      ∃ result depth, plainResult objects.nodes config objects.inputs depth object =
        some result := by
    intro object hobject hleft
    rcases hnodes object hobject with
      ⟨path, entry, component, hlocated, hcomponent, rfl⟩ | ⟨hprovider, hinputs⟩
    · obtain ⟨depth, found, hfound⟩ := hcomponents path
        ((isLeftOut_eq_false_iff hwf hprepared.placed hlocated hcomponent).mp hleft)
      exact ⟨found, (plainResult_iff_referenceResult hwf hkeyword hroot hprepared hlocated
        found).mpr ⟨depth, hfound⟩⟩
    · exact exists_plainResult_provider hprovider hinputs
  obtain ⟨fuel', state, hloop⟩ := hbetween.exists_requestAll hprepared.built hsettled hresults
  refine ⟨max (0 + sizeAll subNodes + 1) (max fuel fuel'), state, ?_⟩
  rw [nodeResult, objectOf] at hfirst
  rw [executeWorkflow, show obtainAllNodes objects.nodes objects.subNodes _
    ((SubNode.workflow node subNodes).position 0) = some all from
      obtainAllNodes_mono (le_max_left _ _) hall]
  dsimp only
  rw [nodeResult, System.evaluate_mono ((le_max_left _ _).trans (le_max_right _ _)) hfirst]
  dsimp only
  rw [requestAll_mono ((le_max_right _ _).trans (le_max_right _ _)) hloop]
  rfl

/-- Prepared objects are executed with a result exactly if the workflow has it in the reference
evaluation and all components which are requested in any case have results there. -/
theorem executeWorkflow_iff_of_prepared (hwf : (SubNode.workflow node subNodes).WellFormed)
    (hkeyword : KeywordArguments tools) {data : PyStr → Option W} {objects : EngineObjects W X}
    (hobjects : Prepared tools data (.workflow node subNodes) objects)
    (result : List (Option PyStr × W)) :
    (∃ fuel state, executeWorkflow config objects fuel
        ((SubNode.workflow node subNodes).position 0) = some (.ok (result, state))) ↔
      (∃ depth, referenceResult tools config data (.workflow node subNodes) depth [] =
          some result) ∧
        ∀ path, Requested config tools (.workflow node subNodes) path → ∃ depth result',
          referenceResult tools config data (.workflow node subNodes) depth path =
            some result' := by
  constructor
  · rintro ⟨fuel, state, hreturned⟩
    obtain ⟨hresult, hcomponents⟩ :=
      referenceResult_of_executeWorkflow hwf hkeyword hobjects hreturned
    refine ⟨hresult, fun path hrun => ?_⟩
    obtain ⟨component, hcomponent, -⟩ := id hrun
    obtain ⟨start, hlocated⟩ := exists_located_of_nodeAt hcomponent
    obtain ⟨depth, found, hfound, -⟩ := hcomponents path _ component hlocated rfl hrun
    exact ⟨depth, found, hfound⟩
  · rintro ⟨hresult, hcomponents⟩
    exact exists_executeWorkflow hwf hkeyword hobjects hresult hcomponents

/-- The runtime service returns a result exactly if it is the one of the workflow in the reference
evaluation with the loaded data and all components which are requested in any case have results
there. -/
theorem executeWorkflow_iff_referenceResult (hwf : (SubNode.workflow node subNodes).WellFormed)
    (hkeyword : KeywordArguments tools) {wiring : WorkflowWiring (WiringData J)} {parsedWf : ℕ}
    {objects : EngineObjects W X}
    (hprepared : prepareWorkflow tools loading (.workflow node subNodes) wiring =
      .ok (parsedWf, objects)) :
    ∃ data, loadedData tools loading (.workflow node subNodes) wiring = .ok data ∧ ∀ result,
      (∃ fuel state, executeWorkflow config objects fuel parsedWf = some (.ok (result, state))) ↔
        (∃ depth, referenceResult tools config (dataOf data) (.workflow node subNodes) depth [] =
            some result) ∧
          ∀ path, Requested config tools (.workflow node subNodes) path → ∃ depth result',
            referenceResult tools config (dataOf data) (.workflow node subNodes) depth path =
              some result' := by
  obtain ⟨data, hdata, rfl, hobjects⟩ := prepared_of_prepareWorkflow hwf hprepared
  exact ⟨data, hdata, executeWorkflow_iff_of_prepared hwf hkeyword hobjects⟩

end Main

/-! ## Sums -/

/-- Tools with which every component returns the sum of its inputs. -/
def sumTools : ParsingTools ℕ ℕ Unit where
  loadComponent := fun _ =>
    some ⟨fun values => .ok [(some ['s'], (values.map Prod.snd).sum)], [some ['a']], false⟩
  ofJson := fun value => value.getD 0
  parseValue := fun _ _ value => some value
  refusesName := fun name => name = "keys".toList

/-- Adapters which return the number three for every source. -/
def threeLoading : LoadingTools Unit ℕ Unit where
  loadDataFromAdapter := fun _ requests => .ok (requests.map fun request => (request.1, 3))
  updateMetadata := fun _ value => value

/-- An input of a workflow, with the sub node and the input to which it leads. -/
def sumInput (name sub subName : PyStr) (default : Option ℕ) : WorkflowInput ℕ where
  id := 1
  name := some name
  type := .string
  idOfSubNode := sub
  nameInSubnode := subName
  constantValue := none
  defaultValue := default
  constant := false
  default := default.isSome
  name_or_constant_data_provided := nofun

/-- A workflow with one input that has a default value. -/
def innerSum : SubNode ℕ :=
  .workflow {
      id := ['w']
      connections := []
      inputs := [sumInput ['x'] ['c'] ['a'] none, sumInput ['k'] ['c'] ['b'] (some 4)]
      outputs := [⟨1, ['y'], .string, ['c'], ['s']⟩]
      name := none
      trId := 3
      trName := []
      trTag := [] }
    [.component ⟨['c'], ['u'], none⟩]

/-- A workflow where the output of another one inside leads to a component. -/
def outerSum : SubNode ℕ :=
  .workflow {
      id := ['r']
      connections := [⟨['w'], ['y'], ['d'], ['a']⟩]
      inputs := [sumInput ['x'] ['w'] ['x'] none]
      outputs := [⟨1, ['z'], .string, ['d'], ['s']⟩]
      name := none
      trId := 2
      trName := []
      trTag := [] }
    [.component ⟨['d'], ['u'], none⟩, innerSum]

/-- A wiring of `x`. -/
def sumWiring : WorkflowWiring (WiringData Unit) where
  inputWirings := [{
    adapterId := .int 1
    data := ⟨['x'], none, some ['v'], none, none, none, false, [], none⟩ }]
  outputWirings := []
  dashboardPositionings := []

/-- The nodes inside. -/
theorem located_outerSum {path : List PyStr} {entry : ℕ × SubNode ℕ}
    (h : Located outerSum path entry) :
    (path, entry) = ([], (0, outerSum)) ∨
      (path, entry) = ([['d']], (0, .component ⟨['d'], ['u'], none⟩)) ∨
      (path, entry) = ([['w']], (1, innerSum)) ∨
      (path, entry) = ([['c'], ['w']], (1, .component ⟨['c'], ['u'], none⟩)) := by
  induction h with
  | root => exact Or.inl rfl
  | sub _ hentry ih =>
    rcases ih with heq | heq | heq | heq <;> cases heq
    · rcases List.mem_pair.mp hentry with rfl | rfl
      · exact Or.inr (Or.inl rfl)
      · exact Or.inr (Or.inr (Or.inl rfl))
    · obtain rfl := List.mem_singleton.mp hentry
      exact Or.inr (Or.inr (Or.inr rfl))

/-- They are well-formed. -/
theorem outerSum_wellFormed : outerSum.WellFormed := by
  refine ⟨⟨by decide, by decide, ?_, by decide, by decide⟩, trivial,
    ⟨⟨by decide, by decide, ?_, by decide, by decide⟩, trivial, trivial⟩, trivial⟩
  · intro input hinput _
    obtain rfl := List.mem_singleton.mp hinput
    exact nofun
  · intro input hinput _
    rcases List.mem_pair.mp hinput with rfl | rfl <;> exact nofun

/-- Sums do not depend on the order. -/
theorem sumTools_keywordArguments : KeywordArguments sumTools := by
  intro uuid computation hload values values' _ hperm
  obtain rfl := Option.some.inj hload
  exact congrArg (fun sum => Except.ok [(some ['s'], sum)]) (hperm.map Prod.snd).sum_eq

/-- Instance of `executeWorkflow_iff_referenceResult`: the sum of what is loaded and the default
value. -/
theorem outerSum_executed : ∃ parsedWf objects,
    prepareWorkflow sumTools threeLoading outerSum sumWiring = .ok (parsedWf, objects) ∧
      ∃ fuel state, executeWorkflow ⟨false, 0⟩ objects fuel parsedWf =
        some (.ok ([(some ['z'], 7)], state)) := by
  obtain ⟨parsedWf, objects, hprepared⟩ : ∃ parsedWf objects,
      prepareWorkflow sumTools threeLoading outerSum sumWiring = .ok (parsedWf, objects) :=
    ⟨_, _, rfl⟩
  have hloaded : loadedData sumTools threeLoading outerSum sumWiring =
      .ok ([(['x'], 3)], []) := rfl
  obtain ⟨data, hdata, h⟩ := @executeWorkflow_iff_referenceResult ℕ ℕ Unit Unit Unit sumTools
    threeLoading ⟨false, 0⟩ _ _ outerSum_wellFormed sumTools_keywordArguments sumWiring parsedWf objects hprepared
  obtain rfl := Except.ok.inj (hloaded.symm.trans hdata)
  refine ⟨parsedWf, objects, hprepared, (h _).mpr ⟨⟨6, by decide +kernel⟩, fun path hrun => ?_⟩⟩
  obtain ⟨component, hcomponent, -⟩ := hrun
  obtain ⟨start, hlocated⟩ := exists_located_of_nodeAt hcomponent
  rcases located_outerSum hlocated with heq | heq | heq | heq <;> cases heq
  · exact ⟨6, [(some ['s'], 7)], by decide +kernel⟩
  · exact ⟨6, [(some ['s'], 7)], by decide +kernel⟩

end HetidaDesigner
