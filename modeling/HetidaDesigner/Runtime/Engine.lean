import HetidaDesigner.Library.Demands
import HetidaDesigner.Library.KeyedList
import Mathlib.Data.Finset.Range
import Mathlib.Logic.Function.Basic

/-!
# The plain engine

The objects of `runtime/engine/plain/workflow.py`: computation nodes and workflows, how inputs are
added to them, and how results are computed. Objects are referred to by their position in the order
in which they have been created, so that the mappings of a workflow lead to earlier objects.
Dictionaries are lists of entries with distinct keys. What a component raises instead of returning a
dictionary is of arbitrary type; logging and its contexts are left out.
-/

namespace HetidaDesigner

open KeyedList Demands

/-- A function with multiple outputs. -/
structure ComputationNode (N V X : Type) where
  func : List (N × V) → Except X (List (N × V))
  requiredParams : List N
  hasOnlyPlotOutputs : Bool

/-- A workflow of the engine: its inputs are mapped to those of sub nodes, and its outputs to theirs. -/
structure Workflow (N : Type) where
  inputMappings : List (N × (ℕ × N))
  outputMappings : List (N × (ℕ × N))
  hasOnlyPlotOutputs : Bool
  inputMappings_unique : (inputMappings.map Prod.fst).Nodup
  outputMappings_unique : (outputMappings.map Prod.fst).Nodup

/-- The objects of the engine. -/
inductive EngineNode (N V X : Type)
  | computation (node : ComputationNode N V X)
  | workflow (node : Workflow N)

/-- The attribute `has_only_plot_outputs`. -/
def EngineNode.hasOnlyPlotOutputs {N V X : Type} : EngineNode N V X → Bool
  | .computation node => node.hasOnlyPlotOutputs
  | .workflow node => node.hasOnlyPlotOutputs

/-- The attribute `inputs` of all objects: nodes and names of their outputs by names of inputs. -/
abbrev EngineInputs (N : Type) := ℕ → List (N × (ℕ × N))

/-- The attributes of the objects which change while results are computed. -/
structure EngineState (N V : Type) where
  inputs : EngineInputs N
  inComputation : ℕ → Bool
  cachedResult : ℕ → Option (List (N × V))

/-- Exceptions while a result is computed. A dictionary raises an error if its size changes while it
is iterated. -/
inductive EngineError (X : Type)
  | component (error : X)
  | missingInputSource
  | missingOutput
  | dictionaryChangedSize
  deriving DecidableEq, Repr

/-- The option `run_pure_plot_operators`, and the empty dictionary, which replaces the outputs of
operators that are not run. -/
structure EngineConfig (V : Type) where
  runPurePlotOperators : Bool
  emptyDict : V

section Engine

variable {N V X : Type} [DecidableEq N] (nodes : List (EngineNode N V X))

/-! ## Adding inputs -/

/-- `add_inputs`, for objects from whose mappings fewer objects can be reached than given. -/
def addInputsWithin : ℕ → ℕ → List (N × (ℕ × N)) → EngineInputs N → Option (EngineInputs N)
  | 0, _, _, _ => none
  | levels + 1, node, newInputs, inputs =>
    let inputs := Function.update inputs node (insertAll Prod.fst (inputs node) newInputs)
    match nodes[node]? with
    | some (.workflow workflow) =>
      newInputs.foldlM (fun inputs entry => do
        let (subNode, subNodeInputName) ← workflow.inputMappings.lookup entry.1
        addInputsWithin levels subNode [(subNodeInputName, entry.2)] inputs) inputs
    | _ => some inputs

/-- `add_inputs`; without a mapping for an input of a workflow there is none. -/
def addInputs (node : ℕ) (newInputs : List (N × (ℕ × N))) (inputs : EngineInputs N) :
    Option (EngineInputs N) :=
  addInputsWithin nodes (node + 1) node newInputs inputs

/-- The wiring of one input of a workflow. -/
def wireMapping (node : ℕ) (inputs : EngineInputs N) (mapping : N × (ℕ × N)) :
    Except (EngineError X) (EngineInputs N) :=
  match (inputs node).lookup mapping.1 with
  | none => .error .missingInputSource
  | some source =>
    match addInputs nodes mapping.2.1 [(mapping.2.2, source)] inputs with
    | none => .error .missingInputSource
    | some inputs => .ok inputs

/-- `_wire_workflow_inputs` -/
def wireWorkflowInputs (node : ℕ) (workflow : Workflow N) (inputs : EngineInputs N) :
    Except (EngineError X) (EngineInputs N) :=
  workflow.inputMappings.foldlM (wireMapping nodes node) inputs

/-! ## Computing results -/

/-- What computing the result of an object does. -/
abbrev ResultPlan (N V X : Type) := Plan ℕ (EngineState N V) (List (N × V)) (EngineError X)

/-- `_gather_data_from_inputs`, without the cycle detection logic, for the rest of the inputs. -/
def gatherDataFromInputs (node size : ℕ)
    (next : List (N × V) → EngineState N V → ResultPlan N V X) :
    List N → List (N × V) → EngineState N V → ResultPlan N V X
  | [], values, state =>
    if (state.inputs node).length ≠ size then .done (.error .dictionaryChangedSize)
    else next values state
  | inputName :: rest, values, state =>
    if (state.inputs node).length ≠ size then .done (.error .dictionaryChangedSize)
    else
      match (state.inputs node).lookup inputName with
      | none => .done (.error .dictionaryChangedSize)
      | some (anotherNode, outputName) =>
        .demand anotherNode state fun result state =>
          match result.lookup outputName with
          | none => .done (.error .missingOutput)
          | some value =>
            gatherDataFromInputs node size next rest (values ++ [(inputName, value)]) state

/-- `_compute_result` -/
def ComputationNode.computeResult (computation : ComputationNode N V X) (node : ℕ)
    (state : EngineState N V) : ResultPlan N V X :=
  let state := { state with inComputation := Function.update state.inComputation node true }
  let inputNames := (state.inputs node).map Prod.fst
  if computation.requiredParams.all (· ∈ inputNames) then
    gatherDataFromInputs node inputNames.length (fun values state =>
      match computation.func values with
      | .error error => .done (.error (.component error))
      | .ok result => .done (.ok (result,
          { state with inComputation := Function.update state.inComputation node false })))
      inputNames [] state
  else .done (.error .missingInputSource)

/-- The results of a workflow for the rest of its output mappings. -/
def gatherResults (config : EngineConfig V) : List (N × (ℕ × N)) → List (N × V) →
    EngineState N V → ResultPlan N V X
  | [], results, state => .done (.ok (results, state))
  | (outputName, subNode, subNodeOutputName) :: rest, results, state =>
    if nodes[subNode]?.any EngineNode.hasOnlyPlotOutputs && !config.runPurePlotOperators then
      gatherResults config rest (results ++ [(outputName, config.emptyDict)]) state
    else
      .demand subNode state fun result state =>
        match result.lookup subNodeOutputName with
        | none => .done (.error .missingOutput)
        | some value => gatherResults config rest (results ++ [(outputName, value)]) state

/-- The property `result` of a workflow. -/
def Workflow.computeResult (config : EngineConfig V) (workflow : Workflow N) (node : ℕ)
    (state : EngineState N V) : ResultPlan N V X :=
  match wireWorkflowInputs nodes node workflow state.inputs with
  | .error error => .done (.error error)
  | .ok inputs =>
    gatherResults nodes config workflow.outputMappings [] { state with inputs := inputs }

/-- The objects with their results, which are computed once. -/
def engineSystem (config : EngineConfig V) :
    System ℕ (EngineState N V) (List (N × V)) (EngineError X) where
  cached state node := state.cachedResult node
  store state node result :=
    { state with cachedResult := Function.update state.cachedResult node (some result) }
  plan node state :=
    match nodes[node]? with
    | some (.computation computation) => computation.computeResult node state
    | some (.workflow workflow) => workflow.computeResult nodes config node state
    | none => .done (.error .missingOutput)

/-- Whether an object is a computation node. -/
def isComputation (node : ℕ) : Bool :=
  match nodes[node]? with
  | some (.computation _) => true
  | _ => false

/-- The cycle detection logic: computation nodes test the objects whose results they demand, workflows
do not. Workflows are never in computation. -/
def detectsCycle (stack : List ℕ) (anotherNode : ℕ) (state : EngineState N V) : Bool :=
  stack.head?.any (isComputation nodes) && state.inComputation anotherNode

/-- The property `result`, requested from outside. -/
def nodeResult (config : EngineConfig V) (fuel node : ℕ) (state : EngineState N V) :
    Option (Except (Interruption (EngineError X)) (List (N × V) × EngineState N V)) :=
  (engineSystem nodes config).evaluate (detectsCycle nodes) fuel [] node state

end Engine

/-! ## Building objects -/

section Construction

variable {N V X : Type} [DecidableEq N]

/-- Objects are created one after the other, workflows after the objects in their mappings, and
inputs are added to them. -/
inductive Constructed : List (EngineNode N V X) → EngineInputs N → Prop
  | empty : Constructed [] fun _ => []
  | computation {nodes : List (EngineNode N V X)} {inputs : EngineInputs N}
      (h : Constructed nodes inputs) (node : ComputationNode N V X) :
      Constructed (nodes ++ [.computation node]) inputs
  | workflow {nodes : List (EngineNode N V X)} {inputs : EngineInputs N}
      (h : Constructed nodes inputs) (node : Workflow N)
      (hmappings : ∀ mapping ∈ node.inputMappings ++ node.outputMappings,
        mapping.2.1 < nodes.length) :
      Constructed (nodes ++ [.workflow node]) inputs
  | addInputs {nodes : List (EngineNode N V X)} {inputs inputs' : EngineInputs N}
      (h : Constructed nodes inputs) {node : ℕ} {newInputs : List (N × (ℕ × N))}
      (hnode : node < nodes.length) (hsources : ∀ entry ∈ newInputs, entry.2.1 < nodes.length)
      (hadded : addInputs nodes node newInputs inputs = some inputs') :
      Constructed nodes inputs'

/-- The state of objects of which no result has been requested. -/
def freshState (V : Type) (inputs : EngineInputs N) : EngineState N V where
  inputs := inputs
  inComputation := fun _ => false
  cachedResult := fun _ => none

/-- States after requests which have returned. -/
inductive AfterRequests (nodes : List (EngineNode N V X)) (config : EngineConfig V)
    (inputs : EngineInputs N) : EngineState N V → Prop
  | fresh : AfterRequests nodes config inputs (freshState V inputs)
  | request {state state' : EngineState N V} (h : AfterRequests nodes config inputs state)
      {fuel node : ℕ} {result : List (N × V)}
      (hreturned : nodeResult nodes config fuel node state = some (.ok (result, state'))) :
      AfterRequests nodes config inputs state'

end Construction

/-! ## Wired inputs -/

section Wired

variable {N V X : Type} [DecidableEq N]

/-- The names of the inputs of an object which have a source. -/
def EngineInputs.names (inputs : EngineInputs N) (node : ℕ) : List N :=
  (inputs node).map Prod.fst

/-- Mappings lead to earlier objects. -/
def MappedToEarlier (nodes : List (EngineNode N V X)) : Prop :=
  ∀ (node : ℕ) (workflow : Workflow N), nodes[node]? = some (.workflow workflow) →
    ∀ mapping ∈ workflow.inputMappings ++ workflow.outputMappings, mapping.2.1 < node

/-- The input of an object, if this is a workflow, is mapped to one which has a source. -/
def IsWired (nodes : List (EngineNode N V X)) (inputs : EngineInputs N) (node : ℕ) (name : N) :
    Prop :=
  ∀ workflow : Workflow N, nodes[node]? = some (.workflow workflow) →
    ∃ target, workflow.inputMappings.lookup name = some target ∧
      target.2 ∈ inputs.names target.1

/-- All inputs of workflows which have a source are mapped to inputs which have one. -/
def Wired (nodes : List (EngineNode N V X)) (inputs : EngineInputs N) : Prop :=
  ∀ node, ∀ name ∈ inputs.names node, IsWired nodes inputs node name

/-- Sources are only added for inputs which are wired then. -/
structure GrowsWired (nodes : List (EngineNode N V X)) (inputs inputs' : EngineInputs N) : Prop where
  grows : ∀ node, inputs.names node ⊆ inputs'.names node
  wired : ∀ node, ∀ name ∈ inputs'.names node, name ∉ inputs.names node →
    IsWired nodes inputs' node name

variable {nodes : List (EngineNode N V X)} {inputs inputs' : EngineInputs N}

/-- A wired input stays wired while sources are added. -/
theorem IsWired.mono (hgrows : ∀ node, inputs.names node ⊆ inputs'.names node) {node : ℕ} {name : N}
    (h : IsWired nodes inputs node name) : IsWired nodes inputs' node name := by
  intro workflow hworkflow
  obtain ⟨target, hlookup, htarget⟩ := h workflow hworkflow
  exact ⟨target, hlookup, hgrows target.1 htarget⟩

/-- Sources can be added one after the other. -/
theorem GrowsWired.trans {inputs'' : EngineInputs N} (h : GrowsWired nodes inputs inputs')
    (h' : GrowsWired nodes inputs' inputs'') : GrowsWired nodes inputs inputs'' := by
  refine ⟨fun node => List.Subset.trans (h.grows node) (h'.grows node),
    fun node name hname hnew => ?_⟩
  by_cases hbetween : name ∈ inputs'.names node
  · exact (h.wired node name hbetween hnew).mono h'.grows
  · exact h'.wired node name hname hbetween

/-- Wired inputs stay wired. -/
theorem Wired.of_growsWired (h : Wired nodes inputs) (hgrows : GrowsWired nodes inputs inputs') :
    Wired nodes inputs' := by
  intro node name hname
  by_cases hold : name ∈ inputs.names node
  · exact (h node name hold).mono hgrows.grows
  · exact hgrows.wired node name hname hold

omit [DecidableEq N] in
/-- The names after an update at one object. -/
theorem names_update (inputs : EngineInputs N) (node : ℕ) (entries : List (N × (ℕ × N))) (other : ℕ) :
    EngineInputs.names (Function.update inputs node entries) other =
      if other = node then entries.map Prod.fst else inputs.names other := by
  unfold EngineInputs.names
  rw [Function.update_apply]
  split <;> rfl

/-- The sources which are added to a workflow are added to its sub nodes. -/
theorem growsWired_of_foldlM {levels : ℕ} {workflow : Workflow N} {newInputs : List (N × (ℕ × N))}
    (hlevels : ∀ {node : ℕ} {newInputs : List (N × (ℕ × N))} {inputs inputs' : EngineInputs N},
      addInputsWithin nodes levels node newInputs inputs = some inputs' →
        GrowsWired nodes inputs inputs' ∧ ∀ entry ∈ newInputs, entry.1 ∈ inputs'.names node)
    (h : newInputs.foldlM (fun inputs entry => do
      let (subNode, subNodeInputName) ← workflow.inputMappings.lookup entry.1
      addInputsWithin nodes levels subNode [(subNodeInputName, entry.2)] inputs) inputs =
        some inputs') :
    GrowsWired nodes inputs inputs' ∧ ∀ entry ∈ newInputs, ∃ target,
      workflow.inputMappings.lookup entry.1 = some target ∧
        target.2 ∈ inputs'.names target.1 := by
  induction newInputs generalizing inputs with
  | nil =>
    obtain rfl := Option.some.inj h
    exact ⟨⟨fun _ => List.Subset.refl _, fun _ _ hname hnew => absurd hname hnew⟩, nofun⟩
  | cons entry rest ih =>
    rw [List.foldlM_cons] at h
    obtain ⟨between, hentry, hrest⟩ := Option.bind_eq_some_iff.mp h
    obtain ⟨target, htarget, hadded⟩ := Option.bind_eq_some_iff.mp hentry
    obtain ⟨hgrows, hnames⟩ := hlevels hadded
    obtain ⟨hgrows', hnames'⟩ := ih hrest
    refine ⟨hgrows.trans hgrows', fun other hother => ?_⟩
    rcases List.mem_cons.mp hother with rfl | hother
    · exact ⟨target, htarget, hgrows'.grows target.1 (hnames _ (List.mem_singleton_self _))⟩
    · exact hnames' other hother

/-- Adding inputs adds sources for wired inputs. -/
theorem growsWired_of_addInputsWithin {levels node : ℕ} {newInputs : List (N × (ℕ × N))}
    (h : addInputsWithin nodes levels node newInputs inputs = some inputs') :
    GrowsWired nodes inputs inputs' ∧ ∀ entry ∈ newInputs, entry.1 ∈ inputs'.names node := by
  induction levels generalizing node newInputs inputs inputs' with
  | zero => cases h
  | succ levels ih =>
    rw [addInputsWithin] at h
    have hold (other : ℕ) : inputs.names other ⊆ EngineInputs.names
        (Function.update inputs node (insertAll Prod.fst (inputs node) newInputs)) other := by
      intro name hname
      rw [names_update]
      split
      · rename_i heq
        exact mem_map_insertAll_iff.mpr (Or.inl (heq ▸ hname))
      · exact hname
    have hadded : ∀ entry ∈ newInputs, entry.1 ∈ EngineInputs.names
        (Function.update inputs node (insertAll Prod.fst (inputs node) newInputs)) node := by
      intro entry hentry
      rw [names_update, if_pos rfl]
      exact mem_map_insertAll_iff.mpr (Or.inr (List.mem_map_of_mem hentry))
    have hnew {other : ℕ} {name : N} (hname : name ∈ EngineInputs.names
        (Function.update inputs node (insertAll Prod.fst (inputs node) newInputs)) other)
        (hfresh : name ∉ inputs.names other) :
        other = node ∧ ∃ entry ∈ newInputs, entry.1 = name := by
      rw [names_update] at hname
      split at hname
      · rename_i heq
        subst heq
        rcases mem_map_insertAll_iff.mp hname with hname | hname
        · exact absurd hname hfresh
        · exact ⟨rfl, List.mem_map.mp hname⟩
      · exact absurd hname hfresh
    dsimp only at h
    split at h
    · rename_i workflow hworkflow
      obtain ⟨hgrows, htargets⟩ := growsWired_of_foldlM ih h
      refine ⟨⟨fun other => List.Subset.trans (hold other) (hgrows.grows other), ?_⟩,
        fun entry hentry => hgrows.grows node (hadded entry hentry)⟩
      intro other name hname hfresh
      by_cases hbetween : name ∈ EngineInputs.names
          (Function.update inputs node (insertAll Prod.fst (inputs node) newInputs)) other
      · obtain ⟨rfl, entry, hentry, rfl⟩ := hnew hbetween hfresh
        intro workflow' hworkflow'
        obtain rfl : workflow = workflow' := by
          simpa using hworkflow.symm.trans hworkflow'
        exact htargets entry hentry
      · exact hgrows.wired other name hname hbetween
    · rename_i hother
      obtain rfl := Option.some.inj h
      refine ⟨⟨hold, fun other name hname hfresh workflow hworkflow => ?_⟩, hadded⟩
      obtain ⟨rfl, -⟩ := hnew hname hfresh
      exact absurd hworkflow (hother workflow)

/-- Whether inputs are wired depends on the names of those which have a source. -/
theorem Wired.of_names_eq (h : Wired nodes inputs) (hnames : inputs'.names = inputs.names) :
    Wired nodes inputs' := by
  intro node name hname
  rw [hnames] at hname
  refine (h node name hname).mono fun other => ?_
  rw [hnames]
  exact List.Subset.refl _

/-- The target of a mapping is an earlier object. -/
theorem MappedToEarlier.target_lt (hnodes : MappedToEarlier nodes) {node : ℕ} {workflow : Workflow N}
    (hworkflow : nodes[node]? = some (.workflow workflow)) {name : N} {target : ℕ × N}
    (htarget : workflow.inputMappings.lookup name = some target) : target.1 < node := by
  have hmem : (name, target) ∈ workflow.inputMappings :=
    (lookup_eq_some_iff_mem workflow.inputMappings_unique).mp htarget
  exact hnodes node workflow hworkflow _ (List.mem_append_left _ hmem)

/-- Adding inputs leaves later objects alone. -/
theorem addInputsWithin_of_gt (hnodes : MappedToEarlier nodes) {levels node : ℕ}
    {newInputs : List (N × (ℕ × N))}
    (h : addInputsWithin nodes levels node newInputs inputs = some inputs') {other : ℕ}
    (hother : node < other) : inputs' other = inputs other := by
  induction levels generalizing node newInputs inputs inputs' with
  | zero => cases h
  | succ levels ih =>
    rw [addInputsWithin] at h
    have hupdate : Function.update inputs node
        (insertAll Prod.fst (inputs node) newInputs) other = inputs other :=
      Function.update_of_ne (Nat.ne_of_gt hother) _ _
    dsimp only at h
    generalize Function.update inputs node (insertAll Prod.fst (inputs node) newInputs) = start
      at h hupdate
    rw [← hupdate]
    split at h
    · rename_i workflow hworkflow
      clear hupdate
      induction newInputs generalizing start with
      | nil => rw [Option.some.inj h]
      | cons entry rest ihrest =>
        rw [List.foldlM_cons] at h
        obtain ⟨between, hentry, hrest⟩ := Option.bind_eq_some_iff.mp h
        obtain ⟨target, htarget, hadded⟩ := Option.bind_eq_some_iff.mp hentry
        have hearlier := hnodes.target_lt hworkflow htarget
        exact (ihrest between hrest).trans (ih hadded (by omega))
    · rw [Option.some.inj h]

/-- The inputs of the object to which inputs are added. -/
theorem addInputsWithin_self (hnodes : MappedToEarlier nodes) {levels node : ℕ}
    {newInputs : List (N × (ℕ × N))}
    (h : addInputsWithin nodes levels node newInputs inputs = some inputs') :
    inputs' node = insertAll Prod.fst (inputs node) newInputs := by
  cases levels with
  | zero => cases h
  | succ levels =>
    rw [addInputsWithin] at h
    have hupdate : Function.update inputs node
        (insertAll Prod.fst (inputs node) newInputs) node =
          insertAll Prod.fst (inputs node) newInputs := Function.update_self ..
    dsimp only at h
    generalize Function.update inputs node (insertAll Prod.fst (inputs node) newInputs) = start
      at h hupdate
    rw [← hupdate]
    split at h
    · rename_i workflow hworkflow
      clear hupdate
      induction newInputs generalizing start with
      | nil => rw [Option.some.inj h]
      | cons entry rest ihrest =>
        rw [List.foldlM_cons] at h
        obtain ⟨between, hentry, hrest⟩ := Option.bind_eq_some_iff.mp h
        obtain ⟨target, htarget, hadded⟩ := Option.bind_eq_some_iff.mp hentry
        have hearlier := hnodes.target_lt hworkflow htarget
        exact (ihrest between hrest).trans (addInputsWithin_of_gt hnodes hadded hearlier)
    · rw [Option.some.inj h]

/-- With wired inputs, other sources can be given to inputs which have one. -/
theorem exists_addInputsWithin (hnodes : MappedToEarlier nodes) {levels node : ℕ}
    {newInputs : List (N × (ℕ × N))} (hwired : Wired nodes inputs) (hnode : node < levels)
    (hknown : ∀ entry ∈ newInputs, entry.1 ∈ inputs.names node) :
    ∃ inputs', addInputsWithin nodes levels node newInputs inputs = some inputs' ∧
      inputs'.names = inputs.names := by
  induction levels generalizing node newInputs inputs with
  | zero => exact absurd hnode (Nat.not_lt_zero _)
  | succ levels ih =>
    have hsame : EngineInputs.names
        (Function.update inputs node (insertAll Prod.fst (inputs node) newInputs)) =
          inputs.names := by
      funext other
      rw [names_update]
      split
      · rename_i heq
        rw [heq]
        exact map_key_insertAll_of_keys fun entry hentry => List.mem_map.mp (hknown entry hentry)
      · rfl
    rw [addInputsWithin]
    dsimp only
    generalize Function.update inputs node (insertAll Prod.fst (inputs node) newInputs) = start
      at hsame
    split
    · rename_i workflow hworkflow
      induction newInputs generalizing start with
      | nil => exact ⟨start, rfl, hsame⟩
      | cons entry rest ihrest =>
        obtain ⟨target, htarget, hname⟩ :=
          hwired node entry.1 (hknown entry List.mem_cons_self) workflow hworkflow
        have hearlier := hnodes.target_lt hworkflow htarget
        obtain ⟨between, hbetween, hnames⟩ : ∃ between, addInputsWithin nodes levels target.1
            [(target.2, entry.2)] start = some between ∧
              between.names = EngineInputs.names start := by
          have hlevels : target.1 < levels := by omega
          refine ih (hwired.of_names_eq hsame) hlevels fun other hother => ?_
          obtain rfl := List.mem_singleton.mp hother
          rw [hsame]
          exact hname
        obtain ⟨inputs', hinputs', hnames'⟩ := ihrest
          (fun other hother => hknown other (List.mem_cons_of_mem _ hother)) between
          (hnames.trans hsame)
        refine ⟨inputs', ?_, hnames'⟩
        rw [List.foldlM_cons, htarget]
        exact Option.bind_eq_some_iff.mpr ⟨between, hbetween, hinputs'⟩
    · exact ⟨start, rfl, hsame⟩

/-- Wiring mapped inputs keeps the names of inputs, if they all have a source. Otherwise it fails. -/
theorem wire_foldlM_spec (hnodes : MappedToEarlier nodes) (hwired : Wired nodes inputs) {node : ℕ}
    {workflow : Workflow N} (hworkflow : nodes[node]? = some (.workflow workflow))
    {mappings : List (N × (ℕ × N))} (hmappings : mappings ⊆ workflow.inputMappings) :
    (mappings.foldlM (wireMapping nodes node) inputs = .error .missingInputSource ∧
        ∃ mapping ∈ mappings, mapping.1 ∉ inputs.names node) ∨
      ∃ inputs', mappings.foldlM (wireMapping nodes node) inputs = .ok inputs' ∧
        inputs'.names = inputs.names ∧ ∀ mapping ∈ mappings, mapping.1 ∈ inputs.names node := by
  induction mappings generalizing inputs with
  | nil => exact Or.inr ⟨inputs, rfl, rfl, nofun⟩
  | cons mapping rest ih =>
    rw [List.foldlM_cons]
    cases hsource : (inputs node).lookup mapping.1 with
    | none =>
      refine Or.inl ⟨?_, mapping, List.mem_cons_self, lookup_eq_none_iff_notMem.mp hsource⟩
      rw [wireMapping, hsource]
      rfl
    | some source =>
      have hname : mapping.1 ∈ inputs.names node := by
        by_contra hnot
        rw [lookup_eq_none_iff_notMem.mpr hnot] at hsource
        cases hsource
      have hlookup : workflow.inputMappings.lookup mapping.1 = some mapping.2 :=
        (lookup_eq_some_iff_mem workflow.inputMappings_unique).mpr
          (hmappings List.mem_cons_self)
      obtain ⟨target, htarget, hmapped⟩ := hwired node mapping.1 hname workflow hworkflow
      obtain rfl : mapping.2 = target := Option.some.inj (hlookup.symm.trans htarget)
      obtain ⟨between, hbetween, hnames⟩ : ∃ between,
          addInputs nodes mapping.2.1 [(mapping.2.2, source)] inputs = some between ∧
            between.names = inputs.names := by
        refine exists_addInputsWithin hnodes hwired (Nat.lt_succ_self _) fun entry hentry => ?_
        obtain rfl := List.mem_singleton.mp hentry
        exact hmapped
      have hstep : wireMapping nodes node inputs mapping =
          (.ok between : Except (EngineError X) (EngineInputs N)) := by
        rw [wireMapping, hsource]
        dsimp only
        rw [hbetween]
      rw [hstep]
      have hrest := ih (hwired.of_names_eq hnames) fun other hother =>
        hmappings (List.mem_cons_of_mem _ hother)
      rw [hnames] at hrest
      rcases hrest with ⟨herror, other, hother, hnot⟩ | ⟨inputs', hok, hnames', hall⟩
      · exact Or.inl ⟨herror, other, List.mem_cons_of_mem _ hother, hnot⟩
      · refine Or.inr ⟨inputs', hok, hnames', fun other hother => ?_⟩
        rcases List.mem_cons.mp hother with rfl | hother
        · exact hname
        · exact hall other hother

/-- Wiring a workflow keeps the names of inputs, if its mapped inputs all have a source. Otherwise it
fails. -/
theorem wireWorkflowInputs_spec (hnodes : MappedToEarlier nodes) (hwired : Wired nodes inputs)
    {node : ℕ} {workflow : Workflow N} (hworkflow : nodes[node]? = some (.workflow workflow)) :
    (wireWorkflowInputs nodes node workflow inputs = .error .missingInputSource ∧
        ∃ mapping ∈ workflow.inputMappings, mapping.1 ∉ inputs.names node) ∨
      ∃ inputs', wireWorkflowInputs nodes node workflow inputs = .ok inputs' ∧
        inputs'.names = inputs.names ∧
        ∀ mapping ∈ workflow.inputMappings, mapping.1 ∈ inputs.names node :=
  wire_foldlM_spec hnodes hwired hworkflow (List.Subset.refl _)

/-! ## Constructed objects -/

omit [DecidableEq N] in
/-- The object at a position after one more has been created. -/
theorem getElem?_concat_eq_some {nodes : List (EngineNode N V X)} {last : EngineNode N V X}
    {node : ℕ} {object : EngineNode N V X} (h : (nodes ++ [last])[node]? = some object) :
    nodes[node]? = some object ∨ (node = nodes.length ∧ object = last) := by
  rcases Nat.lt_trichotomy node nodes.length with hlt | rfl | hgt
  · rw [List.getElem?_append_left hlt] at h
    exact Or.inl h
  · rw [List.getElem?_concat_length] at h
    exact Or.inr ⟨rfl, (Option.some.inj h).symm⟩
  · rw [List.getElem?_eq_none (by simp; omega)] at h
    cases h

/-- Constructed objects are mapped to earlier ones, and their inputs are wired. -/
theorem Constructed.wired (h : Constructed nodes inputs) :
    MappedToEarlier nodes ∧ Wired nodes inputs ∧ ∀ node ≥ nodes.length, inputs.names node = [] := by
  induction h with
  | empty => exact ⟨nofun, nofun, fun _ _ => rfl⟩
  | @computation nodes inputs h computation ih =>
    obtain ⟨hnodes, hwired, hnone⟩ := ih
    refine ⟨fun node workflow hworkflow => ?_, fun node name hname workflow hworkflow => ?_,
      fun node hnode => hnone node (by simp at hnode; omega)⟩
    · rcases getElem?_concat_eq_some hworkflow with hold | ⟨-, hnew⟩
      · exact hnodes node workflow hold
      · cases hnew
    · rcases getElem?_concat_eq_some hworkflow with hold | ⟨-, hnew⟩
      · exact hwired node name hname workflow hold
      · cases hnew
  | @workflow nodes inputs h workflow hmappings ih =>
    obtain ⟨hnodes, hwired, hnone⟩ := ih
    refine ⟨fun node workflow' hworkflow => ?_, fun node name hname workflow' hworkflow => ?_,
      fun node hnode => hnone node (by simp at hnode; omega)⟩
    · rcases getElem?_concat_eq_some hworkflow with hold | ⟨rfl, hnew⟩
      · exact hnodes node workflow' hold
      · obtain rfl := EngineNode.workflow.inj hnew
        exact hmappings
    · rcases getElem?_concat_eq_some hworkflow with hold | ⟨rfl, -⟩
      · exact hwired node name hname workflow' hold
      · rw [hnone _ le_rfl] at hname
        cases hname
  | @addInputs nodes inputs inputs' h node newInputs hnode hsources hadded ih =>
    obtain ⟨hnodes, hwired, hnone⟩ := ih
    obtain ⟨hgrows, -⟩ := growsWired_of_addInputsWithin hadded
    refine ⟨hnodes, hwired.of_growsWired hgrows, fun other hother => ?_⟩
    rw [EngineInputs.names, addInputsWithin_of_gt hnodes hadded (by omega)]
    exact hnone other hother

end Wired

end HetidaDesigner
