import HetidaDesigner.Runtime.Engine

/-!
# Circular dependencies in the engine

Cycles of objects which demand each other's results. Computation nodes are marked while they are in
computation, workflows are not; and only computation nodes test the mark of objects whose results
they demand.
-/

namespace HetidaDesigner

open KeyedList Demands

section Statement

variable {N V X : Type} [DecidableEq N] (nodes : List (EngineNode N V X)) (config : EngineConfig V)
  (node : ℕ) (state : EngineState N V)

/-- The demanded part of the graph has a cycle: while the result of an object is being computed, it
is demanded again. -/
def DemandsCycle : Prop := (engineSystem nodes config).Reenters node state

/-- This happens by a demand of a computation node for another one. -/
def DemandsCycleDirectly : Prop :=
  ∃ anotherNode demanding stack state',
    (engineSystem nodes config).Visits node state (anotherNode :: demanding :: stack) state' ∧
      isComputation nodes anotherNode = true ∧ isComputation nodes demanding = true ∧
      anotherNode ∈ demanding :: stack ∧ state'.cachedResult anotherNode = none

/-- Requesting a result ends with a result or an expected exception. It raises `CircularDependency`
exactly if the demanded part has a cycle. -/
def CyclesReported : Prop :=
  (∃ fuel outcome, nodeResult nodes config fuel node state = some outcome ∧
    outcome ≠ .error (.raised .dictionaryChangedSize)) ∧
  ((∃ fuel, nodeResult nodes config fuel node state = some (.error .circular)) ↔
    DemandsCycle nodes config node state)

/-- The test of computation nodes, in terms of the stack. -/
def demandsDirectly (stack : List ℕ) (anotherNode : ℕ) (state : EngineState N V) : Bool :=
  stack.head?.any (isComputation nodes) && isComputation nodes anotherNode &&
    (engineSystem nodes config).reentry stack anotherNode state

/-- While results are computed, the marked objects are the computation nodes on the stack without a
result, and inputs only change their sources. -/
structure EngineInvariant (inputs : EngineInputs N) (stack : List ℕ) (state : EngineState N V) :
    Prop where
  marked : ∀ node, state.inComputation node = true ↔
    isComputation nodes node = true ∧ node ∈ stack ∧ state.cachedResult node = none
  names : state.inputs.names = inputs.names

end Statement

section Invariant

variable {N V X : Type} [DecidableEq N] {nodes : List (EngineNode N V X)} {config : EngineConfig V}
  {inputs : EngineInputs N} {I : EngineState N V → Prop}
  {Q : List (N × V) → EngineState N V → Prop}

/-- Gathering data keeps a condition on the states which fixes the names of inputs. -/
theorem gatherDataFromInputs_meets {node : ℕ}
    {next : List (N × V) → EngineState N V → ResultPlan N V X}
    (hnames : ∀ state, I state → state.inputs.names = inputs.names)
    (hnext : ∀ values state, I state → (next values state).Meets I Q (· ≠ .dictionaryChangedSize))
    {rest : List N} (hrest : ∀ name ∈ rest, name ∈ inputs.names node) {values : List (N × V)}
    {state : EngineState N V} (h : I state) :
    (gatherDataFromInputs node (inputs.names node).length next rest values state).Meets I Q
      (· ≠ .dictionaryChangedSize) := by
  induction rest generalizing values state with
  | nil =>
    have hsize : (state.inputs node).length = (inputs.names node).length := by
      rw [← hnames state h, EngineInputs.names, List.length_map]
    rw [gatherDataFromInputs, if_neg (not_not.mpr hsize)]
    exact hnext values state h
  | cons inputName rest ih =>
    have hsize : (state.inputs node).length = (inputs.names node).length := by
      rw [← hnames state h, EngineInputs.names, List.length_map]
    rw [gatherDataFromInputs, if_neg (not_not.mpr hsize)]
    have hmem : inputName ∈ state.inputs.names node := by
      rw [hnames state h]
      exact hrest inputName List.mem_cons_self
    split
    · rename_i hnone
      exact absurd hmem (lookup_eq_none_iff_notMem.mp hnone)
    · refine ⟨h, fun result state' hstate' => ?_⟩
      dsimp only
      split
      · intro h
        cases h
      · exact ih (fun name hname => hrest name (List.mem_cons_of_mem _ hname)) hstate'

/-- Gathering the results of a workflow keeps a condition on the states. -/
theorem gatherResults_meets (hdone : ∀ results state, I state → Q results state)
    {mappings : List (N × (ℕ × N))} {results : List (N × V)} {state : EngineState N V}
    (h : I state) :
    (gatherResults nodes config mappings results state).Meets I Q (· ≠ .dictionaryChangedSize) := by
  induction mappings generalizing results state with
  | nil => exact hdone results state h
  | cons mapping rest ih =>
    rw [gatherResults]
    split
    · exact ih h
    · refine ⟨h, fun result state' hstate' => ?_⟩
      dsimp only
      split
      · exact nofun
      · exact ih hstate'

omit [DecidableEq N] in
/-- The invariant after the computation of a result which has been kept. -/
theorem EngineInvariant.of_cached {stack : List ℕ} {node : ℕ} {state : EngineState N V}
    (h : EngineInvariant nodes inputs (node :: stack) state) {marks : ℕ → Bool}
    (hmarks : ∀ other ≠ node, marks other = state.inComputation other) (hnode : marks node = false)
    (result : List (N × V)) :
    EngineInvariant nodes inputs stack { state with
      inComputation := marks
      cachedResult := Function.update state.cachedResult node (some result) } := by
  refine ⟨fun other => ?_, h.names⟩
  dsimp only
  by_cases hother : other = node
  · subst hother
    rw [hnode, Function.update_self]
    simp
  · rw [hmarks other hother, h.marked other, Function.update_of_ne hother, List.mem_cons,
      or_iff_right hother]

omit [DecidableEq N] in
/-- The invariant when the result of an object which is not on the stack starts to be computed. -/
theorem EngineInvariant.push {stack : List ℕ} {node : ℕ} {state : EngineState N V}
    (h : EngineInvariant nodes inputs stack state) {marks : ℕ → Bool} {inputs' : EngineInputs N}
    (hmarks : ∀ other ≠ node, marks other = state.inComputation other)
    (hnode : marks node = isComputation nodes node) (hnew : state.cachedResult node = none)
    (hnames : inputs'.names = inputs.names) :
    EngineInvariant nodes inputs (node :: stack) { state with
      inputs := inputs'
      inComputation := marks } := by
  refine ⟨fun other => ?_, hnames⟩
  dsimp only
  by_cases hother : other = node
  · subst hother
    rw [hnode]
    simp [hnew]
  · rw [hmarks other hother, h.marked other, List.mem_cons, or_iff_right hother]

/-- What an object does first. -/
theorem plan_eq (node : ℕ) (state : EngineState N V) :
    (engineSystem nodes config).plan node state = match nodes[node]? with
      | some (.computation computation) => computation.computeResult node state
      | some (.workflow workflow) => workflow.computeResult nodes config node state
      | none => .done (.error .missingOutput) :=
  rfl

/-- Computing the result of an object keeps the invariant. -/
theorem plan_meets (hnodes : MappedToEarlier nodes) (hwired : Wired nodes inputs)
    (stack : List ℕ) (node : ℕ) (state : EngineState N V)
    (h : EngineInvariant nodes inputs stack state) (hnew : state.cachedResult node = none) :
    ((engineSystem nodes config).plan node state).Meets
      (EngineInvariant nodes inputs (node :: stack))
      (fun result state' => EngineInvariant nodes inputs stack
        ((engineSystem nodes config).store state' node result))
      (· ≠ .dictionaryChangedSize) := by
  rw [plan_eq]
  split
  · rename_i computation hcomputation
    have hkind : isComputation nodes node = true := by rw [isComputation, hcomputation]
    have hpushed : EngineInvariant nodes inputs (node :: stack)
        { state with inComputation := Function.update state.inComputation node true } :=
      h.push (fun other hother => Function.update_of_ne hother _ _)
        ((Function.update_self ..).trans hkind.symm) hnew h.names
    rw [ComputationNode.computeResult]
    dsimp only
    split
    · have hall : (state.inputs node).map Prod.fst = inputs.names node := congrFun h.names node
      rw [hall]
      refine gatherDataFromInputs_meets (fun _ hstate => hstate.names)
        (fun values state' hstate' => ?_) (fun _ hname => hname) hpushed
      split
      · intro herror
        cases herror
      · exact hstate'.of_cached (fun other hother => Function.update_of_ne hother _ _)
          (Function.update_self ..) _
    · intro herror
      cases herror
  · rename_i workflow hworkflow
    have hkind : isComputation nodes node = false := by rw [isComputation, hworkflow]
    have hmark {stack : List ℕ} {state : EngineState N V}
        (h : EngineInvariant nodes inputs stack state) : state.inComputation node = false := by
      rw [← Bool.not_eq_true, h.marked node, hkind]
      simp
    rw [Workflow.computeResult]
    rcases wireWorkflowInputs_spec hnodes (hwired.of_names_eq h.names) hworkflow with
      ⟨herror, -⟩ | ⟨inputs', hok, hnames, -⟩
    · rw [herror]
      intro herror
      cases herror
    · rw [hok]
      refine gatherResults_meets (fun results state' hstate' => ?_)
        (h.push (fun _ _ => rfl) ((hmark h).trans hkind.symm) hnew (hnames.trans h.names))
      exact hstate'.of_cached (fun _ _ => rfl) (hmark hstate') results
  · intro herror
    cases herror

end Invariant

/-! ## When cycles are reported -/

section Main

variable {N V X : Type} [DecidableEq N] {nodes : List (EngineNode N V X)} {config : EngineConfig V}
  {inputs : EngineInputs N} {state : EngineState N V}

/-- The invariant holds after requests which have returned. -/
theorem AfterRequests.invariant (h : Constructed nodes inputs)
    (hstate : AfterRequests nodes config inputs state) : EngineInvariant nodes inputs [] state := by
  obtain ⟨hnodes, hwired, -⟩ := h.wired
  induction hstate with
  | fresh => exact ⟨fun node => by simp [freshState], rfl⟩
  | request _ hreturned ih =>
    exact (System.evaluate_meets (plan_meets hnodes hwired) ih).1 _ _ hreturned

/-- The test of computation nodes, by the stack. -/
theorem nodeResult_eq (h : Constructed nodes inputs)
    (hstate : EngineInvariant nodes inputs [] state) (fuel node : ℕ) :
    nodeResult nodes config fuel node state =
      (engineSystem nodes config).evaluate (demandsDirectly nodes config) fuel [] node state := by
  obtain ⟨hnodes, hwired, -⟩ := h.wired
  refine System.evaluate_congr (plan_meets hnodes hwired)
    (fun demanding stack anotherNode state' hstate' => ?_) hstate
  have hmarked := hstate'.marked anotherNode
  rw [detectsCycle, demandsDirectly, System.reentry, Bool.and_assoc]
  congr 1
  rw [Bool.eq_iff_iff, hmarked]
  simp [engineSystem]

/-- A demand is reported by the test exactly if it is one of a computation node for another one. -/
theorem reports_demandsDirectly_iff {node : ℕ} :
    (engineSystem nodes config).Reports (demandsDirectly nodes config) node state ↔
      DemandsCycleDirectly nodes config node state := by
  constructor
  · rintro ⟨anotherNode, stack, state', hvisit, hne, htest⟩
    obtain ⟨demanding, stack, rfl⟩ := List.exists_cons_of_ne_nil hne
    refine ⟨anotherNode, demanding, stack, state', hvisit, ?_⟩
    simpa [demandsDirectly, System.reentry, engineSystem, and_assoc, and_left_comm] using htest
  · rintro ⟨anotherNode, demanding, stack, state', hvisit, hrest⟩
    refine ⟨anotherNode, demanding :: stack, state', hvisit, List.cons_ne_nil _ _, ?_⟩
    simpa [demandsDirectly, System.reentry, engineSystem, and_assoc, and_left_comm] using hrest

/-- Cycles are reported exactly if, whenever there is one in the demanded part, an object in
computation is demanded by a computation node, and is one itself. -/
theorem cyclesReported_iff (h : Constructed nodes inputs)
    (hstate : AfterRequests nodes config inputs state) (node : ℕ) :
    CyclesReported nodes config node state ↔
      (DemandsCycle nodes config node state → DemandsCycleDirectly nodes config node state) := by
  have hinvariant := hstate.invariant h
  obtain ⟨hnodes, hwired, -⟩ := h.wired
  have hfinite : ∀ other ∉ Finset.range nodes.length, ∀ state,
      ∃ outcome, (engineSystem nodes config).plan other state = .done outcome := by
    intro other hother state
    have hnone : nodes[other]? = none := List.getElem?_eq_none (by simpa using hother)
    refine ⟨.error .missingOutput, ?_⟩
    simp only [engineSystem, hnone]
  have hless : ∀ stack anotherNode state', demandsDirectly nodes config stack anotherNode state' =
      true → (engineSystem nodes config).reentry stack anotherNode state' = true :=
    fun _ _ _ htest => (Bool.and_eq_true_iff.mp htest).2
  rw [← reports_demandsDirectly_iff]
  refine Iff.trans ?_ (System.reports_cycles_iff hfinite hless)
  unfold CyclesReported
  simp only [nodeResult_eq h hinvariant]
  refine and_congr_left fun _ => exists_congr fun fuel => exists_congr fun outcome => ?_
  refine and_iff_left_of_imp fun houtcome => ?_
  rintro rfl
  exact (System.evaluate_meets (plan_meets hnodes hwired) hinvariant).2 _ houtcome rfl

end Main

/-! ## Cycles with one component -/

/-- A component whose only output has the name of its only input. -/
def echoNode : ComputationNode ℕ ℕ Unit := ⟨.ok, [0], false⟩

/-- The component. -/
def echoNodes : List (EngineNode ℕ ℕ Unit) := [.computation echoNode]

/-- The input of the component is its own output. -/
def echoInputs : EngineInputs ℕ := Function.update (fun _ => []) 0 [(0, (0, 0))]

/-- The component can be built. -/
theorem constructed_echo : Constructed echoNodes echoInputs := by
  have hnodes : Constructed echoNodes fun _ => [] := Constructed.empty.computation echoNode
  have hadded : addInputs echoNodes 0 [(0, (0, 0))] (fun _ => []) = some echoInputs := rfl
  exact hnodes.addInputs (by decide) (by decide) hadded

/-- A cycle of a component with itself is reported. -/
theorem echo_reported : CyclesReported echoNodes ⟨true, 0⟩ 0 (freshState ℕ echoInputs) := by
  refine (cyclesReported_iff constructed_echo .fresh 0).mpr fun _ => ?_
  refine ⟨0, 0, [], _, .next .start rfl (.here _ _ _), rfl, rfl, List.mem_singleton_self _, rfl⟩

/-- A workflow with the output of the component. -/
def outputWorkflow : Workflow ℕ :=
  ⟨[], [(0, (0, 0))], false, List.nodup_nil, List.nodup_singleton _⟩

/-- The component and the workflow. -/
def loopNodes : List (EngineNode ℕ ℕ Unit) := [.computation echoNode, .workflow outputWorkflow]

/-- The input of the component is the output of the workflow. -/
def loopInputs : EngineInputs ℕ := Function.update (fun _ => []) 0 [(0, (1, 0))]

/-- The component and the workflow can be built. -/
theorem constructed_loop : Constructed loopNodes loopInputs := by
  have hnodes : Constructed loopNodes fun _ => [] :=
    (Constructed.empty.computation echoNode).workflow outputWorkflow (by decide)
  have hadded : addInputs loopNodes 0 [(0, (1, 0))] (fun _ => []) = some loopInputs := rfl
  exact hnodes.addInputs (by decide) (by decide) hadded

/-- Neither the component nor the workflow has a result with any amount of fuel. -/
theorem evaluate_loop (fuel : ℕ) (stack : List ℕ) {marks : ℕ → Bool} (hmarks : marks 1 = false) :
    (engineSystem loopNodes ⟨true, 0⟩).evaluate (detectsCycle loopNodes) fuel stack 0
        ⟨loopInputs, marks, fun _ => none⟩ = none ∧
      (engineSystem loopNodes ⟨true, 0⟩).evaluate (detectsCycle loopNodes) fuel stack 1
        ⟨loopInputs, marks, fun _ => none⟩ = none := by
  induction fuel generalizing stack marks with
  | zero => exact ⟨rfl, rfl⟩
  | succ fuel ih =>
    constructor
    · have hmarks' : Function.update marks 0 true 1 = false := by
        rwa [Function.update_of_ne (by decide)]
      have htest : detectsCycle loopNodes (0 :: stack) 1
          (⟨loopInputs, Function.update marks 0 true, fun _ => none⟩ : EngineState ℕ ℕ) = false :=
        hmarks'
      have hrequest : (engineSystem loopNodes ⟨true, 0⟩).request (detectsCycle loopNodes) fuel
          (0 :: stack) 1 ⟨loopInputs, Function.update marks 0 true, fun _ => none⟩ = none := by
        rw [System.request, htest, if_neg Bool.false_ne_true]
        exact (ih (0 :: stack) hmarks').2
      rw [System.evaluate_succ rfl, Option.map_eq_none_iff]
      exact Plan.run_demand_of_none hrequest
    · have htest : detectsCycle loopNodes (1 :: stack) 0
          (⟨loopInputs, marks, fun _ => none⟩ : EngineState ℕ ℕ) = false := rfl
      have hrequest : (engineSystem loopNodes ⟨true, 0⟩).request (detectsCycle loopNodes) fuel
          (1 :: stack) 0 ⟨loopInputs, marks, fun _ => none⟩ = none := by
        rw [System.request, htest, if_neg Bool.false_ne_true]
        exact (ih (1 :: stack) hmarks).1
      rw [System.evaluate_succ rfl, Option.map_eq_none_iff]
      exact Plan.run_demand_of_none hrequest

/-- The cycle of the component and the workflow is not reported: the request never ends. -/
theorem loop_not_reported :
    Constructed loopNodes loopInputs ∧
      (∀ fuel, nodeResult loopNodes ⟨true, 0⟩ fuel 0 (freshState ℕ loopInputs) = none) ∧
      ¬ CyclesReported loopNodes ⟨true, 0⟩ 0 (freshState ℕ loopInputs) := by
  have hnone (fuel : ℕ) :
      nodeResult loopNodes ⟨true, 0⟩ fuel 0 (freshState ℕ loopInputs) = none :=
    (evaluate_loop fuel [] rfl).1
  refine ⟨constructed_loop, hnone, fun ⟨⟨fuel, outcome, houtcome, _⟩, _⟩ => ?_⟩
  rw [hnone fuel] at houtcome
  cases houtcome

end HetidaDesigner
