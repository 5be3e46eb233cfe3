import HetidaDesigner.Library.Checks
import HetidaDesigner.Library.Valuations
import HetidaDesigner.Runtime.CircularDependencies

/-!
# The engine without kept results

Results of the engine are computed once, with marks against cycles and while inputs are handed down
again. If each mapped input already has the source of the input of its workflow, then what the
objects return is what a plain recursion over their inputs computes, whatever has been requested
before.
-/

namespace HetidaDesigner

open KeyedList Demands

section Plain

variable {N V X : Type} [DecidableEq N] (nodes : List (EngineNode N V X)) (config : EngineConfig V)
  (inputs : EngineInputs N)

/-- The outputs which some named places refer to, given results of objects. -/
def plainOutput (results : ℕ → Option (List (N × V))) (entry : N × (ℕ × N)) : Option (N × V) := do
  let value ← (← results entry.2.1).lookup entry.2.2
  return (entry.1, value)

/-- The entry of a result of a workflow, where operators may be left out. -/
def plainMapped (results : ℕ → Option (List (N × V))) (mapping : N × (ℕ × N)) : Option (N × V) :=
  if nodes[mapping.2.1]?.any EngineNode.hasOnlyPlotOutputs && !config.runPurePlotOperators then
    some (mapping.1, config.emptyDict)
  else plainOutput results mapping

/-- The result of an object by recursion over the inputs, with a bound on the depth. -/
def plainResult : ℕ → ℕ → Option (List (N × V))
  | 0, _ => none
  | depth + 1, node =>
    match nodes[node]? with
    | some (.computation computation) =>
      if computation.requiredParams.all (· ∈ inputs.names node) then do
        let values ← (inputs node).mapM (plainOutput (plainResult depth))
        (computation.func values).toOption
      else none
    | some (.workflow workflow) =>
      if workflow.inputMappings.all (·.1 ∈ inputs.names node) then
        workflow.outputMappings.mapM (plainMapped nodes config (plainResult depth))
      else none
    | none => none

/-- Each mapped input has the source which the input of its workflow has. -/
def SettledInputs : Prop :=
  ∀ (node : ℕ) (workflow : Workflow N), nodes[node]? = some (.workflow workflow) →
    ∀ mapping ∈ workflow.inputMappings, ∀ source,
      (inputs node).lookup mapping.1 = some source →
        (inputs mapping.2.1).lookup mapping.2.2 = some source

/-- While results are computed with settled inputs, these do not change, the marked objects are the
computation nodes on the stack, and the kept results are those of the recursion, among them those
which were kept before. -/
structure PlainInvariant (before : ℕ → Option (List (N × V))) (stack : List ℕ)
    (state : EngineState N V) : Prop where
  invariant : EngineInvariant nodes inputs stack state
  inputs_eq : state.inputs = inputs
  kept : ∀ node result, state.cachedResult node = some result →
    ∃ depth, plainResult nodes config inputs depth node = some result
  before : ∀ node result, before node = some result → state.cachedResult node = some result

end Plain

/-! ## Inputs which are settled -/

section Settled

variable {N V X : Type} [DecidableEq N] {nodes : List (EngineNode N V X)} {inputs : EngineInputs N}

/-- Adding inputs keeps the names of inputs distinct. -/
theorem names_nodup_addInputsWithin {levels node : ℕ} {newInputs : List (N × (ℕ × N))}
    {inputs' : EngineInputs N} (hnames : ∀ other, (inputs.names other).Nodup)
    (h : addInputsWithin nodes levels node newInputs inputs = some inputs') (other : ℕ) :
    (inputs'.names other).Nodup := by
  induction levels generalizing node newInputs inputs inputs' other with
  | zero => cases h
  | succ levels ih =>
    rw [addInputsWithin] at h
    have hstart : ∀ other, (EngineInputs.names (Function.update inputs node
        (insertAll Prod.fst (inputs node) newInputs)) other).Nodup := by
      intro other
      rw [names_update]
      split
      · exact insertAll_nodup (hnames node) newInputs
      · exact hnames other
    dsimp only at h
    generalize Function.update inputs node (insertAll Prod.fst (inputs node) newInputs) = start
      at h hstart
    split at h
    · rename_i workflow hworkflow
      induction newInputs generalizing start with
      | nil =>
        obtain rfl := Option.some.inj h
        exact hstart other
      | cons entry rest ihrest =>
        rw [List.foldlM_cons] at h
        obtain ⟨between, hentry, hrest⟩ := Option.bind_eq_some_iff.mp h
        obtain ⟨target, -, hadded⟩ := Option.bind_eq_some_iff.mp hentry
        exact ihrest between (fun other => ih hstart hadded other) hrest
    · obtain rfl := Option.some.inj h
      exact hstart other

/-- The names of the inputs of constructed objects are distinct. -/
theorem Constructed.names_nodup (h : Constructed nodes inputs) (node : ℕ) :
    (inputs.names node).Nodup := by
  induction h generalizing node with
  | empty => exact List.nodup_nil
  | computation _ _ ih => exact ih node
  | workflow _ _ _ ih => exact ih node
  | addInputs _ _ _ hadded ih => exact names_nodup_addInputsWithin ih hadded node

/-- Adding an input with the source which it has, where the inputs are settled, changes nothing. -/
theorem addInputsWithin_settled (hsettled : SettledInputs nodes inputs)
    (hnames : ∀ node, (inputs.names node).Nodup) {levels node : ℕ} {name : N} {source : ℕ × N}
    (hsource : (inputs node).lookup name = some source) {inputs' : EngineInputs N}
    (h : addInputsWithin nodes levels node [(name, source)] inputs = some inputs') :
    inputs' = inputs := by
  induction levels generalizing node name inputs' with
  | zero => cases h
  | succ levels ih =>
    have hsame : insertAll Prod.fst (inputs node) [(name, source)] = inputs node :=
      insertEntry_self (hnames node) (mem_of_lookup_eq_some hsource)
    rw [addInputsWithin, hsame, Function.update_eq_self] at h
    dsimp only at h
    split at h
    · rename_i workflow hworkflow
      rw [List.foldlM_cons] at h
      obtain ⟨between, hentry, hrest⟩ := Option.bind_eq_some_iff.mp h
      obtain ⟨target, htarget, hadded⟩ := Option.bind_eq_some_iff.mp hentry
      obtain rfl := Option.some.inj hrest
      have hmapping : (name, target) ∈ workflow.inputMappings := mem_of_lookup_eq_some htarget
      exact ih (hsettled node workflow hworkflow _ hmapping source hsource) hadded
    · exact (Option.some.inj h).symm

/-- Wiring a workflow whose inputs are settled changes nothing. -/
theorem wireWorkflowInputs_settled (hsettled : SettledInputs nodes inputs)
    (hnames : ∀ node, (inputs.names node).Nodup) {node : ℕ} {workflow : Workflow N}
    (hworkflow : nodes[node]? = some (.workflow workflow)) {inputs' : EngineInputs N}
    (h : wireWorkflowInputs (X := X) nodes node workflow inputs = .ok inputs') :
    inputs' = inputs := by
  have hall : ∀ mapping ∈ workflow.inputMappings, ∀ source,
      (inputs node).lookup mapping.1 = some source →
        (inputs mapping.2.1).lookup mapping.2.2 = some source :=
    hsettled node workflow hworkflow
  unfold wireWorkflowInputs at h
  generalize workflow.inputMappings = mappings at h hall
  induction mappings with
  | nil => exact (Except.ok.inj h).symm
  | cons mapping rest ih =>
    rw [List.foldlM_cons] at h
    obtain ⟨between, hfirst, hrest⟩ := Checks.bind_eq_ok.mp h
    unfold wireMapping at hfirst
    split at hfirst
    · cases hfirst
    · rename_i source hsource
      split at hfirst
      · cases hfirst
      · rename_i added hadded
        obtain rfl := Except.ok.inj hfirst
        obtain rfl := addInputsWithin_settled hsettled hnames
          (hall mapping List.mem_cons_self source hsource) hadded
        exact ih hrest fun other hother => hall other (List.mem_cons_of_mem _ hother)

end Settled

/-! ## Plans and the recursion -/

section Recursion

variable {N V X : Type} [DecidableEq N] {nodes : List (EngineNode N V X)} {config : EngineConfig V}
  {inputs : EngineInputs N}

/-- More results lead to the same outputs. -/
theorem plainOutput_mono {results results' : ℕ → Option (List (N × V))}
    (h : ∀ node result, results node = some result → results' node = some result)
    {entry : N × (ℕ × N)} {value : N × V} (hvalue : plainOutput results entry = some value) :
    plainOutput results' entry = some value := by
  obtain ⟨result, hresult, hlookup⟩ := Option.bind_eq_some_iff.mp hvalue
  exact Option.bind_eq_some_iff.mpr ⟨result, h _ _ hresult, hlookup⟩

/-- More results lead to the same entries of workflows. -/
theorem plainMapped_mono {results results' : ℕ → Option (List (N × V))}
    (h : ∀ node result, results node = some result → results' node = some result)
    {mapping : N × (ℕ × N)} {value : N × V}
    (hvalue : plainMapped nodes config results mapping = some value) :
    plainMapped nodes config results' mapping = some value := by
  unfold plainMapped at hvalue ⊢
  split
  · rename_i hskipped
    rwa [if_pos hskipped] at hvalue
  · rename_i hskipped
    rw [if_neg hskipped] at hvalue
    exact plainOutput_mono h hvalue

/-- A list of values stays the same where each of them does. -/
theorem mapM_mono {A B : Type} {f g : A → Option B} (h : ∀ a b, f a = some b → g a = some b)
    {as : List A} {bs : List B} (hbs : as.mapM f = some bs) : as.mapM g = some bs := by
  induction as generalizing bs with
  | nil => exact hbs
  | cons a as ih =>
    rw [List.mapM_cons] at hbs ⊢
    obtain ⟨b, hb, hbs⟩ := Option.bind_eq_some_iff.mp hbs
    obtain ⟨rest, hrest, hbs⟩ := Option.bind_eq_some_iff.mp hbs
    exact Option.bind_eq_some_iff.mpr ⟨b, h a b hb,
      Option.bind_eq_some_iff.mpr ⟨rest, ih hrest, hbs⟩⟩

/-- A larger bound on the depth does not change a result. -/
theorem plainResult_mono {depth node : ℕ} {result : List (N × V)}
    (h : plainResult nodes config inputs depth node = some result) :
    plainResult nodes config inputs (depth + 1) node = some result := by
  induction depth generalizing node result with
  | zero => cases h
  | succ depth ih =>
    rw [plainResult] at h ⊢
    split at h
    · split at h
      · rename_i hparams
        rw [if_pos hparams]
        obtain ⟨values, hvalues, hresult⟩ := Option.bind_eq_some_iff.mp h
        refine Option.bind_eq_some_iff.mpr ⟨values, ?_, hresult⟩
        exact mapM_mono (fun _ _ => plainOutput_mono fun _ _ => ih) hvalues
      · cases h
    · split at h
      · rename_i hmapped
        rw [if_pos hmapped]
        exact mapM_mono (fun _ _ => plainMapped_mono fun _ _ => ih) h
      · cases h
    · cases h

/-- A larger bound on the depth does not change results. -/
theorem plainResult_le {depth more : ℕ} (hle : depth ≤ more) {node : ℕ} {result : List (N × V)}
    (h : plainResult nodes config inputs depth node = some result) :
    plainResult nodes config inputs more node = some result := by
  induction hle with
  | refl => exact h
  | step _ ih => exact plainResult_mono ih

/-- Results with different bounds on the depth are the same. -/
theorem plainResult_unique {node : ℕ} {result result' : List (N × V)}
    (h : ∃ depth, plainResult nodes config inputs depth node = some result)
    (h' : ∃ depth, plainResult nodes config inputs depth node = some result') :
    result = result' := by
  obtain ⟨depth, hdepth⟩ := h
  obtain ⟨depth', hdepth'⟩ := h'
  have hle := plainResult_le (le_max_left depth depth') hdepth
  have hle' := plainResult_le (le_max_right depth depth') hdepth'
  exact Option.some.inj (hle.symm.trans hle')

variable {I : EngineState N V → Prop} {Q : List (N × V) → EngineState N V → Prop}
  {before : ℕ → Option (List (N × V))} {state : EngineState N V}

/-- One more value, found with another bound on the depth. -/
theorem mapM_cons_of_depths {A B : Type} {f : ℕ → A → Option B}
    (hmono : ∀ n m, n ≤ m → ∀ a b, f n a = some b → f m a = some b) {a : A} {b : B} {as : List A}
    {bs : List B} (hfirst : ∃ n, f n a = some b) (hrest : ∃ n, as.mapM (f n) = some bs) :
    ∃ n, (a :: as).mapM (f n) = some (b :: bs) := by
  obtain ⟨n, hn⟩ := hfirst
  obtain ⟨m, hm⟩ := hrest
  refine ⟨max n m, ?_⟩
  rw [List.mapM_cons, hmono n _ (le_max_left n m) a b hn, mapM_mono (hmono m _ (le_max_right n m)) hm]
  rfl

/-- Gathering data leads to the values of the inputs, if these have some. -/
theorem gatherDataFromInputs_reaches {node : ℕ} {results : ℕ → Option (List (N × V))}
    {next : List (N × V) → EngineState N V → ResultPlan N V X}
    (hinputs : ∀ state, I state → state.inputs = inputs) (hnames : (inputs.names node).Nodup)
    {rest : List (N × (ℕ × N))} (hrest : rest ⊆ inputs node) {values new : List (N × V)}
    (hvalues : rest.mapM (plainOutput results) = some new)
    (hnext : ∀ state, I state → (next (values ++ new) state).Reaches I results Q)
    {state : EngineState N V} (h : I state) :
    (gatherDataFromInputs node (inputs.names node).length next (rest.map Prod.fst) values
      state).Reaches I results Q := by
  induction rest generalizing values new state with
  | nil =>
    obtain rfl := Option.some.inj hvalues
    have hsize : (state.inputs node).length = (inputs.names node).length := by
      rw [hinputs state h, EngineInputs.names, List.length_map]
    rw [List.map_nil, gatherDataFromInputs, if_neg (not_not.mpr hsize)]
    simpa using hnext state h
  | cons entry rest ih =>
    have hsize : (state.inputs node).length = (inputs.names node).length := by
      rw [hinputs state h, EngineInputs.names, List.length_map]
    have hlookup : (state.inputs node).lookup entry.1 = some entry.2 := by
      rw [hinputs state h]
      exact (lookup_eq_some_iff_mem hnames).mpr (hrest List.mem_cons_self)
    rw [List.map_cons, gatherDataFromInputs, if_neg (not_not.mpr hsize), hlookup]
    rw [List.mapM_cons] at hvalues
    obtain ⟨first, hfirst, hvalues⟩ := Option.bind_eq_some_iff.mp hvalues
    obtain ⟨others, hothers, hvalues⟩ := Option.bind_eq_some_iff.mp hvalues
    obtain rfl := Option.some.inj hvalues
    obtain ⟨result, hresult, hfirst⟩ := Option.bind_eq_some_iff.mp hfirst
    obtain ⟨value, hvalue, hfirst⟩ := Option.bind_eq_some_iff.mp hfirst
    obtain rfl := Option.some.inj hfirst
    refine ⟨h, result, hresult, fun state' hstate' => ?_⟩
    dsimp only
    rw [hvalue]
    refine ih (fun other hother => hrest (List.mem_cons_of_mem _ hother)) hothers
      (fun state hstate => ?_) hstate'
    simpa using hnext state hstate

/-- What is gathered are the values of the inputs. -/
theorem gatherDataFromInputs_keeps {node : ℕ}
    {next : List (N × V) → EngineState N V → ResultPlan N V X}
    (hinputs : ∀ state, I state → state.inputs = inputs) (hnames : (inputs.names node).Nodup)
    {rest : List (N × (ℕ × N))} (hrest : rest ⊆ inputs node) {values : List (N × V)}
    (hnext : ∀ new state, I state →
      (∃ depth, rest.mapM (plainOutput (plainResult nodes config inputs depth)) = some new) →
        (next (values ++ new) state).Keeps I
          (fun other result => ∃ depth, plainResult nodes config inputs depth other = some result) Q)
    {state : EngineState N V} (h : I state) :
    (gatherDataFromInputs node (inputs.names node).length next (rest.map Prod.fst) values
      state).Keeps I
        (fun other result => ∃ depth, plainResult nodes config inputs depth other = some result)
        Q := by
  induction rest generalizing values state with
  | nil =>
    have hsize : (state.inputs node).length = (inputs.names node).length := by
      rw [hinputs state h, EngineInputs.names, List.length_map]
    rw [List.map_nil, gatherDataFromInputs, if_neg (not_not.mpr hsize)]
    simpa using hnext [] state h ⟨0, rfl⟩
  | cons entry rest ih =>
    have hsize : (state.inputs node).length = (inputs.names node).length := by
      rw [hinputs state h, EngineInputs.names, List.length_map]
    have hlookup : (state.inputs node).lookup entry.1 = some entry.2 := by
      rw [hinputs state h]
      exact (lookup_eq_some_iff_mem hnames).mpr (hrest List.mem_cons_self)
    rw [List.map_cons, gatherDataFromInputs, if_neg (not_not.mpr hsize), hlookup]
    refine ⟨h, fun result state' hresult hstate' => ?_⟩
    dsimp only
    split
    · exact trivial
    · rename_i value hvalue
      refine ih (fun other hother => hrest (List.mem_cons_of_mem _ hother))
        (fun new state hstate hnew => ?_) hstate'
      rw [List.append_assoc]
      have hmono : ∀ n m, n ≤ m → ∀ entry value,
          plainOutput (plainResult nodes config inputs n) entry = some value →
            plainOutput (plainResult nodes config inputs m) entry = some value :=
        fun _ _ hle _ _ => plainOutput_mono fun _ _ => plainResult_le hle
      refine hnext _ state hstate (mapM_cons_of_depths hmono ?_ hnew)
      obtain ⟨depth, hdepth⟩ := hresult
      exact ⟨depth, by rw [plainOutput, hdepth, Option.bind_eq_bind, Option.bind_some, hvalue]; rfl⟩

/-- Gathering the results of a workflow leads to those of its operators, if these have some. -/
theorem gatherResults_reaches {results : ℕ → Option (List (N × V))}
    {mappings : List (N × (ℕ × N))} {found new : List (N × V)}
    (hvalues : mappings.mapM (plainMapped nodes config results) = some new)
    (hdone : ∀ state, I state → Q (found ++ new) state) {state : EngineState N V} (h : I state) :
    (gatherResults nodes config mappings found state).Reaches I results Q := by
  induction mappings generalizing found new state with
  | nil =>
    obtain rfl := Option.some.inj hvalues
    simpa [gatherResults, Plan.Reaches] using hdone state h
  | cons mapping rest ih =>
    rw [List.mapM_cons] at hvalues
    obtain ⟨first, hfirst, hvalues⟩ := Option.bind_eq_some_iff.mp hvalues
    obtain ⟨others, hothers, hvalues⟩ := Option.bind_eq_some_iff.mp hvalues
    obtain rfl := Option.some.inj hvalues
    have hdone' : ∀ state, I state → Q ((found ++ [first]) ++ others) state := by
      intro state hstate
      simpa using hdone state hstate
    rw [gatherResults]
    unfold plainMapped at hfirst
    split at hfirst
    · rename_i hskipped
      obtain rfl := Option.some.inj hfirst
      rw [if_pos hskipped]
      exact ih hothers hdone' h
    · rename_i hskipped
      obtain ⟨result, hresult, hfirst⟩ := Option.bind_eq_some_iff.mp hfirst
      obtain ⟨value, hvalue, hfirst⟩ := Option.bind_eq_some_iff.mp hfirst
      obtain rfl := Option.some.inj hfirst
      rw [if_neg hskipped]
      refine ⟨h, result, hresult, fun state' hstate' => ?_⟩
      dsimp only
      rw [hvalue]
      exact ih hothers hdone' hstate'

/-- What a workflow gathers are the results of its operators. -/
theorem gatherResults_keeps {mappings : List (N × (ℕ × N))} {found : List (N × V)}
    (hdone : ∀ new state, I state →
      (∃ depth, mappings.mapM (plainMapped nodes config (plainResult nodes config inputs depth)) =
        some new) → Q (found ++ new) state)
    {state : EngineState N V} (h : I state) :
    (gatherResults nodes config mappings found state).Keeps I
      (fun other result => ∃ depth, plainResult nodes config inputs depth other = some result)
      Q := by
  induction mappings generalizing found state with
  | nil => simpa [gatherResults, Plan.Keeps] using hdone [] state h ⟨0, rfl⟩
  | cons mapping rest ih =>
    have hmono : ∀ n m, n ≤ m → ∀ mapping value,
        plainMapped nodes config (plainResult nodes config inputs n) mapping = some value →
          plainMapped nodes config (plainResult nodes config inputs m) mapping = some value :=
      fun _ _ hle _ _ => plainMapped_mono fun _ _ => plainResult_le hle
    rw [gatherResults]
    split
    · rename_i hskipped
      refine ih (fun new state hstate hnew => ?_) h
      rw [List.append_assoc]
      exact hdone _ state hstate
        (mapM_cons_of_depths hmono ⟨0, by rw [plainMapped, if_pos hskipped]⟩ hnew)
    · rename_i hskipped
      refine ⟨h, fun result state' hresult hstate' => ?_⟩
      dsimp only
      split
      · exact trivial
      · rename_i value hvalue
        refine ih (fun new state hstate hnew => ?_) hstate'
        rw [List.append_assoc]
        refine hdone _ state hstate (mapM_cons_of_depths hmono ?_ hnew)
        obtain ⟨depth, hdepth⟩ := hresult
        refine ⟨depth, ?_⟩
        rw [plainMapped, if_neg hskipped, plainOutput, hdepth, Option.bind_eq_bind,
          Option.bind_some, hvalue]
        rfl

/-- The invariant when the result of an object starts to be computed. -/
theorem PlainInvariant.push {stack : List ℕ} {node : ℕ} {state : EngineState N V}
    (h : PlainInvariant nodes config inputs before stack state) {marks : ℕ → Bool}
    (hmarks : ∀ other ≠ node, marks other = state.inComputation other)
    (hnode : marks node = isComputation nodes node) (hnew : state.cachedResult node = none) :
    PlainInvariant nodes config inputs before (node :: stack)
      { state with inputs := inputs, inComputation := marks } :=
  ⟨h.invariant.push hmarks hnode hnew rfl, rfl, h.kept, h.before⟩

/-- The invariant after a result of the recursion has been kept. -/
theorem PlainInvariant.store {stack : List ℕ} {node : ℕ} {state : EngineState N V}
    (h : PlainInvariant nodes config inputs before (node :: stack) state) {marks : ℕ → Bool}
    (hmarks : ∀ other ≠ node, marks other = state.inComputation other) (hnode : marks node = false)
    {result : List (N × V)}
    (hresult : ∃ depth, plainResult nodes config inputs depth node = some result) :
    PlainInvariant nodes config inputs before stack { state with
      inComputation := marks
      cachedResult := Function.update state.cachedResult node (some result) } := by
  refine ⟨h.invariant.of_cached hmarks hnode result, h.inputs_eq, fun other result' hkept => ?_,
    fun other result' hbefore => ?_⟩
  · dsimp only at hkept
    rw [Function.update_apply] at hkept
    split at hkept
    · rename_i heq
      obtain rfl := Option.some.inj hkept
      rw [heq]
      exact hresult
    · exact h.kept other result' hkept
  · have hkept := h.before other result' hbefore
    dsimp only
    rw [Function.update_apply]
    split
    · rename_i heq
      rw [heq] at hkept
      rw [plainResult_unique hresult (h.kept node result' hkept)]
    · exact hkept

/-- Objects which are not computation nodes are not marked. -/
theorem PlainInvariant.not_marked {stack : List ℕ} {node : ℕ} {state : EngineState N V}
    (h : PlainInvariant nodes config inputs before stack state) (hkind : isComputation nodes node = false) :
    state.inComputation node = false := by
  rw [← Bool.not_eq_true, h.invariant.marked node, hkind]
  simp

/-- With settled inputs, the engine follows the recursion. -/
theorem engineSystem_follows (h : Constructed nodes inputs) (hsettled : SettledInputs nodes inputs) :
    (engineSystem nodes config).Follows (PlainInvariant nodes config inputs before)
      (plainResult nodes config inputs) := by
  obtain ⟨hnodes, hwired, -⟩ := h.wired
  have hnodup := h.names_nodup
  refine ⟨fun _ => rfl, plainResult_mono, fun hstate hcached => hstate.kept _ _ hcached, ?_, ?_⟩
  · intro stack state node hstate hnew
    change Plan.Keeps _ _ _ (match nodes[node]? with
      | some (.computation computation) => computation.computeResult node state
      | some (.workflow workflow) => workflow.computeResult nodes config node state
      | none => .done (.error .missingOutput))
    split
    · rename_i computation hcomputation
      have hkind : isComputation nodes node = true := by rw [isComputation, hcomputation]
      have hpushed := hstate.push
        (fun other hother => Function.update_of_ne hother true state.inComputation)
        ((Function.update_self ..).trans hkind.symm) hnew
      have hall : (inputs node).map Prod.fst = inputs.names node := rfl
      rw [ComputationNode.computeResult]
      dsimp only
      rw [hstate.inputs_eq, hall]
      split
      · rename_i hparams
        refine gatherDataFromInputs_keeps (fun _ hstate => hstate.inputs_eq) (hnodup node)
          (List.Subset.refl _) (fun values state' hstate' hvalues => ?_) hpushed
        split
        · exact trivial
        · rename_i result hresult
          have hvalue : ∃ depth, plainResult nodes config inputs depth node = some result := by
            obtain ⟨depth, hdepth⟩ := hvalues
            refine ⟨depth + 1, ?_⟩
            rw [plainResult, hcomputation]
            dsimp only
            rw [if_pos hparams, hdepth, Option.bind_eq_bind, Option.bind_some]
            rw [List.nil_append] at hresult
            rw [hresult]
            rfl
          exact ⟨hvalue, hstate'.store (fun other hother => Function.update_of_ne hother _ _)
            (Function.update_self ..) hvalue⟩
      · exact trivial
    · rename_i workflow hworkflow
      have hkind : isComputation nodes node = false := by rw [isComputation, hworkflow]
      rw [Workflow.computeResult, hstate.inputs_eq]
      rcases wireWorkflowInputs_spec (X := X) hnodes hwired hworkflow with
        ⟨herror, -⟩ | ⟨inputs', hok, -, hmapped⟩
      · rw [herror]
        exact trivial
      · rw [hok, wireWorkflowInputs_settled hsettled hnodup hworkflow hok]
        have hpushed := hstate.push (fun _ _ => rfl) ((hstate.not_marked hkind).trans hkind.symm) hnew
        refine gatherResults_keeps (fun results state' hstate' hresults => ?_) hpushed
        have hvalue : ∃ depth, plainResult nodes config inputs depth node = some results := by
          obtain ⟨depth, hdepth⟩ := hresults
          refine ⟨depth + 1, ?_⟩
          rw [plainResult, hworkflow]
          dsimp only
          rw [if_pos (by simpa using hmapped)]
          exact hdepth
        exact ⟨hvalue, hstate'.store (fun _ _ => rfl) (hstate'.not_marked hkind) hvalue⟩
    · exact trivial
  · intro stack state node depth result hstate hnew hvalue
    change Plan.Reaches _ _ _ (match nodes[node]? with
      | some (.computation computation) => computation.computeResult node state
      | some (.workflow workflow) => workflow.computeResult nodes config node state
      | none => .done (.error .missingOutput))
    have hresult := hvalue
    rw [plainResult] at hvalue
    split at hvalue
    · rename_i computation hcomputation
      have hkind : isComputation nodes node = true := by rw [isComputation, hcomputation]
      have hpushed := hstate.push
        (fun other hother => Function.update_of_ne hother true state.inComputation)
        ((Function.update_self ..).trans hkind.symm) hnew
      have hall : (inputs node).map Prod.fst = inputs.names node := rfl
      split at hvalue
      · rename_i hparams
        obtain ⟨values, hvalues, hfunc⟩ := Option.bind_eq_some_iff.mp hvalue
        rw [ComputationNode.computeResult]
        dsimp only
        rw [hstate.inputs_eq, hall, if_pos hparams]
        refine gatherDataFromInputs_reaches (fun _ hstate => hstate.inputs_eq) (hnodup node)
          (List.Subset.refl _) hvalues (fun state' hstate' => ?_) hpushed
        rw [List.nil_append]
        cases hcomputed : computation.func values with
        | error error => rw [hcomputed] at hfunc; cases hfunc
        | ok computed =>
          rw [hcomputed] at hfunc
          obtain rfl := Option.some.inj hfunc
          exact ⟨rfl, hstate'.store (fun other hother => Function.update_of_ne hother _ _)
            (Function.update_self ..) ⟨depth + 1, hresult⟩⟩
      · cases hvalue
    · rename_i workflow hworkflow
      have hkind : isComputation nodes node = false := by rw [isComputation, hworkflow]
      split at hvalue
      · rename_i hmapped
        rw [Workflow.computeResult, hstate.inputs_eq]
        rcases wireWorkflowInputs_spec (X := X) hnodes hwired hworkflow with
          ⟨-, mapping, hmapping, hnot⟩ | ⟨inputs', hok, -, -⟩
        · rw [List.all_eq_true] at hmapped
          exact absurd (by simpa using hmapped mapping hmapping) hnot
        · rw [hok, wireWorkflowInputs_settled hsettled hnodup hworkflow hok]
          have hpushed :=
            hstate.push (fun _ _ => rfl) ((hstate.not_marked hkind).trans hkind.symm) hnew
          refine gatherResults_reaches hvalue (fun state' hstate' => ?_) hpushed
          exact ⟨rfl, hstate'.store (fun _ _ => rfl) (hstate'.not_marked hkind)
            ⟨depth + 1, hresult⟩⟩
      · cases hvalue
    · cases hvalue

/-- What an object returns is the result of the recursion, and it is kept with those which were kept
before. -/
theorem PlainInvariant.of_nodeResult (hstate : PlainInvariant nodes config inputs before [] state)
    (h : Constructed nodes inputs) (hsettled : SettledInputs nodes inputs) {fuel node : ℕ}
    {result : List (N × V)} {state' : EngineState N V}
    (hreturned : nodeResult nodes config fuel node state = some (.ok (result, state'))) :
    (∃ depth, plainResult nodes config inputs depth node = some result) ∧
      PlainInvariant nodes config inputs state.cachedResult [] state' ∧
      state'.cachedResult node = some result := by
  have hnow : PlainInvariant nodes config inputs state.cachedResult [] state :=
    ⟨hstate.invariant, hstate.inputs_eq, hstate.kept, fun _ _ => id⟩
  obtain ⟨hresult, hstate'⟩ := (engineSystem_follows h hsettled).of_evaluate hnow hreturned
  exact ⟨hresult, hstate', System.cached_of_evaluate
    (fun _ _ _ => Function.update_self ..) hreturned⟩

/-- A result of the recursion is returned. -/
theorem PlainInvariant.exists_nodeResult
    (hstate : PlainInvariant nodes config inputs before [] state) (h : Constructed nodes inputs)
    (hsettled : SettledInputs nodes inputs) {node depth : ℕ} {result : List (N × V)}
    (hresult : plainResult nodes config inputs depth node = some result) :
    ∃ fuel state', nodeResult nodes config fuel node state = some (.ok (result, state')) := by
  refine ((engineSystem_follows h hsettled).evaluate_iff (fun stack other state' hstate' htest => ?_)
    hstate).mpr ⟨depth, hresult⟩
  rw [detectsCycle, Bool.and_eq_true] at htest
  exact ((hstate'.invariant.marked other).mp htest.2).2.1

/-- The invariant for objects of which no result has been requested. -/
theorem plainInvariant_fresh (h : Constructed nodes inputs) :
    PlainInvariant nodes config inputs (fun _ => none) [] (freshState V inputs) := by
  have hfresh : AfterRequests nodes config inputs (freshState V inputs) := .fresh
  exact ⟨hfresh.invariant h, rfl, fun _ _ hkept => (nomatch hkept), fun _ _ hkept => (nomatch hkept)⟩

end Recursion

end HetidaDesigner
