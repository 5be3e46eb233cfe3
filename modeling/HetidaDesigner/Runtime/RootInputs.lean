import HetidaDesigner.Backend.Handover
import HetidaDesigner.Runtime.Parsing

/-!
# Providers of the inputs of the root workflow

How data is loaded from adapters by `wiring/__init__.py` and provided to the parsed workflow by
`runtime/service.py`. What adapters return and how metadata is attached to it are parameters.
-/

namespace HetidaDesigner

open Checks KeyedList

/-- Loading data from an adapter, for the wirings with the names of their inputs, and updating the
metadata of an object. -/
structure LoadingTools (J W E : Type) where
  loadDataFromAdapter : AdapterId → List (PyStr × WiringData J) → Except E (List (PyStr × W))
  updateMetadata : List (PyStr × JsonValue J) → W → W

/-- Reasons for not evaluating a workflow. -/
inductive ServiceError (E : Type)
  | parsing (error : ParsingError)
  | adapter (error : E)
  | keyError
  deriving DecidableEq, Repr

section Service

variable {V J W X E : Type}

/-! ## Loading data -/

/-- `wirings_by_adapter` -/
def wiringsByAdapter (inputWirings : List (Wiring (WiringData J))) :
    List (AdapterId × List (Wiring (WiringData J))) :=
  groupBy (fun wiring => wiring.adapterId)
    (inputWirings.filter fun wiring => !wiring.data.useDefaultValue)

/-- `update_with_metdata_from_input_wiring` for the object loaded for a wiring. -/
def updateWithMetadata (loading : LoadingTools J W E) (data : List (PyStr × W))
    (wiring : Wiring (WiringData J)) : List (PyStr × W) :=
  match wiring.data.attrs with
  | none => data
  | some attrs => data.map fun entry =>
    if entry.1 = wiring.data.name then (entry.1, loading.updateMetadata attrs entry.2) else entry

/-- Load the data of one adapter, for the wirings with it. -/
def loadGroup (loading : LoadingTools J W E) (loaded : List (PyStr × W))
    (group : AdapterId × List (Wiring (WiringData J))) : Except E (List (PyStr × W)) := do
  let data ← loading.loadDataFromAdapter group.1
    (insertAll Prod.fst [] (group.2.map fun wiring => (wiring.data.name, wiring.data)))
  return insertAll Prod.fst loaded (group.2.foldl (updateWithMetadata loading) data)

/-- `resolve_and_load_data_from_wiring` -/
def resolveAndLoadDataFromWiring (loading : LoadingTools J W E)
    (inputWirings : List (Wiring (WiringData J))) : Except E (List (PyStr × W)) :=
  (wiringsByAdapter inputWirings).foldlM (loadGroup loading) []

/-! ## Providing it -/

/-- The loaded value of an input, and whether the input has a default value; of inputs with the same
name the last one counts. -/
def constantProvidingData (inputs : List (WorkflowInput V)) (entry : PyStr × W) :
    Except (ServiceError E) (NamedDataTypedValue W × Bool) :=
  match LastEntry.lastEntry (fun input : WorkflowInput V => input.name) inputs (some entry.1) with
  | none => .error .keyError
  | some input => .ok (⟨entry.1, input.type, entry.2⟩, input.default)

/-- What `runtime_service_handling` does before it runs the workflow: parse it, load data and
provide it. -/
def prepareWorkflow (tools : ParsingTools V W X) (loading : LoadingTools J W E)
    (workflow : SubNode V) (wiring : WorkflowWiring (WiringData J)) :
    Except (ServiceError E) (ℕ × EngineObjects W X) := do
  let (root, objects) ← (parseWorkflowInput tools workflow).mapError .parsing
  let loaded ← (resolveAndLoadDataFromWiring loading wiring.inputWirings).mapError .adapter
  let values ← loaded.mapM (constantProvidingData workflow.inputs)
  let objects ← (addConstantProvidingNode tools root
    ((values.filter fun value => !value.2).map Prod.fst) false objects).mapError .parsing
  let objects ← (addConstantProvidingNode tools root
    ((values.filter fun value => value.2).map Prod.fst) true objects).mapError .parsing
  return (root, objects)

/-! ## Providers -/

/-- Adapters return values for the inputs for which they are asked. -/
def AdaptersAnswer (loading : LoadingTools J W E) : Prop :=
  ∀ adapterId requests data, loading.loadDataFromAdapter adapterId requests = .ok data →
    ∀ name, name ∈ data.map Prod.fst ↔ name ∈ requests.map Prod.fst

/-- All mapped inputs of a workflow object have a provider, so that wiring it does not fail. -/
def InputsProvided (objects : EngineObjects W X) (node : ℕ) : Prop :=
  ∃ workflow, objects.nodes[node]? = some (.workflow workflow) ∧
    (∀ mapping ∈ workflow.inputMappings, mapping.1 ∈ objects.inputs.names node) ∧
    ∃ inputs, wireWorkflowInputs objects.nodes node workflow objects.inputs = .ok inputs

/-- Dynamic inputs have names of fields, and default values are only asked for where there are
some. -/
structure DefaultsAvailable (inputs : List (WorkflowInput V))
    (inputWirings : List (Wiring (WiringData J))) : Prop where
  named : ∀ input ∈ inputs, input.constant = false → input.name.any isFieldName = true
  default : ∀ wiring ∈ inputWirings, wiring.data.useDefaultValue = true →
    wiring.data.name ∈ providedNames inputs

/-! ## Loaded data -/

variable {loading : LoadingTools J W E}

/-- Metadata does not change for which inputs there is data. -/
theorem map_fst_updateWithMetadata (data : List (PyStr × W)) (wiring : Wiring (WiringData J)) :
    (updateWithMetadata loading data wiring).map Prod.fst = data.map Prod.fst := by
  unfold updateWithMetadata
  split
  · rfl
  · rw [List.map_map]
    refine List.map_congr_left fun entry _ => ?_
    rw [Function.comp_apply]
    split <;> rfl

/-- Metadata of several wirings does not change it either. -/
theorem map_fst_foldl_updateWithMetadata (wirings : List (Wiring (WiringData J)))
    (data : List (PyStr × W)) :
    (wirings.foldl (updateWithMetadata loading) data).map Prod.fst = data.map Prod.fst := by
  induction wirings generalizing data with
  | nil => rfl
  | cons wiring rest ih =>
    rw [List.foldl_cons, ih, map_fst_updateWithMetadata]

/-- The names for which the data of some adapters is loaded. -/
theorem mem_names_of_loadGroups (hanswer : AdaptersAnswer loading)
    {groups : List (AdapterId × List (Wiring (WiringData J)))}
    {before loaded : List (PyStr × W)}
    (h : groups.foldlM (loadGroup loading) before = .ok loaded) (name : PyStr) :
    name ∈ loaded.map Prod.fst ↔ name ∈ before.map Prod.fst ∨
      ∃ group ∈ groups, ∃ wiring ∈ group.2, wiring.data.name = name := by
  induction groups generalizing before with
  | nil =>
    obtain rfl := return_eq_ok.mp h
    simp
  | cons group rest ih =>
    rw [List.foldlM_cons] at h
    obtain ⟨between, hgroup, hrest⟩ := bind_eq_ok.mp h
    obtain ⟨data, hdata, hgroup⟩ := bind_eq_ok.mp hgroup
    obtain rfl := return_eq_ok.mp hgroup
    have hnames : name ∈ data.map Prod.fst ↔ ∃ wiring ∈ group.2, wiring.data.name = name := by
      rw [hanswer _ _ _ hdata name, mem_map_insertAll_nil_iff, List.map_map, List.mem_map]
      rfl
    rw [ih hrest, mem_map_insertAll_iff, map_fst_foldl_updateWithMetadata, hnames, or_assoc]
    simp only [List.mem_cons, exists_eq_or_imp]

/-- Data is loaded for the wirings which do not ask for the default value. -/
theorem mem_names_loaded_iff (hanswer : AdaptersAnswer loading)
    {inputWirings : List (Wiring (WiringData J))} {loaded : List (PyStr × W)}
    (h : resolveAndLoadDataFromWiring loading inputWirings = .ok loaded) (name : PyStr) :
    name ∈ loaded.map Prod.fst ↔ ∃ wiring ∈ inputWirings,
      wiring.data.useDefaultValue = false ∧ wiring.data.name = name := by
  rw [mem_names_of_loadGroups hanswer h, List.map_nil,
    or_iff_right List.not_mem_nil]
  have hgroups (wiring : Wiring (WiringData J)) :
      (∃ group ∈ wiringsByAdapter inputWirings, wiring ∈ group.2) ↔
        wiring ∈ inputWirings ∧ wiring.data.useDefaultValue = false := by
    rw [wiringsByAdapter, exists_mem_groupBy_iff, List.mem_filter, Bool.not_eq_true']
  constructor
  · rintro ⟨group, hgroup, wiring, hwiring, hname⟩
    obtain ⟨hmem, hload⟩ := (hgroups wiring).mp ⟨group, hgroup, hwiring⟩
    exact ⟨wiring, hmem, hload, hname⟩
  · rintro ⟨wiring, hmem, hload, hname⟩
    obtain ⟨group, hgroup, hwiring⟩ := (hgroups wiring).mpr ⟨hmem, hload⟩
    exact ⟨group, hgroup, wiring, hwiring, hname⟩

/-! ## Prepared workflows -/

variable {tools : ParsingTools V W X} {objects : EngineObjects W X}

/-- The loaded values keep their names. -/
theorem map_name_of_constantProvidingData {inputs : List (WorkflowInput V)}
    {loaded : List (PyStr × W)} {values : List (NamedDataTypedValue W × Bool)}
    (h : loaded.mapM (constantProvidingData (E := E) inputs) = .ok values) :
    values.map (fun value => value.1.name) = loaded.map Prod.fst := by
  refine map_eq_of_mapM h fun entry value hvalue => ?_
  unfold constantProvidingData at hvalue
  split at hvalue
  · cases hvalue
  · obtain rfl := Except.ok.inj hvalue
    rfl

/-- The values of required inputs and those of optional ones are all values. -/
theorem exists_mem_split_iff {values : List (NamedDataTypedValue W × Bool)} {name : PyStr} :
    ((∃ value ∈ (values.filter fun value => !value.2).map Prod.fst, name = value.name) ∨
      ∃ value ∈ (values.filter fun value => value.2).map Prod.fst, name = value.name) ↔
        name ∈ values.map fun value => value.1.name := by
  simp only [List.mem_map, List.mem_filter]
  constructor
  · rintro (⟨_, ⟨value, ⟨hvalue, -⟩, rfl⟩, rfl⟩ | ⟨_, ⟨value, ⟨hvalue, -⟩, rfl⟩, rfl⟩)
    · exact ⟨value, hvalue, rfl⟩
    · exact ⟨value, hvalue, rfl⟩
  · rintro ⟨value, hvalue, rfl⟩
    cases hoptional : value.2 with
    | false => exact Or.inl ⟨_, ⟨value, ⟨hvalue, by simp [hoptional]⟩, rfl⟩, rfl⟩
    | true => exact Or.inr ⟨_, ⟨value, ⟨hvalue, hoptional⟩, rfl⟩, rfl⟩

/-- The root workflow after a preparation: which of its inputs are mapped and which have a source. -/
theorem exists_of_prepareWorkflow (hanswer : AdaptersAnswer loading) {node : WorkflowNodeData V}
    {subNodes : List (SubNode V)} {wiring : WorkflowWiring (WiringData J)} {root : ℕ}
    (h : prepareWorkflow tools loading (.workflow node subNodes) wiring = .ok (root, objects)) :
    objects.Built ∧ ∃ workflow, objects.nodes[root]? = some (.workflow workflow) ∧
      (∀ name, name ∈ workflow.inputMappings.map Prod.fst ↔ name ∈ mappedNames node.inputs) ∧
      ∀ name, name ∈ objects.inputs.names root ↔ ∃ source, name = some source ∧
        (source ∈ providedNames node.inputs ∨ isFieldName source = true ∧
          ∃ inputWiring ∈ wiring.inputWirings,
            inputWiring.data.useDefaultValue = false ∧ inputWiring.data.name = source) := by
  obtain ⟨⟨root', parsed⟩, hparsed, h⟩ := bind_eq_ok.mp h
  obtain ⟨loaded, hloaded, h⟩ := bind_eq_ok.mp h
  obtain ⟨values, hvalues, h⟩ := bind_eq_ok.mp h
  obtain ⟨withRequired, hrequired, h⟩ := bind_eq_ok.mp h
  obtain ⟨withAll, hoptional, h⟩ := bind_eq_ok.mp h
  obtain ⟨rfl, rfl⟩ := Prod.mk.inj (return_eq_ok.mp h)
  obtain ⟨hbuilt, workflow, hworkflow⟩ := exists_parsedWorkflow (mapError_eq_ok.mp hparsed)
  obtain ⟨hbuilt₁, ⟨node₁, hnodes₁⟩, hnames₁⟩ :=
    hbuilt.addConstantProvidingNode hworkflow.lt (mapError_eq_ok.mp hrequired)
  have hlt : root' < withRequired.nodes.length := by
    rw [hnodes₁, List.length_append]
    exact Nat.lt_add_right _ hworkflow.lt
  obtain ⟨hbuilt₂, ⟨node₂, hnodes₂⟩, hnames₂⟩ :=
    hbuilt₁.addConstantProvidingNode hlt (mapError_eq_ok.mp hoptional)
  refine ⟨hbuilt₂, workflow, ?_, hworkflow.mapped, fun name => ?_⟩
  · rw [hnodes₂, hnodes₁, List.append_assoc, List.getElem?_append_left hworkflow.lt]
    exact hworkflow.object
  · have hsplit (source : PyStr) := @exists_mem_split_iff W values source
    have hload := mem_names_loaded_iff hanswer (mapError_eq_ok.mp hloaded)
    rw [map_name_of_constantProvidingData hvalues] at hsplit
    rw [hnames₂, hnames₁, hworkflow.provided, or_assoc]
    constructor
    · rintro (⟨source, hsource, rfl⟩ | ⟨value, hvalue, hfield, rfl⟩ | ⟨value, hvalue, hfield, rfl⟩)
      · exact ⟨source, rfl, Or.inl hsource⟩
      · have hwired := (hload _).mp ((hsplit _).mp (Or.inl ⟨value, hvalue, rfl⟩))
        exact ⟨_, rfl, Or.inr ⟨hfield, hwired⟩⟩
      · have hwired := (hload _).mp ((hsplit _).mp (Or.inr ⟨value, hvalue, rfl⟩))
        exact ⟨_, rfl, Or.inr ⟨hfield, hwired⟩⟩
    · rintro ⟨source, rfl, hsource | ⟨hfield, hsource⟩⟩
      · exact Or.inl ⟨source, hsource, rfl⟩
      · rcases (hsplit source).mpr ((hload source).mpr hsource) with
          ⟨value, hvalue, rfl⟩ | ⟨value, hvalue, rfl⟩
        · exact Or.inr (Or.inl ⟨value, hvalue, hfield, rfl⟩)
        · exact Or.inr (Or.inr ⟨value, hvalue, hfield, rfl⟩)

/-- Providers of all mapped inputs, in terms of the names of inputs. -/
theorem inputsProvided_iff (hbuilt : objects.Built) {root : ℕ}
    {workflow : HetidaDesigner.Workflow (Option PyStr)}
    (hworkflow : objects.nodes[root]? = some (.workflow workflow)) :
    InputsProvided objects root ↔
      ∀ name ∈ workflow.inputMappings.map Prod.fst, name ∈ objects.inputs.names root := by
  obtain ⟨hnodes, hwired, -⟩ := Constructed.wired hbuilt
  constructor
  · rintro ⟨workflow', hworkflow', hnames, -⟩ name hname
    obtain rfl := EngineNode.workflow.inj (Option.some.inj (hworkflow'.symm.trans hworkflow))
    obtain ⟨mapping, hmapping, rfl⟩ := List.mem_map.mp hname
    exact hnames mapping hmapping
  · intro hnames
    have hmappings : ∀ mapping ∈ workflow.inputMappings, mapping.1 ∈ objects.inputs.names root :=
      fun mapping hmapping => hnames _ (List.mem_map_of_mem hmapping)
    refine ⟨workflow, hworkflow, hmappings, ?_⟩
    rcases wireWorkflowInputs_spec hnodes hwired hworkflow with
      ⟨-, mapping, hmapping, hnot⟩ | ⟨inputs, hinputs, -⟩
    · exact absurd (hmappings mapping hmapping) hnot
    · exact ⟨inputs, hinputs⟩

/-- The names of mapped inputs: those of dynamic inputs and generated ones. -/
theorem mem_mappedNames_iff {node : WorkflowNodeData V} {subNodes : List (SubNode V)}
    {name : Option PyStr} :
    name ∈ mappedNames node.inputs ↔
      name ∈ dynamicInputNames (.workflow node subNodes) false ∨
        name ∈ dynamicInputNames (.workflow node subNodes) true ∨
        ∃ input ∈ constantInputs node.inputs, name = some (generateConstantInputName input) := by
  rw [mappedNames, List.map_append, List.mem_append, List.mem_append, or_assoc]
  refine or_congr_right (or_congr_right ?_)
  simp only [List.mem_map, eq_comm]

/-- What is provided is a field. -/
theorem isFieldName_of_mem_providedNames {inputs : List (WorkflowInput V)} {name : PyStr}
    (h : name ∈ providedNames inputs) : isFieldName name = true := by
  rcases List.mem_append.mp h with hdefault | hconstant
  · exact (List.mem_filter.mp hdefault).2
  · obtain ⟨input, -, rfl⟩ := List.mem_map.mp hconstant
    exact isFieldName_generateConstantInputName input

/-- Dynamic inputs have the names of fields, if all which are not constant have. -/
theorem exists_dynamicInput {node : WorkflowNodeData V} {subNodes : List (SubNode V)}
    (hnamed : ∀ input ∈ node.inputs, input.constant = false → input.name.any isFieldName = true)
    {default : Bool} {name : Option PyStr}
    (h : name ∈ dynamicInputNames (.workflow node subNodes) default) :
    ∃ input ∈ dynamicInputs default node.inputs, input.name = name ∧
      name.any isFieldName = true := by
  obtain ⟨input, hinput, rfl⟩ := List.mem_map.mp h
  obtain ⟨hmem, hrole⟩ := List.mem_filter.mp hinput
  have hdynamic : input.constant = false := by simpa using (Bool.and_eq_true_iff.mp hrole).1
  exact ⟨input, hinput, rfl, hnamed input hmem hdynamic⟩

/-- In a prepared workflow with a complete wiring every input of the root workflow has a provider
exactly if dynamic inputs have names of fields and default values are available where they are asked
for. -/
theorem rootInputsProvided_iff (hanswer : AdaptersAnswer loading) {node : WorkflowNodeData V}
    {subNodes : List (SubNode V)} {wiring completed : WorkflowWiring (WiringData J)}
    (hunique : (wiredNames wiring.inputWirings).Nodup)
    (hcomplete : checkWiringComplete (.workflow node subNodes) wiring = .ok completed) {root : ℕ}
    (hprepared : prepareWorkflow tools loading (.workflow node subNodes) completed =
      .ok (root, objects)) :
    InputsProvided objects root ↔ DefaultsAvailable node.inputs completed.inputWirings := by
  obtain ⟨hrequired, hknown, -, rfl⟩ := checkWiringComplete_eq_ok.mp hcomplete
  obtain ⟨hbuilt, workflow, hworkflow, hmapped, hnames⟩ :=
    exists_of_prepareWorkflow hanswer hprepared
  rw [inputsProvided_iff hbuilt hworkflow]
  simp only [hmapped, hnames]
  constructor
  · intro hall
    refine ⟨fun input hinput hdynamic => ?_, fun inputWiring hwiring hdefault => ?_⟩
    · have hmem : input.name ∈ mappedNames node.inputs := by
        refine List.mem_append_left _ (List.mem_map_of_mem ?_)
        cases hoptional : input.default with
        | false => exact List.mem_append_left _ (List.mem_filter.mpr ⟨hinput, by simp [*]⟩)
        | true => exact List.mem_append_right _ (List.mem_filter.mpr ⟨hinput, by simp [*]⟩)
      obtain ⟨source, hsource, hprovided⟩ := hall _ hmem
      rw [hsource, Option.any_some]
      exact hprovided.elim isFieldName_of_mem_providedNames And.left
    · have hwired : inputWiring.data.name ∈ wiredNames wiring.inputWirings :=
        List.mem_map_of_mem hwiring
      have hmem : some inputWiring.data.name ∈ mappedNames node.inputs := by
        rcases List.mem_append.mp (hknown _ (List.mem_map_of_mem hwired)) with hname | hname
        · exact (@mem_mappedNames_iff V node subNodes _).mpr (Or.inl hname)
        · exact (@mem_mappedNames_iff V node subNodes _).mpr (Or.inr (Or.inl hname))
      obtain ⟨source, hsource, hprovided⟩ := hall _ hmem
      obtain rfl := Option.some.inj hsource
      rcases hprovided with hprovided | ⟨-, other, hother, hload, hname⟩
      · exact hprovided
      · obtain rfl := KeyedList.eq_of_key_eq hunique hother hwiring hname
        rw [hload] at hdefault
        cases hdefault
  · rintro ⟨hnamed, hdefault⟩ name hname
    rcases (@mem_mappedNames_iff V node subNodes _).mp hname with
      hname | hname | ⟨input, hinput, rfl⟩
    · obtain ⟨input, -, -, hfield⟩ := exists_dynamicInput hnamed hname
      obtain ⟨source, hsource, rfl⟩ := List.mem_map.mp (hrequired name hname)
      obtain ⟨inputWiring, hwiring, rfl⟩ := List.mem_map.mp hsource
      refine ⟨_, rfl, ?_⟩
      cases huse : inputWiring.data.useDefaultValue with
      | false => exact Or.inr ⟨hfield, inputWiring, hwiring, huse, rfl⟩
      | true => exact Or.inl (hdefault inputWiring hwiring huse)
    · obtain ⟨input, hinput, hinputName, hfield⟩ := exists_dynamicInput hnamed hname
      obtain ⟨source, rfl, hfield⟩ := (Option.any_eq_true _ _).mp hfield
      refine ⟨source, rfl, Or.inl (List.mem_append_left _ (List.mem_filter.mpr ⟨?_, hfield⟩))⟩
      exact List.mem_filterMap.mpr ⟨input, hinput, hinputName⟩
    · exact ⟨_, rfl, Or.inl (List.mem_append_right _ (List.mem_map_of_mem hinput))⟩

end Service

/-! ## Workflows with one component -/

/-- Tools with which every component returns the values it gets, and `null` is no value. -/
def echoTools : ParsingTools PyStr (Option PyStr) Unit where
  loadComponent := fun _ => some ⟨.ok, [], false⟩
  ofJson := id
  parseValue := fun _ nullable value => if nullable || value.isSome then some value else none
  refusesName := fun name => name = "keys".toList

/-- Adapters which return the reference ids of sources. -/
def refIdLoading : LoadingTools Unit (Option PyStr) Unit where
  loadDataFromAdapter := fun _ requests => .ok (requests.map fun request =>
    (request.1, request.2.refId))
  updateMetadata := fun _ value => value

/-- They answer. -/
theorem refIdLoading_answers : AdaptersAnswer refIdLoading := by
  intro adapterId requests data h name
  obtain rfl := Except.ok.inj h
  rw [List.map_map]
  rfl

/-- An input of the component as one of the workflow. -/
def echoInput (name : Option PyStr) (default : Bool) : WorkflowInput PyStr where
  id := 1
  name := name
  type := .string
  idOfSubNode := ['c']
  nameInSubnode := ['a']
  constantValue := none
  defaultValue := none
  constant := false
  default := default
  name_or_constant_data_provided := nofun

/-- A workflow with the component. -/
def echoWorkflow (inputs : List (WorkflowInput PyStr)) : WorkflowNodeData PyStr where
  id := ['w']
  connections := []
  inputs := inputs
  outputs := []
  name := none
  trId := 2
  trName := []
  trTag := []

/-- A wiring of `x`. -/
def echoWiring (useDefaultValue : Bool) : WorkflowWiring (WiringData Unit) where
  inputWirings := [{
    adapterId := .int 1
    data := ⟨['x'], none, some ['v'], none, none, none, useDefaultValue, [], none⟩ }]
  outputWirings := []
  dashboardPositionings := []

/-- Instance of `rootInputsProvided_iff`: a required input whose data is loaded. -/
theorem required_provided :
    ∃ root objects, prepareWorkflow echoTools refIdLoading
        (.workflow (echoWorkflow [echoInput (some ['x']) false])
          [.component ⟨['c'], ['u'], none⟩]) (echoWiring false) = .ok (root, objects) ∧
      InputsProvided objects root := by
  refine ⟨_, _, rfl, ?_⟩
  refine (@rootInputsProvided_iff PyStr Unit (Option PyStr) Unit Unit refIdLoading echoTools _
    refIdLoading_answers (echoWorkflow [echoInput (some ['x']) false])
    [.component ⟨['c'], ['u'], none⟩] (echoWiring false) (echoWiring false) (by decide) rfl _
    rfl).mpr ⟨?_, ?_⟩
  · intro input hinput _
    obtain rfl := List.mem_singleton.mp hinput
    decide
  · intro wiring hwiring huse
    obtain rfl := List.mem_singleton.mp hwiring
    cases huse

/-- A required input whose default value is asked for is accepted, but has no provider. -/
theorem required_without_provider :
    ∃ (root : ℕ) (objects : EngineObjects (Option PyStr) Unit),
      checkWiringComplete (.workflow (echoWorkflow [echoInput (some ['x']) false])
        [.component ⟨['c'], ['u'], none⟩]) (echoWiring true) = .ok (echoWiring true) ∧
      (wiredNames (echoWiring true).inputWirings).Nodup ∧ AdaptersAnswer refIdLoading ∧
      prepareWorkflow echoTools refIdLoading
        (.workflow (echoWorkflow [echoInput (some ['x']) false])
          [.component ⟨['c'], ['u'], none⟩]) (echoWiring true) = .ok (root, objects) ∧
      ¬ InputsProvided objects root := by
  refine ⟨_, _, rfl, by decide, refIdLoading_answers, rfl, ?_⟩
  rintro ⟨workflow, hworkflow, hnames, -⟩
  obtain rfl := EngineNode.workflow.inj (Option.some.inj hworkflow)
  exact absurd (hnames _ List.mem_cons_self) (by decide)

end HetidaDesigner
