import HetidaDesigner.Runtime.Engine
import HetidaDesigner.Runtime.Nodes

/-!
# Parsing workflow nodes into the engine

`runtime/engine/plain/parsing.py`: from a workflow node and its sub nodes to objects of the engine,
with their connections, default values and constants. Loading the function of a component and
parsing a value according to a data type are parameters. Names of inputs may be missing, hence the
names in the engine are optional texts. Values are parsed as fields of a model which pydantic
creates for them, so that values under names of private attributes get lost.
-/

namespace HetidaDesigner

open Checks KeyedList

/-- Reasons for not building the objects of the engine. -/
inductive ParsingError
  | componentLoading
  | connectionInvalid
  | inputDataValidation
  | fieldName
  | keyError
  deriving DecidableEq, Repr

/-- Loading components, and values of the engine: how they come from texts and other JSON values,
how they are parsed according to a data type, which may be optional, and under which names pydantic
raises other errors than that of a validation. -/
structure ParsingTools (V W X : Type) where
  loadComponent : PyStr → Option (ComputationNode (Option PyStr) W X)
  ofJson : Option V → W
  parseValue : DataType → Bool → W → Option W
  refusesName : PyStr → Bool

/-- All objects, with the attributes that change after their creation. -/
structure EngineObjects (W X : Type) where
  nodes : List (EngineNode (Option PyStr) W X)
  inputs : EngineInputs (Option PyStr)
  subNodes : ℕ → List ℕ

/-- A value with a name and the data type according to which it has to be parsed. -/
structure NamedDataTypedValue (W : Type) where
  name : PyStr
  type : DataType
  value : W

section Parsing

variable {V W X : Type} (tools : ParsingTools V W X)

/-- Create an object. -/
def EngineObjects.create (objects : EngineObjects W X)
    (node : EngineNode (Option PyStr) W X) : EngineObjects W X :=
  { objects with nodes := objects.nodes ++ [node] }

/-- `add_inputs` -/
def EngineObjects.addInputs (objects : EngineObjects W X) (node : ℕ)
    (newInputs : List (Option PyStr × (ℕ × Option PyStr))) :
    Except ParsingError (EngineObjects W X) :=
  match HetidaDesigner.addInputs objects.nodes node newInputs objects.inputs with
  | none => .error .keyError
  | some inputs => .ok { objects with inputs := inputs }

/-- A node with no inputs which provides values. -/
def constantProvidingNode (parsedValues : List (PyStr × W)) : ComputationNode (Option PyStr) W X where
  func := fun _ => .ok (parsedValues.map fun entry => (some entry.1, entry.2))
  requiredParams := []
  hasOnlyPlotOutputs := false

/-- Whether a name is one of a field: in `create_model` of pydantic, one with a leading underscore is
a private attribute and `model_config` the configuration. -/
def isFieldName (name : PyStr) : Bool :=
  name.head? != some '_' && name != "model_config".toList

/-- The value of a field, parsed according to its data type. -/
def parseField (nullable : Bool) (entry : NamedDataTypedValue W) :
    Except ParsingError (PyStr × W) :=
  match tools.parseValue entry.type nullable entry.value with
  | none => .error .inputDataValidation
  | some value => .ok (entry.name, value)

/-- `parse_dynamically_from_datatypes`, and `dict` of what it returns; of values with the same name
the last one counts. -/
def parseDynamicallyFromDatatypes (values : List (NamedDataTypedValue W)) (nullable : Bool) :
    Except ParsingError (List (PyStr × W)) :=
  let entries := insertAll NamedDataTypedValue.name [] values
  if entries.any fun entry => tools.refusesName entry.name then .error .fieldName
  else
    -- what is no field is neither parsed nor part of the dictionary
    (entries.filter fun entry => isFieldName entry.name).mapM (parseField tools nullable)

/-- `add_constant_providing_node` -/
def addConstantProvidingNode (workflow : ℕ) (values : List (NamedDataTypedValue W))
    (nullable : Bool) (objects : EngineObjects W X) :
    Except ParsingError (EngineObjects W X) := do
  let parsedValues ← parseDynamicallyFromDatatypes tools values nullable
  let constNode := objects.nodes.length
  let objects := objects.create (.computation (constantProvidingNode parsedValues))
  let objects := { objects with
    subNodes := Function.update objects.subNodes workflow
      (objects.subNodes workflow ++ [constNode]) }
  objects.addInputs workflow
    (parsedValues.map fun entry => (some entry.1, (constNode, some entry.1)))

/-- `apply_connections`, with the sub nodes by their ids. -/
def applyConnections (subNodes : List (PyStr × ℕ)) (connections : List WorkflowConnection)
    (objects : EngineObjects W X) : Except ParsingError (EngineObjects W X) :=
  connections.foldlM (fun objects connection =>
    match subNodes.lookup connection.inputInWorkflowId,
      subNodes.lookup connection.outputInWorkflowId with
    | some source, some target =>
      objects.addInputs target [(some connection.outputName, (source, some connection.inputName))]
    | _, _ => .error .connectionInvalid) objects

/-- `generate_constant_input_name` -/
def generateConstantInputName (input : WorkflowInput V) : PyStr :=
  "generated_constant_input_".toList ++ input.idOfSubNode ++ "_".toList ++ input.nameInSubnode

/-- The dynamic inputs of `obtain_inputs_by_role`, without or with default values. -/
def dynamicInputs (default : Bool) (inputs : List (WorkflowInput V)) : List (WorkflowInput V) :=
  inputs.filter fun input => !input.constant && input.default == default

/-- The constant inputs of `obtain_inputs_by_role`. -/
def constantInputs (inputs : List (WorkflowInput V)) : List (WorkflowInput V) :=
  inputs.filter fun input => input.constant

/-- The place to which something of a workflow is mapped. -/
def mappedTo (subNodes : List (PyStr × ℕ)) (idOfSubNode nameInSubnode : PyStr) :
    Except ParsingError (ℕ × Option PyStr) :=
  match subNodes.lookup idOfSubNode with
  | none => .error .keyError
  | some subNode => .ok (subNode, some nameInSubnode)

/-- The entries of the input mappings of `obtain_mappings`: those of dynamic inputs without and with
default values and those of constants. -/
def obtainInputMappings (subNodes : List (PyStr × ℕ)) (inputs : List (WorkflowInput V)) :
    Except ParsingError (List (Option PyStr × (ℕ × Option PyStr))) := do
  let dynamic ← (dynamicInputs false inputs ++ dynamicInputs true inputs).mapM fun input => do
    return (input.name, ← mappedTo subNodes input.idOfSubNode input.nameInSubnode)
  let constant ← (constantInputs inputs).mapM fun input => do
    return (some (generateConstantInputName input),
      ← mappedTo subNodes input.idOfSubNode input.nameInSubnode)
  return dynamic ++ constant

/-- The entries of the output mappings of `obtain_mappings`. -/
def obtainOutputMappings (subNodes : List (PyStr × ℕ)) (outputs : List WorkflowOutput) :
    Except ParsingError (List (Option PyStr × (ℕ × Option PyStr))) :=
  outputs.mapM fun output => do
    return (some output.name, ← mappedTo subNodes output.idOfSubNode output.nameInSubnode)

/-- `only_plot_outputs` -/
def onlyPlotOutputs (outputs : List WorkflowOutput) : Bool :=
  !outputs.isEmpty && outputs.all fun output => output.type = .plotlyJson

/-- The default values which are provided for inputs of a workflow. -/
def defaultValues (inputs : List (WorkflowInput V)) : List (NamedDataTypedValue W) :=
  (dynamicInputs true inputs).filterMap fun input =>
    input.name.map fun name => ⟨name, input.type, tools.ofJson input.defaultValue⟩

/-- The constants which are provided: those whose name is one of an input with a default value or
the others. -/
def constantValues (inputs : List (WorkflowInput V)) (optional : Bool) :
    List (NamedDataTypedValue W) :=
  let optionalNames := (dynamicInputs true inputs).map fun input => input.name
  ((constantInputs inputs).filter fun input => decide (input.name ∈ optionalNames) == optional).map
    fun input => ⟨generateConstantInputName input, input.type, tools.ofJson input.constantValue⟩

/-- The names of all inputs of a workflow which are mapped. -/
def mappedNames (inputs : List (WorkflowInput V)) : List (Option PyStr) :=
  (dynamicInputs false inputs ++ dynamicInputs true inputs).map (fun input => input.name) ++
    (constantInputs inputs).map fun input => some (generateConstantInputName input)

/-- The names for which default values and constants are provided. -/
def providedNames (inputs : List (WorkflowInput V)) : List PyStr :=
  ((dynamicInputs true inputs).filterMap fun input => input.name).filter isFieldName ++
    (constantInputs inputs).map generateConstantInputName

/-- The workflow object for a workflow node whose sub nodes have been parsed, and what is provided
for its inputs. -/
def parseWorkflow (node : WorkflowNodeData V) (subNodes : List (PyStr × ℕ))
    (objects : EngineObjects W X) : Except ParsingError (ℕ × EngineObjects W X) := do
  let objects ← applyConnections subNodes node.connections objects
  let inputMappings ← obtainInputMappings subNodes node.inputs
  let outputMappings ← obtainOutputMappings subNodes node.outputs
  let workflow := objects.nodes.length
  let objects := objects.create (.workflow {
    inputMappings := insertAll Prod.fst [] inputMappings
    outputMappings := insertAll Prod.fst [] outputMappings
    hasOnlyPlotOutputs := onlyPlotOutputs node.outputs
    inputMappings_unique := insertAll_nil_nodup _
    outputMappings_unique := insertAll_nil_nodup _ })
  let objects := { objects with
    subNodes := Function.update objects.subNodes workflow (subNodes.map Prod.snd) }
  let objects ← addConstantProvidingNode tools workflow (defaultValues tools node.inputs) true
    objects
  let objects ← addConstantProvidingNode tools workflow (constantValues tools node.inputs false)
    false objects
  let objects ← addConstantProvidingNode tools workflow (constantValues tools node.inputs true)
    true objects
  return (workflow, objects)

mutual

/-- `recursively_parse_workflow_node`, and `parse_component_node` -/
def parseNode : SubNode V → EngineObjects W X → Except ParsingError (ℕ × EngineObjects W X)
  | .component node, objects =>
    match tools.loadComponent node.componentUuid with
    | none => .error .componentLoading
    | some computation => .ok (objects.nodes.length, objects.create (.computation computation))
  | .workflow node subNodes, objects => do
    let (subNodes, objects) ← parseSubNodes subNodes [] objects
    parseWorkflow tools node subNodes objects

/-- The sub nodes by their ids, starting from those which have been parsed. -/
def parseSubNodes : List (SubNode V) → List (PyStr × ℕ) → EngineObjects W X →
    Except ParsingError (List (PyStr × ℕ) × EngineObjects W X)
  | [], parsed, objects => .ok (parsed, objects)
  | subNode :: rest, parsed, objects => do
    let (newSubNode, objects) ← parseNode subNode objects
    parseSubNodes rest (insertEntry Prod.fst parsed (subNode.id, newSubNode)) objects

end

/-- `parse_workflow_input` -/
def parseWorkflowInput (workflow : SubNode V) : Except ParsingError (ℕ × EngineObjects W X) :=
  parseNode tools workflow ⟨[], fun _ => [], fun _ => []⟩

end Parsing

/-! ## Parsed objects are constructed -/

section Constructed

variable {V W X : Type} {tools : ParsingTools V W X} {objects objects' : EngineObjects W X}

/-- The objects are constructed one after the other. -/
def EngineObjects.Built (objects : EngineObjects W X) : Prop :=
  Constructed objects.nodes objects.inputs

/-- Adding inputs keeps objects and adds names. -/
theorem EngineObjects.Built.addInputs (h : objects.Built) {node : ℕ}
    {newInputs : List (Option PyStr × (ℕ × Option PyStr))} (hnode : node < objects.nodes.length)
    (hsources : ∀ entry ∈ newInputs, entry.2.1 < objects.nodes.length)
    (hadded : objects.addInputs node newInputs = .ok objects') :
    objects'.Built ∧ objects'.nodes = objects.nodes ∧ ∀ name,
      name ∈ objects'.inputs.names node ↔
        name ∈ objects.inputs.names node ∨ name ∈ newInputs.map Prod.fst := by
  unfold EngineObjects.addInputs at hadded
  split at hadded
  · cases hadded
  · rename_i inputs hinputs
    obtain rfl := Except.ok.inj hadded
    refine ⟨Constructed.addInputs h hnode hsources hinputs, rfl, fun name => ?_⟩
    have hself : inputs node = insertAll Prod.fst (objects.inputs node) newInputs :=
      addInputsWithin_self (Constructed.wired h).1 hinputs
    change name ∈ (inputs node).map Prod.fst ↔ _
    rw [hself]
    exact mem_map_insertAll_iff

/-- What is parsed are the values of fields. -/
theorem fields_of_parsed {values : List (NamedDataTypedValue W)} {nullable : Bool}
    {parsedValues : List (PyStr × W)}
    (h : parseDynamicallyFromDatatypes tools values nullable = .ok parsedValues) :
    ((insertAll NamedDataTypedValue.name [] values).filter fun entry =>
      isFieldName entry.name).mapM (parseField tools nullable) = .ok parsedValues := by
  unfold parseDynamicallyFromDatatypes at h
  dsimp only at h
  split at h
  · cases h
  · exact h

/-- A value which has been parsed keeps its name. -/
theorem parsed_entry {value : NamedDataTypedValue W} {nullable : Bool} {entry : PyStr × W}
    (h : parseField tools nullable value = .ok entry) :
    value.name = entry.1 ∧ tools.parseValue value.type nullable value.value = some entry.2 := by
  unfold parseField at h
  split at h
  · cases h
  · rename_i parsed hparsed
    obtain rfl := Except.ok.inj h
    exact ⟨rfl, hparsed⟩

/-- The names of parsed values. -/
theorem mem_names_parsed_iff {values : List (NamedDataTypedValue W)} {nullable : Bool}
    {parsedValues : List (PyStr × W)}
    (h : parseDynamicallyFromDatatypes tools values nullable = .ok parsedValues) (name : PyStr) :
    name ∈ parsedValues.map Prod.fst ↔
      name ∈ values.map NamedDataTypedValue.name ∧ isFieldName name = true := by
  have hnames : parsedValues.map Prod.fst =
      ((insertAll NamedDataTypedValue.name [] values).map NamedDataTypedValue.name).filter
        isFieldName := by
    rw [List.filter_map]
    exact map_eq_of_mapM (fields_of_parsed h) fun entry parsed hparsed =>
      (parsed_entry hparsed).1.symm
  rw [hnames, List.mem_filter, mem_map_insertAll_nil_iff]

/-- Providing constants creates a computation node and adds the names of the values. -/
theorem EngineObjects.Built.addConstantProvidingNode (h : objects.Built) {workflow : ℕ}
    {values : List (NamedDataTypedValue W)} {nullable : Bool}
    (hworkflow : workflow < objects.nodes.length)
    (hadded : addConstantProvidingNode tools workflow values nullable objects = .ok objects') :
    objects'.Built ∧ (∃ node, objects'.nodes = objects.nodes ++ [.computation node]) ∧ ∀ name,
      name ∈ objects'.inputs.names workflow ↔ name ∈ objects.inputs.names workflow ∨
        ∃ value ∈ values, isFieldName value.name = true ∧ name = some value.name := by
  obtain ⟨parsedValues, hparsed, hadded⟩ := bind_eq_ok.mp hadded
  let created : EngineObjects W X :=
    { nodes := objects.nodes ++ [.computation (constantProvidingNode parsedValues)]
      inputs := objects.inputs
      subNodes := Function.update objects.subNodes workflow
        (objects.subNodes workflow ++ [objects.nodes.length]) }
  have hcreated : created.Built := Constructed.computation h _
  have hlength : created.nodes.length = objects.nodes.length + 1 := List.length_append
  obtain ⟨hbuilt, hnodes, hnames⟩ := hcreated.addInputs (by omega) (by
      intro entry hentry
      obtain ⟨value, -, rfl⟩ := List.mem_map.mp hentry
      exact (Nat.lt_succ_self _).trans_eq hlength.symm) hadded
  refine ⟨hbuilt, ⟨_, hnodes⟩, fun name => (hnames name).trans (or_congr_right ?_)⟩
  have hnamed := mem_names_parsed_iff hparsed
  simp only [List.mem_map] at hnamed ⊢
  constructor
  · rintro ⟨_, ⟨value, hvalue, rfl⟩, rfl⟩
    obtain ⟨⟨given, hgiven, hname⟩, hfield⟩ := (hnamed value.1).mp ⟨value, hvalue, rfl⟩
    exact ⟨given, hgiven, hname ▸ hfield, congrArg some hname.symm⟩
  · rintro ⟨given, hgiven, hfield, rfl⟩
    obtain ⟨value, hvalue, hname⟩ := (hnamed given.name).mpr ⟨⟨given, hgiven, rfl⟩, hfield⟩
    exact ⟨_, ⟨value, hvalue, rfl⟩, congrArg some hname⟩

/-- Connecting sub nodes keeps the objects. -/
theorem EngineObjects.Built.applyConnections (h : objects.Built) {subNodes : List (PyStr × ℕ)}
    (hsubNodes : ∀ subNode ∈ subNodes, subNode.2 < objects.nodes.length)
    {connections : List WorkflowConnection}
    (hconnected : applyConnections subNodes connections objects = .ok objects') :
    objects'.Built ∧ objects'.nodes = objects.nodes := by
  induction connections generalizing objects with
  | nil =>
    obtain rfl := return_eq_ok.mp hconnected
    exact ⟨h, rfl⟩
  | cons connection rest ih =>
    rw [HetidaDesigner.applyConnections, List.foldlM_cons] at hconnected
    obtain ⟨between, hfirst, hrest⟩ := bind_eq_ok.mp hconnected
    split at hfirst
    · rename_i source target hsource htarget
      have hsource' := hsubNodes _ (mem_of_lookup_eq_some hsource)
      have htarget' := hsubNodes _ (mem_of_lookup_eq_some htarget)
      obtain ⟨hbetween, hnodes, -⟩ := h.addInputs htarget'
        (fun entry hentry => List.mem_singleton.mp hentry ▸ hsource') hfirst
      rw [← hnodes] at hsubNodes
      obtain ⟨hbuilt, hnodes'⟩ := ih hbetween hsubNodes hrest
      exact ⟨hbuilt, hnodes'.trans hnodes⟩
    · cases hfirst

/-- The names of mapped inputs, in the order of their entries. -/
theorem map_fst_of_obtainInputMappings {subNodes : List (PyStr × ℕ)}
    {inputs : List (WorkflowInput V)} {mappings : List (Option PyStr × (ℕ × Option PyStr))}
    (h : obtainInputMappings subNodes inputs = .ok mappings) :
    mappings.map Prod.fst = mappedNames inputs := by
  obtain ⟨dynamic, hdynamic, h⟩ := bind_eq_ok.mp h
  obtain ⟨constant, hconstant, h⟩ := bind_eq_ok.mp h
  obtain rfl := return_eq_ok.mp h
  rw [mappedNames, List.map_append]
  congr 1
  · refine map_eq_of_mapM hdynamic fun input mapping hmapping => ?_
    obtain ⟨target, -, hmapping⟩ := bind_eq_ok.mp hmapping
    obtain rfl := return_eq_ok.mp hmapping
    rfl
  · refine map_eq_of_mapM hconstant fun input mapping hmapping => ?_
    obtain ⟨target, -, hmapping⟩ := bind_eq_ok.mp hmapping
    obtain rfl := return_eq_ok.mp hmapping
    rfl

/-- Mappings lead to sub nodes. -/
theorem lt_of_mappedTo {subNodes : List (PyStr × ℕ)} {bound : ℕ}
    (hsubNodes : ∀ subNode ∈ subNodes, subNode.2 < bound) {idOfSubNode nameInSubnode : PyStr}
    {target : ℕ × Option PyStr} (h : mappedTo subNodes idOfSubNode nameInSubnode = .ok target) :
    target.1 < bound := by
  unfold mappedTo at h
  split at h
  · cases h
  · rename_i subNode hsubNode
    obtain rfl := Except.ok.inj h
    exact hsubNodes _ (mem_of_lookup_eq_some hsubNode)

/-- Input mappings lead to sub nodes. -/
theorem lt_of_obtainInputMappings {subNodes : List (PyStr × ℕ)} {bound : ℕ}
    (hsubNodes : ∀ subNode ∈ subNodes, subNode.2 < bound) {inputs : List (WorkflowInput V)}
    {mappings : List (Option PyStr × (ℕ × Option PyStr))}
    (h : obtainInputMappings subNodes inputs = .ok mappings) :
    ∀ mapping ∈ mappings, mapping.2.1 < bound := by
  obtain ⟨dynamic, hdynamic, h⟩ := bind_eq_ok.mp h
  obtain ⟨constant, hconstant, h⟩ := bind_eq_ok.mp h
  obtain rfl := return_eq_ok.mp h
  intro mapping hmapping
  rcases List.mem_append.mp hmapping with hmapping | hmapping
  · obtain ⟨input, -, hmapping⟩ := exists_argument_of_mapM hdynamic hmapping
    obtain ⟨target, htarget, hmapping⟩ := bind_eq_ok.mp hmapping
    obtain rfl := return_eq_ok.mp hmapping
    exact lt_of_mappedTo hsubNodes htarget
  · obtain ⟨input, -, hmapping⟩ := exists_argument_of_mapM hconstant hmapping
    obtain ⟨target, htarget, hmapping⟩ := bind_eq_ok.mp hmapping
    obtain rfl := return_eq_ok.mp hmapping
    exact lt_of_mappedTo hsubNodes htarget

/-- Output mappings lead to sub nodes. -/
theorem lt_of_obtainOutputMappings {subNodes : List (PyStr × ℕ)} {bound : ℕ}
    (hsubNodes : ∀ subNode ∈ subNodes, subNode.2 < bound) {outputs : List WorkflowOutput}
    {mappings : List (Option PyStr × (ℕ × Option PyStr))}
    (h : obtainOutputMappings subNodes outputs = .ok mappings) :
    ∀ mapping ∈ mappings, mapping.2.1 < bound := by
  intro mapping hmapping
  obtain ⟨output, -, hmapping⟩ := exists_argument_of_mapM h hmapping
  obtain ⟨target, htarget, hmapping⟩ := bind_eq_ok.mp hmapping
  obtain rfl := return_eq_ok.mp hmapping
  exact lt_of_mappedTo hsubNodes htarget

/-- Generated names are names of fields. -/
theorem isFieldName_generateConstantInputName (input : WorkflowInput V) :
    isFieldName (generateConstantInputName input) = true := by
  have hfront : generateConstantInputName input = 'g' :: ("enerated_constant_input_".toList ++
      input.idOfSubNode ++ "_".toList ++ input.nameInSubnode) := rfl
  rw [hfront, isFieldName, List.head?_cons, Bool.and_eq_true, bne_iff_ne, bne_iff_ne]
  exact ⟨by decide, fun heq => absurd (List.cons.inj heq).1 (by decide)⟩

/-- What is provided while a workflow is parsed. -/
theorem mem_providedNames_iff {inputs : List (WorkflowInput V)} {name : PyStr} :
    name ∈ providedNames inputs ↔
      (∃ value ∈ defaultValues tools inputs, isFieldName value.name = true ∧ name = value.name) ∨
        (∃ value ∈ constantValues tools inputs false,
          isFieldName value.name = true ∧ name = value.name) ∨
        ∃ value ∈ constantValues tools inputs true,
          isFieldName value.name = true ∧ name = value.name := by
  rw [providedNames, List.mem_append]
  refine or_congr ?_ ?_
  · simp only [defaultValues, List.mem_filter, List.mem_filterMap, Option.map_eq_some_iff]
    constructor
    · rintro ⟨⟨input, hinput, hname⟩, hfield⟩
      exact ⟨_, ⟨input, hinput, name, hname, rfl⟩, hfield, rfl⟩
    · rintro ⟨_, ⟨input, hinput, name', hname, rfl⟩, hfield, rfl⟩
      exact ⟨⟨input, hinput, hname⟩, hfield⟩
  · simp only [constantValues, List.mem_map, List.mem_filter]
    constructor
    · rintro ⟨input, hinput, rfl⟩
      have hfield := isFieldName_generateConstantInputName input
      by_cases hoptional : input.name ∈ (dynamicInputs true inputs).map fun input => input.name
      · exact Or.inr ⟨_, ⟨input, ⟨hinput, by simpa using hoptional⟩, rfl⟩, hfield, rfl⟩
      · exact Or.inl ⟨_, ⟨input, ⟨hinput, by simpa using hoptional⟩, rfl⟩, hfield, rfl⟩
    · rintro (⟨_, ⟨input, ⟨hinput, -⟩, rfl⟩, -, rfl⟩ | ⟨_, ⟨input, ⟨hinput, -⟩, rfl⟩, -, rfl⟩)
      · exact ⟨input, hinput, rfl⟩
      · exact ⟨input, hinput, rfl⟩

/-- What a parsed workflow looks like. -/
structure ParsedWorkflow (inputs : List (WorkflowInput V)) (objects : EngineObjects W X)
    (node : ℕ) (workflow : Workflow (Option PyStr)) : Prop where
  object : objects.nodes[node]? = some (.workflow workflow)
  mapped : ∀ name, name ∈ workflow.inputMappings.map Prod.fst ↔ name ∈ mappedNames inputs
  provided : ∀ name, name ∈ objects.inputs.names node ↔
    ∃ provided ∈ providedNames inputs, name = some provided

/-- A workflow whose sub nodes have been parsed gets an object, with what is provided. -/
theorem EngineObjects.Built.parseWorkflow (h : objects.Built) {subNodes : List (PyStr × ℕ)}
    (hsubNodes : ∀ subNode ∈ subNodes, subNode.2 < objects.nodes.length)
    {node : WorkflowNodeData V} {root : ℕ}
    (hparsed : parseWorkflow tools node subNodes objects = .ok (root, objects')) :
    objects'.Built ∧ objects.nodes <+: objects'.nodes ∧
      ∃ workflow, ParsedWorkflow node.inputs objects' root workflow := by
  obtain ⟨connected, hconnected, hparsed⟩ := bind_eq_ok.mp hparsed
  obtain ⟨inputMappings, hinputs, hparsed⟩ := bind_eq_ok.mp hparsed
  obtain ⟨outputMappings, houtputs, hparsed⟩ := bind_eq_ok.mp hparsed
  obtain ⟨withDefaults, hdefaults, hparsed⟩ := bind_eq_ok.mp hparsed
  obtain ⟨withConstants, hconstants, hparsed⟩ := bind_eq_ok.mp hparsed
  obtain ⟨withAll, hall, hparsed⟩ := bind_eq_ok.mp hparsed
  obtain ⟨rfl, rfl⟩ := Prod.mk.inj (return_eq_ok.mp hparsed)
  obtain ⟨hconnectedBuilt, hnodes⟩ := h.applyConnections hsubNodes hconnected
  rw [← hnodes] at hsubNodes ⊢
  let workflow : Workflow (Option PyStr) := {
    inputMappings := insertAll Prod.fst [] inputMappings
    outputMappings := insertAll Prod.fst [] outputMappings
    hasOnlyPlotOutputs := onlyPlotOutputs node.outputs
    inputMappings_unique := insertAll_nil_nodup _
    outputMappings_unique := insertAll_nil_nodup _ }
  let created : EngineObjects W X :=
    { nodes := connected.nodes ++ [.workflow workflow]
      inputs := connected.inputs
      subNodes := Function.update connected.subNodes connected.nodes.length
        (subNodes.map Prod.snd) }
  have hmappings : ∀ mapping ∈ workflow.inputMappings ++ workflow.outputMappings,
      mapping.2.1 < connected.nodes.length := by
    intro mapping hmapping
    rcases List.mem_append.mp hmapping with hmapping | hmapping
    · exact lt_of_obtainInputMappings hsubNodes hinputs mapping (mem_of_mem_insertAll_nil hmapping)
    · exact lt_of_obtainOutputMappings hsubNodes houtputs mapping
        (mem_of_mem_insertAll_nil hmapping)
  have hcreated : created.Built := Constructed.workflow hconnectedBuilt workflow hmappings
  have hlength : created.nodes.length = connected.nodes.length + 1 := List.length_append
  have hnone : created.inputs.names connected.nodes.length = [] :=
    (Constructed.wired hconnectedBuilt).2.2 _ le_rfl
  obtain ⟨hbuilt₁, ⟨node₁, hnodes₁⟩, hnames₁⟩ :=
    hcreated.addConstantProvidingNode (by omega) hdefaults
  have hlength₁ : withDefaults.nodes.length = connected.nodes.length + 2 := by
    rw [hnodes₁, List.length_append, hlength, List.length_singleton]
  obtain ⟨hbuilt₂, ⟨node₂, hnodes₂⟩, hnames₂⟩ :=
    hbuilt₁.addConstantProvidingNode (by omega) hconstants
  have hlength₂ : withConstants.nodes.length = connected.nodes.length + 3 := by
    rw [hnodes₂, List.length_append, hlength₁, List.length_singleton]
  obtain ⟨hbuilt₃, ⟨node₃, hnodes₃⟩, hnames₃⟩ :=
    hbuilt₂.addConstantProvidingNode (by omega) hall
  have hobjects : withAll.nodes = connected.nodes ++
      (.workflow workflow :: [.computation node₁, .computation node₂, .computation node₃]) := by
    rw [hnodes₃, hnodes₂, hnodes₁]
    simp only [created, List.append_assoc, List.cons_append, List.nil_append]
  refine ⟨hbuilt₃, hobjects ▸ List.prefix_append _ _, workflow, ?_, fun name => ?_, fun name => ?_⟩
  · rw [hobjects, List.getElem?_append_right le_rfl, Nat.sub_self]
    rfl
  · exact mem_map_insertAll_nil_iff.trans (by rw [map_fst_of_obtainInputMappings hinputs])
  · rw [hnames₃, hnames₂, hnames₁, hnone, or_iff_right List.not_mem_nil, or_assoc]
    constructor
    · rintro (⟨value, hvalue, hfield, rfl⟩ | ⟨value, hvalue, hfield, rfl⟩ |
        ⟨value, hvalue, hfield, rfl⟩)
      · exact ⟨_, mem_providedNames_iff.mpr (Or.inl ⟨value, hvalue, hfield, rfl⟩), rfl⟩
      · exact ⟨_, mem_providedNames_iff.mpr (Or.inr (Or.inl ⟨value, hvalue, hfield, rfl⟩)), rfl⟩
      · exact ⟨_, mem_providedNames_iff.mpr (Or.inr (Or.inr ⟨value, hvalue, hfield, rfl⟩)), rfl⟩
    · rintro ⟨provided, hprovided, rfl⟩
      have hvalues := (@mem_providedNames_iff V W X tools _ provided).mp hprovided
      rcases hvalues with ⟨value, hvalue, hfield, rfl⟩ | ⟨value, hvalue, hfield, rfl⟩ |
        ⟨value, hvalue, hfield, rfl⟩
      · exact Or.inl ⟨value, hvalue, hfield, rfl⟩
      · exact Or.inr (Or.inl ⟨value, hvalue, hfield, rfl⟩)
      · exact Or.inr (Or.inr ⟨value, hvalue, hfield, rfl⟩)

/-- The position of a parsed workflow is one of an object. -/
theorem ParsedWorkflow.lt {inputs : List (WorkflowInput V)} {node : ℕ}
    {workflow : Workflow (Option PyStr)} (h : ParsedWorkflow inputs objects node workflow) :
    node < objects.nodes.length :=
  (List.getElem?_eq_some_iff.mp h.object).1

mutual

/-- Parsing a node keeps the objects and adds one for it. -/
theorem EngineObjects.Built.parseNode : ∀ {node : SubNode V} {objects objects' : EngineObjects W X}
    {root : ℕ}, objects.Built → parseNode tools node objects = .ok (root, objects') →
    objects'.Built ∧ objects.nodes <+: objects'.nodes ∧ root < objects'.nodes.length
  | .component node, objects, objects', root, h, hparsed => by
    rw [HetidaDesigner.parseNode] at hparsed
    split at hparsed
    · cases hparsed
    · obtain ⟨rfl, rfl⟩ := Prod.mk.inj (Except.ok.inj hparsed)
      rename_i computation _
      refine ⟨Constructed.computation h _, List.prefix_append _ _, ?_⟩
      have hlength : (objects.create (.computation computation)).nodes.length =
          objects.nodes.length + 1 := List.length_append
      omega
  | .workflow node subNodes, objects, objects', root, h, hparsed => by
    rw [HetidaDesigner.parseNode] at hparsed
    obtain ⟨⟨parsed, between⟩, hsubNodes, hparsed⟩ := bind_eq_ok.mp hparsed
    obtain ⟨hbetween, hprefix, hlt⟩ := h.parseSubNodes (fun _ h => absurd h List.not_mem_nil) hsubNodes
    obtain ⟨hbuilt, hprefix', workflow, hworkflow⟩ := hbetween.parseWorkflow hlt hparsed
    exact ⟨hbuilt, hprefix.trans hprefix', hworkflow.lt⟩

/-- Parsing sub nodes keeps the objects and adds some for them. -/
theorem EngineObjects.Built.parseSubNodes : ∀ {subNodes : List (SubNode V)}
    {objects objects' : EngineObjects W X} {parsed parsed' : List (PyStr × ℕ)}, objects.Built →
    (∀ subNode ∈ parsed, subNode.2 < objects.nodes.length) →
    parseSubNodes tools subNodes parsed objects = .ok (parsed', objects') →
    objects'.Built ∧ objects.nodes <+: objects'.nodes ∧
      ∀ subNode ∈ parsed', subNode.2 < objects'.nodes.length
  | [], objects, objects', parsed, parsed', h, hlt, hparsed => by
    rw [HetidaDesigner.parseSubNodes] at hparsed
    obtain ⟨rfl, rfl⟩ := Prod.mk.inj (Except.ok.inj hparsed)
    exact ⟨h, List.prefix_rfl, hlt⟩
  | subNode :: rest, objects, objects', parsed, parsed', h, hlt, hparsed => by
    rw [HetidaDesigner.parseSubNodes] at hparsed
    obtain ⟨⟨newSubNode, between⟩, hnew, hparsed⟩ := bind_eq_ok.mp hparsed
    obtain ⟨hbetween, hprefix, hnewLt⟩ := h.parseNode hnew
    have hall : ∀ entry ∈ insertEntry Prod.fst parsed (subNode.id, newSubNode),
        entry.2 < between.nodes.length := by
      intro entry hentry
      rcases mem_insertEntry_iff.mp hentry with rfl | ⟨hentry, -⟩
      · exact hnewLt
      · exact (hlt entry hentry).trans_le hprefix.length_le
    obtain ⟨hbuilt, hprefix', hlt'⟩ := hbetween.parseSubNodes hall hparsed
    exact ⟨hbuilt, hprefix.trans hprefix', hlt'⟩

end

/-- The root workflow after parsing. -/
theorem exists_parsedWorkflow {node : WorkflowNodeData V} {subNodes : List (SubNode V)} {root : ℕ}
    (hparsed : parseWorkflowInput tools (.workflow node subNodes) = .ok (root, objects)) :
    objects.Built ∧ ∃ workflow, ParsedWorkflow node.inputs objects root workflow := by
  rw [parseWorkflowInput, parseNode] at hparsed
  obtain ⟨⟨parsed, between⟩, hsubNodes, hparsed⟩ := bind_eq_ok.mp hparsed
  have hempty : EngineObjects.Built (⟨[], fun _ => [], fun _ => []⟩ : EngineObjects W X) :=
    Constructed.empty
  obtain ⟨hbetween, -, hlt⟩ := hempty.parseSubNodes (fun _ h => absurd h List.not_mem_nil) hsubNodes
  obtain ⟨hbuilt, -, hworkflow⟩ := hbetween.parseWorkflow hlt hparsed
  exact ⟨hbuilt, hworkflow⟩

end Constructed

end HetidaDesigner
