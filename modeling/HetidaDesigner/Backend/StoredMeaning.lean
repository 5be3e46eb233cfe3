import HetidaDesigner.Backend.PreparedNodes
import HetidaDesigner.Trafoutils.Constructed

/-!
# The meaning of stored workflows

What the outputs of a stored workflow are, if one follows the ids of its contents: an operator input
takes its value from the link which ends at it, otherwise from the input or constant of the workflow
which refers to it, otherwise from a default value of the nested workflow. The reference evaluation
of a lowered node, which only knows texts and names, gives the same results.
-/

namespace HetidaDesigner

open Checks KeyedList

/-! ## Stored workflows -/

section Definitions

attribute [local instance] nameBEq

variable {V D W X : Type} (tools : ParsingTools V W X) (config : EngineConfig W) (text : TextTools V)

/-- The inputs and constants of a content. -/
def WorkflowContent.outerIos (content : WorkflowContent V) :
    List (WorkflowContentDynamicInput V ⊕ WorkflowContentConstantInput) :=
  content.inputs.map Sum.inl ++ content.constants.map Sum.inr

/-- The operator input to which an input or a constant refers. -/
def outerKey : WorkflowContentDynamicInput V ⊕ WorkflowContentConstantInput → UUID × UUID
  | .inl wfInput => wfInput.key
  | .inr constant => constant.key

/-- The key of an operator input with a name. -/
def WorkflowContent.inputKey (content : WorkflowContent V) (id : UUID) (name : PyStr) :
    Option (UUID × UUID) :=
  (lookup (fun operator => operator.id) id content.operators).bind fun operator =>
    (lookup (fun input => input.name) (some name) operator.inputs).map fun input =>
      (operator.id, input.id)

/-- The name of an operator output. -/
def WorkflowContent.outputName (content : WorkflowContent V) (key : UUID × UUID) : Option PyStr :=
  (lookup (fun operator => operator.id) key.1 content.operators).bind fun operator =>
    (lookup (fun output => output.id) key.2 operator.outputs).bind fun output => output.name

/-- The link between operators which ends at an operator input with a name. -/
def WorkflowContent.innerLinkTo (content : WorkflowContent V) (id : UUID) (name : PyStr) :
    Option Link :=
  (content.inputKey id name).bind fun key =>
    (content.links.filter Link.inner).find? fun link => innerEnd link = some key

/-- The input or constant which refers to an operator input with a name. -/
def WorkflowContent.outerIo (content : WorkflowContent V) (id : UUID) (name : PyStr) :
    Option (WorkflowContentDynamicInput V ⊕ WorkflowContentConstantInput) :=
  (content.inputKey id name).bind fun key => lookup outerKey key content.outerIos

/-- The default value of an input of a workflow, if its name is one of a field. -/
def WorkflowContent.defaultValue (content : WorkflowContent V) (name : PyStr) : Option W :=
  (lookup (fun wfInput => wfInput.name) (some name) content.inputs).bind fun wfInput =>
    if wfInput.type = .optional ∧ isFieldName name = true then
      tools.parseValue wfInput.dataType true (tools.ofJson wfInput.value)
    else none

/-- The default value of an input; components have none. -/
def StoredNode.defaultValue (name : PyStr) : StoredNode V → Option W
  | .component _ => none
  | .workflow content => content.defaultValue tools name

/-- The value of a constant. -/
def WorkflowContentConstantInput.parsedValue (constant : WorkflowContentConstantInput) : Option W :=
  tools.parseValue constant.dataType false (tools.ofJson (some (text.ofStr constant.value)))

/-- Whether all outputs are plots. -/
def StoredNode.hasOnlyPlotOutputs : StoredNode V → Bool
  | .component id => (tools.loadComponent (text.uuidStr id)).any ComputationNode.hasOnlyPlotOutputs
  | .workflow content =>
    !content.outputs.isEmpty && content.outputs.all fun wfOutput => wfOutput.dataType = .plotlyJson

/-- Where an operator input takes its value from: an output of the operator at a path of ids, or a
given value. -/
inductive StoredSource (W : Type)
  | output (path : List UUID) (name : PyStr)
  | value (value : W)

/-- The value of a source, given results of operators. -/
def StoredSource.value? (results : List UUID → Option (List (Option PyStr × W))) :
    StoredSource W → Option W
  | .output path name => (results path).bind fun result => result.lookup (some name)
  | .value given => some given

/-- What an input or constant of a workflow passes on to an operator. -/
def passedOn (source : PyStr → Option (StoredSource W)) :
    WorkflowContentDynamicInput V ⊕ WorkflowContentConstantInput → Option (StoredSource W)
  | .inl wfInput => wfInput.name.bind source
  | .inr constant => (constant.parsedValue tools text).map .value

variable (nested : UUID → Option (Revision V D)) (data : PyStr → Option W)
  (root : WorkflowContent V)

/-- Where the input of an operator takes its value from. -/
def storedSource : List UUID → PyStr → Option (StoredSource W)
  | [], name => ((data name).or (root.defaultValue tools name)).map .value
  | id :: path, name =>
    match storedAt nested root path with
    | some (.workflow content) =>
      match content.innerLinkTo id name with
      | some link => link.start.operator.bind fun start =>
          (content.outputName (start, link.start.connector.id)).map (.output (start :: path))
      | none => ((content.outerIo id name).bind (passedOn tools text (storedSource path))).or
          (((storedAt nested root (id :: path)).bind (StoredNode.defaultValue tools name)).map
            .value)
    | _ => none

/-- The inputs of an operator which take a value from somewhere. -/
def storedInputs : List UUID → List PyStr
  | [] => []
  | id :: path =>
    match storedAt nested root path with
    | some (.workflow content) =>
      (((lookup (fun operator => operator.id) id content.operators).map fun operator =>
        operator.inputs.filterMap fun input => input.name).getD []).filter fun name =>
          (storedSource tools text nested data root (id :: path) name).isSome
    | _ => []

/-- The value of an operator input under its name. -/
def storedInputValue (results : List UUID → Option (List (Option PyStr × W))) (path : List UUID)
    (key : Option PyStr) : Option (Option PyStr × W) :=
  (key.bind fun name => storedSource tools text nested data root path name).bind fun source =>
    (source.value? results).map fun value => (key, value)

/-- The value of an output of a workflow. -/
def storedOutput (results : List UUID → Option (List (Option PyStr × W))) (path : List UUID)
    (content : WorkflowContent V) (wfOutput : WorkflowContentOutput) :
    Option (Option PyStr × W) :=
  wfOutput.name.bind fun name =>
    if (storedAt nested root (wfOutput.operatorId :: path)).any
        (StoredNode.hasOnlyPlotOutputs tools text) && !config.runPurePlotOperators then
      some (some name, config.emptyDict)
    else (content.outputName wfOutput.key).bind fun inner =>
      ((StoredSource.output (wfOutput.operatorId :: path) inner).value? results).map fun value =>
        (some name, value)

/-- The result of an operator, with a bound on the depth. -/
def storedResult : ℕ → List UUID → Option (List (Option PyStr × W))
  | 0, _ => none
  | depth + 1, path =>
    match storedAt nested root path with
    | some (.component id) => (tools.loadComponent (text.uuidStr id)).bind fun computation =>
      componentResult computation ((storedInputs tools text nested data root path).map some)
        (storedInputValue tools text nested data root (storedResult depth) path)
    | some (.workflow content) =>
      if content.outerIos.all fun io =>
          (passedOn tools text (storedSource tools text nested data root path) io).isSome then
        content.outputs.mapM
          (storedOutput tools config text nested root (storedResult depth) path content)
      else none
    | none => none

/-- A source with the texts of ids. -/
def StoredSource.toInputSource : StoredSource W → InputSource W
  | .output path name => .output (path.map text.uuidStr) name
  | .value given => .value given

end Definitions

/-! ## One level -/

section Level

variable {V W X : Type} {tools : ParsingTools V W X} {text : TextTools V}
  {content : WorkflowContent V} {node : WorkflowNodeData V}

/-- The names of operator inputs are those of the connectors of operators. -/
theorem mem_inputConnectorNames_iff {operators : List (Operator V)} {key : UUID × UUID}
    {name : Option PyStr} : (key, name) ∈ inputConnectorNames operators ↔
      ∃ operator ∈ operators, ∃ input ∈ operator.inputs,
        key = (operator.id, input.id) ∧ name = input.name := by
  rw [inputConnectorNames, List.mem_map]
  constructor
  · rintro ⟨⟨key', input⟩, hmem, heq⟩
    obtain ⟨rfl, rfl⟩ := Prod.mk.inj heq
    obtain ⟨operator, hoperator, hinput, hkey⟩ := mem_inputConnectors_iff.mp hmem
    exact ⟨operator, hoperator, input, hinput, hkey.symm, rfl⟩
  · rintro ⟨operator, hoperator, input, hinput, rfl, rfl⟩
    exact ⟨(_, input), mem_inputConnectors_iff.mpr ⟨operator, hoperator, hinput, rfl⟩, rfl⟩

/-- The names of operator outputs are those of the connectors of operators. -/
theorem mem_outputConnectorNames_iff {operators : List (Operator V)} {key : UUID × UUID}
    {name : Option PyStr} : (key, name) ∈ outputConnectorNames operators ↔
      ∃ operator ∈ operators, ∃ output ∈ operator.outputs,
        key = (operator.id, output.id) ∧ name = output.name := by
  rw [outputConnectorNames, List.mem_map]
  constructor
  · rintro ⟨⟨key', output⟩, hmem, heq⟩
    obtain ⟨rfl, rfl⟩ := Prod.mk.inj heq
    obtain ⟨operator, hoperator, houtput, hkey⟩ := mem_outputConnectors_iff.mp hmem
    exact ⟨operator, hoperator, output, houtput, hkey.symm, rfl⟩
  · rintro ⟨operator, hoperator, output, houtput, rfl, rfl⟩
    exact ⟨(_, output), mem_outputConnectors_iff.mpr ⟨operator, hoperator, houtput, rfl⟩, rfl⟩

/-- The key of an operator input with a name is the one with this name. -/
theorem inputKey_eq_some_iff (hcontent : content.Identifiable) {id : UUID} {name : PyStr}
    {key : UUID × UUID} : content.inputKey id name = some key ↔
      key.1 = id ∧ (key, some name) ∈ inputConnectorNames content.operators := by
  rw [mem_inputConnectorNames_iff]
  constructor
  · intro h
    obtain ⟨operator, hoperator, h⟩ := Option.bind_eq_some_iff.mp h
    obtain ⟨input, hinput, rfl⟩ := Option.map_eq_some_iff.mp h
    obtain ⟨hmem, hid⟩ := lookup_eq_some hoperator
    obtain ⟨hinputMem, hname⟩ := lookup_eq_some hinput
    exact ⟨hid, operator, hmem, input, hinputMem, rfl, hname.symm⟩
  · rintro ⟨rfl, operator, hoperator, input, hinput, rfl, hname⟩
    refine Option.bind_eq_some_iff.mpr ⟨operator, lookup_of_mem hcontent.operatorIds hoperator,
      Option.map_eq_some_iff.mpr ⟨input, ?_, rfl⟩⟩
    rw [hname]
    exact lookup_of_mem (hcontent.connectorNames operator hoperator) hinput

/-- The operator input with a name is the one to whose target something leads. -/
theorem inputKey_eq_some_iff_target (htext : text.UuidTexts) (hcontent : content.Identifiable)
    {id : UUID} {name : PyStr} {key : UUID × UUID} {target : PyStr × PyStr}
    (htarget : IsTarget text content.operators key target) :
    content.inputKey id name = some key ↔ target = (text.uuidStr id, name) := by
  obtain ⟨hid, hmem, hunique⟩ := htarget
  rw [inputKey_eq_some_iff hcontent]
  constructor
  · rintro ⟨rfl, hname⟩
    exact Prod.ext hid (Option.some.inj (hunique _ hname)).symm
  · rintro rfl
    exact ⟨(htext.injective hid).symm, hmem⟩

/-- Something which leads to a target is found under the key of the operator input. -/
theorem rel_lookup_target (htext : text.UuidTexts) (hcontent : content.Identifiable) {A B : Type}
    {R : A → B → Prop} {key? : A → Option (UUID × UUID)} {target : B → PyStr × PyStr}
    {as : List A} {bs : List B}
    (h : List.Forall₂ (fun a b => (∃ key, key? a = some key ∧
      IsTarget text content.operators key (target b)) ∧ R a b) as bs) (id : UUID) (name : PyStr) :
    Option.Rel R ((content.inputKey id name).bind fun key => as.find? fun a => key? a = some key)
      (lookup target (text.uuidStr id, name) bs) := by
  cases hkey : content.inputKey id name with
  | none =>
    have hnone : lookup target (text.uuidStr id, name) bs = none := by
      refine lookup_eq_none.mpr fun b hb heq => ?_
      obtain ⟨a, -, ⟨key, -, htarget⟩, -⟩ := Related.exists_left h hb
      rw [(inputKey_eq_some_iff_target htext hcontent htarget).mpr heq] at hkey
      cases hkey
    rw [hnone]
    exact .none
  | some key =>
    refine Related.rel_find (h.imp ?_)
    rintro a b ⟨⟨other, hother, htarget⟩, hrelated⟩
    refine ⟨decide_eq_decide.mpr ?_, hrelated⟩
    rw [← inputKey_eq_some_iff_target htext hcontent htarget, hkey, hother]
    exact eq_comm

/-- A connection leads to the operator input at which its link ends. -/
theorem isTarget_of_connectionNamesAgree {operators : List (Operator V)} {link : Link}
    {connection : WorkflowConnection} (h : ConnectionNamesAgree text operators link connection) :
    ∃ key, innerEnd link = some key ∧ IsTarget text operators key connection.target := by
  obtain ⟨start, finish, -, hfinish, -, -, hid, hname⟩ := h
  refine ⟨(finish, link.finish.connector.id), ?_, hid, hname⟩
  rw [innerEnd, hfinish]
  rfl

/-- The connection to an input of a sub node is made from the link to the operator input. -/
theorem NamesAgree.rel_linkTo (h : NamesAgree text content node) (htext : text.UuidTexts)
    (hcontent : content.Identifiable) (id : UUID) (name : PyStr) :
    Option.Rel (ConnectionNamesAgree text content.operators) (content.innerLinkTo id name)
      (node.linkTo (text.uuidStr id) name) := by
  exact rel_lookup_target htext hcontent (h.connections.imp fun _ _ hagree =>
    ⟨isTarget_of_connectionNamesAgree hagree, hagree⟩) id name

/-- An input of a node is made from an input or constant of a content. -/
def MadeFrom (text : TextTools V) :
    WorkflowContentDynamicInput V ⊕ WorkflowContentConstantInput → WorkflowInput V → Prop
  | .inl wfInput, input => wfInput.toWorkflowInput text = .ok input
  | .inr constant, input => constant.toWorkflowInput text = .ok input

/-- The inputs of a node are made from the inputs and constants of the content. -/
theorem BuiltFrom.madeFrom (h : BuiltFrom text content node) :
    List.Forall₂ (MadeFrom text) content.outerIos node.inputs := by
  obtain ⟨dynamicInputs, constantInputs, hinputs, hdynamic, hconstant⟩ := h.inputs
  rw [hinputs]
  exact List.rel_append (List.forall₂_map_left_iff.mpr (mapM_eq_ok.mp hdynamic))
    (List.forall₂_map_left_iff.mpr (mapM_eq_ok.mp hconstant))

/-- An input of a node leads where the input or constant leads from which it is made. -/
theorem isTarget_of_madeFrom (hcontent : content.Identifiable)
    {io : WorkflowContentDynamicInput V ⊕ WorkflowContentConstantInput}
    (hio : io ∈ content.outerIos) {input : WorkflowInput V} (h : MadeFrom text io input) :
    IsTarget text content.operators (outerKey io) input.target := by
  rcases List.mem_append.mp hio with hio | hio
  · obtain ⟨wfInput, hwfInput, rfl⟩ := List.mem_map.mp hio
    obtain ⟨name, nameInSubnode, -, -, hconnector, rfl⟩ := toWorkflowInput_eq_ok h
    have hcopy := hcontent.inputCopies _ (List.mem_append_left _ (List.mem_map_of_mem hwfInput))
    rw [hconnector] at hcopy
    exact ⟨rfl, hcopy⟩
  · obtain ⟨constant, hconstant, rfl⟩ := List.mem_map.mp hio
    obtain ⟨nameInSubnode, hconnector, rfl⟩ := constant_toWorkflowInput_eq_ok h
    have hcopy := hcontent.inputCopies _ (List.mem_append_right _ (List.mem_map_of_mem hconstant))
    rw [hconnector] at hcopy
    exact ⟨rfl, hcopy⟩

/-- The input of a node which leads to an input of a sub node is made from the one which refers to
the operator input. -/
theorem BuiltFrom.rel_outerIo (h : BuiltFrom text content node) (htext : text.UuidTexts)
    (hcontent : content.Identifiable) (id : UUID) (name : PyStr) :
    Option.Rel (fun io input => io ∈ content.outerIos ∧ input ∈ node.inputs ∧
        MadeFrom text io input) (content.outerIo id name)
      (lookup WorkflowInput.target (text.uuidStr id, name) node.inputs) := by
  have hall := Related.and_mem h.madeFrom
  have hfound := rel_lookup_target htext hcontent
    (R := fun io input => io ∈ content.outerIos ∧ input ∈ node.inputs ∧ MadeFrom text io input)
    (hall.imp fun io input hboth => ⟨⟨outerKey io, rfl,
      isTarget_of_madeFrom hcontent hboth.1.1 hboth.2⟩, hboth.1.1, hboth.1.2, hboth.2⟩) id name
  simp only [Option.some_inj] at hfound
  exact hfound

/-- The output with the right name is found. -/
theorem outputName_of_carriesName (hcontent : content.Identifiable) {key : UUID × UUID}
    {name : PyStr} (h : CarriesName (outputConnectorNames content.operators) key (some name)) :
    content.outputName key = some name := by
  obtain ⟨hmem, hunique⟩ := h
  obtain ⟨operator, hoperator, output, houtput, rfl, hname⟩ :=
    mem_outputConnectorNames_iff.mp hmem
  rw [WorkflowContent.outputName, lookup_of_mem hcontent.operatorIds hoperator, Option.bind_some]
  cases hfound : lookup (fun output : OperatorOutput => output.id) output.id operator.outputs with
  | none => exact absurd rfl (lookup_eq_none.mp hfound output houtput)
  | some found =>
    obtain ⟨hfoundMem, hid⟩ := lookup_eq_some hfound
    exact hunique found.name (mem_outputConnectorNames_iff.mpr
      ⟨operator, hoperator, found, hfoundMem, by rw [hid], rfl⟩)

/-- Names of operator inputs are identifiers. -/
theorem dash_notMem_of_inputKey (hcontent : content.Identifiable) {id : UUID} {name : PyStr}
    {key : UUID × UUID} (h : content.inputKey id name = some key) : '-' ∉ name := by
  obtain ⟨-, hmem⟩ := (inputKey_eq_some_iff hcontent).mp h
  obtain ⟨operator, hoperator, input, hinput, -, hname⟩ := mem_inputConnectorNames_iff.mp hmem
  exact hcontent.connectorIdentifiers operator hoperator input hinput name hname.symm

/-- A name which is no identifier leads to no operator input. -/
theorem inputKey_eq_none_of_dash (hcontent : content.Identifiable) {id : UUID} {name : PyStr}
    (hname : '-' ∈ name) : content.inputKey id name = none := by
  cases hkey : content.inputKey id name with
  | none => rfl
  | some key => exact absurd hname (dash_notMem_of_inputKey hcontent hkey)

/-- The names of the inputs of an operator are unique. -/
theorem WorkflowContent.Identifiable.inputNames_nodup (hcontent : content.Identifiable)
    {operator : Operator V} (hoperator : operator ∈ content.operators) :
    (operator.inputs.filterMap fun input => input.name).Nodup := by
  have hnames := hcontent.connectorNames operator hoperator
  rw [← Function.id_comp fun input : OperatorInput V => input.name, ← List.filterMap_map]
  refine hnames.filterMap fun _ _ name hname hother => ?_
  exact (Option.mem_def.mp hname).trans (Option.mem_def.mp hother).symm

/-- An operator input with a key is an input of its operator. -/
theorem WorkflowContent.Identifiable.mem_inputNames (hcontent : content.Identifiable)
    {operator : Operator V} (hoperator : operator ∈ content.operators) {name : PyStr}
    {key : UUID × UUID} (h : content.inputKey operator.id name = some key) :
    name ∈ operator.inputs.filterMap fun input => input.name := by
  obtain ⟨found, hfound, hinput⟩ := Option.bind_eq_some_iff.mp h
  obtain rfl := Option.some.inj ((lookup_of_mem hcontent.operatorIds hoperator).symm.trans hfound)
  obtain ⟨input, hinput, -⟩ := Option.map_eq_some_iff.mp hinput
  obtain ⟨hmem, hname⟩ := lookup_eq_some hinput
  exact List.mem_filterMap.mpr ⟨input, hmem, hname⟩

/-- The default value of an input is the one of the content. -/
theorem BuiltFrom.ownValue_eq (h : BuiltFrom text content node) (htext : text.UuidTexts)
    {name : PyStr} (hname : '-' ∉ name) : node.ownValue tools name = content.defaultValue tools name := by
  obtain ⟨dynamicInputs, constantInputs, hinputs, hdynamic, hconstant⟩ := h.inputs
  have hnone : constantInputs.find? (fun input => input.mappedName = some name) = none := by
    refine List.find?_eq_none.mpr fun input hinput heq => hname ?_
    obtain ⟨constant, -, hconstant⟩ := exists_argument_of_mapM hconstant hinput
    obtain ⟨nameInSubnode, -, rfl⟩ := constant_toWorkflowInput_eq_ok hconstant
    rw [← Option.some.inj (of_decide_eq_true heq)]
    exact dash_mem_generateConstantInputName (htext.dash _)
  have hrel : Option.Rel (fun wfInput input => wfInput.toWorkflowInput text = .ok input)
      (lookup (fun wfInput => wfInput.name) (some name) content.inputs)
      (lookup WorkflowInput.mappedName (some name) node.inputs) := by
    rw [hinputs, lookup, lookup, List.find?_append, hnone, Option.or_none]
    refine Related.rel_find ((mapM_eq_ok.mp hdynamic).imp fun wfInput input hinput => ⟨?_, hinput⟩)
    obtain ⟨inputName, nameInSubnode, hinputName, -, -, rfl⟩ := toWorkflowInput_eq_ok hinput
    rw [hinputName]
    rfl
  refine Related.bind_eq hrel fun wfInput input hinput => ?_
  obtain ⟨inputName, nameInSubnode, -, -, -, rfl⟩ := toWorkflowInput_eq_ok hinput
  simp

/-- The value of a constant is found under its generated name. -/
theorem ownValue_constant
    (hnames : (node.inputs.map WorkflowInput.mappedName).Nodup) {input : WorkflowInput V}
    (hinput : input ∈ node.inputs) {constant : WorkflowContentConstantInput}
    (hmade : constant.toWorkflowInput text = .ok input) :
    node.ownValue tools (generateConstantInputName input) = constant.parsedValue tools text := by
  have hfound := lookup_of_mem hnames hinput
  obtain ⟨nameInSubnode, -, rfl⟩ := constant_toWorkflowInput_eq_ok hmade
  rw [WorkflowInput.mappedName, if_pos rfl] at hfound
  rw [WorkflowNodeData.ownValue, hfound]
  rfl

end Level

/-! ## Sources -/

section Sources

variable {V D W X : Type} {tools : ParsingTools V W X} {text : TextTools V}
  {nested : UUID → Option (Revision V D)} {data : PyStr → Option W} {content : WorkflowContent V}
  {root : SubNode V}

/-- What is stored for a node at a path. -/
theorem LoweredFrom.exists_stored (htext : text.UuidTexts) (hnested : NestedIdentifiable nested)
    (h : LoweredFrom text nested (.workflow content) root) {path : List UUID} {subNode : SubNode V}
    (hnode : root.nodeAt (path.map text.uuidStr) = some subNode) :
    ∃ stored, storedAt nested content path = some stored ∧
      LoweredFrom text nested stored subNode := by
  have hrel := h.rel_nodeAt htext hnested path
  rw [hnode] at hrel
  generalize storedAt nested content path = stored? at hrel ⊢
  cases hrel with
  | some hlowered => exact ⟨_, rfl, hlowered⟩

/-- Where there is no node nothing is stored. -/
theorem LoweredFrom.storedAt_eq_none (htext : text.UuidTexts) (hnested : NestedIdentifiable nested)
    (h : LoweredFrom text nested (.workflow content) root) {path : List UUID}
    (hnode : root.nodeAt (path.map text.uuidStr) = none) : storedAt nested content path = none := by
  have hrel := h.rel_nodeAt htext hnested path
  rw [hnode] at hrel
  generalize storedAt nested content path = stored? at hrel ⊢
  cases hrel
  rfl

/-- Below a component there are no nodes. -/
theorem nodeAt_cons_of_component {path : List PyStr} {component : ComponentNode}
    (h : root.nodeAt path = some (.component component)) (id : PyStr) :
    root.nodeAt (id :: path) = none := by
  rw [SubNode.nodeAt, h]
  rfl

/-- A node inside is a sub node of a workflow. -/
theorem exists_parent {path : List PyStr} {subNode : SubNode V}
    (hnode : root.nodeAt path = some subNode) (id : PyStr) (rest : List PyStr)
    (hpath : path = id :: rest) : ∃ node subNodes,
      root.nodeAt rest = some (.workflow node subNodes) ∧
        lookup SubNode.id id subNodes = some subNode := by
  subst hpath
  obtain ⟨parent, hparent, hsub⟩ := Option.bind_eq_some_iff.mp hnode
  cases parent with
  | component component => cases hsub
  | workflow node subNodes => exact ⟨node, subNodes, hparent, hsub⟩

/-- The level of a lowered workflow is well-formed. -/
theorem LoweredFrom.levelWellFormed (htext : text.UuidTexts) (hnested : NestedIdentifiable nested)
    {stored : StoredNode V} {node : WorkflowNodeData V} {subNodes : List (SubNode V)}
    (h : LoweredFrom text nested stored (.workflow node subNodes)) :
    node.LevelWellFormed subNodes := by
  exact (LoweredFrom.wellFormed htext hnested h).1

/-- The operator for a node inside of a stored workflow, and the level around it. -/
theorem LoweredFrom.exists_operator (htext : text.UuidTexts) (hnested : NestedIdentifiable nested)
    (h : LoweredFrom text nested (.workflow content) root) {id : UUID} {path : List UUID}
    {subNode : SubNode V} (hnode : root.nodeAt ((id :: path).map text.uuidStr) = some subNode) :
    ∃ outer node subNodes operator stored,
      storedAt nested content path = some (.workflow outer) ∧
      root.nodeAt (path.map text.uuidStr) = some (.workflow node subNodes) ∧
      outer.Identifiable ∧ BuiltFrom text outer node ∧ node.LevelWellFormed subNodes ∧
      operator ∈ outer.operators ∧ operator.id = id ∧ operator.storedNode nested = some stored ∧
      storedAt nested content (id :: path) = some stored ∧
      LoweredFrom text nested stored subNode := by
  obtain ⟨node, subNodes, hparent, -⟩ := exists_parent hnode _ _ rfl
  obtain ⟨found, hfound, hparentLowered⟩ := h.exists_stored htext hnested hparent
  have hlevel := hparentLowered.levelWellFormed htext hnested
  obtain ⟨outer, rfl, houter, -, hbuilt⟩ := hparentLowered.workflow_inv
  obtain ⟨stored, hstored, hlowered⟩ := h.exists_stored htext hnested hnode
  have hinside := hstored
  rw [storedAt, hfound, Option.bind_some] at hinside
  obtain ⟨operator, hoperator, hstoredNode⟩ := Option.bind_eq_some_iff.mp hinside
  have hoperator : lookup (fun operator : Operator V => operator.id) id outer.operators =
    some operator := hoperator
  obtain ⟨hmem, hid⟩ := lookup_eq_some hoperator
  exact ⟨outer, node, subNodes, operator, stored, hfound, hparent, houter, hbuilt, hlevel, hmem,
    hid, hstoredNode, hstored, hlowered⟩

/-- A component is inside of the workflow. -/
theorem LoweredFrom.exists_cons_of_component (h : LoweredFrom text nested (.workflow content) root)
    {path : List UUID} {component : ComponentNode}
    (hnode : root.nodeAt (path.map text.uuidStr) = some (.component component)) :
    ∃ id rest, path = id :: rest := by
  cases path with
  | nil =>
    obtain ⟨-, levels, hlowered⟩ := h
    cases hlowered
    cases hnode
  | cons id rest => exact ⟨id, rest, rfl⟩

/-- What is passed to an input whose name is no identifier. -/
theorem LoweredFrom.inputSource_of_dash (htext : text.UuidTexts)
    (hnested : NestedIdentifiable nested) (h : LoweredFrom text nested (.workflow content) root)
    {name : PyStr} (hname : '-' ∈ name) (hdata : data name = none) (path : List UUID) :
    inputSource tools data root (path.map text.uuidStr) name =
      ((root.nodeAt (path.map text.uuidStr)).bind (SubNode.ownValue tools name)).map .value := by
  cases path with
  | nil =>
    rw [List.map_nil, inputSource, hdata, Option.none_or]
    rfl
  | cons id path =>
    rw [List.map_cons, inputSource]
    cases hnode : root.nodeAt (path.map text.uuidStr) with
    | none =>
      rw [SubNode.nodeAt, hnode]
      rfl
    | some subNode =>
      cases subNode with
      | component component =>
        rw [nodeAt_cons_of_component hnode]
        rfl
      | workflow node subNodes =>
        obtain ⟨stored, -, hlowered⟩ := h.exists_stored htext hnested hnode
        obtain ⟨inner, rfl, hinner, -, hbuilt⟩ := hlowered.workflow_inv
        have hkey : inner.inputKey id name = none := inputKey_eq_none_of_dash hinner hname
        have hlink := (hbuilt.namesAgree hinner).rel_linkTo htext hinner id name
        have houter := hbuilt.rel_outerIo htext hinner id name
        rw [WorkflowContent.innerLinkTo, hkey] at hlink
        rw [WorkflowContent.outerIo, hkey] at houter
        dsimp only
        cases hlinkTo : node.linkTo (text.uuidStr id) name with
        | some connection =>
          rw [hlinkTo] at hlink
          cases hlink
        | none =>
          cases hmapped : lookup WorkflowInput.target (text.uuidStr id, name) node.inputs with
          | some input =>
            rw [hmapped] at houter
            cases houter
          | none =>
            dsimp only
            rw [WorkflowNodeData.mappedFrom, hmapped]
            rfl

/-- What an input of a node passes on is what the input or constant passes on from which it is
made. -/
theorem LoweredFrom.passedOn_eq (htext : text.UuidTexts) (hnested : NestedIdentifiable nested)
    (h : LoweredFrom text nested (.workflow content) root)
    (hdata : ∀ name, '-' ∈ name → data name = none) {path : List UUID}
    {node : WorkflowNodeData V} {subNodes : List (SubNode V)}
    (hnode : root.nodeAt (path.map text.uuidStr) = some (.workflow node subNodes))
    (hsource : ∀ name, '-' ∉ name → inputSource tools data root (path.map text.uuidStr) name =
      (storedSource tools text nested data content path name).map
        (StoredSource.toInputSource text))
    {inner : WorkflowContent V} (hstored : storedAt nested content path = some (.workflow inner))
    {io : WorkflowContentDynamicInput V ⊕ WorkflowContentConstantInput} {input : WorkflowInput V}
    (hio : io ∈ inner.outerIos) (hinput : input ∈ node.inputs) (hmade : MadeFrom text io input) :
    input.mappedName.bind (inputSource tools data root (path.map text.uuidStr)) =
      (passedOn tools text (storedSource tools text nested data content path) io).map
        (StoredSource.toInputSource text) := by
  obtain ⟨stored, hstoredAt, hlowered⟩ := h.exists_stored htext hnested hnode
  have hnames := (hlowered.levelWellFormed htext hnested).names
  obtain ⟨other, rfl, hinner, -, hbuilt⟩ := hlowered.workflow_inv
  obtain rfl := StoredNode.workflow.inj (Option.some.inj (hstored.symm.trans hstoredAt))
  rcases List.mem_append.mp hio with hio | hio
  · obtain ⟨wfInput, hwfInput, rfl⟩ := List.mem_map.mp hio
    obtain ⟨name, nameInSubnode, hname, -, -, rfl⟩ := toWorkflowInput_eq_ok hmade
    rw [passedOn, hname, Option.bind_some]
    exact hsource name (hinner.inputIdentifiers wfInput hwfInput name hname)
  · obtain ⟨constant, -, rfl⟩ := List.mem_map.mp hio
    have hvalue : node.ownValue tools (generateConstantInputName input) =
        constant.parsedValue tools text := ownValue_constant hnames hinput hmade
    obtain ⟨nameInSubnode, -, hmadeEq⟩ := constant_toWorkflowInput_eq_ok hmade
    have hmapped : input.mappedName = some (generateConstantInputName input) := by
      rw [hmadeEq]
      rfl
    have hdash : '-' ∈ generateConstantInputName input := by
      rw [hmadeEq]
      exact dash_mem_generateConstantInputName (htext.dash _)
    rw [hmapped, Option.bind_some,
      h.inputSource_of_dash htext hnested hdash (hdata _ hdash) path, hnode, Option.bind_some,
      SubNode.ownValue, hvalue, passedOn, Option.map_map]
    rfl

/-- A lowered node has the default values which are stored. -/
theorem LoweredFrom.default_eq (htext : text.UuidTexts) (hnested : NestedIdentifiable nested)
    (h : LoweredFrom text nested (.workflow content) root) {name : PyStr} (hname : '-' ∉ name)
    (path : List UUID) :
    (root.nodeAt (path.map text.uuidStr)).bind (SubNode.ownValue tools name) =
      (storedAt nested content path).bind (StoredNode.defaultValue tools name) := by
  refine Related.bind_eq (h.rel_nodeAt htext hnested path) fun stored subNode hlowered => ?_
  cases subNode with
  | component component =>
    obtain ⟨id, rfl, -⟩ := hlowered.component_inv
    rfl
  | workflow node subNodes =>
    obtain ⟨inner, rfl, -, -, hbuilt⟩ := hlowered.workflow_inv
    exact hbuilt.ownValue_eq htext hname

/-- An input of a lowered node takes its value from where the operator input takes it. -/
theorem LoweredFrom.inputSource_eq (htext : text.UuidTexts) (hnested : NestedIdentifiable nested)
    (h : LoweredFrom text nested (.workflow content) root)
    (hdata : ∀ name, '-' ∈ name → data name = none) (path : List UUID) {name : PyStr}
    (hname : '-' ∉ name) : inputSource tools data root (path.map text.uuidStr) name =
      (storedSource tools text nested data content path name).map
        (StoredSource.toInputSource text) := by
  induction path generalizing name with
  | nil =>
    obtain ⟨hstored, levels, hlowered⟩ := h
    cases hlowered with
    | workflow hbuilt =>
      rw [List.map_nil, inputSource, storedSource, SubNode.ownValue,
        hbuilt.ownValue_eq htext hname, Option.map_map]
      rfl
  | cons id path ih =>
    rw [List.map_cons, inputSource, storedSource]
    cases hnode : root.nodeAt (path.map text.uuidStr) with
    | none =>
      rw [h.storedAt_eq_none htext hnested hnode]
      rfl
    | some subNode =>
      obtain ⟨stored, hstored, hlowered⟩ := h.exists_stored htext hnested hnode
      rw [hstored]
      cases subNode with
      | component component =>
        obtain ⟨componentId, rfl, -⟩ := hlowered.component_inv
        rfl
      | workflow node subNodes =>
        obtain ⟨inner, rfl, hinner, -, hbuilt⟩ := hlowered.workflow_inv
        have hlink := (hbuilt.namesAgree hinner).rel_linkTo htext hinner id name
        dsimp only
        generalize inner.innerLinkTo id name = link?,
          node.linkTo (text.uuidStr id) name = connection? at hlink
        cases hlink with
        | some hagree =>
          obtain ⟨start, finish, hstart, -, hid, hcarries, -, -⟩ := hagree
          dsimp only
          rw [hstart, Option.bind_some, outputName_of_carriesName hinner hcarries, hid]
          rfl
        | none =>
          dsimp only
          rw [Option.map_or, ← h.default_eq htext hnested hname (id :: path), List.map_cons,
            WorkflowNodeData.mappedFrom, Option.bind_assoc]
          congr 1
          · rw [Option.map_bind]
            refine Related.bind_eq (hbuilt.rel_outerIo htext hinner id name) ?_
            rintro io input ⟨hio, hinput, hmade⟩
            exact h.passedOn_eq htext hnested hdata hnode (fun _ => ih) hstored hio hinput hmade
          · rw [Option.map_map]
            rfl

/-- An operator input to which something leads in a lowered node has a key. -/
theorem exists_inputKey_of_mem_targetedNames (htext : text.UuidTexts)
    {inner : WorkflowContent V} (hinner : inner.Identifiable) {node : WorkflowNodeData V}
    (hbuilt : BuiltFrom text inner node) {id : UUID} {name : PyStr}
    (h : name ∈ node.targetedNames (text.uuidStr id)) :
    ∃ key, inner.inputKey id name = some key := by
  rcases List.mem_append.mp h with h | h
  · obtain ⟨connection, hconnection, rfl⟩ := List.mem_map.mp h
    obtain ⟨hconnection, hid⟩ := List.mem_filter.mp hconnection
    obtain ⟨link, -, hagree⟩ := Related.exists_left (hbuilt.namesAgree hinner).connections hconnection
    obtain ⟨key, -, htarget⟩ := isTarget_of_connectionNamesAgree hagree
    have htargetEq : connection.target = (text.uuidStr id, connection.outputName) :=
      congrArg (·, connection.outputName) (of_decide_eq_true hid)
    exact ⟨key, (inputKey_eq_some_iff_target htext hinner htarget).mpr htargetEq⟩
  · obtain ⟨input, hinput, rfl⟩ := List.mem_map.mp h
    obtain ⟨hinput, hid⟩ := List.mem_filter.mp hinput
    obtain ⟨io, hio, hmade⟩ := Related.exists_left hbuilt.madeFrom hinput
    have htargetEq : input.target = (text.uuidStr id, input.nameInSubnode) :=
      congrArg (·, input.nameInSubnode) (of_decide_eq_true hid)
    exact ⟨_, (inputKey_eq_some_iff_target htext hinner
      (isTarget_of_madeFrom hinner hio hmade)).mpr htargetEq⟩

/-- The inputs of a stored operator which take a value from somewhere. -/
theorem storedInputs_of_operator {inner : WorkflowContent V} (hinner : inner.Identifiable)
    {path : List UUID} (hstored : storedAt nested content path = some (.workflow inner))
    {operator : Operator V} (hoperator : operator ∈ inner.operators) :
    storedInputs tools text nested data content (operator.id :: path) =
      (operator.inputs.filterMap fun input => input.name).filter fun name =>
        (storedSource tools text nested data content (operator.id :: path) name).isSome := by
  have hlookup : lookup (fun operator : Operator V => operator.id) operator.id inner.operators =
    some operator := lookup_of_mem hinner.operatorIds hoperator
  rw [storedInputs, hstored]
  dsimp only
  rw [hlookup]
  rfl

/-- The inputs of a component which take a value from somewhere are those of its operator. -/
theorem LoweredFrom.storedInputs_perm (htext : text.UuidTexts) (hnested : NestedIdentifiable nested)
    (h : LoweredFrom text nested (.workflow content) root)
    (hdata : ∀ name, '-' ∈ name → data name = none) {path : List UUID} {component : ComponentNode}
    (hnode : root.nodeAt (path.map text.uuidStr) = some (.component component)) :
    (storedInputs tools text nested data content path).Nodup ∧
      (storedInputs tools text nested data content path).Perm
        (providedInputs tools data root (path.map text.uuidStr)) := by
  obtain ⟨id, path, rfl⟩ := h.exists_cons_of_component hnode
  obtain ⟨inner, node, subNodes, operator, -, hstored, hparent, hinner, hbuilt, hlevel, hmem, rfl,
    -, -, -⟩ := h.exists_operator htext hnested hnode
  have hnodup := hinner.inputNames_nodup hmem
  have hprovided : providedInputs tools data root ((operator.id :: path).map text.uuidStr) =
      (node.targetedNames (text.uuidStr operator.id)).filter fun name =>
        (inputSource tools data root ((operator.id :: path).map text.uuidStr) name).isSome := by
    rw [List.map_cons, providedInputs, hparent]
  have hsource {name : PyStr} (hdash : '-' ∉ name) :
      (inputSource tools data root ((operator.id :: path).map text.uuidStr) name).isSome =
        (storedSource tools text nested data content (operator.id :: path) name).isSome := by
    rw [h.inputSource_eq htext hnested hdata (operator.id :: path) hdash, Option.isSome_map]
  rw [storedInputs_of_operator hinner hstored hmem, hprovided]
  refine ⟨hnodup.filter _, (List.perm_ext_iff_of_nodup (hnodup.filter _)
    ((hlevel.targetedNames_nodup _).filter _)).mpr fun name => ?_⟩
  rw [List.mem_filter, List.mem_filter]
  constructor
  · rintro ⟨hname, hsome⟩
    obtain ⟨input, hinput, hinputName⟩ := List.mem_filterMap.mp hname
    rw [← hsource (hinner.connectorIdentifiers operator hmem input hinput name hinputName)] at hsome
    exact ⟨mem_targetedNames_of_isSome hparent hnode hsome, hsome⟩
  · rintro ⟨hname, hsome⟩
    obtain ⟨key, hkey⟩ := exists_inputKey_of_mem_targetedNames htext hinner hbuilt hname
    rw [hsource (dash_notMem_of_inputKey hinner hkey)] at hsome
    exact ⟨hinner.mem_inputNames hmem hkey, hsome⟩

/-- Nothing is passed to an operator input whose name is no identifier. -/
theorem LoweredFrom.storedSource_of_dash (htext : text.UuidTexts)
    (hnested : NestedIdentifiable nested) (h : LoweredFrom text nested (.workflow content) root)
    {name : PyStr} (hname : '-' ∈ name) {path : List UUID} {component : ComponentNode}
    (hnode : root.nodeAt (path.map text.uuidStr) = some (.component component)) :
    storedSource tools text nested data content path name = none := by
  obtain ⟨id, path, rfl⟩ := h.exists_cons_of_component hnode
  obtain ⟨inner, -, -, -, stored, hstored, -, hinner, -, -, -, -, -, hfound, hlowered⟩ :=
    h.exists_operator htext hnested hnode
  obtain ⟨componentId, rfl, -⟩ := hlowered.component_inv
  rw [storedSource, hstored]
  dsimp only
  rw [WorkflowContent.innerLinkTo, WorkflowContent.outerIo, inputKey_eq_none_of_dash hinner hname,
    hfound]
  rfl

/-- The inputs of a component take their values from where the operator inputs take them. -/
theorem LoweredFrom.inputSource_component (htext : text.UuidTexts)
    (hnested : NestedIdentifiable nested) (h : LoweredFrom text nested (.workflow content) root)
    (hdata : ∀ name, '-' ∈ name → data name = none) {path : List UUID} {component : ComponentNode}
    (hnode : root.nodeAt (path.map text.uuidStr) = some (.component component)) (name : PyStr) :
    inputSource tools data root (path.map text.uuidStr) name =
      (storedSource tools text nested data content path name).map
        (StoredSource.toInputSource text) := by
  by_cases hname : '-' ∈ name
  · rw [h.inputSource_of_dash htext hnested hname (hdata name hname), hnode,
      h.storedSource_of_dash htext hnested hname hnode]
    rfl
  · exact h.inputSource_eq htext hnested hdata path hname

end Sources

end HetidaDesigner
