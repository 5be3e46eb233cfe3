import HetidaDesigner.Backend.Transport
import HetidaDesigner.Library.Related
import HetidaDesigner.Library.SplitOnce
import HetidaDesigner.Runtime.Completion
import HetidaDesigner.Runtime.Names

/-!
# Lowering stored workflows

Contents refer to operators and connectors by id, workflow nodes by texts and names. Each node which
`execution.py` builds is lowered from one stored revision: a component node from a component, and a
workflow node from the content of a workflow. If the contents can be told apart by their ids and
carry the names of their connectors, then nothing is identified which was different: the node handed
to the runtime is well-formed, and none of its levels has a cycle.
-/

namespace HetidaDesigner

open Checks EdgeList KeyedList LastEntry SplitOnce

section Definitions

variable {V D : Type} (text : TextTools V) (nested : UUID → Option (Revision V D))

/-- Texts of ids are different, have no underscores, and are no identifiers. -/
structure TextTools.UuidTexts : Prop where
  injective : Function.Injective text.uuidStr
  underscore : ∀ id, '_' ∉ text.uuidStr id
  dash : ∀ id, '-' ∈ text.uuidStr id

/-- A well-formed content whose operators can be told apart by ids and their inputs by names, with
sources for exposed inputs only and with right copies of names, which are identifiers. -/
structure WorkflowContent.Identifiable (content : WorkflowContent V) : Prop where
  wellFormed : content.WellFormed
  operatorIds : (content.operators.map fun operator => operator.id).Nodup
  connectorNames : ∀ operator ∈ content.operators,
    (operator.inputs.map fun input => input.name).Nodup
  exposed : ∀ io ∈ content.inputIos, HasExposedInput content.operators io.key
  inputCopies : ∀ io ∈ content.inputIos,
    CarriesName (inputConnectorNames content.operators) io.key io.connectorName
  outputCopies : ∀ wfOutput ∈ content.outputs,
    CarriesName (outputConnectorNames content.operators) wfOutput.key wfOutput.connectorName
  linkCopies : ∀ link ∈ content.links.filter Link.inner, link.CarriesNames content.operators
  inputIdentifiers : ∀ wfInput ∈ content.inputs, ∀ name, wfInput.name = some name → '-' ∉ name
  connectorIdentifiers : ∀ operator ∈ content.operators, ∀ input ∈ operator.inputs, ∀ name,
    input.name = some name → '-' ∉ name

/-- What validation guarantees of every content besides. -/
structure WorkflowContent.Checked (content : WorkflowContent V) : Prop where
  acyclic : linksAcyclicDirectedGraph content.links = true
  inputNames : namesEmptyOrUnique (fun wfInput => wfInput.toIo) content.inputs = true
  outputNames : namesEmptyOrUnique (fun wfOutput => wfOutput.toIo) content.outputs = true

/-- The data of a node and the parts of the content from which they are made. -/
structure BuiltFrom (content : WorkflowContent V) (node : WorkflowNodeData V) : Prop where
  inputs : ∃ dynamicInputs constantInputs, node.inputs = dynamicInputs ++ constantInputs ∧
    (content.inputs.mapM fun wfInput => wfInput.toWorkflowInput text) = .ok dynamicInputs ∧
    (content.constants.mapM fun constant => constant.toWorkflowInput text) = .ok constantInputs
  outputs : (content.outputs.mapM fun wfOutput => wfOutput.toWorkflowOutput text) =
    .ok node.outputs
  connections : ∃ connections, (content.links.mapM fun link => link.toConnection text) =
    .ok connections ∧ node.connections = connections.filterMap id

/-- What an operator stands for: a component, or a workflow with its content. -/
inductive StoredNode (V : Type)
  | component (id : UUID)
  | workflow (content : WorkflowContent V)
  deriving DecidableEq

/-- The operators of a workflow; a component has none. -/
def StoredNode.operators : StoredNode V → List (Operator V)
  | .component _ => []
  | .workflow content => content.operators

/-- What an operator stands for. -/
def Operator.storedNode (operator : Operator V) : Option (StoredNode V) :=
  (nested operator.transformationId).bind fun revision =>
    match operator.type with
    | .component => some (.component revision.id)
    | .workflow => (requireWorkflow revision).toOption.map .workflow

/-- What stands at a path of operators, of which the innermost one comes first. -/
def storedAt (root : WorkflowContent V) : List UUID → Option (StoredNode V)
  | [] => some (.workflow root)
  | id :: path => (storedAt root path).bind fun stored =>
      (lookup (fun operator => operator.id) id stored.operators).bind (Operator.storedNode nested)

/-- A node is lowered from a component, or from a content with a number of levels. -/
inductive Lowered (levels : ℕ) : StoredNode V → SubNode V → Prop
  | component {id : UUID} {node : ComponentNode} (huuid : node.componentUuid = text.uuidStr id) :
    Lowered levels (.component id) (.component node)
  | workflow {content : WorkflowContent V} {node : WorkflowNodeData V} {subNodes : List (SubNode V)}
    {children : List (UUID × Revision V D)} (hbuilt : BuiltFrom text content node)
    (hchildren : getDirectChildTrafosByOperatorId nested content = .ok children)
    (hcollected : (collectChildNodes text nested levels content children).run =
      some (.ok subNodes)) :
    Lowered levels (.workflow content) (.workflow node subNodes)

/-- The content of a workflow meets a condition. -/
def StoredNode.Meets (P : WorkflowContent V → Prop) : StoredNode V → Prop
  | .component _ => True
  | .workflow content => P content

end Definitions

/-! ## Parts of nodes -/

section Parts

variable {V : Type} {text : TextTools V} {content : WorkflowContent V}

/-- What is built by `to_workflow_node`. -/
theorem builtFrom_of_toWorkflowNode {transformationId : UUID}
    {transformationName transformationTag operatorId : PyStr} {operatorName : Option PyStr}
    {subNodes : List (SubNode V)} {subNode : SubNode V}
    (h : content.toWorkflowNode text transformationId transformationName transformationTag
      operatorId operatorName subNodes = .ok subNode) :
    ∃ node, subNode = .workflow node subNodes ∧ node.id = operatorId ∧
      BuiltFrom text content node := by
  obtain ⟨dynamicInputs, hdynamic, h⟩ := bind_eq_ok.mp h
  obtain ⟨constantInputs, hconstant, h⟩ := bind_eq_ok.mp h
  obtain ⟨outputs, houtputs, h⟩ := bind_eq_ok.mp h
  obtain ⟨connections, hconnections, h⟩ := bind_eq_ok.mp h
  obtain rfl := return_eq_ok.mp h
  exact ⟨_, rfl, rfl, ⟨dynamicInputs, constantInputs, rfl, hdynamic, hconstant⟩, houtputs,
    connections, hconnections, rfl⟩

/-- The parts of a dynamic input of a node. -/
theorem toWorkflowInput_eq_ok {wfInput : WorkflowContentDynamicInput V} {input : WorkflowInput V}
    (h : wfInput.toWorkflowInput text = .ok input) :
    ∃ name nameInSubnode, wfInput.name = some name ∧ name ≠ [] ∧
      wfInput.connectorName = some nameInSubnode ∧ input = {
        id := wfInput.id
        name := some name
        type := wfInput.dataType
        idOfSubNode := text.uuidStr wfInput.operatorId
        nameInSubnode := nameInSubnode
        constantValue := none
        defaultValue := wfInput.value
        constant := false
        default := wfInput.type = .optional
        name_or_constant_data_provided := by simp } := by
  obtain ⟨name, hname, h⟩ := bind_eq_ok.mp h
  obtain ⟨nameInSubnode, hconnector, h⟩ := bind_eq_ok.mp h
  have hsome := eq_some_of_requireIdentifier hname
  refine ⟨name, nameInSubnode, hsome, ?_, requireName_eq_ok.mp hconnector, (return_eq_ok.mp h).symm⟩
  rintro rfl
  rw [hsome] at hname
  cases hname

/-- The parts of a constant input of a node. -/
theorem constant_toWorkflowInput_eq_ok {constant : WorkflowContentConstantInput}
    {input : WorkflowInput V} (h : constant.toWorkflowInput text = .ok input) :
    ∃ nameInSubnode, constant.connectorName = some nameInSubnode ∧ input = {
      id := constant.id
      name := none
      type := constant.dataType
      idOfSubNode := text.uuidStr constant.operatorId
      nameInSubnode := nameInSubnode
      constantValue := some (text.ofStr constant.value)
      defaultValue := none
      constant := true
      default := false
      name_or_constant_data_provided := by simp } := by
  obtain ⟨nameInSubnode, hconnector, h⟩ := bind_eq_ok.mp h
  exact ⟨nameInSubnode, requireName_eq_ok.mp hconnector, (return_eq_ok.mp h).symm⟩

/-- The parts of an output of a node. -/
theorem toWorkflowOutput_eq_ok {wfOutput : WorkflowContentOutput} {output : WorkflowOutput}
    (h : wfOutput.toWorkflowOutput text = .ok output) :
    ∃ name nameInSubnode, wfOutput.name = some name ∧ name ≠ [] ∧
      wfOutput.connectorName = some nameInSubnode ∧ output = {
        id := wfOutput.id
        name := name
        type := wfOutput.dataType
        idOfSubNode := text.uuidStr wfOutput.operatorId
        nameInSubnode := nameInSubnode } := by
  obtain ⟨name, hname, h⟩ := bind_eq_ok.mp h
  obtain ⟨nameInSubnode, hconnector, h⟩ := bind_eq_ok.mp h
  have hsome := eq_some_of_requireIdentifier hname
  refine ⟨name, nameInSubnode, hsome, ?_, requireName_eq_ok.mp hconnector, (return_eq_ok.mp h).symm⟩
  rintro rfl
  rw [hsome] at hname
  cases hname

/-- A node which is built from an identifiable content names the connectors of the content. -/
theorem BuiltFrom.namesAgree {node : WorkflowNodeData V} (h : BuiltFrom text content node)
    (hcontent : content.Identifiable) : NamesAgree text content node := by
  obtain ⟨dynamicInputs, constantInputs, hinputs, hdynamic, hconstant⟩ := h.inputs
  obtain ⟨connections, hconnections, hfiltered⟩ := h.connections
  refine ⟨?_, ?_, ?_⟩
  · rw [hinputs]
    exact (inputNamesAgree_iff content.operators hdynamic hconstant).mpr hcontent.inputCopies
  · exact (outputNamesAgree_iff content.operators h.outputs).mpr hcontent.outputCopies
  · rw [hfiltered]
    exact (connectionNamesAgree_iff content.operators hconnections).mpr hcontent.linkCopies

end Parts

/-! ## Targets -/

section Targets

variable {V : Type} {text : TextTools V} {operators : List (Operator V)}

/-- The target of a key: the text of the operator and the name of its connector. -/
def IsTarget (text : TextTools V) (operators : List (Operator V)) (key : UUID × UUID)
    (target : PyStr × PyStr) : Prop :=
  target.1 = text.uuidStr key.1 ∧
    CarriesName (inputConnectorNames operators) key (some target.2)

/-- Each connector has one target, and different ones have different targets. -/
theorem biUnique_isTarget (htext : text.UuidTexts)
    (hids : (operators.map fun operator => operator.id).Nodup)
    (hnames : ∀ operator ∈ operators, (operator.inputs.map fun input => input.name).Nodup) :
    Relator.BiUnique (IsTarget text operators) := by
  constructor
  · rintro ⟨operator, connector⟩ ⟨operator', connector'⟩ ⟨first, name⟩ ⟨hfirst, hname, -⟩
      ⟨hfirst', hname', -⟩
    obtain rfl : operator = operator' := htext.injective (hfirst.symm.trans hfirst')
    simp only [inputConnectorNames, inputConnectors_eq, List.mem_map, List.mem_flatMap,
      Prod.exists] at hname hname'
    obtain ⟨_, _, input, ⟨_, _, ⟨owner, howner, hdata⟩, _, hinput, hentry⟩, heq⟩ := hname
    obtain ⟨_, _, input', ⟨_, _, ⟨owner', howner', hdata'⟩, _, hinput', hentry'⟩, heq'⟩ := hname'
    cases hdata
    cases hdata'
    cases hentry
    cases hentry'
    obtain ⟨hkey, hcarried⟩ := Prod.mk.inj heq
    obtain ⟨hkey', hcarried'⟩ := Prod.mk.inj heq'
    obtain ⟨hoperator, rfl⟩ := Prod.mk.inj hkey
    obtain ⟨hoperator', rfl⟩ := Prod.mk.inj hkey'
    obtain rfl := List.inj_on_of_nodup_map hids howner howner' (hoperator.trans hoperator'.symm)
    obtain rfl := List.inj_on_of_nodup_map (hnames owner howner) hinput hinput'
      (hcarried.trans hcarried'.symm)
    rfl
  · rintro ⟨operator, connector⟩ ⟨first, name⟩ ⟨first', name'⟩ ⟨hfirst, hname, hall⟩
      ⟨hfirst', hname', -⟩
    obtain rfl : first = first' := hfirst.trans hfirst'.symm
    obtain rfl : name' = name := Option.some.inj (hall _ hname')
    rfl

end Targets

/-! ## Sources -/

section Sources

variable {V : Type} {content : WorkflowContent V}

/-- The key of the operator input at which a link ends. -/
def innerEnd (link : Link) : Option (UUID × UUID) :=
  link.finish.operator.map fun operator => (operator, link.finish.connector.id)

/-- The keys of the operator inputs to which links between operators, inputs and constants lead. -/
def WorkflowContent.targetedKeys (content : WorkflowContent V) : List (UUID × UUID) :=
  (content.links.filter Link.inner).filterMap innerEnd ++
    content.inputIos.map WorkflowContentIo.key

/-- How often something leads to an operator input. -/
theorem count_targetedKeys (key : UUID × UUID) : content.targetedKeys.count key =
    sourceCount content.links content.constants content.inputs key := by
  have hlinks : ((content.links.filter Link.inner).filterMap innerEnd).count key =
      content.links.countP (linkFromOperatorTo key) := by
    rw [List.count_eq_countP, List.countP_filterMap, List.countP_filter]
    refine List.countP_congr fun link _ => ?_
    rw [innerEnd, linkFromOperatorTo, Link.inner, Vertex.key]
    cases hstart : link.start.operator <;> cases hfinish : link.finish.operator <;>
      simp [Prod.ext_iff]
  have hinputs : (content.inputIos.map WorkflowContentIo.key).count key =
      content.inputs.countP (fun wfInput => wfInput.key = key) +
        content.constants.countP (fun constant => constant.key = key) := by
    rw [WorkflowContent.inputIos, List.map_append, List.map_map, List.map_map, List.count_append,
      List.count_eq_countP, List.count_eq_countP, List.countP_map, List.countP_map]
    exact congrArg₂ (· + ·) (List.countP_congr fun _ _ => by simp)
      (List.countP_congr fun _ _ => by simp)
  rw [WorkflowContent.targetedKeys, List.count_append, hlinks, hinputs, sourceCount]
  omega

/-- At most one thing leads to each operator input. -/
theorem WorkflowContent.Identifiable.targetedKeys_nodup (h : content.Identifiable) :
    content.targetedKeys.Nodup := by
  refine List.nodup_iff_count_le_one.mpr fun key => ?_
  by_cases hexposed : HasExposedInput content.operators key
  · rw [count_targetedKeys, h.wellFormed.oneSource key hexposed]
  · rw [List.count_eq_zero_of_not_mem fun hmem => ?_]
    · exact Nat.zero_le 1
    · rcases List.mem_append.mp hmem with hmem | hmem
      · obtain ⟨link, hlink, hend⟩ := List.mem_filterMap.mp hmem
        obtain ⟨operator, hoperator, rfl⟩ := Option.map_eq_some_iff.mp hend
        exact hexposed (h.wellFormed.linkEnds link (List.mem_filter.mp hlink).1 operator hoperator)
      · obtain ⟨io, hio, rfl⟩ := List.mem_map.mp hmem
        exact hexposed (h.exposed io hio)

end Sources

/-! ## Levels -/

section Levels

variable {V : Type} {text : TextTools V} {content : WorkflowContent V}
  {node : WorkflowNodeData V}

/-- Generated names of constants tell them apart. -/
theorem generateConstantInputName_inj (htext : text.UuidTexts) {input input' : WorkflowInput V}
    {operator operator' : UUID} (hoperator : input.idOfSubNode = text.uuidStr operator)
    (hoperator' : input'.idOfSubNode = text.uuidStr operator')
    (h : generateConstantInputName input = generateConstantInputName input') :
    input.target = input'.target := by
  unfold generateConstantInputName at h
  generalize "generated_constant_input_".toList = front at h
  rw [show "_".toList = ['_'] from rfl, List.append_assoc, List.append_assoc, List.append_assoc,
    List.append_assoc] at h
  have hrest := List.append_cancel_left h
  have hsplit (name : PyStr) {id : PyStr} {operator : UUID} (hid : id = text.uuidStr operator) :
      splitOnce '_' (id ++ (['_'] ++ name)) = some (id, name) :=
    splitOnce_eq_some_iff.mpr ⟨rfl, hid ▸ htext.underscore operator⟩
  have hparts := hsplit input.nameInSubnode hoperator
  rw [hrest, hsplit input'.nameInSubnode hoperator'] at hparts
  obtain ⟨hid, hname⟩ := Prod.mk.inj (Option.some.inj hparts)
  rw [WorkflowInput.target, WorkflowInput.target, hid, hname]

/-- Generated names of constants are no identifiers. -/
theorem dash_mem_generateConstantInputName {input : WorkflowInput V}
    (h : '-' ∈ input.idOfSubNode) : '-' ∈ generateConstantInputName input :=
  List.mem_append_left _ (List.mem_append_left _ (List.mem_append_right _ h))


/-- The connections of a node run between the texts of the ends of inner links. -/
theorem NamesAgree.edges (h : NamesAgree text content node) :
    (node.connections.map fun connection =>
      (connection.inputInWorkflowId, connection.outputInWorkflowId)) =
      ((content.links.filter Link.inner).map Link.edge).map fun edge =>
        (text.uuidStr edge.1, text.uuidStr edge.2) := by
  have hconnections := h.connections
  clear h
  generalize content.links.filter Link.inner = links, node.connections = connections
    at hconnections
  induction hconnections with
  | nil => rfl
  | cons hfirst _ ih =>
    obtain ⟨start, finish, hstart, hfinish, hstartId, -, hfinishId, -⟩ := hfirst
    rw [List.map_cons, List.map_cons, List.map_cons, ih, Link.edge, hstart, hfinish, hstartId,
      hfinishId]
    rfl

/-- The connections of a node form no loop if the links of the content form none. -/
theorem NamesAgree.acyclic (h : NamesAgree text content node) (htext : text.UuidTexts)
    (hcontent : linksAcyclicDirectedGraph content.links = true) :
    Acyclic (node.connections.map fun connection =>
      (connection.inputInWorkflowId, connection.outputInWorkflowId)) := by
  rw [h.edges]
  refine Acyclic.map htext.injective
    (((linksAcyclicDirectedGraph_iff _).mp hcontent).mono fun edge hedge => ?_)
  obtain ⟨link, hlink, rfl⟩ := List.mem_map.mp hedge
  exact List.mem_map_of_mem (List.mem_filter.mp hlink).1

/-- At most one thing leads to each input of a sub node. -/
theorem NamesAgree.targets_nodup (h : NamesAgree text content node) (htext : text.UuidTexts)
    (hcontent : content.Identifiable) : (node.connections.map WorkflowConnection.target ++
      node.inputs.map WorkflowInput.target).Nodup := by
  have hlinks : List.Forall₂ (IsTarget text content.operators)
      ((content.links.filter Link.inner).filterMap innerEnd)
      (node.connections.map WorkflowConnection.target) := by
    have hconnections := h.connections
    generalize content.links.filter Link.inner = links, node.connections = connections
      at hconnections
    induction hconnections with
    | nil => exact .nil
    | cons hfirst _ ih =>
      obtain ⟨start, finish, hstart, hfinish, -, -, hid, hname⟩ := hfirst
      rw [List.filterMap_cons, innerEnd, hfinish]
      exact .cons ⟨hid, hname⟩ ih
  have hinputs : List.Forall₂ (IsTarget text content.operators)
      (content.inputIos.map WorkflowContentIo.key) (node.inputs.map WorkflowInput.target) :=
    List.forall₂_map_left_iff.mpr (List.forall₂_map_right_iff.mpr
      (h.inputs.imp fun _ _ hinput => ⟨hinput.operator, hinput.connector⟩))
  exact (List.rel_nodup (biUnique_isTarget htext hcontent.operatorIds hcontent.connectorNames)
    (List.rel_append hlinks hinputs)).mp hcontent.targetedKeys_nodup

/-- Names which are all given are unique if the given ones are. -/
theorem nodup_of_namesEmptyOrUnique {A : Type} {io : A → Io} {ios : List A}
    (h : namesEmptyOrUnique io ios = true) (hnamed : ∀ a ∈ ios, (io a).named = true) :
    (ios.map fun a => (io a).name).Nodup := by
  have hnodup := of_decide_eq_true h
  rw [List.filter_eq_self.mpr (List.forall_mem_map.mpr hnamed), List.map_map] at hnodup
  exact hnodup

/-- The dynamic inputs of a node have different names. -/
theorem dynamicNames_nodup {dynamicInputs : List (WorkflowInput V)}
    (h : (content.inputs.mapM fun wfInput => wfInput.toWorkflowInput text) = .ok dynamicInputs)
    (hunique : namesEmptyOrUnique (fun wfInput => wfInput.toIo) content.inputs = true) :
    (dynamicInputs.map WorkflowInput.mappedName).Nodup := by
  have hnames : dynamicInputs.map WorkflowInput.mappedName =
      content.inputs.map fun wfInput => wfInput.name := by
    refine map_eq_of_mapM h fun wfInput input hinput => ?_
    obtain ⟨name, nameInSubnode, hname, -, -, rfl⟩ := toWorkflowInput_eq_ok hinput
    exact hname.symm
  rw [hnames]
  refine nodup_of_namesEmptyOrUnique hunique fun wfInput hwfInput => ?_
  obtain ⟨input, -, hinput⟩ := exists_of_mapM h hwfInput
  obtain ⟨name, -, hname, hne, -, -⟩ := toWorkflowInput_eq_ok hinput
  unfold Io.named
  rw [hname]
  simpa using hne

/-- The outputs of a node have different names. -/
theorem outputNames_nodup {wfOutputs : List WorkflowContentOutput} {outputs : List WorkflowOutput}
    (h : (wfOutputs.mapM fun wfOutput => wfOutput.toWorkflowOutput text) = .ok outputs)
    (hunique : namesEmptyOrUnique (fun wfOutput => wfOutput.toIo) wfOutputs = true) :
    (outputs.map WorkflowOutput.name).Nodup := by
  have hnames : outputs.map (fun output => some output.name) =
      wfOutputs.map fun wfOutput => wfOutput.name := by
    refine map_eq_of_mapM h fun wfOutput output houtput => ?_
    obtain ⟨name, nameInSubnode, hname, -, -, rfl⟩ := toWorkflowOutput_eq_ok houtput
    exact hname.symm
  have hnodup : (outputs.map fun output => some output.name).Nodup := by
    rw [hnames]
    refine nodup_of_namesEmptyOrUnique hunique fun wfOutput hwfOutput => ?_
    obtain ⟨output, -, houtput⟩ := exists_of_mapM h hwfOutput
    obtain ⟨name, -, hname, hne, -, -⟩ := toWorkflowOutput_eq_ok houtput
    unfold Io.named
    rw [hname]
    simpa using hne
  exact List.Nodup.of_map some (by rwa [List.map_map])

/-- The inputs which are made from constants are constant and have generated names. -/
theorem constant_of_mem {constantInputs : List (WorkflowInput V)}
    (h : (content.constants.mapM fun constant => constant.toWorkflowInput text) =
      .ok constantInputs) {input : WorkflowInput V} (hinput : input ∈ constantInputs) :
    input.constant = true ∧ input.mappedName = some (generateConstantInputName input) ∧
      ∃ operator, input.idOfSubNode = text.uuidStr operator := by
  obtain ⟨constant, -, hconstant⟩ := exists_argument_of_mapM h hinput
  obtain ⟨nameInSubnode, -, rfl⟩ := constant_toWorkflowInput_eq_ok hconstant
  exact ⟨rfl, rfl, constant.operatorId, rfl⟩

/-- The generated names are unique if the inputs lead to different places. -/
theorem constantNames_nodup (htext : text.UuidTexts) {constantInputs : List (WorkflowInput V)}
    (h : (content.constants.mapM fun constant => constant.toWorkflowInput text) =
      .ok constantInputs) (htargets : (constantInputs.map WorkflowInput.target).Nodup) :
    (constantInputs.map WorkflowInput.mappedName).Nodup := by
  refine List.Nodup.map_on (fun input hinput input' hinput' heq => ?_) htargets.of_map
  obtain ⟨-, hname, operator, hoperator⟩ := constant_of_mem h hinput
  obtain ⟨-, hname', operator', hoperator'⟩ := constant_of_mem h hinput'
  rw [hname, hname'] at heq
  exact List.inj_on_of_nodup_map htargets hinput hinput'
    (generateConstantInputName_inj htext hoperator hoperator' (Option.some.inj heq))

/-- The inputs of a node have different names: those of constants are no identifiers. -/
theorem BuiltFrom.mappedNames_nodup (h : BuiltFrom text content node) (htext : text.UuidTexts)
    (hcontent : content.Identifiable) (hchecked : content.Checked) :
    (node.inputs.map WorkflowInput.mappedName).Nodup := by
  obtain ⟨dynamicInputs, constantInputs, hinputs, hdynamic, hconstant⟩ := h.inputs
  have htargets := (h.namesAgree hcontent).targets_nodup htext hcontent
  rw [hinputs, List.map_append] at htargets ⊢
  refine List.nodup_append.mpr ⟨dynamicNames_nodup hdynamic hchecked.inputNames,
    constantNames_nodup htext hconstant
      (List.nodup_append.mp (List.nodup_append.mp htargets).2.1).2.1, ?_⟩
  rintro _ hname _ hname' rfl
  obtain ⟨input, hinput, hsame⟩ := List.mem_map.mp hname
  obtain ⟨input', hinput', hsame'⟩ := List.mem_map.mp hname'
  obtain ⟨wfInput, hwfInput, hok⟩ := exists_argument_of_mapM hdynamic hinput
  obtain ⟨name, nameInSubnode, hwfName, -, -, rfl⟩ := toWorkflowInput_eq_ok hok
  obtain ⟨-, hgenerated, operator, hoperator⟩ := constant_of_mem hconstant hinput'
  rw [hgenerated, ← hsame] at hsame'
  refine hcontent.inputIdentifiers wfInput hwfInput name hwfName ?_
  rw [← Option.some.inj (hsame' : _ = some name)]
  exact dash_mem_generateConstantInputName (hoperator ▸ htext.dash operator)

/-- A node which is built from an identifiable content is well-formed. -/
theorem BuiltFrom.levelWellFormed (h : BuiltFrom text content node) (htext : text.UuidTexts)
    (hcontent : content.Identifiable) (hchecked : content.Checked) {subNodes : List (SubNode V)}
    (hsubNodes : subNodes.map SubNode.id =
      content.operators.map fun operator => text.uuidStr operator.id) :
    node.LevelWellFormed subNodes := by
  refine ⟨?_, (h.namesAgree hcontent).targets_nodup htext hcontent, ?_,
    h.mappedNames_nodup htext hcontent hchecked, outputNames_nodup h.outputs hchecked.outputNames⟩
  · rw [hsubNodes, show (fun operator : Operator V => text.uuidStr operator.id) =
      text.uuidStr ∘ fun operator => operator.id from rfl, ← List.map_map]
    exact hcontent.operatorIds.map htext.injective
  · intro input hinput hkind
    obtain ⟨dynamicInputs, constantInputs, hinputs, hdynamic, hconstant⟩ := h.inputs
    rw [hinputs] at hinput
    rcases List.mem_append.mp hinput with hinput | hinput
    · obtain ⟨wfInput, -, hwfInput⟩ := exists_argument_of_mapM hdynamic hinput
      obtain ⟨name, nameInSubnode, -, -, -, rfl⟩ := toWorkflowInput_eq_ok hwfInput
      exact Option.some_ne_none name
    · rw [(constant_of_mem hconstant hinput).1] at hkind
      cases hkind

end Levels

/-! ## Nestings -/

section Nestings

variable {V D : Type} {text : TextTools V} {nested : UUID → Option (Revision V D)}
  {content : WorkflowContent V}

/-- The entry of a child belongs to the operator and to the revision to which it refers. -/
theorem childEntry_eq_ok {operator : Operator V} {entry : UUID × Revision V D}
    (h : (match nested operator.transformationId with
      | some revision => Except.ok (operator.id, revision)
      | none => Except.error ExecutionError.integrity) = Except.ok entry) :
    entry.1 = operator.id ∧ nested operator.transformationId = some entry.2 := by
  split at h
  · rename_i revision hrevision
    obtain rfl := Except.ok.inj h
    exact ⟨rfl, hrevision⟩
  · cases h

/-- Under the id of an operator the revision is found to which it refers. -/
theorem entry_of_operator {children : List (UUID × Revision V D)}
    (hchildren : getDirectChildTrafosByOperatorId nested content = .ok children)
    (hids : (content.operators.map fun operator => operator.id).Nodup) {operator : Operator V}
    (hoperator : operator ∈ content.operators) :
    (lastEntry Prod.fst children operator.id).map Prod.snd = nested operator.transformationId := by
  obtain ⟨entry, hmem, hok⟩ := exists_of_mapM hchildren hoperator
  have hnodup : (children.map Prod.fst).Nodup := by
    rw [map_eq_of_mapM hchildren fun operator entry hok => (childEntry_eq_ok hok).1]
    exact hids
  obtain ⟨hid, hrevision⟩ := childEntry_eq_ok hok
  rw [← hid, lastEntry_of_nodup hnodup hmem, hrevision]
  rfl

/-- An entry which is required is there. -/
theorem requireKey_eq_ok {A : Type} {found : Option A} {a : A} :
    requireKey found = .ok a ↔ found = some a := by
  cases found <;> simp [requireKey]

/-- The nodes which are collected are lowered from what the operators stand for. -/
theorem lowered_of_collectChildNodes {levels : ℕ} {children : List (UUID × Revision V D)}
    {subNodes : List (SubNode V)}
    (hchildren : getDirectChildTrafosByOperatorId nested content = .ok children)
    (hids : (content.operators.map fun operator => operator.id).Nodup)
    (h : (collectChildNodes text nested levels content children).run = some (.ok subNodes)) :
    ∃ fewer < levels, List.Forall₂ (fun operator subNode =>
      subNode.id = text.uuidStr operator.id ∧ ∃ stored,
        operator.storedNode nested = some stored ∧ Lowered text nested fewer stored subNode)
      content.operators subNodes := by
  cases levels with
  | zero => cases h
  | succ levels =>
    refine ⟨levels, Nat.lt_succ_self levels, ?_⟩
    have hall := (List.forall₂_and_left _ _).mpr ⟨fun operator hoperator =>
      entry_of_operator hchildren hids hoperator, run_mapM_eq_ok.mp h⟩
    refine hall.imp ?_
    rintro operator subNode ⟨hchild, hnode⟩
    obtain ⟨revision, hrevision, hnode⟩ := run_bind_eq_ok.mp hnode
    have hfound : nested operator.transformationId = some revision :=
      hchild.symm.trans (requireKey_eq_ok.mp (eq_ok_of_run_liftM hrevision))
    rw [Operator.storedNode, hfound, Option.bind_some]
    cases htype : operator.type with
    | component =>
      rw [htype] at hnode
      obtain ⟨-, hnode⟩ := require_bind_eq_ok.mp (eq_ok_of_run_liftM hnode)
      obtain rfl := return_eq_ok.mp hnode
      exact ⟨rfl, _, rfl, .component rfl⟩
    | workflow =>
      rw [htype] at hnode
      obtain ⟨content, hcontent, hnode⟩ := run_bind_eq_ok.mp hnode
      obtain ⟨children, hchildren, hnode⟩ := run_bind_eq_ok.mp hnode
      obtain ⟨nestedRevision, -, hnode⟩ := run_bind_eq_ok.mp hnode
      obtain ⟨subNodes, hsubNodes, hnode⟩ := run_bind_eq_ok.mp hnode
      obtain ⟨node, rfl, hid, hbuilt⟩ := builtFrom_of_toWorkflowNode (eq_ok_of_run_liftM hnode)
      refine ⟨hid, .workflow content, ?_, .workflow hbuilt (eq_ok_of_run_liftM hchildren) hsubNodes⟩
      rw [eq_ok_of_run_liftM hcontent]
      rfl

/-- The contents of all workflows in a nesting are identifiable and have been checked. -/
def NestedIdentifiable (nested : UUID → Option (Revision V D)) : Prop :=
  ∀ id revision content, nested id = some revision → requireWorkflow revision = .ok content →
    content.Identifiable ∧ content.Checked

/-- What an operator stands for is identifiable. -/
theorem NestedIdentifiable.storedNode (h : NestedIdentifiable nested) {operator : Operator V}
    {stored : StoredNode V} (hstored : operator.storedNode nested = some stored) :
    stored.Meets fun content => content.Identifiable ∧ content.Checked := by
  obtain ⟨revision, hrevision, hstored⟩ := Option.bind_eq_some_iff.mp hstored
  split at hstored
  · obtain rfl := Option.some.inj hstored
    trivial
  · obtain ⟨content, hcontent, rfl⟩ := Option.map_eq_some_iff.mp hstored
    exact h _ revision content hrevision ((toOption_eq_some.mp hcontent))

/-- Lowered nodes are well-formed, by induction on the levels. -/
theorem Lowered.wellFormed (htext : text.UuidTexts) (hnested : NestedIdentifiable nested)
    {levels : ℕ} {stored : StoredNode V} {subNode : SubNode V}
    (hstored : stored.Meets fun content => content.Identifiable ∧ content.Checked)
    (h : Lowered text nested levels stored subNode) : subNode.WellFormed := by
  induction levels using Nat.strong_induction_on generalizing stored subNode with
  | _ levels ih =>
    cases h with
    | component => trivial
    | workflow hbuilt hchildren hcollected =>
      obtain ⟨hcontent, hchecked⟩ := hstored
      obtain ⟨fewer, hfewer, hall⟩ :=
        lowered_of_collectChildNodes hchildren hcontent.operatorIds hcollected
      refine ⟨hbuilt.levelWellFormed htext hcontent hchecked ?_, allWellFormed_iff.mpr ?_⟩
      · exact Related.map_eq (hall.imp fun _ _ hboth => hboth.1)
      · intro subNode hsubNode
        obtain ⟨operator, -, -, stored, hstored, hlowered⟩ :=
          Related.exists_left hall hsubNode
        exact ih fewer hfewer (hnested.storedNode hstored) hlowered

/-- The node at a path is lowered from what is stored at the path of operators. -/
structure LoweredFrom (text : TextTools V) (nested : UUID → Option (Revision V D))
    (stored : StoredNode V) (subNode : SubNode V) : Prop where
  identifiable : stored.Meets fun content => content.Identifiable ∧ content.Checked
  lowered : ∃ levels, Lowered text nested levels stored subNode

/-- Nodes which are lowered from identifiable contents are well-formed. -/
theorem LoweredFrom.wellFormed (htext : text.UuidTexts) (hnested : NestedIdentifiable nested)
    {stored : StoredNode V} {subNode : SubNode V} (h : LoweredFrom text nested stored subNode) :
    subNode.WellFormed := by
  obtain ⟨hstored, levels, hlowered⟩ := h
  exact Lowered.wellFormed htext hnested hstored hlowered

/-- A lowered component node. -/
theorem LoweredFrom.component_inv {stored : StoredNode V} {component : ComponentNode}
    (h : LoweredFrom text nested stored (.component component)) :
    ∃ id, stored = .component id ∧ component.componentUuid = text.uuidStr id := by
  obtain ⟨-, levels, hlowered⟩ := h
  cases hlowered with
  | component huuid => exact ⟨_, rfl, huuid⟩

/-- A lowered workflow node. -/
theorem LoweredFrom.workflow_inv {stored : StoredNode V} {node : WorkflowNodeData V}
    {subNodes : List (SubNode V)} (h : LoweredFrom text nested stored (.workflow node subNodes)) :
    ∃ content, stored = .workflow content ∧ content.Identifiable ∧ content.Checked ∧
      BuiltFrom text content node := by
  obtain ⟨hstored, levels, hlowered⟩ := h
  cases hlowered with
  | workflow hbuilt => exact ⟨_, rfl, hstored.1, hstored.2, hbuilt⟩

/-- What is lowered from a content is a workflow. -/
theorem LoweredFrom.exists_workflow {subNode : SubNode V}
    (h : LoweredFrom text nested (.workflow content) subNode) :
    ∃ node subNodes, subNode = .workflow node subNodes ∧ content.Identifiable ∧
      BuiltFrom text content node := by
  cases subNode with
  | component component =>
    obtain ⟨id, hcomponent, -⟩ := h.component_inv
    cases hcomponent
  | workflow node subNodes =>
    obtain ⟨other, heq, hidentifiable, -, hbuilt⟩ := h.workflow_inv
    obtain rfl := StoredNode.workflow.inj heq
    exact ⟨node, subNodes, rfl, hidentifiable, hbuilt⟩

/-- The sub nodes of a node are lowered from what the operators stand for. -/
theorem LoweredFrom.rel_lookup (htext : text.UuidTexts) (hnested : NestedIdentifiable nested)
    {stored : StoredNode V} {subNode : SubNode V} (h : LoweredFrom text nested stored subNode)
    (id : UUID) : Option.Rel (LoweredFrom text nested)
      ((lookup (fun operator => operator.id) id stored.operators).bind
        (Operator.storedNode nested))
      (lookup SubNode.id (text.uuidStr id) subNode.subNodes) := by
  obtain ⟨hstored, levels, hlowered⟩ := h
  cases hlowered with
  | component => exact .none
  | @workflow content node subNodes _ hbuilt hchildren hcollected =>
    obtain ⟨fewer, -, hall⟩ :=
      lowered_of_collectChildNodes hchildren hstored.1.operatorIds hcollected
    have hfound := Related.rel_lookup htext.injective hall id
    change Option.Rel _ ((lookup _ id content.operators).bind _) (lookup _ _ subNodes)
    generalize lookup (fun operator : Operator V => operator.id) id content.operators = operator?,
      lookup SubNode.id (text.uuidStr id) subNodes = subNode? at hfound
    cases hfound with
    | none => exact .none
    | some h =>
      obtain ⟨stored, hstored, hlowered⟩ := h
      rw [Option.bind_some, hstored]
      exact .some ⟨hnested.storedNode hstored, fewer, hlowered⟩

/-- The node at a path of texts of ids is lowered from what is stored at the path of ids. -/
theorem LoweredFrom.rel_nodeAt (htext : text.UuidTexts) (hnested : NestedIdentifiable nested)
    {root : SubNode V} (h : LoweredFrom text nested (.workflow content) root) (path : List UUID) :
    Option.Rel (LoweredFrom text nested) (storedAt nested content path)
      (root.nodeAt (path.map text.uuidStr)) := by
  induction path with
  | nil => exact .some h
  | cons id path ih =>
    exact Related.rel_bind ih fun stored subNode hlowered => hlowered.rel_lookup htext hnested id

/-- Every node is found at a path of texts of ids. -/
theorem LoweredFrom.exists_path (htext : text.UuidTexts) (hnested : NestedIdentifiable nested)
    {root : SubNode V} (h : LoweredFrom text nested (.workflow content) root)
    {textPath : List PyStr} {subNode : SubNode V} (hnode : root.nodeAt textPath = some subNode) :
    ∃ path : List UUID, textPath = path.map text.uuidStr := by
  induction textPath generalizing subNode with
  | nil => exact ⟨[], rfl⟩
  | cons textId textPath ih =>
    obtain ⟨parent, hparent, hsub⟩ := Option.bind_eq_some_iff.mp hnode
    obtain ⟨path, rfl⟩ := ih hparent
    have hrel := h.rel_nodeAt htext hnested path
    rw [hparent] at hrel
    generalize storedAt nested content path = stored? at hrel
    cases hrel with
    | some hlowered =>
      obtain ⟨hstored, levels, hlowered⟩ := hlowered
      cases hlowered with
      | component => cases hsub
      | workflow hbuilt hchildren hcollected =>
        obtain ⟨fewer, -, hall⟩ :=
          lowered_of_collectChildNodes hchildren hstored.1.operatorIds hcollected
        obtain ⟨hmem, hid⟩ := lookup_eq_some hsub
        obtain ⟨operator, -, hoperator, -⟩ := Related.exists_left hall hmem
        exact ⟨operator.id :: path, by rw [List.map_cons, ← hoperator, hid]⟩

/-- No level of a lowered node has a cycle. -/
theorem LoweredFrom.acyclic (htext : text.UuidTexts) (hnested : NestedIdentifiable nested)
    {root : SubNode V} (h : LoweredFrom text nested (.workflow content) root)
    {path : List PyStr} {node : WorkflowNodeData V} {subNodes : List (SubNode V)}
    (hnode : root.nodeAt path = some (.workflow node subNodes)) :
    Acyclic (node.connections.map fun connection =>
      (connection.inputInWorkflowId, connection.outputInWorkflowId)) := by
  obtain ⟨ids, rfl⟩ := h.exists_path htext hnested hnode
  have hrel := h.rel_nodeAt htext hnested ids
  rw [hnode] at hrel
  generalize storedAt nested content ids = stored? at hrel
  cases hrel with
  | some hlowered =>
    obtain ⟨hstored, levels, hlowered⟩ := hlowered
    cases hlowered with
    | workflow hbuilt =>
      exact (hbuilt.namesAgree hstored.1).acyclic htext hstored.2.acyclic

end Nestings

end HetidaDesigner
