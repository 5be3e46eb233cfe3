import HetidaDesigner.Runtime.Nodes
import HetidaDesigner.Validation.Sources

/-!
# Names in workflow nodes

Contents refer to connectors of their operators by id, the runtime refers to them by name. The
names a workflow node is built with are copies which the content holds beside the ids. Links are
compared with the operators in full, hence their copies are right if no operator has two
connectors of one id. The copies in inputs, constants and outputs are never compared, so a node
names the connectors with the ids of the content only if the data did so.
-/

namespace HetidaDesigner

open Checks LastEntry

variable {V : Type}

/-! ## Names of connectors -/

/-- The names of the operator inputs under their keys. -/
def inputConnectorNames (operators : List (Operator V)) : List ((UUID × UUID) × Option PyStr) :=
  (inputConnectors operators).map fun connector => (connector.1, connector.2.name)

/-- The names of the operator outputs under their keys. -/
def outputConnectorNames (operators : List (Operator V)) : List ((UUID × UUID) × Option PyStr) :=
  (outputConnectors operators).map fun connector => (connector.1, connector.2.name)

/-- There is a connector under the key, and its name is the given one; should there be several,
they all have that name. -/
def CarriesName (names : List ((UUID × UUID) × Option PyStr)) (key : UUID × UUID)
    (name : Option PyStr) : Prop :=
  (key, name) ∈ names ∧ ∀ other, (key, other) ∈ names → other = name

@[simp] theorem inputConnectorNames_renameOperators (operators : List (Operator V)) :
    inputConnectorNames (renameOperators operators) = inputConnectorNames operators := by
  rw [inputConnectorNames, inputConnectors_renameOperators, ← inputConnectorNames]

@[simp] theorem outputConnectorNames_renameOperators (operators : List (Operator V)) :
    outputConnectorNames (renameOperators operators) = outputConnectorNames operators := by
  rw [outputConnectorNames, outputConnectors_renameOperators, ← outputConnectorNames]

/-! ## Agreement of contents and nodes -/

section Agreement

variable (text : TextTools V)

/-- An input of a node stands for an input or constant of a content. -/
structure InputNamesAgree (operators : List (Operator V)) (wfInput : WorkflowContentIo)
    (input : WorkflowInput V) : Prop where
  id : input.id = wfInput.id
  operator : input.idOfSubNode = text.uuidStr wfInput.operatorId
  connector : CarriesName (inputConnectorNames operators) wfInput.key (some input.nameInSubnode)

/-- An output of a node stands for an output of a content. -/
structure OutputNamesAgree (operators : List (Operator V)) (wfOutput : WorkflowContentOutput)
    (output : WorkflowOutput) : Prop where
  id : output.id = wfOutput.id
  operator : output.idOfSubNode = text.uuidStr wfOutput.operatorId
  connector : CarriesName (outputConnectorNames operators) wfOutput.key (some output.nameInSubnode)

/-- A connection names the connectors at both ends of a link between operators. -/
def ConnectionNamesAgree (operators : List (Operator V)) (link : Link)
    (connection : WorkflowConnection) : Prop :=
  ∃ start finish, link.start.operator = some start ∧ link.finish.operator = some finish ∧
    connection.inputInWorkflowId = text.uuidStr start ∧
    CarriesName (outputConnectorNames operators) (start, link.start.connector.id)
      (some connection.inputName) ∧
    connection.outputInWorkflowId = text.uuidStr finish ∧
    CarriesName (inputConnectorNames operators) (finish, link.finish.connector.id)
      (some connection.outputName)

/-- The ios of a content and its constants, without what only one of them has. -/
def WorkflowContent.inputIos (content : WorkflowContent V) : List WorkflowContentIo :=
  content.inputs.map (fun wfInput => wfInput.toWorkflowContentIo) ++
    content.constants.map fun constant => constant.toWorkflowContentIo

/-- Inputs, constants and outputs of the content and its links between operators correspond one
to one to the inputs, outputs and connections of the node, which names the connectors that the
content gives the ids of. -/
structure NamesAgree (content : WorkflowContent V) (node : WorkflowNodeData V) : Prop where
  inputs : List.Forall₂ (InputNamesAgree text content.operators) content.inputIos node.inputs
  outputs : List.Forall₂ (OutputNamesAgree text content.operators) content.outputs node.outputs
  connections : List.Forall₂ (ConnectionNamesAgree text content.operators)
    (content.links.filter Link.inner) node.connections

end Agreement

namespace WorkflowContent

/-- Data whose copies of connector names are right where nothing compares them: in constants, in
the ios which are kept, and where connectors at matched links share their id with others. -/
structure CopiesNames (data : WorkflowContent V) : Prop where
  constants : ∀ constant ∈ data.constants,
    CarriesName (inputConnectorNames data.operators) constant.key constant.connectorName
  inputs : ∀ wfInput ∈ data.keptInputs,
    CarriesName (inputConnectorNames data.operators) wfInput.key wfInput.connectorName
  outputs : ∀ wfOutput ∈ data.keptOutputs,
    CarriesName (outputConnectorNames data.operators) wfOutput.key wfOutput.connectorName
  linkStarts : ∀ link ∈ data.matchedLinks, link.inner = true →
    ∀ operator, link.start.operator = some operator →
      ∀ name, ((operator, link.start.connector.id), name) ∈ outputConnectorNames data.operators →
        name = link.start.connector.name
  linkEnds : ∀ link ∈ data.matchedLinks, link.inner = true →
    ∀ operator, link.finish.operator = some operator →
      ∀ name, ((operator, link.finish.connector.id), name) ∈ inputConnectorNames data.operators →
        name = link.finish.connector.name

end WorkflowContent

/-! ## Conversions keep ids and copies of names -/

/-- A required name is the one which is there. -/
theorem requireName_eq_ok {name : Option PyStr} {result : PyStr} :
    requireName name = .ok result ↔ name = some result := by
  cases name <;> simp [requireName]

/-- A required identifier is the name which is there. -/
theorem eq_some_of_requireIdentifier {name : Option PyStr} {result : PyStr}
    (h : requireIdentifier name = .ok result) : name = some result := by
  match name, h with
  | some (c :: rest), h => exact congrArg some (Except.ok.inj h)

section Convert

variable {text : TextTools V}

/-- What is copied from a dynamic input. -/
theorem copies_of_toWorkflowInput {wfInput : WorkflowContentDynamicInput V}
    {input : WorkflowInput V} (h : wfInput.toWorkflowInput text = .ok input) :
    input.id = wfInput.id ∧ input.idOfSubNode = text.uuidStr wfInput.operatorId ∧
      wfInput.connectorName = some input.nameInSubnode ∧ wfInput.name ≠ none := by
  obtain ⟨name, hname, h⟩ := bind_eq_ok.mp h
  obtain ⟨nameInSubnode, hconnector, h⟩ := bind_eq_ok.mp h
  obtain rfl := return_eq_ok.mp h
  have hsome := eq_some_of_requireIdentifier hname
  exact ⟨rfl, rfl, requireName_eq_ok.mp hconnector, by simp [hsome]⟩

/-- What is copied from a constant. -/
theorem copies_of_constant_toWorkflowInput {constant : WorkflowContentConstantInput}
    {input : WorkflowInput V} (h : constant.toWorkflowInput text = .ok input) :
    input.id = constant.id ∧ input.idOfSubNode = text.uuidStr constant.operatorId ∧
      constant.connectorName = some input.nameInSubnode := by
  obtain ⟨nameInSubnode, hconnector, h⟩ := bind_eq_ok.mp h
  obtain rfl := return_eq_ok.mp h
  exact ⟨rfl, rfl, requireName_eq_ok.mp hconnector⟩

/-- What is copied from an output. -/
theorem copies_of_toWorkflowOutput {wfOutput : WorkflowContentOutput} {output : WorkflowOutput}
    (h : wfOutput.toWorkflowOutput text = .ok output) :
    output.id = wfOutput.id ∧ output.idOfSubNode = text.uuidStr wfOutput.operatorId ∧
      wfOutput.connectorName = some output.nameInSubnode ∧ wfOutput.name ≠ none := by
  obtain ⟨name, hname, h⟩ := bind_eq_ok.mp h
  obtain ⟨nameInSubnode, hconnector, h⟩ := bind_eq_ok.mp h
  obtain rfl := return_eq_ok.mp h
  have hsome := eq_some_of_requireIdentifier hname
  exact ⟨rfl, rfl, requireName_eq_ok.mp hconnector, by simp [hsome]⟩

/-- Exactly the links between operators become connections. -/
theorem isSome_of_toConnection {link : Link} {connection : Option WorkflowConnection}
    (h : link.toConnection text = .ok connection) : connection.isSome = link.inner := by
  unfold Link.toConnection at h
  cases hstart : link.start.operator with
  | none =>
    simp only [hstart] at h
    simp [← return_eq_ok.mp h, Link.inner, hstart]
  | some start =>
    cases hfinish : link.finish.operator with
    | none =>
      simp only [hstart, hfinish] at h
      simp [← return_eq_ok.mp h, Link.inner, hfinish]
    | some finish =>
      simp only [hstart, hfinish] at h
      obtain ⟨inputName, -, h⟩ := bind_eq_ok.mp h
      obtain ⟨outputName, -, h⟩ := bind_eq_ok.mp h
      simp [← return_eq_ok.mp h, Link.inner, hstart, hfinish]

/-- What is copied from a link between operators. -/
theorem copies_of_toConnection {link : Link} {connection : WorkflowConnection}
    (h : link.toConnection text = .ok (some connection)) :
    ∃ start finish, link.start.operator = some start ∧ link.finish.operator = some finish ∧
      connection.inputInWorkflowId = text.uuidStr start ∧
      link.start.connector.name = some connection.inputName ∧
      connection.outputInWorkflowId = text.uuidStr finish ∧
      link.finish.connector.name = some connection.outputName := by
  unfold Link.toConnection at h
  cases hstart : link.start.operator with
  | none =>
    simp only [hstart] at h
    exact absurd (return_eq_ok.mp h) (by simp)
  | some start =>
    cases hfinish : link.finish.operator with
    | none =>
      simp only [hstart, hfinish] at h
      exact absurd (return_eq_ok.mp h) (by simp)
    | some finish =>
      simp only [hstart, hfinish] at h
      obtain ⟨inputName, hinput, h⟩ := bind_eq_ok.mp h
      obtain ⟨outputName, houtput, h⟩ := bind_eq_ok.mp h
      obtain rfl := Option.some.inj (return_eq_ok.mp h)
      exact ⟨start, finish, rfl, rfl, rfl, requireName_eq_ok.mp hinput, rfl,
        requireName_eq_ok.mp houtput⟩

end Convert

/-! ## Matched links -/

/-- A link that matches the operators has the name of an output where it starts. -/
theorem start_name_mem_of_linkMatchesOperators {operators : List (Operator V)} {link : Link}
    (h : linkMatchesOperators operators link = true) {operator : UUID}
    (hstart : link.start.operator = some operator) :
    ((operator, link.start.connector.id), link.start.connector.name) ∈ outputConnectorNames operators := by
  simp only [linkMatchesOperators, linkInvalidDueToOperatorOutput, hstart] at h
  cases houtput : operatorOutputById operators (operator, link.start.connector.id) with
  | none => simp [houtput] at h
  | some output =>
    have hmatch : link.start.connector.matchesConnector output = true := by
      simpa [houtput] using (Bool.and_eq_true_iff.mp h).1
    have hname : link.start.connector.name = output.name := by
      have hall := of_decide_eq_true hmatch
      exact hall.2.1
    rw [hname]
    exact List.mem_map.mpr ⟨_, mem_outputConnectors_of_operatorOutputById houtput, rfl⟩

/-- A link that matches the operators has the name of an input where it ends. -/
theorem finish_name_mem_of_linkMatchesOperators {operators : List (Operator V)} {link : Link}
    (h : linkMatchesOperators operators link = true) {operator : UUID}
    (hfinish : link.finish.operator = some operator) :
    ((operator, link.finish.connector.id), link.finish.connector.name) ∈ inputConnectorNames operators := by
  simp only [linkMatchesOperators, linkInvalidDueToOperatorInput, hfinish] at h
  cases hinput : operatorInputById operators (operator, link.finish.connector.id) with
  | none => simp [hinput] at h
  | some input =>
    have hmatch : link.finish.connector.matchesConnector input.toConnector = true := by
      simp only [hinput, Bool.not_or, Bool.not_not, Bool.and_eq_true] at h
      exact h.2.1
    have hname : link.finish.connector.name = input.name := by
      have hall := of_decide_eq_true hmatch
      exact hall.2.1
    rw [hname]
    exact List.mem_map.mpr ⟨_, mem_inputConnectors_of_operatorInputById hinput, rfl⟩

/-- A link carries the names of the connectors at its ends which are at operators. -/
def Link.CarriesNames (operators : List (Operator V)) (link : Link) : Prop :=
  (∀ operator, link.start.operator = some operator →
    CarriesName (outputConnectorNames operators) (operator, link.start.connector.id)
      link.start.connector.name) ∧
  ∀ operator, link.finish.operator = some operator →
    CarriesName (inputConnectorNames operators) (operator, link.finish.connector.id)
      link.finish.connector.name

@[simp] theorem Link.carriesNames_renameOperators (operators : List (Operator V)) (link : Link) :
    link.CarriesNames (renameOperators operators) = link.CarriesNames operators := by
  simp only [Link.CarriesNames, inputConnectorNames_renameOperators,
    outputConnectorNames_renameOperators]

/-! ## Agreement comes down to right copies -/

section Copies

variable {text : TextTools V} (operators : List (Operator V))

/-- Inputs and constants agree with the node exactly if their copies are right. -/
theorem inputNamesAgree_iff {content : WorkflowContent V}
    {dynamicInputs constantInputs : List (WorkflowInput V)}
    (hdynamic : (content.inputs.mapM fun wfInput => wfInput.toWorkflowInput text) =
      .ok dynamicInputs)
    (hconstant : (content.constants.mapM fun constant => constant.toWorkflowInput text) =
      .ok constantInputs) :
    List.Forall₂ (InputNamesAgree text operators) content.inputIos
        (dynamicInputs ++ constantInputs) ↔
      ∀ io ∈ content.inputIos,
        CarriesName (inputConnectorNames operators) io.key io.connectorName := by
  have hcopies : List.Forall₂ (fun (io : WorkflowContentIo) (input : WorkflowInput V) =>
      input.id = io.id ∧ input.idOfSubNode = text.uuidStr io.operatorId ∧
        io.connectorName = some input.nameInSubnode)
      content.inputIos (dynamicInputs ++ constantInputs) := by
    apply List.rel_append
    · refine List.forall₂_map_left_iff.mpr ((mapM_eq_ok.mp hdynamic).imp fun _ _ hinput => ?_)
      obtain ⟨hid, hoperator, hname, -⟩ := copies_of_toWorkflowInput hinput
      exact ⟨hid, hoperator, hname⟩
    · exact List.forall₂_map_left_iff.mpr
        ((mapM_eq_ok.mp hconstant).imp fun _ _ => copies_of_constant_toWorkflowInput)
  refine forall₂_iff_forall hcopies fun io _ input ⟨hid, hoperator, hname⟩ => ?_
  rw [hname]
  exact ⟨fun hagree => hagree.connector, fun hcarries => ⟨hid, hoperator, hcarries⟩⟩

/-- Outputs agree with the node exactly if their copies are right. -/
theorem outputNamesAgree_iff {wfOutputs : List WorkflowContentOutput}
    {outputs : List WorkflowOutput}
    (h : (wfOutputs.mapM fun wfOutput => wfOutput.toWorkflowOutput text) = .ok outputs) :
    List.Forall₂ (OutputNamesAgree text operators) wfOutputs outputs ↔
      ∀ wfOutput ∈ wfOutputs,
        CarriesName (outputConnectorNames operators) wfOutput.key wfOutput.connectorName := by
  refine forall₂_iff_forall (mapM_eq_ok.mp h) fun wfOutput _ output houtput => ?_
  obtain ⟨hid, hoperator, hname, -⟩ := copies_of_toWorkflowOutput houtput
  rw [hname]
  exact ⟨fun hagree => hagree.connector, fun hcarries => ⟨hid, hoperator, hcarries⟩⟩

/-- Links between operators agree with the connections exactly if their copies are right. -/
theorem connectionNamesAgree_iff {links : List Link}
    {connections : List (Option WorkflowConnection)}
    (h : (links.mapM fun link => link.toConnection text) = .ok connections) :
    List.Forall₂ (ConnectionNamesAgree text operators) (links.filter Link.inner)
        (connections.filterMap id) ↔
      ∀ link ∈ links.filter Link.inner, link.CarriesNames operators := by
  have hinner := forall₂_filter_of_mapM (fun _ _ => isSome_of_toConnection) h
  refine forall₂_iff_forall hinner fun link _ connection hlink => ?_
  obtain ⟨start, finish, hstart, hfinish, hstartId, hstartName, hfinishId, hfinishName⟩ :=
    copies_of_toConnection hlink
  rw [ConnectionNamesAgree, Link.CarriesNames, hstart, hfinish, hstartName, hfinishName]
  constructor
  · rintro ⟨start', finish', hstart', hfinish', -, hinput, -, houtput⟩
    obtain rfl := Option.some.inj hstart'
    obtain rfl := Option.some.inj hfinish'
    exact ⟨fun _ heq => Option.some.inj heq ▸ hinput, fun _ heq => Option.some.inj heq ▸ houtput⟩
  · rintro ⟨hinput, houtput⟩
    exact ⟨start, finish, rfl, rfl, hstartId, hinput start rfl, hfinishId, houtput finish rfl⟩

end Copies

namespace WorkflowContent

/-- The links between operators of an accepted content are the matched ones of the data, up to
positions. -/
theorem Accepted.innerLinks [UnicodeData] {uuid4 : ℕ → UUID} {data content : WorkflowContent V}
    (h : data.Accepted uuid4 content) :
    SameButPositions (content.links.filter Link.inner) (data.matchedLinks.filter Link.inner) := by
  refine (h.links.filter (p := Link.inner) fun _ => rfl).trans ?_
  have hsame : (cleanUpOuterLinks data.constants content.inputs content.outputs
      data.matchedLinks).filter Link.inner = data.matchedLinks.filter Link.inner := by
    rw [cleanUpOuterLinks, List.filter_filter]
    refine List.filter_congr fun link _ => ?_
    cases hinner : link.inner with
    | false => rfl
    | true =>
      have hends : link.start.operator.isSome ∧ link.finish.operator.isSome := by
        simpa [Link.inner] using hinner
      rw [outerLinkValid_of_inner _ _ _ (Option.isSome_iff_ne_none.mp hends.1)
        (Option.isSome_iff_ne_none.mp hends.2)]
      rfl
  rw [hsame]
  exact .refl _

/-- The links between operators of an accepted content carry the right names exactly if the
connectors at their ends share their ids with none of another name. -/
theorem Accepted.carriesNames_iff [UnicodeData] {uuid4 : ℕ → UUID}
    {data content : WorkflowContent V} (h : data.Accepted uuid4 content) :
    (∀ link ∈ content.links.filter Link.inner, link.CarriesNames data.operators) ↔
      (∀ link ∈ data.matchedLinks, link.inner = true →
        ∀ operator, link.start.operator = some operator →
          ∀ name, ((operator, link.start.connector.id), name) ∈ outputConnectorNames data.operators →
            name = link.start.connector.name) ∧
      (∀ link ∈ data.matchedLinks, link.inner = true →
        ∀ operator, link.finish.operator = some operator →
          ∀ name, ((operator, link.finish.connector.id), name) ∈ inputConnectorNames data.operators →
            name = link.finish.connector.name) := by
  have hsame : (∀ link ∈ content.links.filter Link.inner, link.CarriesNames data.operators) ↔
      ∀ link ∈ data.matchedLinks.filter Link.inner, link.CarriesNames data.operators := by
    have hmap := h.innerLinks.map_eq (f := Link.CarriesNames data.operators) fun _ => rfl
    have hall (links : List Link) : (∀ link ∈ links, link.CarriesNames data.operators) ↔
        ∀ claim ∈ links.map (Link.CarriesNames data.operators), claim := by
      simp only [List.forall_mem_map]
    rw [hall, hall, hmap]
  rw [hsame]
  constructor
  · intro hlinks
    refine ⟨fun link hlink hinner operator hstart => ?_, fun link hlink hinner operator hfinish => ?_⟩
    · exact ((hlinks link (List.mem_filter.mpr ⟨hlink, hinner⟩)).1 operator hstart).2
    · exact ((hlinks link (List.mem_filter.mpr ⟨hlink, hinner⟩)).2 operator hfinish).2
  · rintro ⟨hstarts, hends⟩ link hlink
    obtain ⟨hlink, hinner⟩ := List.mem_filter.mp hlink
    have hmatches : linkMatchesOperators data.operators link = true := (List.mem_filter.mp hlink).2
    refine ⟨fun operator hstart => ⟨?_, hstarts link hlink hinner operator hstart⟩,
      fun operator hfinish => ⟨?_, hends link hlink hinner operator hfinish⟩⟩
    · exact start_name_mem_of_linkMatchesOperators hmatches hstart
    · exact finish_name_mem_of_linkMatchesOperators hmatches hfinish

/-- Generated inputs have no name. -/
theorem name_of_mem_newInputs {uuid4 : ℕ → UUID} {data : WorkflowContent V}
    {wfInput : WorkflowContentDynamicInput V} (h : wfInput ∈ data.newInputs uuid4) :
    wfInput.name = none := by
  obtain ⟨i, hi, rfl⟩ := List.mem_mapIdx.mp h
  rfl

/-- Generated outputs have no name. -/
theorem name_of_mem_newOutputs {uuid4 : ℕ → UUID} {data : WorkflowContent V}
    {wfOutput : WorkflowContentOutput} (h : wfOutput ∈ data.newOutputs uuid4) :
    wfOutput.name = none := by
  obtain ⟨i, hi, rfl⟩ := List.mem_mapIdx.mp h
  rfl

/-- The node built for an accepted content names the connectors which the content gives the ids
of exactly if the copies in the data are right. -/
theorem namesAgree_iff_copiesNames [UnicodeData] {uuid4 : ℕ → UUID} {text : TextTools V}
    {data content : WorkflowContent V} (hvalidate : data.validate uuid4 = .ok content)
    {transformationId : UUID} {transformationName transformationTag operatorId : PyStr}
    {operatorName : Option PyStr} {subNodes subNodes' : List (SubNode V)}
    {node : WorkflowNodeData V}
    (hnode : content.toWorkflowNode text transformationId transformationName transformationTag
      operatorId operatorName subNodes = .ok (.workflow node subNodes')) :
    NamesAgree text content node ↔ data.CopiesNames := by
  have h := accepted_of_validate hvalidate
  obtain ⟨dynamicInputs, hdynamic, hnode⟩ := bind_eq_ok.mp hnode
  obtain ⟨constantInputs, hconstant, hnode⟩ := bind_eq_ok.mp hnode
  obtain ⟨outputs, houtput, hnode⟩ := bind_eq_ok.mp hnode
  obtain ⟨connections, hconnection, hnode⟩ := bind_eq_ok.mp hnode
  obtain ⟨rfl, -⟩ := SubNode.workflow.inj (return_eq_ok.mp hnode)
  have hinputNames : inputConnectorNames content.operators =
      inputConnectorNames data.operators := by
    rw [h.operators, inputConnectorNames_renameOperators]
  have houtputNames : outputConnectorNames content.operators =
      outputConnectorNames data.operators := by
    rw [h.operators, outputConnectorNames_renameOperators]
  have hcarriesNames : Link.CarriesNames content.operators = Link.CarriesNames data.operators := by
    funext link
    rw [h.operators, Link.carriesNames_renameOperators]
  -- a node is only built if all ios have names, so there are no generated ones
  have hnewInputs : data.newInputs uuid4 = [] := by
    refine List.eq_nil_iff_forall_not_mem.mpr fun wfInput hnew => ?_
    obtain ⟨input, -, hinput⟩ := exists_of_mapM hdynamic (h.inputs ▸ List.mem_append_right _ hnew)
    exact absurd (name_of_mem_newInputs hnew) (copies_of_toWorkflowInput hinput).2.2.2
  have hnewOutputs : data.newOutputs uuid4 = [] := by
    refine List.eq_nil_iff_forall_not_mem.mpr fun wfOutput hnew => ?_
    obtain ⟨output, -, houtput⟩ := exists_of_mapM houtput (h.outputs ▸ List.mem_append_right _ hnew)
    exact absurd (name_of_mem_newOutputs hnew) (copies_of_toWorkflowOutput houtput).2.2.2
  have hios (P : WorkflowContentIo → Prop) : (∀ io ∈ content.inputIos, P io) ↔
      (∀ wfInput ∈ data.keptInputs, P wfInput.toWorkflowContentIo) ∧
        ∀ constant ∈ data.constants, P constant.toWorkflowContentIo := by
    rw [inputIos, List.forall_mem_append, List.forall_mem_map, List.forall_mem_map, h.inputs,
      hnewInputs, List.append_nil, h.constants]
  have hkeptOutputs : content.outputs = data.keptOutputs := by
    rw [h.outputs, hnewOutputs, List.append_nil]
  have hinputs := inputNamesAgree_iff content.operators hdynamic hconstant
  have houtputs := outputNamesAgree_iff content.operators houtput
  have hconnections := connectionNamesAgree_iff content.operators hconnection
  rw [hinputNames, hios] at hinputs
  rw [houtputNames] at houtputs
  rw [hcarriesNames, h.carriesNames_iff] at hconnections
  constructor
  · intro hagree
    obtain ⟨hkept, hconstants⟩ := hinputs.mp hagree.inputs
    obtain ⟨hstarts, hends⟩ := hconnections.mp hagree.connections
    exact ⟨hconstants, hkept, hkeptOutputs ▸ houtputs.mp hagree.outputs, hstarts, hends⟩
  · intro hcopies
    exact {
      inputs := hinputs.mpr ⟨hcopies.inputs, hcopies.constants⟩
      outputs := houtputs.mpr (hkeptOutputs ▸ hcopies.outputs)
      connections := hconnections.mpr ⟨hcopies.linkStarts, hcopies.linkEnds⟩ }

end WorkflowContent

/-! ## A constant with another name -/

/-- Ids in decimal digits, and the length of a text as its value. -/
def decimalText : TextTools ℤ := ⟨fun id => Nat.toDigits 10 id, fun value => value.length⟩

/-- A constant at the only input of an operator, whose name is `x`; the constant has a copy of
that name. -/
def constantAtOperator (copy : Char) : WorkflowContent ℤ where
  operators := [
    plainOperator 1 'A'
      [{ plainConnector 11 with
          type := .required, value := none, exposed := true
          value_set_only_for_optional_input := InputType.required_without_value
          required_inputs_exposed := fun _ => rfl }] []]
  links := []
  constants := [
    { id := 21, name := none, dataType := .float, position := .origin, operatorId := 1
      connectorId := 11, operatorName := ['A'], connectorName := some [copy], value := ['5']
      name_none := Or.inl rfl }]
  inputs := []
  outputs := []

/-- The node of the workflow with the constant. -/
def constantNode (copy : Char) : WorkflowNodeData ℤ where
  id := ['9']
  connections := []
  inputs := [
    { id := 21, name := none, type := .float, idOfSubNode := ['1'], nameInSubnode := [copy]
      constantValue := some 1, defaultValue := none, constant := true, default := false
      name_or_constant_data_provided := by simp }]
  outputs := []
  name := none
  trId := 8
  trName := ['W']
  trTag := ['1']

/-- A copy of another name passes validation, and the node feeds an input which is not there. -/
theorem constantAtOperator_not_namesAgree :
    @WorkflowContent.validate ℤ asciiOnly (uuid4Above 1000) (constantAtOperator 'y') =
        .ok (constantAtOperator 'y') ∧
      (constantAtOperator 'y').toWorkflowNode decimalText 8 ['W'] ['1'] ['9'] none [] =
        .ok (.workflow (constantNode 'y') []) ∧
      ¬ NamesAgree decimalText (constantAtOperator 'y') (constantNode 'y') := by
  refine ⟨by decide, rfl, fun hagree => ?_⟩
  have hnames := (List.forall₂_cons.mp hagree.inputs).1.connector.2 (some ['x'])
    (List.mem_singleton.mpr rfl)
  exact absurd hnames (by decide)

/-- A workflow whose input feeds an operator, which feeds a second one beside a constant; the output
of the second one is the output of the workflow. -/
def constantBesideLink : WorkflowContent ℤ where
  operators := [
    plainOperator 1 'A' [plainInput 12] [plainConnector 11],
    plainOperator 3 'C' [plainInput 31, plainInput 32] [plainConnector 33]]
  links := [linkFromInput linkedInput.position, linkBetween, linkToOutput]
  constants := [
    { id := 21, name := none, dataType := .float, position := .origin, operatorId := 3
      connectorId := 32, operatorName := ['C'], connectorName := some ['x'], value := ['5']
      name_none := Or.inl rfl }]
  inputs := [linkedInput]
  outputs := [linkedOutput]

/-- The workflow is accepted, all of its copies are right, and they are those in its node. -/
theorem constantBesideLink_namesAgree : ∃ node,
    @WorkflowContent.validate ℤ asciiOnly (uuid4Above 1000) constantBesideLink =
        .ok constantBesideLink ∧ constantBesideLink.CopiesNames ∧
      constantBesideLink.toWorkflowNode decimalText 8 ['W'] ['1'] ['9'] none [] =
        .ok (.workflow node []) ∧
      node.inputs.length = 2 ∧ node.connections.length = 1 ∧ node.outputs.length = 1 ∧
      NamesAgree decimalText constantBesideLink node := by
  have hvalid : @WorkflowContent.validate ℤ asciiOnly (uuid4Above 1000) constantBesideLink =
      .ok constantBesideLink := by decide
  have hinputs : ∀ entry ∈ inputConnectorNames constantBesideLink.operators,
      entry.2 = some ['x'] := by decide
  have houtputs : ∀ entry ∈ outputConnectorNames constantBesideLink.operators,
      entry.2 = some ['x'] := by decide
  have hlinks : ∀ link ∈ constantBesideLink.matchedLinks, link.inner = true →
      link.start.connector.name = some ['x'] ∧ link.finish.connector.name = some ['x'] := by decide
  have hcopies : constantBesideLink.CopiesNames := {
    constants := by
      intro constant hconstant
      obtain rfl := List.mem_singleton.mp hconstant
      exact ⟨by decide, fun _ hother => hinputs _ hother⟩
    inputs := by
      intro wfInput hwfInput
      obtain rfl := List.mem_singleton.mp (show wfInput ∈ [linkedInput] from hwfInput)
      exact ⟨by decide, fun _ hother => hinputs _ hother⟩
    outputs := by
      intro wfOutput hwfOutput
      obtain rfl := List.mem_singleton.mp (show wfOutput ∈ [linkedOutput] from hwfOutput)
      exact ⟨by decide, fun _ hother => houtputs _ hother⟩
    linkStarts := fun link hlink hinner _ _ _ hname =>
      (houtputs _ hname).trans (hlinks link hlink hinner).1.symm
    linkEnds := fun link hlink hinner _ _ _ hname =>
      (hinputs _ hname).trans (hlinks link hlink hinner).2.symm }
  refine ⟨_, hvalid, hcopies, rfl, rfl, rfl, rfl, ?_⟩
  exact (@WorkflowContent.namesAgree_iff_copiesNames ℤ asciiOnly _ decimalText _ _ hvalid 8 ['W']
    ['1'] ['9'] none [] [] _ rfl).mpr hcopies

end HetidaDesigner
