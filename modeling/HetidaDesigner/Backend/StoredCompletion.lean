import HetidaDesigner.Backend.StoredResults

/-!
# Stored workflows which complete

An operator fits what it stands for if the names of its outputs are returned there, and if what is
required there is among its exposed inputs. If all operators of a stored workflow fit, then every
input inside of the lowered node has a source, by induction on the path from the outermost workflow:
its own inputs have been wired, and exposed operator inputs have one source each. So the runtime
service completes with a value for each output of the workflow.
-/

namespace HetidaDesigner

open Checks KeyedList

attribute [local instance] nameBEq

section Definitions

variable {V W X : Type} (tools : ParsingTools V W X) (text : TextTools V)

/-- Whether a component or workflow returns an output whenever it returns. -/
def StoredNode.ReturnsOutput (name : PyStr) : StoredNode V → Prop
  | .component id => ∀ computation, tools.loadComponent (text.uuidStr id) = some computation →
      ∀ values result, computation.func values = .ok result → (result.lookup (some name)).isSome
  | .workflow content => ∃ wfOutput ∈ content.outputs, wfOutput.name = some name

/-- Whether it is enough to provide some inputs: a component returns with its required parameters,
and a workflow has default values for its other inputs, under names of fields. -/
def StoredNode.RunsWith (names : List PyStr) : StoredNode V → Prop
  | .component id => ∀ computation, tools.loadComponent (text.uuidStr id) = some computation →
      computation.requiredParams ⊆ names.map some ∧
        ∀ values, computation.requiredParams ⊆ values.map Prod.fst →
          ∃ result, computation.func values = .ok result
  | .workflow content => ∀ wfInput ∈ content.inputs, ∀ name, wfInput.name = some name →
      wfInput.type = .required ∨ isFieldName name = false → name ∈ names

/-- The names of the exposed inputs of an operator. -/
def Operator.exposedNames (operator : Operator V) : List PyStr :=
  (operator.inputs.filter fun input => input.exposed).filterMap fun input => input.name

/-- The connectors of an operator fit what it stands for. -/
structure Operator.Fits (operator : Operator V) (stored : StoredNode V) : Prop where
  outputs : ∀ output ∈ operator.outputs, ∀ name, output.name = some name →
    stored.ReturnsOutput tools text name
  inputs : stored.RunsWith tools text operator.exposedNames

variable {D : Type} (nested : UUID → Option (Revision V D))

/-- All operators of a content fit. -/
def WorkflowContent.OperatorsFit (content : WorkflowContent V) : Prop :=
  ∀ operator ∈ content.operators, ∀ stored, operator.storedNode nested = some stored →
    operator.Fits tools text stored

end Definitions

/-! ## One level -/

section Level

variable {V W X : Type} {tools : ParsingTools V W X} {text : TextTools V}
  {content : WorkflowContent V} {node : WorkflowNodeData V}

/-- Something leads to each exposed operator input. -/
theorem BuiltFrom.source_of_exposed (h : BuiltFrom text content node) (htext : text.UuidTexts)
    (hcontent : content.Identifiable) {operator : Operator V} (hmem : operator ∈ content.operators)
    {name : PyStr} (hname : name ∈ operator.exposedNames) :
    (node.linkTo (text.uuidStr operator.id) name).isSome ∨
      ∃ input ∈ node.inputs, lookup WorkflowInput.target (text.uuidStr operator.id, name)
        node.inputs = some input := by
  obtain ⟨operatorInput, hinput, hinputName⟩ := List.mem_filterMap.mp hname
  obtain ⟨hinput, hexposed⟩ := List.mem_filter.mp hinput
  have hkey : content.inputKey operator.id name = some (operator.id, operatorInput.id) :=
    (inputKey_eq_some_iff hcontent).mpr ⟨rfl, mem_inputConnectorNames_iff.mpr
      ⟨operator, hmem, operatorInput, hinput, rfl, hinputName.symm⟩⟩
  have hone : content.targetedKeys.count (operator.id, operatorInput.id) = 1 := by
    rw [count_targetedKeys, hcontent.wellFormed.oneSource]
    exact ⟨operatorInput, mem_inputConnectors_iff.mpr ⟨operator, hmem, hinput, rfl⟩, hexposed⟩
  rcases List.mem_append.mp (List.count_pos_iff.mp (hone ▸ Nat.one_pos)) with hlink | hio
  · left
    obtain ⟨link, hlink, hend⟩ := List.mem_filterMap.mp hlink
    have hrel := (h.namesAgree hcontent).rel_linkTo htext hcontent operator.id name
    rw [WorkflowContent.innerLinkTo, hkey, Option.bind_some] at hrel
    cases hfound : (content.links.filter Link.inner).find? fun link =>
        innerEnd link = some (operator.id, operatorInput.id) with
    | none => exact absurd (decide_eq_true hend) (List.find?_eq_none.mp hfound link hlink)
    | some found =>
      rw [hfound] at hrel
      generalize node.linkTo (text.uuidStr operator.id) name = connection? at hrel ⊢
      cases hrel
      rfl
  · right
    have hrel := h.rel_outerIo htext hcontent operator.id name
    rw [WorkflowContent.outerIo, hkey, Option.bind_some] at hrel
    have hkeys : content.inputIos.map WorkflowContentIo.key = content.outerIos.map outerKey := by
      simp only [WorkflowContent.inputIos, WorkflowContent.outerIos, List.map_append, List.map_map]
      rfl
    rw [hkeys] at hio
    obtain ⟨io, hio, hioKey⟩ := List.mem_map.mp hio
    cases hfound : lookup outerKey (operator.id, operatorInput.id) content.outerIos with
    | none => exact absurd hioKey (lookup_eq_none.mp hfound io hio)
    | some found =>
      rw [hfound] at hrel
      generalize lookup WorkflowInput.target (text.uuidStr operator.id, name) node.inputs = input?
        at hrel ⊢
      cases hrel with
      | some hmade => exact ⟨_, hmade.2.1, rfl⟩

/-- Dynamic inputs of a node are inputs of the content, and required if they are. -/
theorem BuiltFrom.exists_wfInput (h : BuiltFrom text content node) {input : WorkflowInput V}
    (hinput : input ∈ node.inputs) (hconstant : input.constant = false) :
    ∃ wfInput ∈ content.inputs, wfInput.name = input.name ∧
      (input.default = false → wfInput.type = .required) := by
  obtain ⟨io, hio, hmade⟩ := Related.exists_left h.madeFrom hinput
  rcases List.mem_append.mp hio with hio | hio
  · obtain ⟨wfInput, hwfInput, rfl⟩ := List.mem_map.mp hio
    obtain ⟨name, nameInSubnode, hname, -, -, rfl⟩ := toWorkflowInput_eq_ok hmade
    refine ⟨wfInput, hwfInput, hname, fun hdefault => ?_⟩
    have hoptional := of_decide_eq_false hdefault
    cases htype : wfInput.type with
    | required => rfl
    | optional => exact absurd htype hoptional
  · obtain ⟨constant, -, rfl⟩ := List.mem_map.mp hio
    obtain ⟨nameInSubnode, -, rfl⟩ := constant_toWorkflowInput_eq_ok hmade
    cases hconstant

end Level

/-! ## Operators inside -/

section Operators

variable {V D W X : Type} {tools : ParsingTools V W X} {text : TextTools V}
  {nested : UUID → Option (Revision V D)} {content : WorkflowContent V} {root : SubNode V}

/-- A lowered node returns the outputs which are returned by what is stored. -/
theorem LoweredFrom.returnsOutput {stored : StoredNode V} {subNode : SubNode V}
    (h : LoweredFrom text nested stored subNode) {name : PyStr}
    (hreturns : stored.ReturnsOutput tools text name) : subNode.ReturnsOutput tools name := by
  cases subNode with
  | component component =>
    obtain ⟨id, rfl, huuid⟩ := h.component_inv
    rw [SubNode.ReturnsOutput, huuid]
    exact hreturns
  | workflow node subNodes =>
    obtain ⟨inner, rfl, -, -, hbuilt⟩ := h.workflow_inv
    obtain ⟨wfOutput, hwfOutput, hname⟩ := hreturns
    obtain ⟨output, houtput, hmade⟩ := exists_of_mapM hbuilt.outputs hwfOutput
    obtain ⟨other, nameInSubnode, hother, -, -, rfl⟩ := toWorkflowOutput_eq_ok hmade
    obtain rfl := Option.some.inj (hother.symm.trans hname)
    exact List.mem_map.mpr ⟨_, houtput, rfl⟩

/-- For each operator there is a sub node which is lowered from what the operator stands for. -/
theorem LoweredFrom.exists_subNode (htext : text.UuidTexts) (hnested : NestedIdentifiable nested)
    {node : WorkflowNodeData V} {subNodes : List (SubNode V)}
    (h : LoweredFrom text nested (.workflow content) (.workflow node subNodes))
    {operator : Operator V} (hoperator : operator ∈ content.operators) :
    ∃ stored subNode, operator.storedNode nested = some stored ∧
      lookup SubNode.id (text.uuidStr operator.id) subNodes = some subNode ∧
      LoweredFrom text nested stored subNode := by
  have hrel := h.rel_lookup htext hnested operator.id
  have hids : (content.operators.map fun operator => operator.id).Nodup :=
    h.identifiable.1.operatorIds
  have hfound : lookup (fun operator => operator.id) operator.id content.operators =
      some operator := lookup_of_mem hids hoperator
  change Option.Rel _ ((lookup _ operator.id content.operators).bind _) (lookup _ _ subNodes)
    at hrel
  rw [hfound, Option.bind_some] at hrel
  obtain ⟨stored, hstored⟩ : ∃ stored, operator.storedNode nested = some stored := by
    obtain ⟨-, levels, hlowered⟩ := h
    cases hlowered with
    | workflow hbuilt hchildren hcollected =>
      obtain ⟨fewer, -, hall⟩ := lowered_of_collectChildNodes hchildren hids hcollected
      obtain ⟨subNode, -, -, stored, hstored, -⟩ := Related.exists_right hall hoperator
      exact ⟨stored, hstored⟩
  rw [hstored] at hrel
  generalize lookup SubNode.id (text.uuidStr operator.id) subNodes = subNode? at hrel
  cases hrel with
  | some hlowered => exact ⟨stored, _, hstored, rfl, hlowered⟩

/-- An operator output is returned by the sub node for its operator. -/
theorem LoweredFrom.exists_source (htext : text.UuidTexts) (hnested : NestedIdentifiable nested)
    {node : WorkflowNodeData V} {subNodes : List (SubNode V)}
    (h : LoweredFrom text nested (.workflow content) (.workflow node subNodes))
    (hfits : content.OperatorsFit tools text nested) {key : UUID × UUID} {name : PyStr}
    (hcarried : (key, some name) ∈ outputConnectorNames content.operators) :
    ∃ source, lookup SubNode.id (text.uuidStr key.1) subNodes = some source ∧
      source.ReturnsOutput tools name := by
  obtain ⟨operator, hoperator, output, houtput, rfl, hname⟩ :=
    mem_outputConnectorNames_iff.mp hcarried
  obtain ⟨stored, subNode, hstored, hsubNode, hlowered⟩ := h.exists_subNode htext hnested hoperator
  exact ⟨subNode, hsubNode, hlowered.returnsOutput
    ((hfits operator hoperator stored hstored).outputs output houtput name hname.symm)⟩

end Operators

/-! ## Sources of all inputs -/

section Inputs

variable {V D W X : Type} {tools : ParsingTools V W X} {text : TextTools V}
  {nested : UUID → Option (Revision V D)} {content : WorkflowContent V} {root : SubNode V}
  {data : PyStr → Option W} {objects : EngineObjects W X}

/-- What a node has on its own is a source of its input. -/
theorem isSome_inputSource_of_own {path : List PyStr} {subNode : SubNode V}
    (hnode : root.nodeAt path = some subNode) {name : PyStr}
    (hown : (subNode.ownValue tools name).isSome)
    (hparent : ∀ id rest, path = id :: rest → ∃ node subNodes,
      root.nodeAt rest = some (.workflow node subNodes)) :
    (inputSource tools data root path name).isSome := by
  obtain ⟨value, hvalue⟩ := Option.isSome_iff_exists.mp hown
  cases path with
  | nil =>
    obtain rfl := Option.some.inj hnode
    rw [inputSource, hvalue]
    cases data name <;> rfl
  | cons id path =>
    obtain ⟨node, subNodes, hparentNode⟩ := hparent id path rfl
    rw [inputSource, hparentNode]
    dsimp only
    cases node.linkTo id name with
    | some connection => rfl
    | none =>
      dsimp only
      rw [hnode, Option.bind_some, hvalue]
      cases (node.mappedFrom id name).bind (inputSource tools data root path) <;> rfl

/-- Default values and constants of prepared nodes have been parsed. -/
theorem Prepared.isSome_ownValue (hprepared : Prepared tools data root objects)
    (hwf : root.WellFormed) {path : List PyStr} {node : WorkflowNodeData V}
    {subNodes : List (SubNode V)} (hnode : root.nodeAt path = some (.workflow node subNodes))
    {input : WorkflowInput V} (hinput : input ∈ node.inputs) {name : PyStr}
    (hname : input.mappedName = some name)
    (hown : input.constant = true ∨ input.default = true ∧ isFieldName name = true) :
    (node.ownValue tools name).isSome := by
  obtain ⟨start, hlocated⟩ := exists_located_of_nodeAt hnode
  have hlevel := (hlocated.wellFormed hwf).1
  have hfound : lookup WorkflowInput.mappedName (some name) node.inputs = some input :=
    hname ▸ lookup_of_mem hlevel.names hinput
  obtain ⟨provider, hprovider⟩ : ∃ provider,
      node.ownProvider (start + sizeAll subNodes) name = some provider := by
    rw [WorkflowNodeData.ownProvider, hfound, Option.bind_some]
    cases hconstant : input.constant with
    | true => exact ⟨_, rfl⟩
    | false =>
      rcases hown with hown | ⟨hdefault, hfield⟩
      · exact absurd (hconstant.symm.trans hown) Bool.false_ne_true
      · exact ⟨_, by rw [hdefault, hfield]; rfl⟩
  obtain ⟨value, hvalue, -⟩ :=
    (hlocated.everywhere hprepared.provided).1.provides name provider hprovider
  rw [hvalue]
  rfl

/-- All contents in a nesting have operators which fit. -/
def NestedFit (tools : ParsingTools V W X) (text : TextTools V)
    (nested : UUID → Option (Revision V D)) : Prop :=
  ∀ id revision content, nested id = some revision → requireWorkflow revision = .ok content →
    content.OperatorsFit tools text nested

/-- The operators inside of a stored node fit. -/
theorem operatorsFit_of_storedAt (hnested : NestedFit tools text nested)
    (hroot : content.OperatorsFit tools text nested) {path : List UUID} {inner : WorkflowContent V}
    (h : storedAt nested content path = some (.workflow inner)) :
    inner.OperatorsFit tools text nested := by
  cases path with
  | nil =>
    obtain rfl := StoredNode.workflow.inj (Option.some.inj h)
    exact hroot
  | cons id path =>
    obtain ⟨stored, -, hfound⟩ := Option.bind_eq_some_iff.mp h
    obtain ⟨operator, -, hstored⟩ := Option.bind_eq_some_iff.mp hfound
    obtain ⟨revision, hrevision, hstored⟩ := Option.bind_eq_some_iff.mp hstored
    split at hstored
    · cases Option.some.inj hstored
    · obtain ⟨other, hother, heq⟩ := Option.map_eq_some_iff.mp hstored
      obtain rfl := StoredNode.workflow.inj heq
      exact hnested _ revision other hrevision (toOption_eq_some.mp hother)

/-- The exposed inputs of an operator have sources if the inputs of the workflow around it have. -/
theorem isSome_inputSource_of_exposed (htext : text.UuidTexts) {outer : WorkflowContent V}
    {node : WorkflowNodeData V} {subNodes : List (SubNode V)} {path : List PyStr}
    (houter : outer.Identifiable) (hbuilt : BuiltFrom text outer node)
    (hparent : root.nodeAt path = some (.workflow node subNodes)) {operator : Operator V}
    (hmem : operator ∈ outer.operators) {name : PyStr} (hname : name ∈ operator.exposedNames)
    (hinputs : ∀ input ∈ node.inputs, ∃ mapped, input.mappedName = some mapped ∧
      (inputSource tools data root path mapped).isSome) :
    (inputSource tools data root (text.uuidStr operator.id :: path) name).isSome := by
  rw [inputSource, hparent]
  dsimp only
  rcases hbuilt.source_of_exposed htext houter hmem hname with hlink | ⟨input, hinput, hfound⟩
  · obtain ⟨connection, hconnection⟩ := Option.isSome_iff_exists.mp hlink
    rw [hconnection]
    rfl
  · cases node.linkTo (text.uuidStr operator.id) name with
    | some connection => rfl
    | none =>
      obtain ⟨mapped, hmapped, hsource⟩ := hinputs input hinput
      obtain ⟨source, hsource⟩ := Option.isSome_iff_exists.mp hsource
      dsimp only
      rw [WorkflowNodeData.mappedFrom, hfound, Option.bind_some, hmapped, Option.bind_some, hsource]
      rfl

/-- All inputs of workflows inside have sources if those of the outermost workflow have, by
induction on the path. -/
theorem LoweredFrom.inputs_provided (htext : text.UuidTexts) (hnested : NestedIdentifiable nested)
    (h : LoweredFrom text nested (.workflow content) root) (hwf : root.WellFormed)
    (hprepared : Prepared tools data root objects) (hnestedFit : NestedFit tools text nested)
    (hfit : content.OperatorsFit tools text nested)
    (hroot : ∀ input ∈ root.inputs, input.constant = false → ∀ name, input.name = some name →
      input.default = false ∨ isFieldName name = false →
        (inputSource tools data root [] name).isSome)
    (path : List UUID) {node : WorkflowNodeData V} {subNodes : List (SubNode V)}
    (hnode : root.nodeAt (path.map text.uuidStr) = some (.workflow node subNodes)) :
    ∀ input ∈ node.inputs, ∃ name, input.mappedName = some name ∧
      (inputSource tools data root (path.map text.uuidStr) name).isSome := by
  induction path generalizing node subNodes with
  | nil =>
    intro input hinput
    obtain rfl := Option.some.inj hnode
    obtain ⟨name, hname⟩ := hwf.1.exists_mappedName hinput
    refine ⟨name, hname, ?_⟩
    by_cases hown : input.constant = true ∨ input.default = true ∧ isFieldName name = true
    · exact isSome_inputSource_of_own hnode (hprepared.isSome_ownValue hwf hnode hinput hname hown)
        fun _ _ hpath => absurd hpath.symm (List.cons_ne_nil _ _)
    · obtain ⟨hconstant, hdefault⟩ := not_or.mp hown
      rw [WorkflowInput.mappedName, if_neg hconstant] at hname
      rw [not_and_or, Bool.not_eq_true, Bool.not_eq_true] at hdefault
      exact hroot input hinput (Bool.eq_false_iff.mpr hconstant) name hname hdefault
  | cons id path ih =>
    intro input hinput
    obtain ⟨start, hlocated⟩ := exists_located_of_nodeAt hnode
    obtain ⟨name, hname⟩ := (hlocated.wellFormed hwf).1.exists_mappedName hinput
    refine ⟨name, hname, ?_⟩
    by_cases hown : input.constant = true ∨ input.default = true ∧ isFieldName name = true
    · refine isSome_inputSource_of_own hnode
        (hprepared.isSome_ownValue hwf hnode hinput hname hown) fun parentId rest hpath => ?_
      obtain ⟨parent, others, hparent, -⟩ := exists_parent hnode parentId rest hpath
      exact ⟨parent, others, hparent⟩
    · obtain ⟨hconstant, hdefault⟩ := not_or.mp hown
      rw [WorkflowInput.mappedName, if_neg hconstant] at hname
      obtain ⟨outer, parent, others, operator, stored, houter, hparent, hidentifiable,
        hparentBuilt, -, hmem, rfl, hstoredNode, -, hlowered⟩ :=
          h.exists_operator htext hnested hnode
      obtain ⟨inner, rfl, -, -, hbuilt⟩ := hlowered.workflow_inv
      rw [not_and_or, Bool.not_eq_true, Bool.not_eq_true] at hdefault
      obtain ⟨wfInput, hwfInput, hwfName, htype⟩ := hbuilt.exists_wfInput hinput
        (Bool.eq_false_iff.mpr hconstant)
      have hexposed : name ∈ operator.exposedNames :=
        (operatorsFit_of_storedAt hnestedFit hfit houter operator hmem _ hstoredNode).inputs
          wfInput hwfInput name (hwfName.trans hname) (hdefault.imp_left htype)
      exact isSome_inputSource_of_exposed htext hidentifiable hparentBuilt hparent hmem hexposed
        (ih hparent)

/-- A component inside gets its required parameters and returns. -/
theorem LoweredFrom.runs (htext : text.UuidTexts) (hnested : NestedIdentifiable nested)
    (h : LoweredFrom text nested (.workflow content) root)
    (hprepared : Prepared tools data root objects) (hnestedFit : NestedFit tools text nested)
    (hfit : content.OperatorsFit tools text nested)
    (hinputs : ∀ (path : List UUID) node subNodes,
      root.nodeAt (path.map text.uuidStr) = some (.workflow node subNodes) →
        ∀ input ∈ node.inputs, ∃ name, input.mappedName = some name ∧
          (inputSource tools data root (path.map text.uuidStr) name).isSome)
    {path : List UUID} {component : ComponentNode}
    (hnode : root.nodeAt (path.map text.uuidStr) = some (.component component)) :
    Runs tools ((providedInputs tools data root (path.map text.uuidStr)).map some) component := by
  obtain ⟨start, hlocated⟩ := exists_located_of_nodeAt hnode
  obtain ⟨computation, hload, -⟩ :=
    exists_component_of_placed (hlocated.everywhere hprepared.placed) rfl
  obtain ⟨id, path, rfl⟩ := h.exists_cons_of_component hnode
  obtain ⟨outer, node, subNodes, operator, stored, houter, hparent, hidentifiable, hbuilt, -, hmem,
    rfl, hstoredNode, -, hlowered⟩ := h.exists_operator htext hnested hnode
  obtain ⟨componentId, rfl, huuid⟩ := hlowered.component_inv
  obtain ⟨hparams, hreturns⟩ :=
    (operatorsFit_of_storedAt hnestedFit hfit houter operator hmem _ hstoredNode).inputs
      computation (huuid ▸ hload)
  refine ⟨computation, hload, fun param hparam => ?_, hreturns⟩
  obtain ⟨name, hname, rfl⟩ := List.mem_map.mp (hparams hparam)
  have hsome := isSome_inputSource_of_exposed htext hidentifiable hbuilt hparent hmem hname
    (hinputs path node subNodes hparent)
  refine List.mem_map_of_mem ?_
  rw [List.map_cons, providedInputs, hparent]
  exact List.mem_filter.mpr ⟨mem_targetedNames_of_isSome hparent hnode hsome, hsome⟩

/-- A lowered node whose operators fit is runnable. -/
theorem LoweredFrom.runnable (htext : text.UuidTexts) (hnested : NestedIdentifiable nested)
    (h : LoweredFrom text nested (.workflow content) root) (hwf : root.WellFormed)
    (hprepared : Prepared tools data root objects) (hnestedFit : NestedFit tools text nested)
    (hfit : content.OperatorsFit tools text nested)
    (hroot : ∀ input ∈ root.inputs, input.constant = false → ∀ name, input.name = some name →
      input.default = false ∨ isFieldName name = false →
        (inputSource tools data root [] name).isSome) :
    Runnable tools data root := by
  have hinputs (path : List UUID) (node : WorkflowNodeData V) (subNodes : List (SubNode V))
      (hnode : root.nodeAt (path.map text.uuidStr) = some (.workflow node subNodes)) :=
    h.inputs_provided htext hnested hwf hprepared hnestedFit hfit hroot path hnode
  refine ⟨fun path node subNodes hnode => h.acyclic htext hnested hnode, ?_, ?_, ?_, ?_⟩
  · intro path node subNodes hnode connection hconnection
    obtain ⟨ids, rfl⟩ := h.exists_path htext hnested hnode
    obtain ⟨stored, hstored, hlowered⟩ := h.exists_stored htext hnested hnode
    obtain ⟨inner, rfl, hinner, -, hbuilt⟩ := hlowered.workflow_inv
    obtain ⟨link, -, start, finish, -, -, hid, hcarried, -⟩ :=
      Related.exists_left (hbuilt.namesAgree hinner).connections hconnection
    rw [hid]
    exact hlowered.exists_source htext hnested
      (operatorsFit_of_storedAt hnestedFit hfit hstored) hcarried.1
  · intro path node subNodes hnode output houtput
    obtain ⟨ids, rfl⟩ := h.exists_path htext hnested hnode
    obtain ⟨stored, hstored, hlowered⟩ := h.exists_stored htext hnested hnode
    obtain ⟨inner, rfl, hinner, -, hbuilt⟩ := hlowered.workflow_inv
    obtain ⟨wfOutput, hwfOutput, hmade⟩ := exists_argument_of_mapM hbuilt.outputs houtput
    have hcarried := (hinner.outputCopies wfOutput hwfOutput).1
    obtain ⟨name, nameInSubnode, -, -, hconnector, rfl⟩ := toWorkflowOutput_eq_ok hmade
    rw [hconnector] at hcarried
    exact hlowered.exists_source htext hnested
      (operatorsFit_of_storedAt hnestedFit hfit hstored) hcarried
  · intro path node subNodes hnode
    obtain ⟨ids, rfl⟩ := h.exists_path htext hnested hnode
    exact hinputs ids node subNodes hnode
  · intro path component hnode
    obtain ⟨ids, rfl⟩ := h.exists_path htext hnested hnode
    exact h.runs htext hnested hprepared hnestedFit hfit hinputs hnode

end Inputs

/-! ## Executions -/

section Main

variable [UnicodeData] {V J C W X E : Type} [DecidableEq V] [DecidableEq J]
  {tools : PreparationTools V J} {wiringConfig : WiringConfig} {db : Database V (WiringData J)}
  {uuid4 : UUID → ℕ → UUID} {levels : PreparationLevels} {request : ExecByIdInput J C}
  {input : WorkflowExecutionInput V J C} {parsing : ParsingTools V W X}
  {loading : LoadingTools J W E} {config : EngineConfig W}

omit [UnicodeData] [DecidableEq V] [DecidableEq J] in
/-- Required inputs of the outermost workflow have sources after a preparation, if inputs have names
of fields and default values are only asked for where there are some. -/
theorem isSome_inputSource_root (hanswer : AdaptersAnswer loading) {node : WorkflowNodeData V}
    {subNodes : List (SubNode V)} (hwf : (SubNode.workflow node subNodes).WellFormed)
    {wiring completed : WorkflowWiring (WiringData J)}
    (hcomplete : checkWiringComplete (.workflow node subNodes) wiring = .ok completed)
    (hdefaults : DefaultsAvailable node.inputs completed.inputWirings)
    {objects : EngineObjects W X}
    (hprepared : prepareWorkflow parsing loading (.workflow node subNodes) completed =
      .ok ((SubNode.workflow node subNodes).position 0, objects)) {data : PyStr → Option W}
    (hobjects : Prepared parsing data (.workflow node subNodes) objects)
    {input : WorkflowInput V} (hinput : input ∈ node.inputs) (hconstant : input.constant = false)
    {name : PyStr} (hname : input.name = some name)
    (hdefault : input.default = false ∨ isFieldName name = false) :
    (inputSource parsing data (.workflow node subNodes) [] name).isSome := by
  obtain ⟨hrequired, -, -, rfl⟩ := checkWiringComplete_eq_ok.mp hcomplete
  obtain ⟨-, workflow, -, -, hnames⟩ := exists_of_prepareWorkflow hanswer hprepared
  have hfield : isFieldName name = true := by
    have hnamed := hdefaults.named input hinput hconstant
    rwa [hname, Option.any_some] at hnamed
  have hwired : some name ∈ (wiredNames wiring.inputWirings).map some := by
    refine hrequired _ (List.mem_map.mpr ⟨input, List.mem_filter.mpr ⟨hinput, ?_⟩, hname⟩)
    rw [hconstant, hdefault.resolve_right (Bool.not_eq_false _ ▸ hfield)]
    rfl
  obtain ⟨wired, hwired, hsame⟩ := List.mem_map.mp hwired
  obtain ⟨inputWiring, hwiring, rfl⟩ := List.mem_map.mp hwired
  obtain rfl := Option.some.inj hsame
  have hprovided : some inputWiring.data.name ∈
      objects.inputs.names ((SubNode.workflow node subNodes).position 0) := by
    refine (hnames _).mpr ⟨_, rfl, ?_⟩
    cases huse : inputWiring.data.useDefaultValue with
    | true => exact Or.inl (hdefaults.default inputWiring hwiring huse)
    | false => exact Or.inr ⟨hfield, inputWiring, hwiring, huse, rfl⟩
  have hrel : Option.Rel _ ((objects.inputs ((SubNode.workflow node subNodes).position 0)).lookup
      (some inputWiring.data.name)) _ := (hobjects.represents hwf .root).2 inputWiring.data.name
  have hlookup : (objects.inputs ((SubNode.workflow node subNodes).position 0)).lookup
      (some inputWiring.data.name) ≠ none := fun hnone =>
    lookup_eq_none_iff_notMem.mp hnone hprovided
  obtain ⟨place, hplace⟩ := Option.ne_none_iff_exists'.mp hlookup
  rw [hplace] at hrel
  generalize inputSource parsing data (.workflow node subNodes) [] inputWiring.data.name = source?
    at hrel ⊢
  cases hrel
  rfl

/-- If the operators of the contents which are loaded fit, and inputs of the outermost workflow have
names of fields and default values where they are asked for, the runtime service completes for every
prepared input with a value for each output of the stored workflow. -/
theorem executeWorkflow_completes_of_fits
    (h : prepareExecutionInput tools db (databaseReader wiringConfig db uuid4) levels request =
      some (.ok input)) (htext : tools.text.UuidTexts)
    (hcontents : ∀ loaded, loadWorkflow tools db (databaseReader wiringConfig db uuid4) request.id =
      .ok loaded → ∀ content, loaded.Contents content →
        content.Identifiable ∧ content.OperatorsFit parsing tools.text loaded.nested)
    (hkeyword : KeywordArguments parsing) (hanswer : AdaptersAnswer loading)
    (hdefaults : DefaultsAvailable input.workflow.inputs input.workflowWiring.inputWirings)
    {parsedWf : ℕ} {objects : EngineObjects W X}
    (hprepared : prepareWorkflow parsing loading input.workflow input.workflowWiring =
      .ok (parsedWf, objects)) :
    ∃ loaded content fuel result state,
      loadWorkflow tools db (databaseReader wiringConfig db uuid4) request.id = .ok loaded ∧
      requireWorkflow loaded.trWorkflow = .ok content ∧
      executeWorkflow config objects fuel parsedWf = some (.ok (result, state)) ∧
      result.map Prod.fst = content.outputs.map fun wfOutput => wfOutput.name := by
  obtain ⟨loaded, content, wiring, hloaded, hcontent, hnested, hlowered, hcomplete⟩ :=
    exists_lowered_of_prepareExecutionInput h fun loaded hloaded content hmem =>
      (hcontents loaded hloaded content hmem).1
  obtain ⟨node, subNodes, hworkflow, hidentifiable, hbuilt⟩ := hlowered.exists_workflow
  rw [hworkflow] at hlowered hcomplete hprepared hdefaults
  have hwf := hlowered.wellFormed htext hnested
  obtain ⟨data, -, rfl, hobjects⟩ := prepared_of_prepareWorkflow hwf hprepared
  have hfit : content.OperatorsFit parsing tools.text loaded.nested :=
    (hcontents loaded hloaded content ⟨_, List.mem_cons_self, hcontent⟩).2
  have hnestedFit : NestedFit parsing tools.text loaded.nested := by
    intro id revision inner hrevision hinner
    obtain ⟨entry, hentry, rfl⟩ := Option.map_eq_some_iff.mp hrevision
    exact (hcontents loaded hloaded inner ⟨entry.2, List.mem_cons_of_mem _
      (List.mem_map_of_mem (LastEntry.mem_of_lastEntry hentry).1), hinner⟩).2
  have hrunnable := hlowered.runnable htext hnested hwf hobjects hnestedFit hfit
    fun input hinput hconstant name hname hdefault => isSome_inputSource_root hanswer hwf hcomplete
      hdefaults hprepared hobjects hinput hconstant hname hdefault
  obtain ⟨fuel, result, state, hreturned, hnames, -⟩ :=
    completes_of_prepared hwf hkeyword hobjects hrunnable
  refine ⟨loaded, content, fuel, result, state, hloaded, hcontent, hreturned, hnames.trans ?_⟩
  refine map_eq_of_mapM hbuilt.outputs fun wfOutput output hmade => ?_
  obtain ⟨name, nameInSubnode, hname, -, -, rfl⟩ := toWorkflowOutput_eq_ok hmade
  exact hname.symm

end Main

/-! ## A nested sum -/

section Sums

attribute [local instance] asciiOnly

/-- The operators fit, as every component returns a sum and only needs one summand. -/
theorem sumDb_fits (loaded : LoadedWorkflow ℤ ℤ)
    (h : loadWorkflow plainPreparationTools sumDb sumReader sumRequest.id = .ok loaded)
    (content : WorkflowContent ℤ) (hcontent : loaded.Contents content) :
    content.Identifiable ∧
      content.OperatorsFit numberTools plainPreparationTools.text loaded.nested := by
  refine ⟨sumDb_identifiable loaded h content hcontent, fun operator hoperator stored hstored => ?_⟩
  obtain ⟨-, hnested, hcomponents⟩ := sumDb_loaded h
  have hcomponent (id : UUID) : (componentOperator id).Fits numberTools plainPreparationTools.text
      (.component 1) := by
    refine ⟨fun output houtput name hname computation hload values result hresult => ?_,
      fun computation hload => ?_⟩ <;> obtain rfl := Option.some.inj hload
    · obtain rfl := List.mem_singleton.mp houtput
      obtain rfl := Option.some.inj hname
      rw [← Except.ok.inj hresult]
      rfl
    · exact ⟨List.Subset.refl _, fun values _ => ⟨_, rfl⟩⟩
  have hworkflow : nestedOperator.Fits numberTools plainPreparationTools.text
      (.workflow innerContent) := by
    refine ⟨fun output houtput name hname => ?_, fun wfInput hwfInput name hname _ => ?_⟩
    · obtain rfl := List.mem_singleton.mp houtput
      exact ⟨_, List.mem_singleton_self _, hname⟩
    · obtain rfl := List.mem_singleton.mp hwfInput
      obtain rfl := Option.some.inj hname
      exact List.mem_singleton_self _
  rcases sumDb_contents h hcontent with rfl | rfl
  · rcases List.mem_pair.mp hoperator with rfl | rfl
    · obtain rfl := Option.some.inj (hnested.symm.trans hstored)
      exact hworkflow
    · obtain rfl := Option.some.inj ((hcomponents 30).symm.trans hstored)
      exact hcomponent 30
  · obtain rfl := List.mem_singleton.mp hoperator
    obtain rfl := Option.some.inj ((hcomponents 10).symm.trans hstored)
    exact hcomponent 10

/-- The adapters answer. -/
theorem numberLoading_answers : AdaptersAnswer numberLoading := by
  intro adapterId requests data h name
  obtain rfl := Except.ok.inj h
  rw [List.map_map]
  rfl

/-- Instance of `executeWorkflow_completes_of_fits`. -/
theorem outerContent_completes : ∃ input parsedWf objects,
    prepareExecutionInput plainPreparationTools sumDb sumReader ⟨5, 5⟩ sumRequest =
      some (.ok input) ∧
    prepareWorkflow numberTools numberLoading input.workflow input.workflowWiring =
      .ok (parsedWf, objects) ∧
    ∃ loaded content fuel result state,
      loadWorkflow plainPreparationTools sumDb sumReader sumRequest.id = .ok loaded ∧
      requireWorkflow loaded.trWorkflow = .ok content ∧
      executeWorkflow ⟨true, 0⟩ objects fuel parsedWf = some (.ok (result, state)) ∧
      result.map Prod.fst = content.outputs.map fun wfOutput => wfOutput.name := by
  obtain ⟨input, parsedWf, objects, -, -, hinput, hprepared, -⟩ := outerContent_executed
  refine ⟨input, parsedWf, objects, hinput, hprepared, executeWorkflow_completes_of_fits hinput
    plainText_uuidTexts sumDb_fits numberTools_keywordArguments numberLoading_answers ?_ hprepared⟩
  have hnamed : (prepareExecutionInput plainPreparationTools sumDb sumReader ⟨5, 5⟩
      sumRequest).map (Except.map fun input => input.workflow.inputs.all fun input =>
        input.name.any isFieldName) = some (.ok true) := by
    decide +kernel
  have hwired : (prepareExecutionInput plainPreparationTools sumDb sumReader ⟨5, 5⟩
      sumRequest).map (Except.map fun input => input.workflowWiring.inputWirings.all fun wiring =>
        !wiring.data.useDefaultValue) = some (.ok true) := by
    decide +kernel
  rw [hinput] at hnamed hwired
  have hallNamed := Except.ok.inj (Option.some.inj hnamed)
  have hallWired := Except.ok.inj (Option.some.inj hwired)
  refine ⟨fun wfInput hwfInput _ => List.all_eq_true.mp hallNamed wfInput hwfInput,
    fun wiring hwiring huse => ?_⟩
  have hnot := List.all_eq_true.mp hallWired wiring hwiring
  rw [huse] at hnot
  cases hnot

end Sums

end HetidaDesigner
