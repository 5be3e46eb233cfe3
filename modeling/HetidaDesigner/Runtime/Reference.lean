import HetidaDesigner.Runtime.RootInputs

/-!
# The meaning of nested workflow nodes

What the outputs of a workflow node are, without objects of an engine. A node in it has a path of
ids, the innermost one first. An input takes its value from the link on its own level, otherwise
from what the enclosing workflow receives at the input which is mapped to it, otherwise from a
default value or constant of the node itself. For the root, loaded data comes first.
-/

namespace HetidaDesigner

open KeyedList

/-- Names are compared as in the engine. -/
abbrev nameBEq : BEq (Option PyStr) := instBEqOfDecidableEq

/-! ## Nodes and their parts -/

section Nodes

variable {V W X : Type}

/-- The name under which an input of a workflow is mapped. -/
def WorkflowInput.mappedName (input : WorkflowInput V) : Option PyStr :=
  if input.constant then some (generateConstantInputName input) else input.name

/-- The sub node to whose input an input of a workflow is mapped, and the name of this input. -/
def WorkflowInput.target (input : WorkflowInput V) : PyStr × PyStr :=
  (input.idOfSubNode, input.nameInSubnode)

/-- The sub node to whose input a connection leads, and the name of this input. -/
def WorkflowConnection.target (connection : WorkflowConnection) : PyStr × PyStr :=
  (connection.outputInWorkflowId, connection.outputName)

/-- The connection to an input of a sub node. -/
def WorkflowNodeData.linkTo (node : WorkflowNodeData V) (id name : PyStr) :
    Option WorkflowConnection :=
  lookup WorkflowConnection.target (id, name) node.connections

/-- The name of the input of a workflow which is mapped to an input of a sub node. -/
def WorkflowNodeData.mappedFrom (node : WorkflowNodeData V) (id name : PyStr) : Option PyStr :=
  (lookup WorkflowInput.target (id, name) node.inputs).bind WorkflowInput.mappedName

/-- The sub nodes of a node. -/
def SubNode.subNodes : SubNode V → List (SubNode V)
  | .component _ => []
  | .workflow _ subNodes => subNodes

/-- The node at a path. -/
def SubNode.nodeAt (root : SubNode V) : List PyStr → Option (SubNode V)
  | [] => some root
  | id :: path => (root.nodeAt path).bind fun node => lookup SubNode.id id node.subNodes

/-- The default value or constant of an input of a workflow. A default value is only provided under
a name of a field. -/
def WorkflowNodeData.ownValue (tools : ParsingTools V W X) (node : WorkflowNodeData V)
    (name : PyStr) : Option W :=
  (lookup WorkflowInput.mappedName (some name) node.inputs).bind fun input =>
    if input.constant then tools.parseValue input.type false (tools.ofJson input.constantValue)
    else if input.default && isFieldName name then
      tools.parseValue input.type true (tools.ofJson input.defaultValue)
    else none

/-- The default value or constant of an input of a node; components have none. -/
def SubNode.ownValue (tools : ParsingTools V W X) (name : PyStr) : SubNode V → Option W
  | .component _ => none
  | .workflow node _ => node.ownValue tools name

/-- Whether all outputs of a node are plots. -/
def SubNode.hasOnlyPlotOutputs (tools : ParsingTools V W X) : SubNode V → Bool
  | .component node =>
    (tools.loadComponent node.componentUuid).any ComputationNode.hasOnlyPlotOutputs
  | .workflow node _ => onlyPlotOutputs node.outputs

/-- The inputs of a sub node to which something leads on its level. -/
def WorkflowNodeData.targetedNames (node : WorkflowNodeData V) (id : PyStr) : List PyStr :=
  (node.connections.filter fun connection => connection.outputInWorkflowId = id).map
      WorkflowConnection.outputName ++
    (node.inputs.filter fun input => input.idOfSubNode = id).map WorkflowInput.nameInSubnode

end Nodes

/-! ## Reference evaluation -/

/-- Where an input takes its value from: an output of the node at a path, or a given value. -/
inductive InputSource (W : Type)
  | output (path : List PyStr) (name : PyStr)
  | value (value : W)

section Reference

attribute [local instance] nameBEq

variable {V W X : Type} (tools : ParsingTools V W X) (config : EngineConfig W)
  (data : PyStr → Option W) (root : SubNode V)

/-- Where the input of a node takes its value from. -/
def inputSource : List PyStr → PyStr → Option (InputSource W)
  | [], name => ((data name).or (root.ownValue tools name)).map .value
  | id :: path, name =>
    match root.nodeAt path with
    | some (.workflow node _) =>
      match node.linkTo id name with
      | some connection =>
        some (.output (connection.inputInWorkflowId :: path) connection.inputName)
      | none =>
        ((node.mappedFrom id name).bind (inputSource path)).or
          (((root.nodeAt (id :: path)).bind (SubNode.ownValue tools name)).map .value)
    | _ => none

/-- The inputs of a sub node which take a value from somewhere. -/
def providedInputs : List PyStr → List PyStr
  | [] => []
  | id :: path =>
    match root.nodeAt path with
    | some (.workflow node _) => (node.targetedNames id).filter fun name =>
        (inputSource tools data root (id :: path) name).isSome
    | _ => []

/-- The value of a source, given results of nodes. -/
def InputSource.value? (results : List PyStr → Option (List (Option PyStr × W))) :
    InputSource W → Option W
  | .output path name => (results path).bind fun result => result.lookup (some name)
  | .value given => some given

/-- The value of an input of a node under its name. -/
def sourceOutput (results : List PyStr → Option (List (Option PyStr × W))) (path : List PyStr)
    (key : Option PyStr) : Option (Option PyStr × W) :=
  (key.bind fun name => inputSource tools data root path name).bind fun source =>
    (source.value? results).map fun value => (key, value)

/-- The result of a component, given the names of its inputs and their values. -/
def componentResult (computation : ComputationNode (Option PyStr) W X) (names : List (Option PyStr))
    (value : Option PyStr → Option (Option PyStr × W)) : Option (List (Option PyStr × W)) :=
  if computation.requiredParams.all (· ∈ names) then
    (names.mapM value).bind fun values => (computation.func values).toOption
  else none

/-- The entry of a result of a workflow in the reference evaluation. -/
def referenceMapped (results : List PyStr → Option (List (Option PyStr × W))) (path : List PyStr)
    (output : WorkflowOutput) : Option (Option PyStr × W) :=
  if (root.nodeAt (output.idOfSubNode :: path)).any (SubNode.hasOnlyPlotOutputs tools) &&
      !config.runPurePlotOperators then
    some (some output.name, config.emptyDict)
  else ((InputSource.output (output.idOfSubNode :: path) output.nameInSubnode).value?
    results).map fun value => (some output.name, value)

/-- The result of a node, with a bound on the depth. -/
def referenceResult : ℕ → List PyStr → Option (List (Option PyStr × W))
  | 0, _ => none
  | depth + 1, path =>
    match root.nodeAt path with
    | some (.component node) => (tools.loadComponent node.componentUuid).bind fun computation =>
      componentResult computation ((providedInputs tools data root path).map some)
        (sourceOutput tools data root (referenceResult depth) path)
    | some (.workflow node _) =>
      if node.inputs.all fun input => input.mappedName.any fun name =>
          (inputSource tools data root path name).isSome then
        node.outputs.mapM (referenceMapped tools config root (referenceResult depth) path)
      else none
    | none => none

end Reference

/-! ## Well-formed nodes -/

section WellFormed

variable {V : Type}

/-- On one level ids and names are unique, inputs have names, and at most one thing leads to each
input of a sub node. -/
structure WorkflowNodeData.LevelWellFormed (node : WorkflowNodeData V)
    (subNodes : List (SubNode V)) : Prop where
  ids : (subNodes.map SubNode.id).Nodup
  targets : (node.connections.map WorkflowConnection.target ++
    node.inputs.map WorkflowInput.target).Nodup
  named : ∀ input ∈ node.inputs, input.constant = false → input.name ≠ none
  names : (node.inputs.map WorkflowInput.mappedName).Nodup
  outputs : (node.outputs.map WorkflowOutput.name).Nodup

mutual

/-- All levels of a node are well-formed. -/
def SubNode.WellFormed : SubNode V → Prop
  | .component _ => True
  | .workflow node subNodes => node.LevelWellFormed subNodes ∧ AllWellFormed subNodes

/-- All levels of some nodes are well-formed. -/
def AllWellFormed : List (SubNode V) → Prop
  | [] => True
  | subNode :: rest => subNode.WellFormed ∧ AllWellFormed rest

end

/-- All of some nodes are well-formed. -/
theorem allWellFormed_iff {subNodes : List (SubNode V)} :
    AllWellFormed subNodes ↔ ∀ subNode ∈ subNodes, subNode.WellFormed := by
  induction subNodes with
  | nil => exact ⟨fun _ _ h => absurd h List.not_mem_nil, fun _ => trivial⟩
  | cons subNode rest ih => rw [AllWellFormed, List.forall_mem_cons, ih]

end WellFormed

/-! ## Default values and constants -/

section OwnValues

variable {V W X : Type} {tools : ParsingTools V W X} {node : WorkflowNodeData V}
  {subNodes : List (SubNode V)}

/-- The values which are provided for an input of a workflow have its name. -/
theorem mem_defaultValues_iff {value : NamedDataTypedValue W} :
    value ∈ defaultValues tools node.inputs ↔ ∃ input ∈ node.inputs,
      input.constant = false ∧ input.default = true ∧ ∃ name, input.mappedName = some name ∧
        value = ⟨name, input.type, tools.ofJson input.defaultValue⟩ := by
  simp only [defaultValues, dynamicInputs, List.mem_filterMap, List.mem_filter,
    Bool.and_eq_true, Bool.not_eq_true', beq_iff_eq, Option.map_eq_some_iff]
  constructor
  · rintro ⟨input, ⟨hinput, hconst, hdefault⟩, name, hname, rfl⟩
    exact ⟨input, hinput, hconst, hdefault, name,
      by rw [WorkflowInput.mappedName, if_neg (by simp [hconst]), hname], rfl⟩
  · rintro ⟨input, hinput, hconst, hdefault, name, hname, rfl⟩
    rw [WorkflowInput.mappedName, if_neg (by simp [hconst])] at hname
    exact ⟨input, ⟨hinput, hconst, hdefault⟩, name, hname, rfl⟩

/-- If dynamic inputs have names, constants are not optional. -/
theorem mem_constantValues_iff (hwf : node.LevelWellFormed subNodes) {optional : Bool}
    {value : NamedDataTypedValue W} :
    value ∈ constantValues tools node.inputs optional ↔ optional = false ∧ ∃ input ∈ node.inputs,
      input.constant = true ∧ ∃ name, input.mappedName = some name ∧
        value = ⟨name, input.type, tools.ofJson input.constantValue⟩ := by
  have hnone : ∀ input ∈ node.inputs, input.constant = true →
      input.name ∉ (dynamicInputs true node.inputs).map fun input => input.name := by
    intro input hinput hconst hmem
    obtain ⟨other, hother, hname⟩ := List.mem_map.mp hmem
    obtain ⟨hotherMem, hkind⟩ := List.mem_filter.mp hother
    refine hwf.named other hotherMem ?_ ?_
    · simpa using (Bool.and_eq_true_iff.mp hkind).1
    · rw [hname, (input.name_or_constant_data_provided hconst).1]
  rw [constantValues]
  constructor
  · intro h
    obtain ⟨input, hinput, rfl⟩ := List.mem_map.mp h
    obtain ⟨hmem, hoptional⟩ := List.mem_filter.mp hinput
    obtain ⟨hmem, hconst⟩ := List.mem_filter.mp hmem
    have hfalse := decide_eq_false (hnone input hmem hconst)
    exact ⟨(beq_iff_eq.mp hoptional).symm.trans hfalse, input, hmem, hconst, generateConstantInputName input,
      by rw [WorkflowInput.mappedName, if_pos hconst], rfl⟩
  · rintro ⟨rfl, input, hinput, hconst, name, hname, rfl⟩
    rw [WorkflowInput.mappedName, if_pos hconst] at hname
    obtain rfl := Option.some.inj hname
    exact List.mem_map.mpr ⟨input, List.mem_filter.mpr ⟨List.mem_filter.mpr ⟨hinput, hconst⟩,
      beq_iff_eq.mpr (decide_eq_false (hnone input hinput hconst))⟩, rfl⟩

/-- The names under which inputs are mapped. -/
theorem mem_mappedNames_iff_mappedName (inputs : List (WorkflowInput V)) (key : Option PyStr) :
    key ∈ mappedNames inputs ↔ ∃ input ∈ inputs, input.mappedName = key := by
  simp only [mappedNames, dynamicInputs, constantInputs, List.mem_append, List.mem_map,
    List.mem_filter]
  constructor
  · rintro (⟨input, hinput, rfl⟩ | ⟨input, ⟨hinput, hconst⟩, rfl⟩)
    · have hdynamic : input ∈ inputs ∧ input.constant = false := by
        rcases hinput with ⟨hinput, hkind⟩ | ⟨hinput, hkind⟩ <;>
          exact ⟨hinput, by simpa using (Bool.and_eq_true_iff.mp hkind).1⟩
      exact ⟨input, hdynamic.1, by rw [WorkflowInput.mappedName, hdynamic.2]; rfl⟩
    · exact ⟨input, hinput, by rw [WorkflowInput.mappedName, if_pos hconst]⟩
  · rintro ⟨input, hinput, rfl⟩
    cases hconst : input.constant with
    | true => exact Or.inr ⟨input, ⟨hinput, hconst⟩, by rw [WorkflowInput.mappedName, if_pos hconst]⟩
    | false =>
      refine Or.inl ⟨input, ?_, by rw [WorkflowInput.mappedName, hconst]; rfl⟩
      cases hdefault : input.default with
      | false => exact Or.inl ⟨hinput, by simp [hconst]⟩
      | true => exact Or.inr ⟨hinput, by simp [hconst]⟩

/-- The names under which inputs are mapped are different. -/
theorem WorkflowNodeData.LevelWellFormed.mappedNames_nodup (hwf : node.LevelWellFormed subNodes) :
    (mappedNames node.inputs).Nodup := by
  have hdynamic (default : Bool) : (dynamicInputs default node.inputs).map
      (fun input => input.name) =
        (dynamicInputs default node.inputs).map WorkflowInput.mappedName := by
    refine List.map_congr_left fun input hinput => ?_
    have hkind := (List.mem_filter.mp hinput).2
    rw [WorkflowInput.mappedName, if_neg (by simpa using (Bool.and_eq_true_iff.mp hkind).1)]
  have hconstant : (constantInputs node.inputs).map
      (fun input => some (generateConstantInputName input)) =
        (constantInputs node.inputs).map WorkflowInput.mappedName := by
    refine List.map_congr_left fun input hinput => ?_
    rw [WorkflowInput.mappedName, if_pos (List.mem_filter.mp hinput).2]
  have hperm : (dynamicInputs false node.inputs ++ dynamicInputs true node.inputs ++
      constantInputs node.inputs).Perm node.inputs := by
    have hsplit := List.filter_append_perm (fun input : WorkflowInput V => input.default)
      (node.inputs.filter fun input => !input.constant)
    have hfalse : dynamicInputs false node.inputs =
        (node.inputs.filter fun input => !input.constant).filter fun input => !input.default := by
      rw [List.filter_filter]
      refine List.filter_congr fun input _ => ?_
      cases input.default <;> cases input.constant <;> rfl
    have htrue : dynamicInputs true node.inputs =
        (node.inputs.filter fun input => !input.constant).filter fun input => input.default := by
      rw [List.filter_filter]
      refine List.filter_congr fun input _ => ?_
      cases input.default <;> cases input.constant <;> rfl
    rw [hfalse, htrue]
    refine ((List.perm_append_comm.trans hsplit).append_right _).trans ?_
    exact List.perm_append_comm.trans
      (List.filter_append_perm (fun input : WorkflowInput V => input.constant) node.inputs)
  rw [mappedNames, List.map_append, hdynamic, hdynamic, hconstant, ← List.map_append,
    ← List.map_append, (hperm.map WorkflowInput.mappedName).nodup_iff]
  exact hwf.names

end OwnValues

end HetidaDesigner
