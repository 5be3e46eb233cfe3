import HetidaDesigner.Runtime.Reference

/-!
# Where the objects of nested nodes are

Parsing a node creates its objects one after the other, those of its sub nodes first. So each node
of a nesting has its objects in an interval, and the source of each of its inputs can be read off
from the connections and mappings on the level above. This is kept while inputs are added.
-/

namespace HetidaDesigner

open Checks KeyedList

attribute [local instance] nameBEq

section Definitions

variable {V W X : Type}

/-! ## Intervals -/

mutual

/-- The number of objects of a node: a workflow gets three which provide constants. -/
def SubNode.size : SubNode V → ℕ
  | .component _ => 1
  | .workflow _ subNodes => sizeAll subNodes + 4

/-- The number of objects of some nodes. -/
def sizeAll : List (SubNode V) → ℕ
  | [] => 0
  | subNode :: rest => subNode.size + sizeAll rest

end

/-- The object of a node whose objects start at a position. -/
def SubNode.position (start : ℕ) : SubNode V → ℕ
  | .component _ => start
  | .workflow _ subNodes => start + sizeAll subNodes

/-- Nodes one after the other, with the positions where their objects start. -/
def starts (start : ℕ) : List (SubNode V) → List (ℕ × SubNode V)
  | [] => []
  | subNode :: rest => (start, subNode) :: starts (start + subNode.size) rest

/-- The object of a node with the position where its objects start. -/
def objectOf (entry : ℕ × SubNode V) : ℕ := entry.2.position entry.1

/-- The objects of nodes one after the other, by ids. -/
def positions (start : ℕ) (subNodes : List (SubNode V)) : List (PyStr × ℕ) :=
  (starts start subNodes).map fun entry => (entry.2.id, objectOf entry)

/-! ## Properties of all nodes -/

variable (P : WorkflowNodeData V → List (SubNode V) → ℕ → Prop) (C : ComponentNode → ℕ → Prop)

mutual

/-- All nodes of a nesting have a property, with the positions where their objects start. -/
def SubNode.Everywhere : SubNode V → ℕ → Prop
  | .component node, start => C node start
  | .workflow node subNodes, start =>
    P node subNodes start ∧ EverywhereAll subNodes start

/-- All nodes of some nestings have a property. -/
def EverywhereAll : List (SubNode V) → ℕ → Prop
  | [], _ => True
  | subNode :: rest, start => subNode.Everywhere start ∧ EverywhereAll rest (start + subNode.size)

end

/-! ## Placement and links -/

/-- The object of a workflow, whose connections come from sub nodes. -/
def WorkflowPlaced (nodes : List (EngineNode (Option PyStr) W X)) (node : WorkflowNodeData V)
    (subNodes : List (SubNode V)) (start : ℕ) : Prop :=
  (∀ connection ∈ node.connections,
    ∃ source, (positions start subNodes).lookup connection.inputInWorkflowId = some source) ∧
  ∃ workflow, nodes[start + sizeAll subNodes]? = some (.workflow workflow) ∧
    obtainInputMappings (positions start subNodes) node.inputs = .ok workflow.inputMappings ∧
    obtainOutputMappings (positions start subNodes) node.outputs = .ok workflow.outputMappings ∧
    workflow.hasOnlyPlotOutputs = onlyPlotOutputs node.outputs

/-- The objects of all nodes of a nesting. -/
def SubNode.Placed (tools : ParsingTools V W X) (nodes : List (EngineNode (Option PyStr) W X)) :
    SubNode V → ℕ → Prop :=
  SubNode.Everywhere (WorkflowPlaced nodes) fun node start => ∃ computation,
    tools.loadComponent node.componentUuid = some computation ∧
      nodes[start]? = some (.computation computation)

/-- The object which provides a default value or constant of a workflow. -/
def WorkflowNodeData.ownProvider (node : WorkflowNodeData V) (position : ℕ) (name : PyStr) :
    Option ℕ :=
  (lookup WorkflowInput.mappedName (some name) node.inputs).bind fun input =>
    if input.constant then some (position + 2)
    else if input.default && isFieldName name then some (position + 1)
    else none

/-- An object provides a value under a name. -/
def Provides (nodes : List (EngineNode (Option PyStr) W X)) (provider : ℕ) (name : PyStr)
    (value : W) : Prop :=
  ∃ values : List (PyStr × W), nodes[provider]? = some (.computation (constantProvidingNode values)) ∧
    values.lookup name = some value

/-- An object provides constants. -/
def IsProvider (nodes : List (EngineNode (Option PyStr) W X)) (object : ℕ) : Prop :=
  ∃ values : List (PyStr × W), nodes[object]? = some (.computation (constantProvidingNode values))

/-- The objects which provide default values and constants of a workflow. -/
structure WorkflowProvided (tools : ParsingTools V W X)
    (nodes : List (EngineNode (Option PyStr) W X)) (node : WorkflowNodeData V)
    (subNodes : List (SubNode V)) (start : ℕ) : Prop where
  provides : ∀ name provider, node.ownProvider (start + sizeAll subNodes) name = some provider →
    ∃ value, node.ownValue tools name = some value ∧ Provides nodes provider name value
  providers : ∀ other, start + sizeAll subNodes < other →
    other < start + sizeAll subNodes + 4 → IsProvider nodes other

/-- The objects which provide default values and constants in a nesting. -/
def SubNode.Provided (tools : ParsingTools V W X) (nodes : List (EngineNode (Option PyStr) W X)) :
    SubNode V → ℕ → Prop :=
  SubNode.Everywhere (WorkflowProvided tools nodes) fun _ _ => True

/-- The source of an input of a node which the node has on its own. -/
def ownSource (entry : ℕ × SubNode V) : Option PyStr → Option (ℕ × Option PyStr)
  | none => none
  | some name =>
    match entry.2 with
    | .component _ => none
    | .workflow node _ => (node.ownProvider (objectOf entry) name).map fun provider =>
        (provider, some name)

/-- The source of an input of a sub node, given the sources of the inputs of the workflow. -/
def linkedSource (connections : List WorkflowConnection) (node : WorkflowNodeData V)
    (positions : List (PyStr × ℕ)) (outer : List (Option PyStr × (ℕ × Option PyStr)))
    (entry : ℕ × SubNode V) : Option PyStr → Option (ℕ × Option PyStr)
  | none => none
  | some name =>
    match lookup WorkflowConnection.target (entry.2.id, name) connections with
    | some connection => (positions.lookup connection.inputInWorkflowId).map fun source =>
        (source, some connection.inputName)
    | none => ((node.mappedFrom entry.2.id name).bind fun name => outer.lookup (some name)).or
        (ownSource entry (some name))

/-- The inputs of the sub nodes of a workflow have their sources, and the objects which provide
constants have no inputs. -/
structure WorkflowLinked (inputs : EngineInputs (Option PyStr)) (node : WorkflowNodeData V)
    (subNodes : List (SubNode V)) (start : ℕ) : Prop where
  sources : ∀ entry ∈ starts start subNodes, ∀ key, (inputs (objectOf entry)).lookup key =
    linkedSource node.connections node (positions start subNodes)
      (inputs (start + sizeAll subNodes)) entry key
  providers : ∀ other, start + sizeAll subNodes < other → other < start + sizeAll subNodes + 4 →
    inputs other = []

/-- The inputs of all nodes inside a nesting have their sources. -/
def SubNode.Linked (inputs : EngineInputs (Option PyStr)) : SubNode V → ℕ → Prop :=
  SubNode.Everywhere (WorkflowLinked inputs) fun _ _ => True

/-- The objects which provide default values and constants of the workflow with an object. -/
def ownProviders (position : ℕ) : List ℕ := [position + 1, position + 2, position + 3]

/-- The attribute `sub_nodes` of all workflows of a nesting: the objects of the sub nodes and those
which provide default values and constants. -/
def SubNode.Contains (subNodesOf : ℕ → List ℕ) : SubNode V → ℕ → Prop :=
  SubNode.Everywhere (fun _ subNodes start => subNodesOf (start + sizeAll subNodes) =
    (positions start subNodes).map Prod.snd ++ ownProviders (start + sizeAll subNodes))
      fun _ _ => True

end Definitions

/-! ## Intervals of sub nodes -/

section Intervals

variable {V : Type} {P P' : WorkflowNodeData V → List (SubNode V) → ℕ → Prop}
  {C C' : ComponentNode → ℕ → Prop}

/-- The object of a node is one of its objects. -/
theorem objectOf_mem (entry : ℕ × SubNode V) :
    entry.1 ≤ objectOf entry ∧ objectOf entry < entry.1 + entry.2.size := by
  obtain ⟨start, subNode⟩ := entry
  cases subNode with
  | component node => exact ⟨le_rfl, Nat.lt_succ_self start⟩
  | workflow node subNodes =>
    simp only [objectOf, SubNode.position, SubNode.size]
    omega

/-- The objects of sub nodes are among those of all of them. -/
theorem mem_starts_range {subNodes : List (SubNode V)} {start : ℕ} {entry : ℕ × SubNode V}
    (h : entry ∈ starts start subNodes) :
    start ≤ entry.1 ∧ entry.1 + entry.2.size ≤ start + sizeAll subNodes := by
  induction subNodes generalizing start with
  | nil => cases h
  | cons subNode rest ih =>
    rw [sizeAll]
    rcases List.mem_cons.mp h with rfl | h
    · dsimp only
      omega
    · have := ih h
      omega

/-- The nodes of the entries. -/
theorem map_snd_starts (start : ℕ) (subNodes : List (SubNode V)) :
    (starts start subNodes).map Prod.snd = subNodes := by
  induction subNodes generalizing start with
  | nil => rfl
  | cons subNode rest ih => rw [starts, List.map_cons, ih]

/-- The objects of sub nodes are all of those before the one of the workflow. -/
theorem exists_starts_of_lt {subNodes : List (SubNode V)} {start object : ℕ} (hlower : start ≤ object)
    (hupper : object < start + sizeAll subNodes) : ∃ entry ∈ starts start subNodes,
      entry.1 ≤ object ∧ object < entry.1 + entry.2.size := by
  induction subNodes generalizing start with
  | nil =>
    rw [sizeAll] at hupper
    omega
  | cons subNode rest ih =>
    rw [sizeAll] at hupper
    by_cases hfirst : object < start + subNode.size
    · exact ⟨(start, subNode), List.mem_cons_self, hlower, hfirst⟩
    · obtain ⟨entry, hentry, hrange⟩ := ih (not_lt.mp hfirst) (by omega)
      exact ⟨entry, List.mem_cons_of_mem _ hentry, hrange⟩

/-- The node of an entry is one of the sub nodes. -/
theorem mem_of_mem_starts {subNodes : List (SubNode V)} {start : ℕ} {entry : ℕ × SubNode V}
    (h : entry ∈ starts start subNodes) : entry.2 ∈ subNodes := by
  rw [← map_snd_starts start subNodes]
  exact List.mem_map_of_mem h

/-- Different sub nodes have different objects. -/
theorem starts_disjoint {subNodes : List (SubNode V)} {start : ℕ} {entry entry' : ℕ × SubNode V}
    (h : entry ∈ starts start subNodes) (h' : entry' ∈ starts start subNodes) :
    entry = entry' ∨ entry.1 + entry.2.size ≤ entry'.1 ∨ entry'.1 + entry'.2.size ≤ entry.1 := by
  induction subNodes generalizing start with
  | nil => cases h
  | cons subNode rest ih =>
    rcases List.mem_cons.mp h with rfl | h <;> rcases List.mem_cons.mp h' with rfl | h'
    · exact Or.inl rfl
    · exact Or.inr (Or.inl (mem_starts_range h').1)
    · exact Or.inr (Or.inr (mem_starts_range h).1)
    · exact ih h h'

/-- Sub nodes with unique ids are found by their ids. -/
theorem positions_lookup_iff {subNodes : List (SubNode V)}
    (hids : (subNodes.map SubNode.id).Nodup) {start : ℕ} {id : PyStr} {position : ℕ} :
    (positions start subNodes).lookup id = some position ↔
      ∃ entry ∈ starts start subNodes, entry.2.id = id ∧ objectOf entry = position := by
  have hnodup : ((positions start subNodes).map Prod.fst).Nodup := by
    have hmap : (positions start subNodes).map Prod.fst = subNodes.map SubNode.id := by
      conv_rhs => rw [← map_snd_starts start subNodes]
      rw [positions, List.map_map, List.map_map]
      rfl
    rwa [hmap]
  rw [lookup_eq_some_iff_mem hnodup, positions, List.mem_map]
  simp only [Prod.mk.injEq]

/-- Entries of sub nodes with the same id are the same. -/
theorem eq_of_id_eq {subNodes : List (SubNode V)} (hids : (subNodes.map SubNode.id).Nodup)
    {start : ℕ} {entry entry' : ℕ × SubNode V} (h : entry ∈ starts start subNodes)
    (h' : entry' ∈ starts start subNodes) (hid : entry.2.id = entry'.2.id) : entry = entry' := by
  have hnodup : ((starts start subNodes).map fun entry => entry.2.id).Nodup := by
    rw [← map_snd_starts start subNodes, List.map_map] at hids
    exact hids
  exact KeyedList.eq_of_key_eq hnodup h h' hid

/-- A property of all sub nodes. -/
theorem everywhereAll_iff {subNodes : List (SubNode V)} {start : ℕ} :
    EverywhereAll P C subNodes start ↔
      ∀ entry ∈ starts start subNodes, entry.2.Everywhere P C entry.1 := by
  induction subNodes generalizing start with
  | nil => exact ⟨fun _ _ h => absurd h List.not_mem_nil, fun _ => trivial⟩
  | cons subNode rest ih => rw [EverywhereAll, starts, List.forall_mem_cons, ih]

mutual

/-- A property of all nodes leads to another one. -/
theorem SubNode.Everywhere.imp : ∀ {subNode : SubNode V} {start : ℕ},
    (∀ node subNodes lower, start ≤ lower →
      lower + sizeAll subNodes + 4 ≤ start + subNode.size → P node subNodes lower →
        P' node subNodes lower) →
    (∀ node lower, start ≤ lower → lower < start + subNode.size → C node lower → C' node lower) →
    subNode.Everywhere P C start → subNode.Everywhere P' C' start
  | .component node, start, _, hcomponent, h =>
    hcomponent node start le_rfl (Nat.lt_succ_self start) h
  | .workflow node subNodes, start, hworkflow, hcomponent, ⟨hnode, hall⟩ => by
    refine ⟨hworkflow node subNodes start le_rfl (by rw [SubNode.size]; omega) hnode, ?_⟩
    refine EverywhereAll.imp (fun node' subNodes' lower hlower hupper => ?_)
      (fun node' lower hlower hupper => ?_) hall
    · exact hworkflow node' subNodes' lower hlower (by rw [SubNode.size]; omega)
    · exact hcomponent node' lower hlower (by rw [SubNode.size]; omega)

/-- A property of all nodes of some nestings leads to another one. -/
theorem EverywhereAll.imp : ∀ {subNodes : List (SubNode V)} {start : ℕ},
    (∀ node subNodes' lower, start ≤ lower →
      lower + sizeAll subNodes' + 4 ≤ start + sizeAll subNodes → P node subNodes' lower →
        P' node subNodes' lower) →
    (∀ node lower, start ≤ lower → lower < start + sizeAll subNodes → C node lower →
      C' node lower) →
    EverywhereAll P C subNodes start → EverywhereAll P' C' subNodes start
  | [], _, _, _, _ => trivial
  | subNode :: rest, start, hworkflow, hcomponent, ⟨hfirst, hrest⟩ => by
    rw [sizeAll] at hworkflow hcomponent
    refine ⟨hfirst.imp (fun node subNodes lower hlower hupper => ?_)
      (fun node lower hlower hupper => ?_), EverywhereAll.imp
        (fun node subNodes lower hlower hupper => ?_) (fun node lower hlower hupper => ?_) hrest⟩
    · exact hworkflow node subNodes lower hlower (by omega)
    · exact hcomponent node lower hlower (by omega)
    · exact hworkflow node subNodes lower (by omega) (by omega)
    · exact hcomponent node lower (by omega) (by omega)

end

end Intervals

end HetidaDesigner
