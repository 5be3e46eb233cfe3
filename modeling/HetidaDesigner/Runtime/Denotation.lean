import HetidaDesigner.Runtime.Evaluation
import HetidaDesigner.Runtime.Prepared

/-!
# The runtime computes the meaning of nested nodes

The recursion of the engine over its objects and the reference evaluation of the nodes need each
other's results for corresponding sources. So an object of a prepared workflow node has exactly the
result of the node for which it stands.
-/

namespace HetidaDesigner

open Checks KeyedList

attribute [local instance] nameBEq

/-- Components get their inputs as keyword arguments: the order of different ones does not matter. -/
def KeywordArguments {V W X : Type} (tools : ParsingTools V W X) : Prop :=
  ∀ uuid computation, tools.loadComponent uuid = some computation →
    ∀ values values' : List (Option PyStr × W), (values.map Prod.fst).Nodup →
      values.Perm values' → computation.func values = computation.func values'

/-! ## Values -/

section Values

variable {V W X : Type} {tools : ParsingTools V W X} {root : SubNode V}
  {objects : EngineObjects W X} {config : EngineConfig W}
  {results : List PyStr → Option (List (Option PyStr × W))} {depth : ℕ}

/-- Values which are collected for the same elements in another order. -/
theorem exists_mapM_of_perm {A B : Type} {f : A → Option B} {as as' : List A} (h : as.Perm as')
    {bs : List B} (hbs : as.mapM f = some bs) : ∃ bs', as'.mapM f = some bs' ∧ bs.Perm bs' := by
  induction h generalizing bs with
  | nil => exact ⟨bs, hbs, List.Perm.refl bs⟩
  | cons a _ ih =>
    rw [List.mapM_cons] at hbs
    obtain ⟨b, hb, hbs⟩ := Option.bind_eq_some_iff.mp hbs
    obtain ⟨rest, hrest, hbs⟩ := Option.bind_eq_some_iff.mp hbs
    obtain rfl := Option.some.inj hbs
    obtain ⟨rest', hrest', hperm⟩ := ih hrest
    exact ⟨b :: rest', by rw [List.mapM_cons, hb, hrest']; rfl, hperm.cons b⟩
  | swap a a' as =>
    rw [List.mapM_cons, List.mapM_cons] at hbs
    obtain ⟨b', hb', hbs⟩ := Option.bind_eq_some_iff.mp hbs
    obtain ⟨rest, hrest, hbs⟩ := Option.bind_eq_some_iff.mp hbs
    obtain ⟨b, hb, hrest⟩ := Option.bind_eq_some_iff.mp hrest
    obtain ⟨rest', hrest', hrest⟩ := Option.bind_eq_some_iff.mp hrest
    obtain rfl := Option.some.inj hrest
    obtain rfl := Option.some.inj hbs
    exact ⟨b :: b' :: rest', by rw [List.mapM_cons, List.mapM_cons, hb, hb', hrest']; rfl,
      List.Perm.swap b b' rest'⟩
  | trans _ _ ih ih' =>
    obtain ⟨bs', hbs', hperm⟩ := ih hbs
    obtain ⟨bs'', hbs'', hperm'⟩ := ih' hbs'
    exact ⟨bs'', hbs'', hperm.trans hperm'⟩

/-- What an object provides is its result. -/
theorem plainResult_provider {provider : ℕ} {name : PyStr} {value : W}
    (h : Provides objects.nodes provider name value) (hinputs : objects.inputs provider = []) :
    ∃ result : List (Option PyStr × W), result.lookup (some name) = some value ∧
      ∀ depth, plainResult objects.nodes config objects.inputs (depth + 1) provider =
        some result := by
  obtain ⟨values, hnode, hlookup⟩ := h
  refine ⟨values.map fun entry => (some entry.1, entry.2), ?_, fun depth => ?_⟩
  · clear hnode
    induction values with
    | nil => cases hlookup
    | cons entry rest ih =>
      rw [List.map_cons, List.lookup_cons]
      rw [List.lookup_cons] at hlookup
      by_cases hname : name = entry.1
      · rw [hname, beq_self_eq_true] at hlookup ⊢
        exact hlookup
      · have hbeq : (name == entry.1) = false := beq_eq_false_iff_ne.mpr hname
        have hkey : (some name == some entry.1) = false :=
          beq_eq_false_iff_ne.mpr fun heq => hname (Option.some.inj heq)
        rw [hbeq] at hlookup
        rw [hkey]
        exact ih hlookup
  · rw [plainResult, hnode, hinputs]
    rfl

/-- The value of an output in the engine is the one of the source for which it stands. -/
theorem value_of_plainOutput
    (hresults : ∀ path entry, Located root path entry → ∀ result,
      plainResult objects.nodes config objects.inputs depth (objectOf entry) = some result →
        results path = some result)
    {place : ℕ × Option PyStr} {source : InputSource W}
    (h : Represents root objects place source) {key : Option PyStr} {value : Option PyStr × W}
    (hvalue : plainOutput (plainResult objects.nodes config objects.inputs depth) (key, place) =
      some value) : ∃ found, source.value? results = some found ∧ value = (key, found) := by
  obtain ⟨result, hresult, hvalue⟩ := Option.bind_eq_some_iff.mp hvalue
  obtain ⟨found, hlookup, hvalue⟩ := Option.bind_eq_some_iff.mp hvalue
  refine ⟨found, ?_, (Option.some.inj hvalue).symm⟩
  cases h with
  | output hlocated name =>
    exact Option.bind_eq_some_iff.mpr ⟨result, hresults _ _ hlocated result hresult, hlookup⟩
  | value hprovides hinputs =>
    obtain ⟨provided, hprovided, hall⟩ := plainResult_provider hprovides hinputs
    have hlater := plainResult_mono hresult
    obtain rfl := Option.some.inj ((hall depth).symm.trans hlater)
    exact congrArg some (Option.some.inj (hprovided.symm.trans hlookup))

/-- The value of a source is the one of the output in the engine which stands for it. -/
theorem plainOutput_of_value
    (hresults : ∀ path entry, Located root path entry → ∀ result, results path = some result →
      plainResult objects.nodes config objects.inputs (depth + 1) (objectOf entry) = some result)
    {place : ℕ × Option PyStr} {source : InputSource W}
    (h : Represents root objects place source) {key : Option PyStr} {value : W}
    (hvalue : source.value? results = some value) :
    plainOutput (plainResult objects.nodes config objects.inputs (depth + 1)) (key, place) =
      some (key, value) := by
  cases h with
  | output hlocated name =>
    obtain ⟨result, hresult, hlookup⟩ := Option.bind_eq_some_iff.mp hvalue
    exact Option.bind_eq_some_iff.mpr ⟨result, hresults _ _ hlocated result hresult,
      Option.bind_eq_some_iff.mpr ⟨value, hlookup, rfl⟩⟩
  | value hprovides hinputs =>
    obtain ⟨provided, hprovided, hall⟩ := plainResult_provider hprovides hinputs
    obtain rfl := Option.some.inj hvalue
    exact Option.bind_eq_some_iff.mpr ⟨provided, hall depth,
      Option.bind_eq_some_iff.mpr ⟨_, hprovided, rfl⟩⟩

end Values

/-! ## Inputs of components -/

section Components

variable {V W X : Type} {tools : ParsingTools V W X} {root : SubNode V}
  {objects : EngineObjects W X} {data : PyStr → Option W}

/-- At most one thing leads to an input of a sub node. -/
theorem WorkflowNodeData.LevelWellFormed.targetedNames_nodup {node : WorkflowNodeData V}
    {subNodes : List (SubNode V)} (hwf : node.LevelWellFormed subNodes) (id : PyStr) :
    (node.targetedNames id).Nodup := by
  have hconnections : ((node.connections.filter fun connection =>
      connection.outputInWorkflowId = id).map WorkflowConnection.target) =
        ((node.connections.filter fun connection => connection.outputInWorkflowId = id).map
          WorkflowConnection.outputName).map fun name => (id, name) := by
    rw [List.map_map]
    refine List.map_congr_left fun connection hconnection => ?_
    have hid : connection.outputInWorkflowId = id := by simpa using (List.mem_filter.mp hconnection).2
    rw [WorkflowConnection.target, hid]
    rfl
  have hinputs : ((node.inputs.filter fun input => input.idOfSubNode = id).map
      WorkflowInput.target) =
        ((node.inputs.filter fun input => input.idOfSubNode = id).map
          WorkflowInput.nameInSubnode).map fun name => (id, name) := by
    rw [List.map_map]
    refine List.map_congr_left fun input hinput => ?_
    have hid : input.idOfSubNode = id := by simpa using (List.mem_filter.mp hinput).2
    rw [WorkflowInput.target, hid]
    rfl
  have hall : ((node.targetedNames id).map fun name => (id, name)).Nodup := by
    rw [WorkflowNodeData.targetedNames, List.map_append, ← hconnections, ← hinputs]
    exact hwf.targets.sublist
      ((List.filter_sublist.map _).append (List.filter_sublist.map _))
  exact hall.of_map

/-- An input of a component which takes a value from somewhere is one to which something leads. -/
theorem mem_targetedNames_of_isSome {path : List PyStr} {id name : PyStr}
    {node : WorkflowNodeData V} {subNodes : List (SubNode V)} {component : ComponentNode}
    (hparent : root.nodeAt path = some (.workflow node subNodes))
    (hnode : root.nodeAt (id :: path) = some (.component component))
    (h : (inputSource tools data root (id :: path) name).isSome) : name ∈ node.targetedNames id := by
  rw [inputSource, hparent] at h
  dsimp only at h
  rw [WorkflowNodeData.targetedNames, List.mem_append]
  cases hlink : node.linkTo id name with
  | some connection =>
    obtain ⟨hconnection, htarget⟩ := lookup_eq_some hlink
    obtain ⟨hid, hname⟩ := Prod.mk.inj htarget
    exact Or.inl (List.mem_map.mpr ⟨connection,
      List.mem_filter.mpr ⟨hconnection, decide_eq_true hid⟩, hname⟩)
  | none =>
    rw [hlink, hnode, Option.bind_some, SubNode.ownValue, Option.map_none, Option.or_none] at h
    obtain ⟨source, hsource⟩ := Option.isSome_iff_exists.mp h
    obtain ⟨outer, houter, -⟩ := Option.bind_eq_some_iff.mp hsource
    obtain ⟨input, hinput, -⟩ := Option.bind_eq_some_iff.mp houter
    obtain ⟨hmem, htarget⟩ := lookup_eq_some hinput
    obtain ⟨hid, hname⟩ := Prod.mk.inj htarget
    exact Or.inr (List.mem_map.mpr ⟨input,
      List.mem_filter.mpr ⟨hmem, decide_eq_true hid⟩, hname⟩)

/-- The provided inputs of a component are those of its object which have a source. -/
theorem providedInputs_spec (hwf : root.WellFormed) (hprepared : Prepared tools data root objects)
    {path : List PyStr} {start : ℕ} {node : WorkflowNodeData V} {subNodes : List (SubNode V)}
    (hparent : Located root path (start, .workflow node subNodes)) {entry : ℕ × SubNode V}
    (hentry : entry ∈ starts start subNodes) {component : ComponentNode}
    (hcomponent : entry.2 = .component component) :
    ((providedInputs tools data root (entry.2.id :: path)).map some).Perm
      (objects.inputs.names (objectOf entry)) := by
  obtain ⟨hunnamed, hrepresents⟩ := hprepared.represents hwf (hparent.sub hentry)
  have hlevel := (hparent.wellFormed hwf).1
  have hnode := (hparent.sub hentry).nodeAt hwf
  have hprovided : providedInputs tools data root (entry.2.id :: path) =
      (node.targetedNames entry.2.id).filter fun name =>
        (inputSource tools data root (entry.2.id :: path) name).isSome := by
    rw [providedInputs, hparent.nodeAt hwf]
  rw [hprovided]
  refine (List.perm_ext_iff_of_nodup (((hlevel.targetedNames_nodup _).filter _).map
    (Option.some_injective PyStr)) (Constructed.names_nodup hprepared.built _)).mpr fun key => ?_
  have hmem : key ∈ objects.inputs.names (objectOf entry) ↔
      (objects.inputs (objectOf entry)).lookup key ≠ none := by
    rw [Ne, lookup_eq_none_iff_notMem, not_not]
    rfl
  rw [hmem]
  cases key with
  | none => simp [hunnamed]
  | some name =>
    have hrel := hrepresents name
    have hsource : (objects.inputs (objectOf entry)).lookup (some name) ≠ none ↔
        (inputSource tools data root (entry.2.id :: path) name).isSome := by
      cases hlookup : (objects.inputs (objectOf entry)).lookup (some name) <;>
        cases hinput : inputSource tools data root (entry.2.id :: path) name <;>
          rw [hlookup, hinput] at hrel <;> first | (cases hrel; done) | simp
    rw [hsource, List.mem_map]
    constructor
    · rintro ⟨name', hname', heq⟩
      obtain rfl := Option.some.inj heq
      exact (List.mem_filter.mp hname').2
    · intro hsome
      refine ⟨name, List.mem_filter.mpr ⟨?_, hsome⟩, rfl⟩
      exact mem_targetedNames_of_isSome (hparent.nodeAt hwf)
        (hnode.trans (congrArg some hcomponent)) hsome

end Components

/-! ## Results -/

section Results

variable {V W X : Type} {tools : ParsingTools V W X} {root : SubNode V}
  {objects : EngineObjects W X} {data : PyStr → Option W} {config : EngineConfig W}

/-- The place of an input of an object under its name. -/
def placedOutput (objects : EngineObjects W X) (results : ℕ → Option (List (Option PyStr × W)))
    (object : ℕ) (key : Option PyStr) : Option (Option PyStr × W) :=
  ((objects.inputs object).lookup key).bind fun place => plainOutput results (key, place)

/-- The value of an input of an object has its name. -/
theorem key_of_placedOutput {results : ℕ → Option (List (Option PyStr × W))} {object : ℕ}
    {key : Option PyStr} {value : Option PyStr × W}
    (h : placedOutput objects results object key = some value) : value.1 = key := by
  obtain ⟨place, -, hvalue⟩ := Option.bind_eq_some_iff.mp h
  obtain ⟨result, -, hvalue⟩ := Option.bind_eq_some_iff.mp hvalue
  obtain ⟨found, -, hvalue⟩ := Option.bind_eq_some_iff.mp hvalue
  rw [← Option.some.inj hvalue]

/-- The value of an input of a node has its name. -/
theorem key_of_sourceOutput {results : List PyStr → Option (List (Option PyStr × W))}
    {path : List PyStr} {key : Option PyStr} {value : Option PyStr × W}
    (h : sourceOutput tools data root results path key = some value) : value.1 = key := by
  obtain ⟨source, -, hvalue⟩ := Option.bind_eq_some_iff.mp h
  obtain ⟨found, -, rfl⟩ := Option.map_eq_some_iff.mp hvalue
  rfl

/-- The values of the inputs of an object, by their names. -/
theorem mapM_names (hbuilt : objects.Built) (results : ℕ → Option (List (Option PyStr × W)))
    (object : ℕ) : (objects.inputs.names object).mapM (placedOutput objects results object) =
      (objects.inputs object).mapM (plainOutput results) := by
  rw [EngineInputs.names, List.mapM_map]
  have hall : ∀ entry ∈ objects.inputs object,
      placedOutput objects results object entry.1 = plainOutput results entry := by
    intro entry hentry
    have hlookup : (objects.inputs object).lookup entry.1 = some entry.2 :=
      (lookup_eq_some_iff_mem (Constructed.names_nodup hbuilt object)).mpr hentry
    rw [placedOutput, hlookup]
    rfl
  generalize objects.inputs object = entries at hall
  induction entries with
  | nil => rfl
  | cons entry rest ih =>
    rw [List.mapM_cons, List.mapM_cons, Function.comp_apply, hall entry List.mem_cons_self,
      ih fun other hother => hall other (List.mem_cons_of_mem _ hother)]

/-- Values which are collected with keys have these keys. -/
theorem map_fst_of_mapM {A K W : Type} {f : A → Option (K × W)} {key : A → K}
    (hkeys : ∀ a value, f a = some value → value.1 = key a) {as : List A} {values : List (K × W)}
    (h : as.mapM f = some values) : values.map Prod.fst = as.map key := by
  induction as generalizing values with
  | nil =>
    obtain rfl := Option.some.inj h
    rfl
  | cons a rest ih =>
    rw [List.mapM_cons] at h
    obtain ⟨value, hvalue, h⟩ := Option.bind_eq_some_iff.mp h
    obtain ⟨others, hothers, h⟩ := Option.bind_eq_some_iff.mp h
    obtain rfl := Option.some.inj h
    rw [List.map_cons, List.map_cons, hkeys a value hvalue, ih hothers]

/-- A component has the same result with the same values in another order. -/
theorem componentResult_of_perm (hkeyword : KeywordArguments tools) {uuid : PyStr}
    {computation : ComputationNode (Option PyStr) W X}
    (hload : tools.loadComponent uuid = some computation) {names names' : List (Option PyStr)}
    (hperm : names.Perm names') (hnodup : names.Nodup)
    {f g : Option PyStr → Option (Option PyStr × W)}
    (hvalues : ∀ key value, f key = some value → g key = some value)
    (hkeys : ∀ key value, g key = some value → value.1 = key)
    {result : List (Option PyStr × W)} (h : componentResult computation names f = some result) :
    componentResult computation names' g = some result := by
  unfold componentResult at h ⊢
  have hparams : (computation.requiredParams.all (· ∈ names')) =
      computation.requiredParams.all (· ∈ names) := by
    simp only [hperm.mem_iff]
  rw [hparams]
  split at h
  · rename_i hall
    rw [if_pos hall]
    obtain ⟨values, hmapM, hfunc⟩ := Option.bind_eq_some_iff.mp h
    have hmapM := mapM_mono hvalues hmapM
    obtain ⟨values', hmapM', hsame⟩ := exists_mapM_of_perm hperm hmapM
    refine Option.bind_eq_some_iff.mpr ⟨values', hmapM', ?_⟩
    have hnames : (values.map Prod.fst).Nodup := by
      rwa [map_fst_of_mapM hkeys hmapM, List.map_id']
    rw [← hkeyword uuid computation hload values values' hnames hsame]
    exact hfunc
  · cases h

/-- The result of a computation node by recursion. -/
theorem plainResult_component (hbuilt : objects.Built) {object : ℕ}
    {computation : ComputationNode (Option PyStr) W X}
    (hobject : objects.nodes[object]? = some (.computation computation)) (depth : ℕ) :
    plainResult objects.nodes config objects.inputs (depth + 1) object =
      componentResult computation (objects.inputs.names object)
        (placedOutput objects (plainResult objects.nodes config objects.inputs depth) object) := by
  rw [plainResult, hobject, componentResult, mapM_names hbuilt]
  rfl

/-- The result of a component in the reference evaluation. -/
theorem referenceResult_component {path : List PyStr} {node : ComponentNode}
    (hnode : root.nodeAt path = some (.component node))
    {computation : ComputationNode (Option PyStr) W X}
    (hload : tools.loadComponent node.componentUuid = some computation) (depth : ℕ) :
    referenceResult tools config data root (depth + 1) path =
      componentResult computation ((providedInputs tools data root path).map some)
        (sourceOutput tools data root (referenceResult tools config data root depth) path) := by
  rw [referenceResult, hnode]
  dsimp only
  rw [hload, Option.bind_some]

/-- Values which are collected for related elements. -/
theorem mapM_of_forall₂ {A B C : Type} {R : A → B → Prop} {f : A → Option C} {g : B → Option C}
    {as : List A} {bs : List B} (h : List.Forall₂ R as bs)
    (hvalue : ∀ a b c, R a b → f a = some c → g b = some c) {cs : List C}
    (hcs : as.mapM f = some cs) : bs.mapM g = some cs := by
  induction h generalizing cs with
  | nil => exact hcs
  | cons hab _ ih =>
    rw [List.mapM_cons] at hcs ⊢
    obtain ⟨c, hc, hcs⟩ := Option.bind_eq_some_iff.mp hcs
    obtain ⟨rest, hrest, hcs⟩ := Option.bind_eq_some_iff.mp hcs
    exact Option.bind_eq_some_iff.mpr ⟨c, hvalue _ _ c hab hc,
      Option.bind_eq_some_iff.mpr ⟨rest, ih hrest, hcs⟩⟩

/-- The result of a workflow in the reference evaluation. -/
theorem referenceResult_workflow {path : List PyStr} {node : WorkflowNodeData V}
    {subNodes : List (SubNode V)} (hnode : root.nodeAt path = some (.workflow node subNodes))
    (depth : ℕ) :
    referenceResult tools config data root (depth + 1) path =
      if node.inputs.all fun input => input.mappedName.any fun name =>
          (inputSource tools data root path name).isSome then
        node.outputs.mapM
          (referenceMapped tools config root (referenceResult tools config data root depth) path)
      else none := by
  rw [referenceResult, hnode]

/-- An object has only plots as outputs exactly if its node has. -/
theorem hasOnlyPlotOutputs_iff (hplaced : root.Placed tools objects.nodes 0) {path : List PyStr}
    {entry : ℕ × SubNode V} (h : Located root path entry) :
    objects.nodes[objectOf entry]?.any EngineNode.hasOnlyPlotOutputs =
      entry.2.hasOnlyPlotOutputs tools := by
  have hentry := h.everywhere hplaced
  obtain ⟨start, subNode⟩ := entry
  cases subNode with
  | component node =>
    obtain ⟨computation, hload, hobject⟩ := hentry
    rw [objectOf, SubNode.position, hobject, SubNode.hasOnlyPlotOutputs, hload]
    rfl
  | workflow node subNodes =>
    obtain ⟨⟨-, workflow, hobject, -, -, hplots⟩, -⟩ := hentry
    rw [objectOf, SubNode.position, hobject, SubNode.hasOnlyPlotOutputs, ← hplots]
    rfl

/-- The inputs of a workflow have sources in the engine exactly if they have some in the reference
evaluation. -/
theorem inputs_all_iff (hwf : root.WellFormed) (hprepared : Prepared tools data root objects)
    {path : List PyStr} {start : ℕ} {node : WorkflowNodeData V} {subNodes : List (SubNode V)}
    (h : Located root path (start, .workflow node subNodes))
    {workflow : Workflow (Option PyStr)}
    (hmappings : obtainInputMappings (positions start subNodes) node.inputs =
      .ok workflow.inputMappings) :
    (workflow.inputMappings.all (·.1 ∈ objects.inputs.names (start + sizeAll subNodes))) =
      node.inputs.all fun input => input.mappedName.any fun name =>
        (inputSource tools data root path name).isSome := by
  obtain ⟨-, hrepresents⟩ := hprepared.represents hwf h
  have hlevel := (h.wellFormed hwf).1
  have hsource : ∀ name, some name ∈ objects.inputs.names (start + sizeAll subNodes) ↔
      (inputSource tools data root path name).isSome := by
    intro name
    have hmem : some name ∈ objects.inputs.names (start + sizeAll subNodes) ↔
        (objects.inputs (start + sizeAll subNodes)).lookup (some name) ≠ none := by
      rw [Ne, lookup_eq_none_iff_notMem, not_not]
      rfl
    have hrel : Option.Rel _ ((objects.inputs (start + sizeAll subNodes)).lookup (some name)) _ :=
      hrepresents name
    rw [hmem]
    cases hlookup : (objects.inputs (start + sizeAll subNodes)).lookup (some name) <;>
      cases hinput : inputSource tools data root path name <;>
        rw [hlookup, hinput] at hrel <;> first | (cases hrel; done) | simp
  rw [Bool.eq_iff_iff, List.all_eq_true, List.all_eq_true]
  constructor
  · intro hall input hinput
    obtain ⟨name, hname⟩ := hlevel.exists_mappedName hinput
    have hkey : some name ∈ workflow.inputMappings.map Prod.fst := by
      rw [map_fst_of_obtainInputMappings hmappings]
      exact (mem_mappedNames_iff_mappedName node.inputs _).mpr ⟨input, hinput, hname⟩
    obtain ⟨mapping, hmapping, hmappingName⟩ := List.mem_map.mp hkey
    have hnamed := of_decide_eq_true (hall mapping hmapping)
    rw [hmappingName] at hnamed
    rw [hname]
    exact (hsource name).mp hnamed
  · intro hall mapping hmapping
    obtain ⟨input, hinput, hname⟩ := (mem_mappedNames_iff_mappedName node.inputs mapping.1).mp
      (by rw [← map_fst_of_obtainInputMappings hmappings]; exact List.mem_map_of_mem hmapping)
    obtain ⟨name, hmapped⟩ := hlevel.exists_mappedName hinput
    have hsome := hall input hinput
    rw [hmapped] at hsome hname
    rw [← hname]
    exact decide_eq_true ((hsource name).mpr hsome)

/-- The outputs of a workflow with their places in the engine. -/
theorem forall₂_outputs {node : WorkflowNodeData V} {places : List (PyStr × ℕ)}
    {mappings : List (Option PyStr × (ℕ × Option PyStr))}
    (h : obtainOutputMappings places node.outputs = .ok mappings) :
    List.Forall₂ (fun output mapping => mapping.1 = some output.name ∧
      mappedTo places output.idOfSubNode output.nameInSubnode = .ok mapping.2)
      node.outputs mappings := by
  refine (mapM_eq_ok.mp h).imp fun output mapping hmapping => ?_
  obtain ⟨target, htarget, hmapping⟩ := bind_eq_ok.mp hmapping
  obtain rfl := return_eq_ok.mp hmapping
  exact ⟨rfl, htarget⟩

/-- A workflow has the result in the reference evaluation which its object has. -/
theorem workflow_referenceResult (hwf : root.WellFormed) (hprepared : Prepared tools data root objects)
    {path : List PyStr} {start : ℕ} {node : WorkflowNodeData V} {subNodes : List (SubNode V)}
    (h : Located root path (start, .workflow node subNodes)) {depth depth' : ℕ}
    (hvalues : ∀ path entry, Located root path entry → ∀ result,
      plainResult objects.nodes config objects.inputs depth (objectOf entry) = some result →
        referenceResult tools config data root depth' path = some result)
    {result : List (Option PyStr × W)}
    (hresult : plainResult objects.nodes config objects.inputs (depth + 1)
      (objectOf (start, .workflow node subNodes)) = some result) :
    referenceResult tools config data root (depth' + 1) path = some result := by
  obtain ⟨⟨-, workflow, hobject, hinputs, houtputs, -⟩, -⟩ := h.everywhere hprepared.placed
  have hlevel := (h.wellFormed hwf).1
  rw [objectOf, SubNode.position, plainResult, hobject] at hresult
  rw [referenceResult_workflow (h.nodeAt hwf), ← inputs_all_iff hwf hprepared h hinputs]
  dsimp only at hresult
  split at hresult
  · rename_i hall
    rw [if_pos hall]
    refine mapM_of_forall₂ (forall₂_outputs houtputs).flip (fun mapping output value hrelated => ?_)
      hresult
    obtain ⟨hname, htarget⟩ := hrelated
    obtain ⟨entry, hentry, hid, hplace⟩ := (mappedTo_eq_ok_iff hlevel.ids).mp htarget
    obtain ⟨key, object, outputName⟩ := mapping
    obtain ⟨rfl, rfl⟩ := Prod.mk.inj hplace
    obtain rfl := hname
    have hlocated := h.sub hentry
    rw [plainMapped, referenceMapped, ← hid, hlocated.nodeAt hwf, Option.any_some]
    dsimp only
    rw [hasOnlyPlotOutputs_iff hprepared.placed hlocated]
    intro hvalue
    split at hvalue
    · rename_i hskipped
      rw [if_pos hskipped]
      exact hvalue
    · rename_i hskipped
      rw [if_neg hskipped]
      obtain ⟨found, hfound, rfl⟩ :=
        value_of_plainOutput hvalues (.output hlocated output.nameInSubnode) hvalue
      rw [hfound]
      rfl
  · cases hresult

/-- The object of a component. -/
theorem exists_component_of_placed {nodes : List (EngineNode (Option PyStr) W X)}
    {entry : ℕ × SubNode V} (h : entry.2.Placed tools nodes entry.1) {component : ComponentNode}
    (hcomponent : entry.2 = .component component) :
    ∃ computation, tools.loadComponent component.componentUuid = some computation ∧
      nodes[objectOf entry]? = some (.computation computation) := by
  obtain ⟨start, subNode⟩ := entry
  obtain rfl := hcomponent
  exact h

/-- The workflow objects of a nesting are those of the nodes inside. -/
theorem exists_located_workflow {path : List PyStr} {entry : ℕ × SubNode V}
    (h : Located root path entry) (hplaced : root.Placed tools objects.nodes 0)
    (hprovided : root.Provided tools objects.nodes 0) {object : ℕ} (hlower : entry.1 ≤ object)
    (hupper : object < entry.1 + entry.2.size)
    (hobject : isComputation objects.nodes object = false) :
    ∃ path' start node subNodes, Located root path' (start, .workflow node subNodes) ∧
      object = start + sizeAll subNodes := by
  obtain ⟨start, subNode⟩ := entry
  induction hsize : subNode.size using Nat.strong_induction_on generalizing path start subNode with
  | _ size ih =>
    cases subNode with
    | component component =>
      obtain ⟨computation, -, hcomputation⟩ := h.everywhere hplaced
      obtain rfl : object = start := by
        rw [SubNode.size] at hupper
        dsimp only at hlower hupper
        omega
      rw [isComputation, hcomputation] at hobject
      cases hobject
    | workflow node subNodes =>
      rw [SubNode.size] at hupper hsize
      dsimp only at hlower hupper
      rcases lt_trichotomy object (start + sizeAll subNodes) with hlt | heq | hgt
      · obtain ⟨entry, hentry, hentryLower, hentryUpper⟩ := exists_starts_of_lt hlower hlt
        have hrange := mem_starts_range hentry
        exact ih entry.2.size (by omega) entry.1 entry.2 (h.sub hentry) hentryLower hentryUpper rfl
      · exact ⟨path, start, node, subNodes, h, heq⟩
      · obtain ⟨values, hvalues⟩ := (h.everywhere hprovided).1.providers object hgt (by omega)
        rw [isComputation, hvalues] at hobject
        cases hobject

/-- A component has the result in the reference evaluation which its object has. -/
theorem component_referenceResult (hwf : root.WellFormed) (hkeyword : KeywordArguments tools)
    (hprepared : Prepared tools data root objects) {path : List PyStr} {start : ℕ}
    {node : WorkflowNodeData V} {subNodes : List (SubNode V)}
    (hparent : Located root path (start, .workflow node subNodes)) {entry : ℕ × SubNode V}
    (hentry : entry ∈ starts start subNodes) {component : ComponentNode}
    (hcomponent : entry.2 = .component component) {depth depth' : ℕ}
    (hvalues : ∀ path entry, Located root path entry → ∀ result,
      plainResult objects.nodes config objects.inputs depth (objectOf entry) = some result →
        referenceResult tools config data root depth' path = some result)
    {result : List (Option PyStr × W)}
    (hresult : plainResult objects.nodes config objects.inputs (depth + 1) (objectOf entry) =
      some result) :
    referenceResult tools config data root (depth' + 1) (entry.2.id :: path) = some result := by
  obtain ⟨hunnamed, hrepresents⟩ := hprepared.represents hwf (hparent.sub hentry)
  obtain ⟨computation, hload, hobject⟩ :=
    exists_component_of_placed ((hparent.sub hentry).everywhere hprepared.placed) hcomponent
  have hnode := (hparent.sub hentry).nodeAt hwf
  rw [hcomponent] at hnode
  rw [plainResult_component hprepared.built hobject] at hresult
  rw [← hcomponent] at hnode
  rw [referenceResult_component (hnode.trans (congrArg some hcomponent)) hload]
  refine componentResult_of_perm hkeyword hload
    (providedInputs_spec hwf hprepared hparent hentry hcomponent).symm
    (Constructed.names_nodup hprepared.built _) (fun key value hvalue => ?_)
    (fun key value hvalue => key_of_sourceOutput hvalue) hresult
  obtain ⟨place, hplace, hvalue⟩ := Option.bind_eq_some_iff.mp hvalue
  cases key with
  | none =>
    rw [hunnamed] at hplace
    cases hplace
  | some name =>
    have hrel := hrepresents name
    rw [hplace] at hrel
    cases hsource : inputSource tools data root (entry.2.id :: path) name with
    | none => rw [hsource] at hrel; cases hrel
    | some source =>
      rw [hsource] at hrel
      obtain ⟨hplaceSource⟩ := hrel
      obtain ⟨found, hfound, rfl⟩ := value_of_plainOutput hvalues hplaceSource hvalue
      rw [sourceOutput, Option.bind_some, hsource, Option.bind_some, hfound]
      rfl

/-- A component has the result of the reference evaluation also in the engine. -/
theorem component_plainResult (hwf : root.WellFormed) (hkeyword : KeywordArguments tools)
    (hprepared : Prepared tools data root objects) {path : List PyStr} {start : ℕ}
    {node : WorkflowNodeData V} {subNodes : List (SubNode V)}
    (hparent : Located root path (start, .workflow node subNodes)) {entry : ℕ × SubNode V}
    (hentry : entry ∈ starts start subNodes) {component : ComponentNode}
    (hcomponent : entry.2 = .component component) {depth : ℕ}
    (hvalues : ∀ path entry, Located root path entry → ∀ result,
      referenceResult tools config data root depth path = some result →
        plainResult objects.nodes config objects.inputs (depth + 1) (objectOf entry) = some result)
    {result : List (Option PyStr × W)}
    (hresult : referenceResult tools config data root (depth + 1) (entry.2.id :: path) =
      some result) :
    plainResult objects.nodes config objects.inputs (depth + 1 + 1) (objectOf entry) =
      some result := by
  obtain ⟨hunnamed, hrepresents⟩ := hprepared.represents hwf (hparent.sub hentry)
  obtain ⟨computation, hload, hobject⟩ :=
    exists_component_of_placed ((hparent.sub hentry).everywhere hprepared.placed) hcomponent
  have hnode := (hparent.sub hentry).nodeAt hwf
  rw [referenceResult_component (hnode.trans (congrArg some hcomponent)) hload] at hresult
  rw [plainResult_component hprepared.built hobject]
  have hperm := providedInputs_spec hwf hprepared hparent hentry hcomponent
  refine componentResult_of_perm hkeyword hload hperm
    (hperm.nodup_iff.mpr (Constructed.names_nodup hprepared.built _)) (fun key value hvalue => ?_)
    (fun key value hvalue => key_of_placedOutput hvalue) hresult
  obtain ⟨source, hfrom, hvalue⟩ := Option.bind_eq_some_iff.mp hvalue
  obtain ⟨found, hfound, rfl⟩ := Option.map_eq_some_iff.mp hvalue
  obtain ⟨name, rfl, hsource⟩ := Option.bind_eq_some_iff.mp hfrom
  have hrel := hrepresents name
  rw [hsource] at hrel
  cases hplace : (objects.inputs (objectOf entry)).lookup (some name) with
  | none => rw [hplace] at hrel; cases hrel
  | some place =>
    rw [hplace] at hrel
    obtain ⟨hplaceSource⟩ := hrel
    rw [placedOutput, hplace, Option.bind_some]
    exact plainOutput_of_value hvalues hplaceSource hfound

/-- A workflow has the result of the reference evaluation also in the engine. -/
theorem workflow_plainResult (hwf : root.WellFormed) (hprepared : Prepared tools data root objects)
    {path : List PyStr} {start : ℕ} {node : WorkflowNodeData V} {subNodes : List (SubNode V)}
    (h : Located root path (start, .workflow node subNodes)) {depth : ℕ}
    (hvalues : ∀ path entry, Located root path entry → ∀ result,
      referenceResult tools config data root depth path = some result →
        plainResult objects.nodes config objects.inputs (depth + 1) (objectOf entry) = some result)
    {result : List (Option PyStr × W)}
    (hresult : referenceResult tools config data root (depth + 1) path = some result) :
    plainResult objects.nodes config objects.inputs (depth + 1 + 1)
      (objectOf (start, .workflow node subNodes)) = some result := by
  obtain ⟨⟨-, workflow, hobject, hinputs, houtputs, -⟩, -⟩ := h.everywhere hprepared.placed
  have hlevel := (h.wellFormed hwf).1
  rw [referenceResult_workflow (h.nodeAt hwf), ← inputs_all_iff hwf hprepared h hinputs] at hresult
  rw [objectOf, SubNode.position, plainResult, hobject]
  dsimp only
  split at hresult
  · rename_i hall
    rw [if_pos hall]
    refine mapM_of_forall₂ (forall₂_outputs houtputs) (fun output mapping value hrelated => ?_)
      hresult
    obtain ⟨hname, htarget⟩ := hrelated
    obtain ⟨entry, hentry, hid, hplace⟩ := (mappedTo_eq_ok_iff hlevel.ids).mp htarget
    obtain ⟨key, object, outputName⟩ := mapping
    obtain ⟨rfl, rfl⟩ := Prod.mk.inj hplace
    obtain rfl := hname
    have hlocated := h.sub hentry
    rw [plainMapped, referenceMapped, ← hid, hlocated.nodeAt hwf, Option.any_some]
    dsimp only
    rw [hasOnlyPlotOutputs_iff hprepared.placed hlocated]
    intro hvalue
    split at hvalue
    · rename_i hskipped
      rw [if_pos hskipped]
      exact hvalue
    · rename_i hskipped
      rw [if_neg hskipped]
      obtain ⟨found, hfound, rfl⟩ := Option.map_eq_some_iff.mp hvalue
      exact plainOutput_of_value hvalues (.output hlocated output.nameInSubnode) hfound
  · cases hresult

/-- What the engine computes by recursion is the result of the reference evaluation. -/
theorem referenceResult_of_plainResult (hwf : root.WellFormed) (hkeyword : KeywordArguments tools)
    (hroot : ∀ component, root ≠ .component component)
    (hprepared : Prepared tools data root objects) {depth : ℕ} {path : List PyStr}
    {entry : ℕ × SubNode V} (h : Located root path entry) {result : List (Option PyStr × W)}
    (hresult : plainResult objects.nodes config objects.inputs depth (objectOf entry) =
      some result) : referenceResult tools config data root depth path = some result := by
  induction depth generalizing path entry result with
  | zero => cases hresult
  | succ depth ih =>
    have hvalues : ∀ path entry, Located root path entry → ∀ result,
        plainResult objects.nodes config objects.inputs depth (objectOf entry) = some result →
          referenceResult tools config data root depth path = some result :=
      fun _ _ hlocated _ => ih hlocated
    obtain ⟨start, subNode⟩ := entry
    cases subNode with
    | workflow node subNodes => exact workflow_referenceResult hwf hprepared h hvalues hresult
    | component component =>
      cases h with
      | root => exact absurd rfl (hroot component)
      | sub hparent hentry =>
        exact component_referenceResult hwf hkeyword hprepared hparent hentry rfl hvalues hresult

/-- The results of the reference evaluation are computed by the engine by recursion. -/
theorem plainResult_of_referenceResult (hwf : root.WellFormed) (hkeyword : KeywordArguments tools)
    (hroot : ∀ component, root ≠ .component component)
    (hprepared : Prepared tools data root objects) {depth : ℕ} {path : List PyStr}
    {entry : ℕ × SubNode V} (h : Located root path entry) {result : List (Option PyStr × W)}
    (hresult : referenceResult tools config data root depth path = some result) :
    plainResult objects.nodes config objects.inputs (depth + 1) (objectOf entry) = some result := by
  induction depth generalizing path entry result with
  | zero => cases hresult
  | succ depth ih =>
    have hvalues : ∀ path entry, Located root path entry → ∀ result,
        referenceResult tools config data root depth path = some result →
          plainResult objects.nodes config objects.inputs (depth + 1) (objectOf entry) =
            some result := fun _ _ hlocated _ => ih hlocated
    obtain ⟨start, subNode⟩ := entry
    cases subNode with
    | workflow node subNodes => exact workflow_plainResult hwf hprepared h hvalues hresult
    | component component =>
      cases h with
      | root => exact absurd rfl (hroot component)
      | sub hparent hentry =>
        exact component_plainResult hwf hkeyword hprepared hparent hentry rfl hvalues hresult

/-- The inputs of prepared objects are settled. -/
theorem Prepared.settled (hwf : root.WellFormed) (hprepared : Prepared tools data root objects) :
    SettledInputs objects.nodes objects.inputs := by
  intro object workflow hworkflow mapping hmapping source hsource
  have hlt : object < objects.nodes.length := (List.getElem?_eq_some_iff.mp hworkflow).1
  have hkind : isComputation objects.nodes object = false := by rw [isComputation, hworkflow]
  have hinside : object < root.size := by
    by_contra hout
    obtain ⟨⟨values, hvalues⟩, -⟩ := hprepared.providers object (not_lt.mp hout) hlt
    rw [hworkflow] at hvalues
    cases hvalues
  obtain ⟨path, start, node, subNodes, hlocated, rfl⟩ := exists_located_workflow .root
    hprepared.placed hprepared.provided (Nat.zero_le _) (by simpa using hinside) hkind
  obtain ⟨⟨-, workflow', hobject, hinputs, -⟩, -⟩ := hlocated.everywhere hprepared.placed
  obtain rfl := EngineNode.workflow.inj (Option.some.inj (hobject.symm.trans hworkflow))
  have hlevel := (hlocated.wellFormed hwf).1
  obtain ⟨entry, hentry, name, outer, hmapped, rfl⟩ :=
    (mem_inputMappings_iff_mappedFrom hlevel hinputs mapping).mp hmapping
  have hlinked := (hlocated.everywhere hprepared.linked).1.sources entry hentry (some name)
  dsimp only at hsource ⊢
  rw [hlinked, linkedSource, hlevel.linkTo_eq_none hmapped, hmapped, Option.bind_some, hsource]
  rfl

/-- The object of a node has exactly the result of the node. -/
theorem plainResult_iff_referenceResult (hwf : root.WellFormed) (hkeyword : KeywordArguments tools)
    (hroot : ∀ component, root ≠ .component component)
    (hprepared : Prepared tools data root objects) {path : List PyStr} {entry : ℕ × SubNode V}
    (h : Located root path entry) (result : List (Option PyStr × W)) :
    (∃ depth, plainResult objects.nodes config objects.inputs depth (objectOf entry) =
      some result) ↔ ∃ depth, referenceResult tools config data root depth path = some result := by
  constructor
  · rintro ⟨depth, hresult⟩
    exact ⟨depth, referenceResult_of_plainResult hwf hkeyword hroot hprepared h hresult⟩
  · rintro ⟨depth, hresult⟩
    exact ⟨depth + 1, plainResult_of_referenceResult hwf hkeyword hroot hprepared h hresult⟩

end Results

end HetidaDesigner
