import HetidaDesigner.Runtime.Links

/-!
# Parsed nested nodes

Parsing a well-formed node puts its objects into an interval, links the inputs inside and provides
default values and constants. Objects of other nodes keep their inputs.
-/

namespace HetidaDesigner

open Checks KeyedList

attribute [local instance] nameBEq

section Definitions

variable {V W X : Type}

/-- The objects of a node have been created, and inputs only come from inside. -/
structure NodeParsed (tools : ParsingTools V W X) (entry : ℕ × SubNode V)
    (objects : EngineObjects W X) : Prop where
  placed : entry.2.Placed tools objects.nodes entry.1
  provided : entry.2.Provided tools objects.nodes entry.1
  linked : entry.2.Linked objects.inputs entry.1
  own : ∀ key, (objects.inputs (objectOf entry)).lookup key = ownSource entry key
  contains : entry.2.Contains objects.subNodes entry.1

/-- The attributes of an object are the same. -/
def SameAt (objects objects' : EngineObjects W X) (object : ℕ) : Prop :=
  objects'.inputs object = objects.inputs object ∧ objects'.subNodes object = objects.subNodes object

/-- The sources of the inputs for which an object provides values. -/
def providedSource (parsedValues : List (PyStr × W)) (provider : ℕ) :
    Option PyStr → Option (ℕ × Option PyStr)
  | none => none
  | some name => (parsedValues.lookup name).map fun _ => (provider, some name)

end Definitions

/-! ## Keeping what has been parsed -/

section Keeping

variable {V W X : Type} {tools : ParsingTools V W X}
  {nodes nodes' : List (EngineNode (Option PyStr) W X)}

/-- Objects stay while others are created. -/
theorem getElem?_of_front (h : nodes <+: nodes') {node : ℕ} {object : EngineNode (Option PyStr) W X}
    (hobject : nodes[node]? = some object) : nodes'[node]? = some object := by
  obtain ⟨created, rfl⟩ := h
  rw [List.getElem?_append_left (List.getElem?_eq_some_iff.mp hobject).1, hobject]

/-- The objects of a nesting stay. -/
theorem SubNode.Placed.mono (h : nodes <+: nodes') {subNode : SubNode V} {start : ℕ}
    (hplaced : subNode.Placed tools nodes start) : subNode.Placed tools nodes' start := by
  refine SubNode.Everywhere.imp (fun node subNodes lower _ _ hnode => ?_)
    (fun node lower _ _ hnode => ?_) hplaced
  · obtain ⟨hconnections, workflow, hworkflow, hrest⟩ := hnode
    exact ⟨hconnections, workflow, getElem?_of_front h hworkflow, hrest⟩
  · obtain ⟨computation, hload, hcomputation⟩ := hnode
    exact ⟨computation, hload, getElem?_of_front h hcomputation⟩

/-- What is provided in a nesting stays. -/
theorem SubNode.Provided.mono (h : nodes <+: nodes') {subNode : SubNode V} {start : ℕ}
    (hprovided : subNode.Provided tools nodes start) : subNode.Provided tools nodes' start := by
  refine SubNode.Everywhere.imp (fun node subNodes lower _ _ hnode => ?_)
    (fun _ _ _ _ _ => trivial) hprovided
  refine ⟨fun name provider hprovider => ?_, fun other hlt hupper => ?_⟩
  · obtain ⟨value, hvalue, values, hvalues, hlookup⟩ := hnode.provides name provider hprovider
    exact ⟨value, hvalue, values, getElem?_of_front h hvalues, hlookup⟩
  · obtain ⟨values, hvalues⟩ := hnode.providers other hlt hupper
    exact ⟨values, getElem?_of_front h hvalues⟩

/-- The sub nodes of the workflows inside a nesting are about its objects only. -/
theorem SubNode.Contains.congr {subNodesOf subNodesOf' : ℕ → List ℕ} {subNode : SubNode V}
    {start : ℕ} (h : subNode.Contains subNodesOf start)
    (hsame : ∀ other, start ≤ other → other < start + subNode.size →
      subNodesOf' other = subNodesOf other) : subNode.Contains subNodesOf' start := by
  refine SubNode.Everywhere.imp (fun node subNodes lower hlower hupper hnode => ?_)
    (fun _ _ _ _ _ => trivial) h
  rw [hsame _ (by omega) (by omega)]
  exact hnode

/-- Attributes stay the same. -/
theorem SameAt.trans {objects objects' objects'' : EngineObjects W X} {object : ℕ}
    (h : SameAt objects objects' object) (h' : SameAt objects' objects'' object) :
    SameAt objects objects'' object :=
  ⟨h'.1.trans h.1, h'.2.trans h.2⟩

/-- A parsed node stays parsed while objects are created and inputs outside of it change. -/
theorem NodeParsed.keep {entry : ℕ × SubNode V} {objects objects' : EngineObjects W X}
    (h : NodeParsed tools entry objects) (hfront : objects.nodes <+: objects'.nodes)
    (hsame : ∀ other, entry.1 ≤ other → other < entry.1 + entry.2.size →
      SameAt objects objects' other) : NodeParsed tools entry objects' := by
  refine ⟨h.placed.mono hfront, h.provided.mono hfront,
    h.linked.congr fun other hlower hupper => (hsame other hlower hupper).1, fun key => ?_,
    h.contains.congr fun other hlower hupper => (hsame other hlower hupper).2⟩
  have hobject := objectOf_mem entry
  rw [(hsame _ hobject.1 hobject.2).1]
  exact h.own key

end Keeping

/-! ## Connections -/

section Connections

variable {V W X : Type} {tools : ParsingTools V W X} {objects objects' : EngineObjects W X}

/-- Adding inputs to objects. -/
theorem EngineObjects.addInputs_eq_ok {node : ℕ}
    {newInputs : List (Option PyStr × (ℕ × Option PyStr))} :
    objects.addInputs node newInputs = .ok objects' ↔
      ∃ inputs, addInputsWithin objects.nodes (node + 1) node newInputs objects.inputs =
        some inputs ∧ objects' = { objects with inputs := inputs } := by
  unfold EngineObjects.addInputs HetidaDesigner.addInputs
  constructor
  · intro h
    split at h
    · cases h
    · rename_i inputs hinputs
      exact ⟨inputs, hinputs, (Except.ok.inj h).symm⟩
  · rintro ⟨inputs, hinputs, rfl⟩
    rw [hinputs]

/-- Connecting the sub nodes of a workflow gives their inputs the sources of the connections. -/
theorem linked_of_applyConnections (node : WorkflowNodeData V) {subNodes : List (SubNode V)}
    {start : ℕ} (hnodes : MappedToEarlier objects.nodes)
    (hids : (subNodes.map SubNode.id).Nodup) (hall : AllWellFormed subNodes)
    (hparsed : ∀ entry ∈ starts start subNodes, NodeParsed tools entry objects)
    {connections : List WorkflowConnection}
    (hnodup : (connections.map WorkflowConnection.target).Nodup)
    (h : applyConnections (positions start subNodes) connections objects = .ok objects') :
    (objects'.nodes = objects.nodes ∧ objects'.subNodes = objects.subNodes) ∧
      (∀ entry ∈ starts start subNodes, entry.2.Linked objects'.inputs entry.1) ∧
      (∀ entry ∈ starts start subNodes, ∀ key, (objects'.inputs (objectOf entry)).lookup key =
        linkedSource connections node (positions start subNodes) [] entry key) ∧
      ∀ other, other < start ∨ start + sizeAll subNodes ≤ other →
        objects'.inputs other = objects.inputs other := by
  induction connections using List.reverseRecOn generalizing objects' with
  | nil =>
    obtain rfl := return_eq_ok.mp h
    refine ⟨⟨rfl, rfl⟩, fun entry hentry => (hparsed entry hentry).linked, fun entry hentry key => ?_,
      fun _ _ => rfl⟩
    rw [(hparsed entry hentry).own key]
    cases key with
    | none => rfl
    | some name =>
      rw [linkedSource]
      dsimp only [lookup, List.find?_nil]
      cases node.mappedFrom entry.2.id name <;> rfl
  | append_singleton done connection ih =>
    rw [applyConnections, List.foldlM_append] at h
    obtain ⟨between, hdone, hlast⟩ := bind_eq_ok.mp h
    rw [List.map_append, List.nodup_append] at hnodup
    obtain ⟨hdoneNodup, -, hnew⟩ := hnodup
    obtain ⟨⟨hsameNodes, hsameSubNodes⟩, hlinked, hsources, hframe⟩ := ih hdoneNodup hdone
    rw [List.foldlM_cons] at hlast
    obtain ⟨last, hstep, hreturn⟩ := bind_eq_ok.mp hlast
    obtain rfl := return_eq_ok.mp hreturn
    clear h hlast hreturn
    split at hstep
    · rename_i source target hsource htarget
      obtain ⟨changed, hchanged, hid, rfl⟩ := (positions_lookup_iff hids).mp htarget
      obtain ⟨inputs, hadded, rfl⟩ := EngineObjects.addInputs_eq_ok.mp hstep
      rw [hsameNodes] at hadded
      obtain ⟨hchangedLinked, hchangedFrame⟩ := addInputsWithin_linked hnodes
        (allWellFormed_iff.mp hall _ (mem_of_mem_starts hchanged))
        (hparsed changed hchanged).placed (hlinked changed hchanged) (nodup_single _) hadded
      have hrange := mem_starts_range hchanged
      refine ⟨⟨hsameNodes, hsameSubNodes⟩, fun entry hentry => ?_, fun entry hentry key => ?_,
        fun other houtside => ?_⟩
      · by_cases hentryChanged : entry = changed
        · rw [hentryChanged]
          exact hchangedLinked
        · exact (hlinked entry hentry).congr
            (eq_of_outside hentry hchanged hchangedFrame hentryChanged)
      · dsimp only
        rw [lookup_added hnodes hentry hchanged hchangedFrame hadded, hsources entry hentry key]
        cases key with
        | none => rw [if_neg fun hboth => Option.some_ne_none _ hboth.2.symm]; rfl
        | some name =>
          have hslot : (objectOf entry = objectOf changed ∧
              some name = some connection.outputName) ↔ (entry.2.id, name) = connection.target := by
            rw [WorkflowConnection.target, Prod.mk.injEq, Option.some_inj, ← hid]
            refine and_congr_left fun _ => ⟨fun hobject => ?_, fun hidEq => ?_⟩
            · rw [eq_of_objectOf_eq hentry hchanged hobject]
            · rw [eq_of_id_eq hids hentry hchanged hidEq]
          rw [linkedSource, linkedSource, lookup_append (fun other hmem heq => hnew _
            (List.mem_map_of_mem hmem) _ (List.mem_singleton_self _) heq)]
          by_cases htargetEq : (entry.2.id, name) = connection.target
          · rw [if_pos htargetEq, if_pos (hslot.mpr htargetEq)]
            dsimp only
            rw [hsource]
            rfl
          · rw [if_neg htargetEq, if_neg fun hboth => htargetEq (hslot.mp hboth)]
      · rw [← hframe other houtside]
        exact hchangedFrame other (by omega)
    · cases hstep

end Connections

/-! ## Provided values -/

section Provided

variable {V W X : Type} {tools : ParsingTools V W X} {objects objects' : EngineObjects W X}

/-- Where values are provided from, as entries of a dictionary. -/
theorem lookup_provided (parsedValues : List (PyStr × W)) (provider : ℕ) (key : Option PyStr) :
    (parsedValues.map fun entry => (some entry.1, (provider, some entry.1))).lookup key =
      providedSource parsedValues provider key := by
  induction parsedValues with
  | nil => cases key <;> rfl
  | cons entry rest ih =>
    rw [List.map_cons, List.lookup_cons, ih]
    cases key with
    | none => rfl
    | some name =>
      rw [providedSource, providedSource, List.lookup_cons]
      by_cases hname : name = entry.1
      · simp [hname]
      · have hkey : (some name == some entry.1) = false :=
          beq_eq_false_iff_ne.mpr fun heq => hname (Option.some.inj heq)
        have hbeq : (name == entry.1) = false := beq_eq_false_iff_ne.mpr hname
        rw [hkey, hbeq]

/-- The values which have been parsed. -/
theorem parsed_spec {values : List (NamedDataTypedValue W)} {nullable : Bool}
    {parsedValues : List (PyStr × W)}
    (h : parseDynamicallyFromDatatypes tools values nullable = .ok parsedValues) :
    (parsedValues.map Prod.fst).Nodup ∧
      (∀ value ∈ values, isFieldName value.name = true →
        (parsedValues.lookup value.name).isSome) ∧
      ∀ name parsed, parsedValues.lookup name = some parsed → isFieldName name = true ∧
        ∃ value ∈ values, value.name = name ∧
          tools.parseValue value.type nullable value.value = some parsed := by
  have hfields := fields_of_parsed h
  refine ⟨?_, fun value hvalue hfield => ?_, fun name parsed hlookup => ?_⟩
  · rw [map_eq_of_mapM hfields fun value entry hentry => (parsed_entry hentry).1.symm]
    exact (insertAll_nil_nodup values).sublist (List.filter_sublist.map _)
  · have hmem : value.name ∈ parsedValues.map Prod.fst :=
      (mem_names_parsed_iff h value.name).mpr ⟨List.mem_map_of_mem hvalue, hfield⟩
    rw [Option.isSome_iff_ne_none]
    exact fun hnone => lookup_eq_none_iff_notMem.mp hnone hmem
  · obtain ⟨value, hvalue, hentry⟩ :=
      exists_argument_of_mapM hfields (mem_of_lookup_eq_some hlookup)
    obtain ⟨rfl, hparsed⟩ := parsed_entry hentry
    obtain ⟨hvalue, hfield⟩ := List.mem_filter.mp hvalue
    exact ⟨hfield, value, mem_of_mem_insertAll_nil hvalue, rfl, hparsed⟩

/-- Providing values for inputs of a workflow creates an object, which the inputs then come from. -/
theorem linked_of_addConstantProvidingNode {node : WorkflowNodeData V}
    {subNodes : List (SubNode V)} {start : ℕ} (hbuilt : objects.Built)
    (hwf : (SubNode.workflow node subNodes).WellFormed)
    (hplaced : (SubNode.workflow node subNodes).Placed tools objects.nodes start)
    (hlinked : (SubNode.workflow node subNodes).Linked objects.inputs start)
    {values : List (NamedDataTypedValue W)} {nullable : Bool}
    (h : addConstantProvidingNode tools (start + sizeAll subNodes) values nullable objects =
      .ok objects') :
    ∃ parsedValues, parseDynamicallyFromDatatypes tools values nullable = .ok parsedValues ∧
      objects'.nodes = objects.nodes ++ [.computation (constantProvidingNode parsedValues)] ∧
      objects'.subNodes = Function.update objects.subNodes (start + sizeAll subNodes)
        (objects.subNodes (start + sizeAll subNodes) ++ [objects.nodes.length]) ∧
      (SubNode.workflow node subNodes).Linked objects'.inputs start ∧
      (∀ key, (objects'.inputs (start + sizeAll subNodes)).lookup key =
        (providedSource parsedValues objects.nodes.length key).or
          ((objects.inputs (start + sizeAll subNodes)).lookup key)) ∧
      ∀ other, other < start ∨ start + sizeAll subNodes < other →
        objects'.inputs other = objects.inputs other := by
  obtain ⟨parsedValues, hparsed, hadded⟩ := bind_eq_ok.mp h
  obtain ⟨inputs, hinputs, rfl⟩ := EngineObjects.addInputs_eq_ok.mp hadded
  have hcreated : Constructed (objects.nodes ++ [.computation (constantProvidingNode parsedValues)])
      objects.inputs := Constructed.computation hbuilt _
  obtain ⟨hnodes, -, -⟩ := hcreated.wired
  have hnodup : ((parsedValues.map fun entry =>
      (some entry.1, (objects.nodes.length, some entry.1))).map Prod.fst).Nodup := by
    rw [List.map_map]
    have hnames := (parsed_spec hparsed).1.map (Option.some_injective PyStr)
    rwa [List.map_map] at hnames
  obtain ⟨hlinked', hframe⟩ := addInputsWithin_linked hnodes hwf
    (hplaced.mono (List.prefix_append _ _)) hlinked hnodup hinputs
  refine ⟨parsedValues, hparsed, rfl, rfl, hlinked', fun key => ?_, fun other houtside => ?_⟩
  · have hself : inputs (start + sizeAll subNodes) = insertAll Prod.fst
        (objects.inputs (start + sizeAll subNodes))
          (parsedValues.map fun entry => (some entry.1, (objects.nodes.length, some entry.1))) :=
      addInputsWithin_self hnodes hinputs
    dsimp only
    rw [hself, list_lookup_insertAll hnodup, lookup_provided]
  · rcases houtside with hlt | hgt
    · exact hframe other (Or.inl hlt)
    · exact addInputsWithin_of_gt hnodes hinputs hgt

/-- What has been parsed as a default value is that of an input. -/
theorem exists_input_of_default {node : WorkflowNodeData V} {defaults : List (PyStr × W)}
    (h : parseDynamicallyFromDatatypes tools (defaultValues tools node.inputs) true =
      .ok defaults) {name : PyStr} {parsed : W} (hlookup : defaults.lookup name = some parsed) :
    ∃ input ∈ node.inputs, input.mappedName = some name ∧ input.constant = false ∧
      (input.default && isFieldName name) = true ∧
      tools.parseValue input.type true (tools.ofJson input.defaultValue) = some parsed := by
  obtain ⟨hfield, value, hvalue, hname, hparsed⟩ := (parsed_spec h).2.2 name parsed hlookup
  obtain ⟨input, hinput, hconst, hdef, name', hname', rfl⟩ := mem_defaultValues_iff.mp hvalue
  obtain rfl := hname
  exact ⟨input, hinput, hname', hconst, Bool.and_eq_true_iff.mpr ⟨hdef, hfield⟩, hparsed⟩

/-- What has been parsed as a constant is that of an input. -/
theorem exists_input_of_constant {node : WorkflowNodeData V} {subNodes : List (SubNode V)}
    (hwf : node.LevelWellFormed subNodes) {constants : List (PyStr × W)}
    (h : parseDynamicallyFromDatatypes tools (constantValues tools node.inputs false) false =
      .ok constants) {name : PyStr} {parsed : W} (hlookup : constants.lookup name = some parsed) :
    ∃ input ∈ node.inputs, input.mappedName = some name ∧ input.constant = true ∧
      tools.parseValue input.type false (tools.ofJson input.constantValue) = some parsed := by
  obtain ⟨-, value, hvalue, hname, hparsed⟩ := (parsed_spec h).2.2 name parsed hlookup
  obtain ⟨-, input, hinput, hconst, name', hname', rfl⟩ := (mem_constantValues_iff hwf).mp hvalue
  obtain rfl := hname
  exact ⟨input, hinput, hname', hconst, hparsed⟩

/-- Constants are never among the optional inputs. -/
theorem lookup_optional_constants {node : WorkflowNodeData V} {subNodes : List (SubNode V)}
    (hwf : node.LevelWellFormed subNodes) {optionals : List (PyStr × W)}
    (h : parseDynamicallyFromDatatypes tools (constantValues tools node.inputs true) true =
      .ok optionals) (name : PyStr) : optionals.lookup name = none := by
  refine Option.eq_none_iff_forall_ne_some.mpr fun parsed hparsed => ?_
  obtain ⟨-, value, hvalue, -⟩ := (parsed_spec h).2.2 name parsed hparsed
  exact Bool.true_eq_false_eq_False ((mem_constantValues_iff hwf).mp hvalue).1

/-- The values which are provided for the inputs of a workflow are its own ones. -/
theorem own_of_parsed {node : WorkflowNodeData V} {subNodes : List (SubNode V)}
    (hwf : node.LevelWellFormed subNodes) {defaults constants optionals : List (PyStr × W)}
    (hdefaults : parseDynamicallyFromDatatypes tools (defaultValues tools node.inputs) true =
      .ok defaults)
    (hconstants : parseDynamicallyFromDatatypes tools (constantValues tools node.inputs false)
      false = .ok constants)
    (hoptionals : parseDynamicallyFromDatatypes tools (constantValues tools node.inputs true)
      true = .ok optionals) (position : ℕ) (name : PyStr) :
    (providedSource optionals (position + 3) (some name)).or
        ((providedSource constants (position + 2) (some name)).or
          (providedSource defaults (position + 1) (some name))) =
      (node.ownProvider position name).map (fun provider => (provider, some name)) ∧
    ∀ provider, node.ownProvider position name = some provider →
      ∃ value, node.ownValue tools name = some value ∧
        (provider = position + 1 ∧ defaults.lookup name = some value ∨
          provider = position + 2 ∧ constants.lookup name = some value) := by
  rw [providedSource, providedSource, providedSource, lookup_optional_constants hwf hoptionals,
    WorkflowNodeData.ownProvider, WorkflowNodeData.ownValue]
  cases hfound : lookup WorkflowInput.mappedName (some name) node.inputs with
  | none =>
    rw [lookup_eq_none] at hfound
    have hnoDefault : defaults.lookup name = none := by
      refine Option.eq_none_iff_forall_ne_some.mpr fun parsed hparsed => ?_
      obtain ⟨input, hinput, hname, -⟩ := exists_input_of_default hdefaults hparsed
      exact hfound input hinput hname
    have hnoConstant : constants.lookup name = none := by
      refine Option.eq_none_iff_forall_ne_some.mpr fun parsed hparsed => ?_
      obtain ⟨input, hinput, hname, -⟩ := exists_input_of_constant hwf hconstants hparsed
      exact hfound input hinput hname
    rw [hnoDefault, hnoConstant]
    exact ⟨rfl, fun provider h => (Option.some_ne_none provider h.symm).elim⟩
  | some input =>
    obtain ⟨hinput, hname⟩ := lookup_eq_some hfound
    have hsame : ∀ other ∈ node.inputs, other.mappedName = some name → other = input :=
      fun other hother hotherName =>
        KeyedList.eq_of_key_eq hwf.names hother hinput (hotherName.trans hname.symm)
    rw [Option.bind_some, Option.bind_some]
    cases hconst : input.constant with
    | true =>
      have hfield : isFieldName name = true := by
        rw [WorkflowInput.mappedName, if_pos hconst] at hname
        exact Option.some.inj hname ▸ isFieldName_generateConstantInputName input
      have hsome := (parsed_spec hconstants).2.1 _ ((mem_constantValues_iff hwf).mpr
        ⟨rfl, input, hinput, hconst, name, hname, rfl⟩) hfield
      obtain ⟨parsed, hparsed⟩ := Option.isSome_iff_exists.mp hsome
      dsimp only at hparsed
      obtain ⟨other, hother, hotherName, -, hvalue⟩ :=
        exists_input_of_constant hwf hconstants hparsed
      rw [hsame other hother hotherName] at hvalue
      rw [hparsed]
      refine ⟨rfl, fun provider hprovider => ⟨parsed, hvalue, Or.inr ⟨?_, rfl⟩⟩⟩
      exact (Option.some.inj hprovider).symm
    | false =>
      have hnoConstant : constants.lookup name = none := by
        refine Option.eq_none_iff_forall_ne_some.mpr fun parsed hparsed => ?_
        obtain ⟨other, hother, hotherName, hotherConst, -⟩ :=
          exists_input_of_constant hwf hconstants hparsed
        rw [hsame other hother hotherName, hconst] at hotherConst
        cases hotherConst
      rw [hnoConstant]
      cases hdef : input.default && isFieldName name with
      | true =>
        obtain ⟨hdefTrue, hfield⟩ := Bool.and_eq_true_iff.mp hdef
        have hsome := (parsed_spec hdefaults).2.1 _ (mem_defaultValues_iff.mpr
          ⟨input, hinput, hconst, hdefTrue, name, hname, rfl⟩) hfield
        obtain ⟨parsed, hparsed⟩ := Option.isSome_iff_exists.mp hsome
        dsimp only at hparsed
        obtain ⟨other, hother, hotherName, -, -, hvalue⟩ :=
          exists_input_of_default hdefaults hparsed
        rw [hsame other hother hotherName] at hvalue
        rw [hparsed]
        refine ⟨rfl, fun provider hprovider => ⟨parsed, hvalue, Or.inl ⟨?_, rfl⟩⟩⟩
        exact (Option.some.inj hprovider).symm
      | false =>
        have hnoDefault : defaults.lookup name = none := by
          refine Option.eq_none_iff_forall_ne_some.mpr fun parsed hparsed => ?_
          obtain ⟨other, hother, hotherName, -, hotherDef, -⟩ :=
            exists_input_of_default hdefaults hparsed
          rw [hsame other hother hotherName, hdef] at hotherDef
          cases hotherDef
        rw [hnoDefault]
        exact ⟨rfl, fun provider h => (Option.some_ne_none provider h.symm).elim⟩

/-- The objects of a workflow which have been created for its default values and constants provide
its own values. -/
theorem workflowProvided_of_parsed {node : WorkflowNodeData V} {subNodes : List (SubNode V)}
    (hwf : node.LevelWellFormed subNodes) {defaults constants optionals : List (PyStr × W)}
    (hdefaults : parseDynamicallyFromDatatypes tools (defaultValues tools node.inputs) true =
      .ok defaults)
    (hconstants : parseDynamicallyFromDatatypes tools (constantValues tools node.inputs false)
      false = .ok constants)
    (hoptionals : parseDynamicallyFromDatatypes tools (constantValues tools node.inputs true)
      true = .ok optionals) {start : ℕ} {nodes : List (EngineNode (Option PyStr) W X)}
    (hlength : nodes.length = start + sizeAll subNodes + 1) :
    WorkflowProvided tools (nodes ++ [.computation (constantProvidingNode defaults),
      .computation (constantProvidingNode constants),
      .computation (constantProvidingNode optionals)]) node subNodes start := by
  refine ⟨fun name provider hprovider => ?_, fun other hlt hupper => ?_⟩
  · obtain ⟨value, hvalue, hlookup⟩ := (own_of_parsed hwf hdefaults hconstants hoptionals
      (start + sizeAll subNodes) name).2 provider hprovider
    refine ⟨value, hvalue, ?_⟩
    rcases hlookup with ⟨rfl, hlookup⟩ | ⟨rfl, hlookup⟩
    · refine ⟨defaults, ?_, hlookup⟩
      rw [← hlength, List.getElem?_append_right le_rfl, Nat.sub_self]
      rfl
    · refine ⟨constants, ?_, hlookup⟩
      rw [show start + sizeAll subNodes + 2 = nodes.length + 1 by omega,
        List.getElem?_append_right (Nat.le_add_right _ _), Nat.add_sub_cancel_left]
      rfl
  · have hother : other = nodes.length ∨ other = nodes.length + 1 ∨ other = nodes.length + 2 := by
      omega
    rw [IsProvider]
    rcases hother with rfl | rfl | rfl
    · exact ⟨defaults, by rw [List.getElem?_append_right le_rfl, Nat.sub_self]; rfl⟩
    · refine ⟨constants, ?_⟩
      rw [List.getElem?_append_right (Nat.le_add_right _ _), Nat.add_sub_cancel_left]
      rfl
    · refine ⟨optionals, ?_⟩
      rw [List.getElem?_append_right (Nat.le_add_right _ _), Nat.add_sub_cancel_left]
      rfl

/-- Providing the default values and the constants of a workflow creates three objects, and the
inputs of the workflow without another source come from them. -/
theorem linked_of_addConstantProvidingNodes {node : WorkflowNodeData V}
    {subNodes : List (SubNode V)} {start : ℕ} (hbuilt : objects.Built)
    (hwf : (SubNode.workflow node subNodes).WellFormed)
    (hplaced : (SubNode.workflow node subNodes).Placed tools objects.nodes start)
    (hlinked : (SubNode.workflow node subNodes).Linked objects.inputs start)
    (hlength : objects.nodes.length = start + sizeAll subNodes + 1)
    {withDefaults withConstants : EngineObjects W X}
    (hdefaults : addConstantProvidingNode tools (start + sizeAll subNodes)
      (defaultValues tools node.inputs) true objects = .ok withDefaults)
    (hconstants : addConstantProvidingNode tools (start + sizeAll subNodes)
      (constantValues tools node.inputs false) false withDefaults = .ok withConstants)
    (hoptionals : addConstantProvidingNode tools (start + sizeAll subNodes)
      (constantValues tools node.inputs true) true withConstants = .ok objects') :
    (objects.nodes <+: objects'.nodes ∧
      objects'.nodes.length = start + sizeAll subNodes + 4 ∧
      WorkflowProvided tools objects'.nodes node subNodes start) ∧
      objects'.subNodes = Function.update objects.subNodes (start + sizeAll subNodes)
        (objects.subNodes (start + sizeAll subNodes) ++ ownProviders (start + sizeAll subNodes)) ∧
      (SubNode.workflow node subNodes).Linked objects'.inputs start ∧
      (∀ name, (objects.inputs (start + sizeAll subNodes)).lookup (some name) = none →
        (objects'.inputs (start + sizeAll subNodes)).lookup (some name) =
          (node.ownProvider (start + sizeAll subNodes) name).map fun provider =>
            (provider, some name)) ∧
      (objects'.inputs (start + sizeAll subNodes)).lookup none =
        (objects.inputs (start + sizeAll subNodes)).lookup none ∧
      ∀ other, other < start ∨ start + sizeAll subNodes < other →
        objects'.inputs other = objects.inputs other := by
  obtain ⟨defaults, hdefaultsParsed, hnodes₁, hsubNodes₁, hlinked₁, hlookup₁, hframe₁⟩ :=
    linked_of_addConstantProvidingNode hbuilt hwf hplaced hlinked hdefaults
  have hbuilt₁ := (hbuilt.addConstantProvidingNode (by omega) hdefaults).1
  have hlength₁ : withDefaults.nodes.length = start + sizeAll subNodes + 2 := by
    rw [hnodes₁, List.length_append, hlength]
    rfl
  obtain ⟨constants, hconstantsParsed, hnodes₂, hsubNodes₂, hlinked₂, hlookup₂, hframe₂⟩ :=
    linked_of_addConstantProvidingNode hbuilt₁ hwf
      (hplaced.mono (hnodes₁ ▸ List.prefix_append _ _)) hlinked₁ hconstants
  have hbuilt₂ := (hbuilt₁.addConstantProvidingNode (by omega) hconstants).1
  have hlength₂ : withConstants.nodes.length = start + sizeAll subNodes + 3 := by
    rw [hnodes₂, List.length_append, hlength₁]
    rfl
  have hfront₂ : objects.nodes <+: withConstants.nodes := by
    rw [hnodes₂, hnodes₁, List.append_assoc]
    exact List.prefix_append _ _
  obtain ⟨optionals, hoptionalsParsed, hnodes₃, hsubNodes₃, hlinked₃, hlookup₃, hframe₃⟩ :=
    linked_of_addConstantProvidingNode hbuilt₂ hwf (hplaced.mono hfront₂) hlinked₂ hoptionals
  have hnodes : objects'.nodes = objects.nodes ++ [.computation (constantProvidingNode defaults),
      .computation (constantProvidingNode constants),
      .computation (constantProvidingNode optionals)] := by
    rw [hnodes₃, hnodes₂, hnodes₁, List.append_assoc, List.append_assoc]
    rfl
  refine ⟨⟨hfront₂.trans (hnodes₃ ▸ List.prefix_append _ _), ?_, ?_⟩, ?_, hlinked₃,
    fun name hnone => ?_, ?_, fun other hother => ?_⟩
  · rw [hnodes₃, List.length_append, hlength₂]
    rfl
  · rw [hnodes]
    exact workflowProvided_of_parsed hwf.1 hdefaultsParsed hconstantsParsed hoptionalsParsed hlength
  · rw [hsubNodes₃, hsubNodes₂, hsubNodes₁, hlength₂, hlength₁, hlength]
    simp only [ownProviders, Function.update_self, Function.update_idem, List.append_assoc,
      List.cons_append, List.nil_append]
  · rw [hlookup₃, hlookup₂, hlookup₁, hlength₂, hlength₁, hlength, hnone, Option.or_none]
    exact (own_of_parsed hwf.1 hdefaultsParsed hconstantsParsed hoptionalsParsed _ name).1
  · rw [hlookup₃, hlookup₂, hlookup₁]
    rfl
  · rw [hframe₃ other hother, hframe₂ other hother, hframe₁ other hother]

end Provided

/-! ## Parsing -/

section Parsing

variable {V W X : Type} {tools : ParsingTools V W X}

/-- Objects which have not been created yet have no inputs. -/
theorem EngineObjects.Built.inputs_eq_nil {objects : EngineObjects W X} (h : objects.Built)
    {node : ℕ} (hnode : objects.nodes.length ≤ node) : objects.inputs node = [] :=
  List.map_eq_nil_iff.mp ((Constructed.wired h).2.2 node hnode)

/-- Input mappings have different names. -/
theorem insertAll_inputMappings {node : WorkflowNodeData V} {subNodes : List (SubNode V)}
    (hwf : node.LevelWellFormed subNodes) {positions : List (PyStr × ℕ)}
    {mappings : List (Option PyStr × (ℕ × Option PyStr))}
    (h : obtainInputMappings positions node.inputs = .ok mappings) :
    insertAll Prod.fst [] mappings = mappings := by
  refine insertAll_of_nodup ?_
  rw [List.nil_append, map_fst_of_obtainInputMappings h]
  exact hwf.mappedNames_nodup

/-- Output mappings have different names. -/
theorem insertAll_outputMappings {node : WorkflowNodeData V} {subNodes : List (SubNode V)}
    (hwf : node.LevelWellFormed subNodes) {positions : List (PyStr × ℕ)}
    {mappings : List (Option PyStr × (ℕ × Option PyStr))}
    (h : obtainOutputMappings positions node.outputs = .ok mappings) :
    insertAll Prod.fst [] mappings = mappings := by
  refine insertAll_of_nodup ?_
  have hnames : mappings.map Prod.fst = node.outputs.map fun output => some output.name := by
    refine map_eq_of_mapM h fun output mapping hmapping => ?_
    obtain ⟨target, -, hmapping⟩ := bind_eq_ok.mp hmapping
    obtain rfl := return_eq_ok.mp hmapping
    rfl
  rw [List.nil_append, hnames]
  have hsome := hwf.outputs.map (Option.some_injective PyStr)
  rwa [List.map_map] at hsome

/-- A workflow is placed when its object is created after those of its sub nodes. -/
theorem placed_of_applyConnections {objects connected : EngineObjects W X}
    {node : WorkflowNodeData V} {subNodes : List (SubNode V)} {start : ℕ}
    (hparsed : ∀ entry ∈ starts start subNodes, NodeParsed tools entry objects)
    (hconnected : applyConnections (positions start subNodes) node.connections objects =
      .ok connected)
    (hnodes : connected.nodes = objects.nodes)
    (hlength : connected.nodes.length = start + sizeAll subNodes)
    {workflow : Workflow (Option PyStr)}
    (hinputs : obtainInputMappings (positions start subNodes) node.inputs =
      .ok workflow.inputMappings)
    (houtputs : obtainOutputMappings (positions start subNodes) node.outputs =
      .ok workflow.outputMappings)
    (hplots : workflow.hasOnlyPlotOutputs = onlyPlotOutputs node.outputs) :
    (SubNode.workflow node subNodes).Placed tools (connected.nodes ++ [.workflow workflow])
      start := by
  refine ⟨⟨fun connection hconnection => ?_, workflow, ?_, hinputs, houtputs, hplots⟩,
    everywhereAll_iff.mpr fun entry hentry => ?_⟩
  · obtain ⟨before, after, hstep⟩ := exists_of_foldlM hconnected hconnection
    split at hstep
    · rename_i source target hsource _
      exact ⟨source, hsource⟩
    · cases hstep
  · rw [← hlength]
    exact List.getElem?_concat_length
  · rw [hnodes]
    exact (hparsed entry hentry).placed.mono (List.prefix_append _ _)

/-- A well-formed workflow whose sub nodes have been parsed is parsed. -/
theorem nodeParsed_of_parseWorkflow {objects objects' : EngineObjects W X} (hbuilt : objects.Built)
    {node : WorkflowNodeData V} {subNodes : List (SubNode V)} {start root : ℕ}
    (hwf : (SubNode.workflow node subNodes).WellFormed)
    (hstart : objects.nodes.length = start + sizeAll subNodes)
    (hparsed : ∀ entry ∈ starts start subNodes, NodeParsed tools entry objects)
    (h : parseWorkflow tools node (positions start subNodes) objects = .ok (root, objects')) :
    root = start + sizeAll subNodes ∧
      objects'.nodes.length = start + (SubNode.workflow node subNodes).size ∧
      NodeParsed tools (start, .workflow node subNodes) objects' ∧
      ∀ other < start, SameAt objects objects' other := by
  obtain ⟨hlevel, hall⟩ := hwf
  obtain ⟨connected, hconnected, h⟩ := bind_eq_ok.mp h
  obtain ⟨inputMappings, hinputs, h⟩ := bind_eq_ok.mp h
  obtain ⟨outputMappings, houtputs, h⟩ := bind_eq_ok.mp h
  obtain ⟨withDefaults, hdefaults, h⟩ := bind_eq_ok.mp h
  obtain ⟨withConstants, hconstants, h⟩ := bind_eq_ok.mp h
  obtain ⟨withAll, hoptionals, h⟩ := bind_eq_ok.mp h
  obtain ⟨rfl, rfl⟩ := Prod.mk.inj (return_eq_ok.mp h)
  obtain ⟨⟨hsameNodes, hsameSubNodes⟩, hlinkedAll, hsources, hframe⟩ := linked_of_applyConnections node
    (Constructed.wired hbuilt).1 hlevel.ids hall hparsed hlevel.connections_nodup hconnected
  have hlt : ∀ subNode ∈ positions start subNodes, subNode.2 < objects.nodes.length := by
    intro subNode hsubNode
    obtain ⟨entry, hentry, rfl⟩ := List.mem_map.mp hsubNode
    have hrange := mem_starts_range hentry
    have hobject := objectOf_mem entry
    dsimp only
    omega
  obtain ⟨hconnectedBuilt, -⟩ := hbuilt.applyConnections hlt hconnected
  have hlength : connected.nodes.length = start + sizeAll subNodes := by
    rw [hsameNodes, hstart]
  rw [← hsameNodes] at hlt
  let workflow : Workflow (Option PyStr) := {
    inputMappings := insertAll Prod.fst [] inputMappings
    outputMappings := insertAll Prod.fst [] outputMappings
    hasOnlyPlotOutputs := onlyPlotOutputs node.outputs
    inputMappings_unique := insertAll_nil_nodup _
    outputMappings_unique := insertAll_nil_nodup _ }
  let created : EngineObjects W X :=
    { nodes := connected.nodes ++ [.workflow workflow]
      inputs := connected.inputs
      subNodes := Function.update connected.subNodes connected.nodes.length
        ((positions start subNodes).map Prod.snd) }
  have hcreated : created.Built := by
    refine Constructed.workflow hconnectedBuilt workflow fun mapping hmapping => ?_
    rcases List.mem_append.mp hmapping with hmapping | hmapping
    · exact lt_of_obtainInputMappings hlt hinputs mapping (mem_of_mem_insertAll_nil hmapping)
    · exact lt_of_obtainOutputMappings hlt houtputs mapping (mem_of_mem_insertAll_nil hmapping)
  have hcreatedLength : created.nodes.length = start + sizeAll subNodes + 1 := by
    rw [List.length_append, hlength]
    rfl
  have hplaced : (SubNode.workflow node subNodes).Placed tools created.nodes start := by
    refine placed_of_applyConnections hparsed hconnected hsameNodes hlength ?_ ?_ rfl
    · rw [hinputs, ← insertAll_inputMappings hlevel hinputs]
    · rw [houtputs, ← insertAll_outputMappings hlevel houtputs]
  have hnone : created.inputs (start + sizeAll subNodes) = [] :=
    hconnectedBuilt.inputs_eq_nil hlength.le
  have hlinked : (SubNode.workflow node subNodes).Linked created.inputs start := by
    refine ⟨⟨fun entry hentry key => ?_, fun other hgt _ => ?_⟩,
      everywhereAll_iff.mpr hlinkedAll⟩
    · rw [hnone]
      exact hsources entry hentry key
    · exact hcreated.inputs_eq_nil (by omega)
  replace hdefaults : addConstantProvidingNode tools (start + sizeAll subNodes)
      (defaultValues tools node.inputs) true created = .ok withDefaults := by
    rw [← hlength]
    exact hdefaults
  rw [hlength] at hconstants hoptionals
  obtain ⟨⟨hfront, hsize, hprovided⟩, hsubNodesAll, hlinkedParsed, hown, hnoName, hframeAll⟩ :=
    linked_of_addConstantProvidingNodes hcreated ⟨hlevel, hall⟩ hplaced hlinked hcreatedLength
      hdefaults hconstants hoptionals
  have hsubNodes : withAll.subNodes = Function.update objects.subNodes (start + sizeAll subNodes)
      ((positions start subNodes).map Prod.snd ++ ownProviders (start + sizeAll subNodes)) := by
    have hfirst : created.subNodes = Function.update objects.subNodes (start + sizeAll subNodes)
        ((positions start subNodes).map Prod.snd) := by
      rw [← hsameSubNodes, ← hlength]
    rw [hsubNodesAll, hfirst, Function.update_self, Function.update_idem]
  refine ⟨hlength, hsize, ⟨hplaced.mono hfront, ⟨hprovided, everywhereAll_iff.mpr
    fun entry hentry => ?_⟩, hlinkedParsed, fun key => ?_, ?_⟩, fun other hother => ⟨?_, ?_⟩⟩
  · refine (hparsed entry hentry).provided.mono ?_
    rw [← hsameNodes]
    exact (List.prefix_append _ _).trans hfront
  · change (withAll.inputs (start + sizeAll subNodes)).lookup key = _
    cases key with
    | none =>
      rw [hnoName, hnone]
      rfl
    | some name => exact hown name (hnone ▸ List.lookup_nil)
  · refine ⟨?_, everywhereAll_iff.mpr fun entry hentry => ?_⟩
    · change withAll.subNodes (start + sizeAll subNodes) = _
      rw [hsubNodes, Function.update_self]
    · refine (hparsed entry hentry).contains.congr fun other _ hupper => ?_
      have hrange := mem_starts_range hentry
      change withAll.subNodes other = _
      rw [hsubNodes, Function.update_of_ne (by omega)]
  · rw [hframeAll other (Or.inl hother)]
    exact hframe other (Or.inl hother)
  · rw [hsubNodes, Function.update_of_ne (by omega)]

mutual

/-- Parsing a well-formed node. -/
theorem nodeParsed_of_parseNode : ∀ {subNode : SubNode V} {objects objects' : EngineObjects W X}
    {root : ℕ}, objects.Built → subNode.WellFormed →
    parseNode tools subNode objects = .ok (root, objects') →
    root = subNode.position objects.nodes.length ∧
      objects'.nodes.length = objects.nodes.length + subNode.size ∧
      NodeParsed tools (objects.nodes.length, subNode) objects' ∧
      ∀ other < objects.nodes.length, SameAt objects objects' other
  | .component node, objects, objects', root, hbuilt, _, h => by
    rw [parseNode] at h
    split at h
    · cases h
    · rename_i computation hload
      obtain ⟨rfl, rfl⟩ := Prod.mk.inj (Except.ok.inj h)
      refine ⟨rfl, List.length_append, ⟨⟨computation, hload, List.getElem?_concat_length⟩, trivial,
        trivial, fun key => ?_, trivial⟩, fun _ _ => ⟨rfl, rfl⟩⟩
      have hnone : objects.inputs objects.nodes.length = [] := hbuilt.inputs_eq_nil le_rfl
      change (objects.inputs objects.nodes.length).lookup key = _
      rw [hnone]
      cases key <;> rfl
  | .workflow node subNodes, objects, objects', root, hbuilt, hwf, h => by
    rw [parseNode] at h
    obtain ⟨⟨parsed, between⟩, hsubNodes, h⟩ := bind_eq_ok.mp h
    have hids : (([] : List (PyStr × ℕ)).map Prod.fst ++ subNodes.map SubNode.id).Nodup :=
      hwf.1.ids
    obtain ⟨rfl, hlength, hparsed, hframe⟩ :=
      nodesParsed_of_parseSubNodes hbuilt hwf.2 hids (fun _ h => absurd h List.not_mem_nil) hsubNodes
    obtain ⟨hbetween, -, -⟩ := hbuilt.parseSubNodes (fun _ h => absurd h List.not_mem_nil) hsubNodes
    obtain ⟨rfl, hlength', hnode, hframe'⟩ :=
      nodeParsed_of_parseWorkflow hbetween hwf hlength hparsed h
    exact ⟨rfl, hlength', hnode, fun other hother =>
      (hframe other hother).trans (hframe' other (by omega))⟩

/-- Parsing well-formed sub nodes. -/
theorem nodesParsed_of_parseSubNodes : ∀ {subNodes : List (SubNode V)}
    {objects objects' : EngineObjects W X} {parsed parsed' : List (PyStr × ℕ)}, objects.Built →
    AllWellFormed subNodes → (parsed.map Prod.fst ++ subNodes.map SubNode.id).Nodup →
    (∀ subNode ∈ parsed, subNode.2 < objects.nodes.length) →
    parseSubNodes tools subNodes parsed objects = .ok (parsed', objects') →
    parsed' = parsed ++ positions objects.nodes.length subNodes ∧
      objects'.nodes.length = objects.nodes.length + sizeAll subNodes ∧
      (∀ entry ∈ starts objects.nodes.length subNodes, NodeParsed tools entry objects') ∧
      ∀ other < objects.nodes.length, SameAt objects objects' other
  | [], objects, objects', parsed, parsed', _, _, _, _, h => by
    rw [parseSubNodes] at h
    obtain ⟨rfl, rfl⟩ := Prod.mk.inj (Except.ok.inj h)
    exact ⟨(List.append_nil _).symm, rfl, fun _ h => absurd h List.not_mem_nil,
      fun _ _ => ⟨rfl, rfl⟩⟩
  | subNode :: rest, objects, objects', parsed, parsed', hbuilt, ⟨hfirst, hrest⟩, hids, hlt, h => by
    rw [parseSubNodes] at h
    obtain ⟨⟨newSubNode, between⟩, hnew, h⟩ := bind_eq_ok.mp h
    obtain ⟨rfl, hlength, hparsed, hframe⟩ := nodeParsed_of_parseNode hbuilt hfirst hnew
    obtain ⟨hbetween, -, -⟩ := hbuilt.parseNode hnew
    have hnodup : ((parsed ++ [(subNode.id, subNode.position objects.nodes.length)]).map
        Prod.fst ++ rest.map SubNode.id).Nodup := by
      simpa using hids
    have hinsert : insertEntry Prod.fst parsed
        (subNode.id, subNode.position objects.nodes.length) =
          parsed ++ [(subNode.id, subNode.position objects.nodes.length)] :=
      insertAll_of_nodup (List.nodup_append.mp hnodup).1
    dsimp only at h
    rw [hinsert] at h
    have hlt' : ∀ entry ∈ parsed ++ [(subNode.id, subNode.position objects.nodes.length)],
        entry.2 < between.nodes.length := by
      intro entry hentry
      rcases List.mem_append.mp hentry with hentry | hentry
      · exact (hlt entry hentry).trans_le (by omega)
      · obtain rfl := List.mem_singleton.mp hentry
        have hobject := objectOf_mem (objects.nodes.length, subNode)
        exact hobject.2.trans_le hlength.ge
    obtain ⟨rfl, hlength', hparsed', hframe'⟩ :=
      nodesParsed_of_parseSubNodes hbetween hrest hnodup hlt' h
    obtain ⟨-, hfront, -⟩ := hbetween.parseSubNodes hlt' h
    refine ⟨?_, ?_, ?_, fun other hother => ?_⟩
    · rw [hlength, List.append_assoc]
      rfl
    · rw [hlength', hlength, sizeAll, Nat.add_assoc]
    · rw [starts, List.forall_mem_cons]
      rw [hlength] at hparsed'
      refine ⟨hparsed.keep hfront fun other _ hupper => ?_, hparsed'⟩
      exact hframe' other (by rw [hlength]; exact hupper)
    · exact (hframe other hother).trans (hframe' other (by omega))

end

end Parsing

end HetidaDesigner
