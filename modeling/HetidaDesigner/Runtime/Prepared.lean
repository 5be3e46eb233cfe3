import HetidaDesigner.Runtime.ParsedNodes

/-!
# Prepared workflow nodes

After a well-formed workflow node has been parsed and data has been provided, each object of the
engine stands for the node at a path, and the sources of its inputs for those of the reference
evaluation.
-/

namespace HetidaDesigner

open Checks KeyedList

attribute [local instance] nameBEq

section Definitions

variable {V W X J E : Type}

/-- The data which is loaded for the inputs of the root and parsed: for those without default values
and for those with one. -/
def loadedData (tools : ParsingTools V W X) (loading : LoadingTools J W E) (workflow : SubNode V)
    (wiring : WorkflowWiring (WiringData J)) :
    Except (ServiceError E) (List (PyStr × W) × List (PyStr × W)) := do
  let loaded ← (resolveAndLoadDataFromWiring loading wiring.inputWirings).mapError .adapter
  let values ← loaded.mapM (constantProvidingData workflow.inputs)
  let required ← (parseDynamicallyFromDatatypes tools
    ((values.filter fun value => !value.2).map Prod.fst) false).mapError .parsing
  let optional ← (parseDynamicallyFromDatatypes tools
    ((values.filter fun value => value.2).map Prod.fst) true).mapError .parsing
  return (required, optional)

/-- The loaded value for an input of the root. -/
def dataOf (data : List (PyStr × W) × List (PyStr × W)) (name : PyStr) : Option W :=
  (data.2.lookup name).or (data.1.lookup name)

/-- A node inside a nesting with its path and the position where its objects start. -/
inductive Located (root : SubNode V) : List PyStr → ℕ × SubNode V → Prop
  | root : Located root [] (0, root)
  | sub {path : List PyStr} {start : ℕ} {node : WorkflowNodeData V} {subNodes : List (SubNode V)}
      (h : Located root path (start, .workflow node subNodes)) {entry : ℕ × SubNode V}
      (hentry : entry ∈ starts start subNodes) : Located root (entry.2.id :: path) entry

/-- An output of an object stands for a source of the reference evaluation. -/
inductive Represents (root : SubNode V) (objects : EngineObjects W X) :
    ℕ × Option PyStr → InputSource W → Prop
  | output {path : List PyStr} {entry : ℕ × SubNode V} (h : Located root path entry)
      (name : PyStr) : Represents root objects (objectOf entry, some name) (.output path name)
  | value {provider : ℕ} {name : PyStr} {value : W} (h : Provides objects.nodes provider name value)
      (hinputs : objects.inputs provider = []) :
      Represents root objects (provider, some name) (.value value)

/-- The objects of a workflow node have been created and data has been provided. -/
structure Prepared (tools : ParsingTools V W X) (data : PyStr → Option W) (root : SubNode V)
    (objects : EngineObjects W X) : Prop where
  built : objects.Built
  placed : root.Placed tools objects.nodes 0
  provided : root.Provided tools objects.nodes 0
  linked : root.Linked objects.inputs 0
  providers : ∀ other, root.size ≤ other → other < objects.nodes.length →
    IsProvider objects.nodes other ∧ objects.inputs other = []
  unnamed : (objects.inputs (root.position 0)).lookup none = none
  own : ∀ name, data name = none →
    (objects.inputs (root.position 0)).lookup (some name) = ownSource (0, root) (some name)
  data : ∀ name value, data name = some value → ∃ provider,
    (objects.inputs (root.position 0)).lookup (some name) = some (provider, some name) ∧
      Provides objects.nodes provider name value ∧ objects.inputs provider = []
  contains : ∀ path start node subNodes, Located root path (start, .workflow node subNodes) →
    ∃ others, objects.subNodes (start + sizeAll subNodes) =
        (positions start subNodes).map Prod.snd ++ others ∧
      ∀ other ∈ others, IsProvider objects.nodes other ∧ objects.inputs other = []

end Definitions

/-! ## Preparation -/

section Preparation

variable {V W X J E : Type} {tools : ParsingTools V W X} {loading : LoadingTools J W E}

/-- A property of all nodes holds at each path. -/
theorem Located.everywhere {P : WorkflowNodeData V → List (SubNode V) → ℕ → Prop}
    {C : ComponentNode → ℕ → Prop} {root : SubNode V}
    (hall : root.Everywhere P C 0) {path : List PyStr}
    {entry : ℕ × SubNode V} (h : Located root path entry) : entry.2.Everywhere P C entry.1 := by
  induction h with
  | root => exact hall
  | sub _ hentry ih => exact everywhereAll_iff.mp ih.2 _ hentry

/-- A node inside a nesting is the root, or its objects are before the one of the root. -/
theorem Located.eq_or_before {root : SubNode V} {path : List PyStr} {entry : ℕ × SubNode V}
    (h : Located root path entry) :
    entry = (0, root) ∨ entry.1 + entry.2.size ≤ root.position 0 := by
  induction h with
  | root => exact Or.inl rfl
  | @sub path start node subNodes _ entry hentry ih =>
    have hrange := mem_starts_range hentry
    refine Or.inr ?_
    rcases ih with heq | hbefore
    · obtain ⟨rfl, rfl⟩ := Prod.mk.inj heq
      rw [SubNode.position]
      exact hrange.2
    · rw [SubNode.size] at hbefore
      dsimp only at hbefore
      omega

/-- The objects inside a workflow, after more objects have been added to the root. -/
theorem exists_others_of_contains {root : SubNode V} {objects : EngineObjects W X}
    {subNodesOf : ℕ → List ℕ} {others : List ℕ} (hcontains : root.Contains subNodesOf 0)
    (hprovided : root.Provided tools objects.nodes 0) (hlinked : root.Linked objects.inputs 0)
    (hsubNodes : objects.subNodes = Function.update subNodesOf (root.position 0)
      (subNodesOf (root.position 0) ++ others))
    (hothers : ∀ other ∈ others, IsProvider objects.nodes other ∧ objects.inputs other = [])
    {path : List PyStr} {start : ℕ} {node : WorkflowNodeData V} {subNodes : List (SubNode V)}
    (h : Located root path (start, .workflow node subNodes)) :
    ∃ others, objects.subNodes (start + sizeAll subNodes) =
        (positions start subNodes).map Prod.snd ++ others ∧
      ∀ other ∈ others, IsProvider objects.nodes other ∧ objects.inputs other = [] := by
  have hown : ∀ other ∈ ownProviders (start + sizeAll subNodes),
      IsProvider objects.nodes other ∧ objects.inputs other = [] := by
    intro other hother
    have hrange : start + sizeAll subNodes < other ∧ other < start + sizeAll subNodes + 4 := by
      simp only [ownProviders, List.mem_cons, List.not_mem_nil, or_false] at hother
      omega
    exact ⟨(h.everywhere hprovided).1.providers other hrange.1 hrange.2,
      (h.everywhere hlinked).1.providers other hrange.1 hrange.2⟩
  have hinside : subNodesOf (start + sizeAll subNodes) =
      (positions start subNodes).map Prod.snd ++ ownProviders (start + sizeAll subNodes) :=
    (h.everywhere hcontains).1
  rcases h.eq_or_before with heq | hbefore
  · obtain ⟨rfl, rfl⟩ := Prod.mk.inj heq
    refine ⟨ownProviders (0 + sizeAll subNodes) ++ others, ?_, fun other hother =>
      (List.mem_append.mp hother).elim (hown other) (hothers other)⟩
    rw [hsubNodes, SubNode.position, Function.update_self, hinside, List.append_assoc]
  · have hne : start + sizeAll subNodes ≠ root.position 0 := by
      rw [SubNode.size] at hbefore
      dsimp only at hbefore
      omega
    exact ⟨_, by rw [hsubNodes, Function.update_of_ne hne, hinside], hown⟩

/-- A well-formed workflow node is prepared with the data which is loaded for it. -/
theorem prepared_of_prepareWorkflow {node : WorkflowNodeData V} {subNodes : List (SubNode V)}
    (hwf : (SubNode.workflow node subNodes).WellFormed) {wiring : WorkflowWiring (WiringData J)}
    {root : ℕ} {objects : EngineObjects W X}
    (h : prepareWorkflow tools loading (.workflow node subNodes) wiring = .ok (root, objects)) :
    ∃ data, loadedData tools loading (.workflow node subNodes) wiring = .ok data ∧
      root = (SubNode.workflow node subNodes).position 0 ∧
      Prepared tools (dataOf data) (.workflow node subNodes) objects := by
  obtain ⟨⟨root', parsed⟩, hparsed, h⟩ := bind_eq_ok.mp h
  obtain ⟨loaded, hloaded, h⟩ := bind_eq_ok.mp h
  obtain ⟨values, hvalues, h⟩ := bind_eq_ok.mp h
  obtain ⟨withRequired, hrequired, h⟩ := bind_eq_ok.mp h
  obtain ⟨withAll, hoptional, h⟩ := bind_eq_ok.mp h
  obtain ⟨rfl, rfl⟩ := Prod.mk.inj (return_eq_ok.mp h)
  have hempty : EngineObjects.Built (⟨[], fun _ => [], fun _ => []⟩ : EngineObjects W X) :=
    Constructed.empty
  obtain ⟨hroot, hlength, hnode, -⟩ :=
    nodeParsed_of_parseNode hempty hwf (mapError_eq_ok.mp hparsed)
  obtain ⟨hbuilt, -, hlt⟩ := hempty.parseNode (mapError_eq_ok.mp hparsed)
  replace hnode : NodeParsed tools (0, .workflow node subNodes) parsed := hnode
  have hplaced : (SubNode.workflow node subNodes).Placed tools parsed.nodes 0 := hnode.placed
  have hlinked : (SubNode.workflow node subNodes).Linked parsed.inputs 0 := hnode.linked
  have hposition : root' = 0 + sizeAll subNodes := hroot
  have hsize : parsed.nodes.length = sizeAll subNodes + 4 := hlength.trans (Nat.zero_add _)
  have hrequired' := mapError_eq_ok.mp hrequired
  have hoptional' := mapError_eq_ok.mp hoptional
  rw [hposition] at hrequired' hoptional'
  obtain ⟨required, hrequiredParsed, hnodes₁, hsubNodes₁, hlinked₁, hlookup₁, hframe₁⟩ :=
    linked_of_addConstantProvidingNode hbuilt hwf hplaced hlinked hrequired'
  have hfront₁ : parsed.nodes <+: withRequired.nodes := hnodes₁ ▸ List.prefix_append _ _
  have hlength₁ : withRequired.nodes.length = sizeAll subNodes + 5 := by
    rw [hnodes₁, List.length_append, hsize]
    rfl
  obtain ⟨hbuilt₁, -⟩ := hbuilt.addConstantProvidingNode (by omega) hrequired'
  obtain ⟨optional, hoptionalParsed, hnodes₂, hsubNodes₂, hlinked₂, hlookup₂, hframe₂⟩ :=
    linked_of_addConstantProvidingNode hbuilt₁ hwf (hplaced.mono hfront₁) hlinked₁ hoptional'
  have hfront₂ : withRequired.nodes <+: withAll.nodes := hnodes₂ ▸ List.prefix_append _ _
  obtain ⟨hbuilt₂, -⟩ := hbuilt₁.addConstantProvidingNode (by omega) hoptional'
  have hlookup : ∀ key, (withAll.inputs (0 + sizeAll subNodes)).lookup key =
      (providedSource optional withRequired.nodes.length key).or
        ((providedSource required parsed.nodes.length key).or
          (ownSource (0, .workflow node subNodes) key)) := by
    intro key
    rw [hlookup₂, hlookup₁]
    exact congrArg _ (congrArg _ (hnode.own key))
  have hnone : ∀ provider ≥ parsed.nodes.length, withAll.inputs provider = [] := by
    intro provider hprovider
    rw [hframe₂ provider (Or.inr (by omega)), hframe₁ provider (Or.inr (by omega))]
    exact hbuilt.inputs_eq_nil hprovider
  have hobjects : withAll.nodes = parsed.nodes ++ [.computation (constantProvidingNode required),
      .computation (constantProvidingNode optional)] := by
    rw [hnodes₂, hnodes₁, List.append_assoc]
    rfl
  have hproviders : ∀ other, (SubNode.workflow node subNodes).size ≤ other →
      other < withAll.nodes.length →
        IsProvider withAll.nodes other ∧ withAll.inputs other = [] := by
    intro other hlower hupper
    rw [hobjects, List.length_append, List.length_cons, List.length_singleton] at hupper
    rw [SubNode.size, ← hsize] at hlower
    have hother : other = parsed.nodes.length ∨ other = parsed.nodes.length + 1 := by omega
    refine ⟨?_, hnone other hlower⟩
    rw [IsProvider, hobjects]
    rcases hother with rfl | rfl
    · exact ⟨required, by rw [List.getElem?_append_right le_rfl, Nat.sub_self]; rfl⟩
    · refine ⟨optional, ?_⟩
      rw [List.getElem?_append_right (Nat.le_add_right _ _), Nat.add_sub_cancel_left]
      rfl
  refine ⟨(required, optional), ?_, hposition, hbuilt₂,
    hnode.placed.mono (hfront₁.trans hfront₂), hnode.provided.mono (hfront₁.trans hfront₂),
    hlinked₂, hproviders, hlookup none, fun name hname => ?_, fun name value hvalue => ?_,
    fun path start node' subNodes' hlocated => ?_⟩
  · rw [loadedData, hloaded]
    refine bind_eq_ok.mpr ⟨loaded, rfl, bind_eq_ok.mpr ⟨values, hvalues, ?_⟩⟩
    rw [hrequiredParsed, hoptionalParsed]
    rfl
  · obtain ⟨hoptionalNone, hrequiredNone⟩ := Option.or_eq_none_iff.mp hname
    refine (hlookup (some name)).trans ?_
    rw [providedSource, providedSource, hoptionalNone, hrequiredNone]
    rfl
  · have hsource := hlookup (some name)
    rw [providedSource, providedSource] at hsource
    cases hoptionalLookup : optional.lookup name with
    | some parsedValue =>
      rw [hoptionalLookup] at hsource
      refine ⟨withRequired.nodes.length, hsource, ⟨optional, ?_, ?_⟩, hnone _ (by omega)⟩
      · rw [hnodes₂]
        exact List.getElem?_concat_length
      · rw [dataOf, hoptionalLookup, Option.some_or] at hvalue
        rw [hoptionalLookup, hvalue]
    | none =>
      rw [dataOf, hoptionalLookup, Option.none_or] at hvalue
      dsimp only at hvalue
      rw [hoptionalLookup, hvalue] at hsource
      refine ⟨parsed.nodes.length, hsource, ⟨required, ?_, hvalue⟩, hnone _ le_rfl⟩
      refine getElem?_of_front hfront₂ ?_
      rw [hnodes₁]
      exact List.getElem?_concat_length
  · have hsubNodes : withAll.subNodes = Function.update parsed.subNodes (0 + sizeAll subNodes)
        (parsed.subNodes (0 + sizeAll subNodes) ++
          [parsed.nodes.length, withRequired.nodes.length]) := by
      rw [hsubNodes₂, hsubNodes₁, Function.update_idem, Function.update_self, List.append_assoc]
      rfl
    have hprovided := hnode.provided.mono (hfront₁.trans hfront₂)
    refine exists_others_of_contains hnode.contains hprovided hlinked₂ hsubNodes
      (fun other hother => ?_) hlocated
    have hlengthAll : withAll.nodes.length = parsed.nodes.length + 2 := by
      rw [hobjects, List.length_append]
      rfl
    simp only [List.mem_cons, List.not_mem_nil, or_false] at hother
    refine hproviders other ?_ (by omega)
    rw [SubNode.size]
    omega

end Preparation

/-! ## Nodes inside a nesting -/

section Inside

variable {V W X : Type} {tools : ParsingTools V W X} {root : SubNode V}

/-- Nodes inside a well-formed nesting are well-formed. -/
theorem Located.wellFormed (hwf : root.WellFormed) {path : List PyStr} {entry : ℕ × SubNode V}
    (h : Located root path entry) : entry.2.WellFormed := by
  induction h with
  | root => exact hwf
  | sub _ hentry ih => exact allWellFormed_iff.mp ih.2 _ (mem_of_mem_starts hentry)

/-- Nodes are found at their paths. -/
theorem Located.nodeAt (hwf : root.WellFormed) {path : List PyStr} {entry : ℕ × SubNode V}
    (h : Located root path entry) : root.nodeAt path = some entry.2 := by
  induction h with
  | root => rfl
  | sub hparent hentry ih =>
    rw [SubNode.nodeAt, ih, Option.bind_some]
    exact lookup_of_mem (hparent.wellFormed hwf).1.ids (mem_of_mem_starts hentry)

/-- A node which has no object for a default value or constant has none. -/
theorem SubNode.ownValue_eq_none {start : ℕ} {subNode : SubNode V} {name : PyStr}
    (h : ownSource (start, subNode) (some name) = none) : subNode.ownValue tools name = none := by
  cases subNode with
  | component node => rfl
  | workflow node subNodes =>
    rw [ownSource, Option.map_eq_none_iff, WorkflowNodeData.ownProvider] at h
    rw [SubNode.ownValue, WorkflowNodeData.ownValue]
    cases hfound : lookup WorkflowInput.mappedName (some name) node.inputs with
    | none => rfl
    | some input =>
      rw [hfound, Option.bind_some] at h
      rw [Option.bind_some]
      cases hconst : input.constant with
      | true => rw [hconst, if_pos rfl] at h; cases h
      | false =>
        cases hdef : input.default && isFieldName name with
        | true => rw [hconst, hdef] at h; cases h
        | false => rfl

variable {objects : EngineObjects W X} {data : PyStr → Option W}

/-- The object for a default value or constant stands for it. -/
theorem represents_own {path : List PyStr} {entry : ℕ × SubNode V} (h : Located root path entry)
    (hprovided : root.Provided tools objects.nodes 0) (hlinked : root.Linked objects.inputs 0)
    (name : PyStr) : Option.Rel (Represents root objects) (ownSource entry (some name))
      ((entry.2.ownValue tools name).map .value) := by
  obtain ⟨start, subNode⟩ := entry
  cases hsource : ownSource (start, subNode) (some name) with
  | none =>
    rw [SubNode.ownValue_eq_none hsource]
    exact .none
  | some source =>
    cases subNode with
    | component node => cases hsource
    | workflow node subNodes =>
      rw [ownSource, Option.map_eq_some_iff] at hsource
      obtain ⟨provider, hprovider, rfl⟩ := hsource
      obtain ⟨value, hvalue, hprovides⟩ := (h.everywhere hprovided).1.provides name provider hprovider
      have hrange : start + sizeAll subNodes < provider ∧
          provider < start + sizeAll subNodes + 4 := by
        rw [WorkflowNodeData.ownProvider, Option.bind_eq_some_iff] at hprovider
        obtain ⟨input, -, hprovider⟩ := hprovider
        change _ = some provider at hprovider
        rw [objectOf, SubNode.position] at hprovider
        split at hprovider
        · have := Option.some.inj hprovider
          omega
        · split at hprovider
          · have := Option.some.inj hprovider
            omega
          · cases hprovider
      have hinputs := (h.everywhere hlinked).1.providers provider hrange.1 hrange.2
      rw [SubNode.ownValue, hvalue]
      exact .some (.value hprovides hinputs)

/-- The first of two sources, as it is represented. -/
theorem rel_or {A B : Type} {R : A → B → Prop} {a a' : Option A} {b b' : Option B}
    (h : Option.Rel R a b) (h' : Option.Rel R a' b') : Option.Rel R (a.or a') (b.or b') := by
  cases h with
  | none => exact h'
  | some hab => exact .some hab

/-- The sources of the inputs of objects stand for those of the reference evaluation. -/
theorem Prepared.represents (hwf : root.WellFormed) (hprepared : Prepared tools data root objects)
    {path : List PyStr} {entry : ℕ × SubNode V} (h : Located root path entry) :
    (objects.inputs (objectOf entry)).lookup none = none ∧
      ∀ name, Option.Rel (Represents root objects)
        ((objects.inputs (objectOf entry)).lookup (some name))
          (inputSource tools data root path name) := by
  induction h with
  | root =>
    refine ⟨hprepared.unnamed, fun name => ?_⟩
    rw [inputSource]
    cases hdata : data name with
    | none =>
      have hown := hprepared.own name hdata
      rw [objectOf, hown, Option.none_or]
      exact represents_own .root hprepared.provided hprepared.linked name
    | some value =>
      obtain ⟨provider, hlookup, hprovides, hinputs⟩ := hprepared.data name value hdata
      rw [objectOf, hlookup]
      exact .some (.value hprovides hinputs)
  | @sub path start node subNodes hparent entry hentry ih =>
    have hlinked := (hparent.everywhere hprepared.linked).1.sources entry hentry
    have hlevel := (hparent.wellFormed hwf).1
    refine ⟨hlinked none, fun name => ?_⟩
    rw [hlinked (some name), inputSource, hparent.nodeAt hwf, linkedSource]
    dsimp only
    rw [WorkflowNodeData.linkTo]
    cases hlink : lookup WorkflowConnection.target (entry.2.id, name) node.connections with
    | some connection =>
      obtain ⟨source, hsource⟩ :=
        (hparent.everywhere hprepared.placed).1.1 connection (lookup_eq_some hlink).1
      obtain ⟨sourceEntry, hsourceEntry, hid, rfl⟩ :=
        (positions_lookup_iff hlevel.ids).mp hsource
      dsimp only
      rw [hsource, ← hid]
      exact .some (.output (hparent.sub hsourceEntry) connection.inputName)
    | none =>
      dsimp only
      rw [(hparent.sub hentry).nodeAt hwf, Option.bind_some]
      refine rel_or ?_ (represents_own (hparent.sub hentry) hprepared.provided
        hprepared.linked name)
      cases node.mappedFrom entry.2.id name with
      | none => exact .none
      | some outer => exact ih.2 outer

end Inside

end HetidaDesigner
