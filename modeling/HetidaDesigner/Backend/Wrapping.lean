import HetidaDesigner.Backend.Fallback
import HetidaDesigner.Models.Uuids
import HetidaDesigner.Runtime.Names
import HetidaDesigner.Validation.Keeping
import HetidaDesigner.Validation.Revalidation
import HetidaDesigner.Validation.Sources

/-!
# Wrapped components

The workflow into which a component is wrapped for its execution has an io for each io of the
component. Validation leaves its content as it is, since each io has its own link, and the workflow
node leads each io to the io of the component of the same name.
-/

namespace HetidaDesigner

open Checks KeyedList LastEntry

variable {V J : Type}

/-- What is known of an input of an interface: its name, data type, kind and default value. -/
def TransformationInput.declaration (input : TransformationInput V) :
    Option PyStr × DataType × InputTypeMixIn V :=
  (input.name, input.dataType, input.toInputTypeMixIn)

/-- What is known of an output of an interface. -/
def Io.declaration (output : TransformationOutput) : Option PyStr × DataType :=
  (output.name, output.dataType)

/-- The content of a wrapper is what it was made of: nothing is removed or added, the operator has
all its connectors, and only its name and the positions of link connectors may differ. -/
structure SameContent (data content : WorkflowContent V) : Prop where
  operators : content.operators.map (fun operator =>
      (operator.id, operator.transformationId, operator.inputs, operator.outputs)) =
    data.operators.map fun operator =>
      (operator.id, operator.transformationId, operator.inputs, operator.outputs)
  links : SameButPositions content.links data.links
  constants : content.constants = data.constants
  inputs : content.inputs = data.inputs
  outputs : content.outputs = data.outputs

/-- A workflow node leads each io of a revision to the equally named one of a component node. -/
structure MapsIos (text : TextTools V) (revision : Revision V J) (node : WorkflowNodeData V)
    (component : ComponentNode) : Prop where
  componentUuid : component.componentUuid = text.uuidStr revision.id
  inputs : node.inputs.map (fun input => (input.name, input.type, input.default, input.defaultValue,
      input.idOfSubNode, some input.nameInSubnode)) =
    revision.ioInterface.inputs.map fun input => (input.name, input.dataType,
      (input.type = .optional : Bool), input.value, component.id, input.name)
  outputs : node.outputs.map (fun output =>
      (some output.name, output.type, output.idOfSubNode, some output.nameInSubnode)) =
    revision.ioInterface.outputs.map fun output =>
      (output.name, output.dataType, component.id, output.name)

/-- Wrapping a component for its execution loses nothing. -/
structure WrapsWithoutLoss [UnicodeData] [DecidableEq V] (tools : PreparationTools V J)
    (revision wrapper : Revision V (WiringData J)) : Prop where
  wrapped : revision.wrapComponentInTrWorkflow tools.text
    (fun draw => tools.uuid4 (.wrapper draw)) = .ok wrapper
  content : ∃ content, wrapper.content = .workflow content ∧
    SameContent (wrapperContent (fun draw => tools.uuid4 (.wrapper draw))
      (revision.toOperator fun draw => tools.uuid4 (.wrapper draw))) content
  inputs : wrapper.ioInterface.inputs.map TransformationInput.declaration =
    revision.ioInterface.inputs.map TransformationInput.declaration
  outputs : wrapper.ioInterface.outputs.map Io.declaration =
    revision.ioInterface.outputs.map Io.declaration
  node : ∀ levels, 0 < levels → ∃ node component, ((LoadedWorkflow.mk revision wrapper
      [(revision.id, revision)]).toWorkflowNode tools levels).run =
        some (.ok (.workflow node [.component component])) ∧
    MapsIos tools.text revision node component

/-- All ios of a revision have names. -/
def TransformationRevision.AllNamed {W : Type} (revision : TransformationRevision V W) : Prop :=
  (∀ input ∈ revision.ioInterface.inputs, input.named = true) ∧
    ∀ output ∈ revision.ioInterface.outputs, output.named = true

/-! ## The content of a wrapper -/

section Content

/-- Elements numbered by their position have distinct keys if the numbers have. -/
theorem nodup_map_mapIdx {α β γ : Type*} {f : ℕ → α → β} {g : β → γ} (l : List α)
    (h : ∀ i j a b, g (f i a) = g (f j b) → i = j) : ((l.mapIdx f).map g).Nodup := by
  rw [List.Nodup, List.pairwise_iff_getElem]
  intro i j hi hj hij heq
  simp only [List.getElem_map, List.getElem_mapIdx] at heq
  exact absurd (h _ _ _ _ heq) (Nat.ne_of_lt hij)

/-- Keys made of ids are distinct if the ids are. -/
theorem nodup_map_of_comp {α β γ : Type*} {f : α → β} {g : β → γ} {l : List α}
    (hg : Function.Injective g) (h : (l.map f).Nodup) : (l.map fun a => g (f a)).Nodup := by
  rw [← Function.comp_def, ← List.map_map]
  exact h.map hg

variable {uuid4 : WrapperDraw → UUID} {operator : Operator V}

/-- The inputs of one operator under their keys. -/
theorem inputConnectors_singleton (operator : Operator V) :
    inputConnectors [operator] = operator.inputs.map fun input => ((operator.id, input.id), input) := by
  simp [inputConnectors, operatorInputs, inputKey]

/-- The outputs of one operator under their keys. -/
theorem outputConnectors_singleton (operator : Operator V) :
    outputConnectors [operator] =
      operator.outputs.map fun output => ((operator.id, output.id), output) := by
  simp [outputConnectors, operatorOutputs, outputKey]

/-- Each link of a wrapper belongs to an input or an output of the operator. -/
theorem mem_wrapperContent_links {link : Link} (h : link ∈ (wrapperContent uuid4 operator).links) :
    (∃ i, ∃ hi : i < operator.inputs.length,
      link = inputLink (uuid4 (.inputLink i)) (uuid4 (.workflowInput i)) operator operator.inputs[i]) ∨
    ∃ i, ∃ hi : i < operator.outputs.length,
      link = outputLink (uuid4 (.outputLink i)) (uuid4 (.workflowOutput i)) operator
        operator.outputs[i] := by
  rcases List.mem_append.mp h with h | h
  · obtain ⟨i, hi, rfl⟩ := List.mem_mapIdx.mp h
    exact Or.inl ⟨i, hi, rfl⟩
  · obtain ⟨i, hi, rfl⟩ := List.mem_mapIdx.mp h
    exact Or.inr ⟨i, hi, rfl⟩

/-- The places where the links of a wrapper start are distinct. -/
theorem nodup_wrapperContent_starts (huuid : Function.Injective uuid4)
    (houtputs : (operator.outputs.map fun output => output.id).Nodup) :
    ((wrapperContent uuid4 operator).links.map fun link => link.start.key).Nodup := by
  rw [wrapperContent, List.map_append, List.nodup_append]
  refine ⟨nodup_map_mapIdx _ fun i j _ _ h => ?_, ?_, ?_⟩
  · exact WrapperDraw.workflowInput.inj (huuid (congrArg Prod.snd h))
  · have hmap : (operator.outputs.mapIdx fun i output => outputLink (uuid4 (.outputLink i))
        (uuid4 (.workflowOutput i)) operator output).map (fun link => link.start.key) =
          operator.outputs.map fun output => (some operator.id, output.id) :=
      map_mapIdx_of_forall (by intros; rfl) _
    rw [hmap]
    exact nodup_map_of_comp (Prod.mk_right_injective _) houtputs
  · intro a ha b hb heq
    obtain ⟨link, hlink, rfl⟩ := List.mem_map.mp ha
    obtain ⟨link', hlink', rfl⟩ := List.mem_map.mp hb
    obtain ⟨i, hi, rfl⟩ := List.mem_mapIdx.mp hlink
    obtain ⟨j, hj, rfl⟩ := List.mem_mapIdx.mp hlink'
    cases congrArg Prod.fst heq

/-- The places where the links of a wrapper end are distinct. -/
theorem nodup_wrapperContent_ends (huuid : Function.Injective uuid4)
    (hinputs : (operator.inputs.map fun input => input.id).Nodup) :
    ((wrapperContent uuid4 operator).links.map fun link => link.finish.key).Nodup := by
  rw [wrapperContent, List.map_append, List.nodup_append]
  refine ⟨?_, nodup_map_mapIdx _ fun i j _ _ h => ?_, ?_⟩
  · have hmap : (operator.inputs.mapIdx fun i input => inputLink (uuid4 (.inputLink i))
        (uuid4 (.workflowInput i)) operator input).map (fun link => link.finish.key) =
          operator.inputs.map fun input => (some operator.id, input.id) :=
      map_mapIdx_of_forall (by intros; rfl) _
    rw [hmap]
    exact nodup_map_of_comp (Prod.mk_right_injective _) hinputs
  · exact WrapperDraw.workflowOutput.inj (huuid (congrArg Prod.snd h))
  · intro a ha b hb heq
    obtain ⟨link, hlink, rfl⟩ := List.mem_map.mp ha
    obtain ⟨link', hlink', rfl⟩ := List.mem_map.mp hb
    obtain ⟨i, hi, rfl⟩ := List.mem_mapIdx.mp hlink
    obtain ⟨j, hj, rfl⟩ := List.mem_mapIdx.mp hlink'
    cases congrArg Prod.fst heq

/-- A connector matches itself. -/
theorem matchesConnector_self (connector : Connector) :
    connector.matchesConnector connector = true :=
  decide_eq_true ⟨rfl, rfl, rfl, rfl, rfl⟩

/-- The content of a wrapper is connected. -/
theorem wrapperContent_connected (huuid : Function.Injective uuid4)
    (hinputs : (operator.inputs.map fun input => input.id).Nodup)
    (houtputs : (operator.outputs.map fun output => output.id).Nodup)
    (hexposed : ∀ input ∈ operator.inputs, input.exposed = true) :
    (wrapperContent uuid4 operator).Connected where
  inputKeys := by
    change ((inputConnectors [operator]).map Prod.fst).Nodup
    rw [inputConnectors_singleton, List.map_map]
    change (operator.inputs.map fun input => (operator.id, input.id)).Nodup
    exact nodup_map_of_comp (Prod.mk_right_injective _) hinputs
  outputKeys := by
    change ((outputConnectors [operator]).map Prod.fst).Nodup
    rw [outputConnectors_singleton, List.map_map]
    change (operator.outputs.map fun output => (operator.id, output.id)).Nodup
    exact nodup_map_of_comp (Prod.mk_right_injective _) houtputs
  linkEnds := nodup_wrapperContent_ends huuid hinputs
  outerStarts := (nodup_wrapperContent_starts huuid houtputs).sublist
    (List.filter_sublist.map _)
  starts := by
    intro link hlink id hid
    change ∃ output, _ ∈ outputConnectors [operator] ∧ _
    rw [outputConnectors_singleton]
    rcases mem_wrapperContent_links hlink with ⟨i, hi, rfl⟩ | ⟨i, hi, rfl⟩
    · cases hid
    · obtain rfl := Option.some.inj hid
      exact ⟨_, List.mem_map_of_mem (List.getElem_mem hi), matchesConnector_self _⟩
  ends := by
    intro link hlink id hid
    change ∃ input, _ ∈ inputConnectors [operator] ∧ _
    rw [inputConnectors_singleton]
    rcases mem_wrapperContent_links hlink with ⟨i, hi, rfl⟩ | ⟨i, hi, rfl⟩
    · obtain rfl := Option.some.inj hid
      exact ⟨_, List.mem_map_of_mem (List.getElem_mem hi), matchesConnector_self _,
        hexposed _ (List.getElem_mem hi)⟩
    · cases hid
  inputsFit := by
    intro wfInput hwfInput
    obtain ⟨i, hi, rfl⟩ := List.mem_mapIdx.mp hwfInput
    change ∃ input, _ ∈ inputConnectors [operator] ∧ _
    rw [inputConnectors_singleton]
    exact ⟨_, List.mem_map_of_mem (List.getElem_mem hi), hexposed _ (List.getElem_mem hi),
      decide_eq_true ⟨rfl, Or.inr (Or.inr rfl)⟩⟩
  inputsLinked := by
    intro wfInput hwfInput
    obtain ⟨i, hi, rfl⟩ := List.mem_mapIdx.mp hwfInput
    refine ⟨_, List.mem_append_left _ (List.mem_mapIdx.mpr ⟨i, hi, rfl⟩), rfl, ?_⟩
    exact decide_eq_true ⟨decide_eq_true ⟨rfl, rfl, rfl⟩, rfl⟩
  outputsFit := by
    intro wfOutput hwfOutput
    obtain ⟨i, hi, rfl⟩ := List.mem_mapIdx.mp hwfOutput
    change ∃ output, _ ∈ outputConnectors [operator] ∧ _
    rw [outputConnectors_singleton]
    exact ⟨_, List.mem_map_of_mem (List.getElem_mem hi),
      decide_eq_true ⟨rfl, Or.inr (Or.inr rfl)⟩⟩
  outputsLinked := by
    intro wfOutput hwfOutput
    obtain ⟨i, hi, rfl⟩ := List.mem_mapIdx.mp hwfOutput
    refine ⟨_, List.mem_append_right _ (List.mem_mapIdx.mpr ⟨i, hi, rfl⟩), rfl, ?_⟩
    exact decide_eq_true ⟨decide_eq_true ⟨rfl, rfl, rfl⟩, rfl⟩
  outputsAlone := by
    intro wfOutput hwfOutput link hlink hstart
    obtain ⟨i, hi, rfl⟩ := List.mem_mapIdx.mp hwfOutput
    have hmem : outputLink (uuid4 (.outputLink i)) (uuid4 (.workflowOutput i)) operator
        operator.outputs[i] ∈ (wrapperContent uuid4 operator).links :=
      List.mem_append_right _ (List.mem_mapIdx.mpr ⟨i, hi, rfl⟩)
    rw [KeyedList.eq_of_key_eq (nodup_wrapperContent_starts huuid houtputs) hlink hmem hstart]
    rfl

/-- The links of a wrapper form no cycle: nothing leads to its inputs, and nothing leads on from its
outputs. -/
theorem wrapperContent_acyclic (huuid : Function.Injective uuid4)
    (hid : operator.id = uuid4 .operator) :
    linksAcyclicDirectedGraph (wrapperContent uuid4 operator).links = true := by
  have hedge : ∀ a b, (a, b) ∈ (wrapperContent uuid4 operator).links.map Link.edge →
      (∃ i, a = uuid4 (.workflowInput i) ∧ b = uuid4 .operator) ∨
        ∃ i, a = uuid4 .operator ∧ b = uuid4 (.workflowOutput i) := by
    intro a b hab
    obtain ⟨link, hlink, hab⟩ := List.mem_map.mp hab
    rcases mem_wrapperContent_links hlink with ⟨i, hi, rfl⟩ | ⟨i, hi, rfl⟩
    · exact Or.inl ⟨i, (congrArg Prod.fst hab).symm, (congrArg Prod.snd hab).symm.trans hid⟩
    · exact Or.inr ⟨i, (congrArg Prod.fst hab).symm.trans hid, (congrArg Prod.snd hab).symm⟩
  refine (linksAcyclicDirectedGraph_iff _).mpr (EdgeList.acyclic_nil.of_inner ?_)
  rintro a b hab ⟨u, hu⟩ ⟨w, hw⟩
  rcases hedge a b hab with ⟨i, ha, -⟩ | ⟨i, -, hb⟩
  · rcases hedge u a hu with ⟨j, -, ha'⟩ | ⟨j, -, ha'⟩
    · cases huuid (ha.symm.trans ha')
    · cases huuid (ha.symm.trans ha')
  · rcases hedge b w hw with ⟨j, hb', -⟩ | ⟨j, hb', -⟩
    · cases huuid (hb.symm.trans hb')
    · cases huuid (hb.symm.trans hb')

/-- Links to named outer ios which are there are valid. -/
theorem wrapperContent_outerLinks (huuid : Function.Injective uuid4)
    (hinputs : ∀ input ∈ operator.inputs, input.named = true)
    (houtputs : ∀ output ∈ operator.outputs, output.named = true) {link : Link}
    (hlink : link ∈ (wrapperContent uuid4 operator).links) :
    outerLinkValid [] (wrapperContent uuid4 operator).inputs
      (wrapperContent uuid4 operator).outputs link = true := by
  have hinputIds : ((wrapperContent uuid4 operator).inputs.map fun wfInput => wfInput.id).Nodup :=
    nodup_map_mapIdx _ fun i j _ _ h => WrapperDraw.workflowInput.inj (huuid h)
  have houtputIds :
      ((wrapperContent uuid4 operator).outputs.map fun wfOutput => wfOutput.id).Nodup :=
    nodup_map_mapIdx _ fun i j _ _ h => WrapperDraw.workflowOutput.inj (huuid h)
  rcases mem_wrapperContent_links hlink with ⟨i, hi, rfl⟩ | ⟨i, hi, rfl⟩
  · exact WorkflowContent.outerLinkValid_of_input hinputIds (List.mem_mapIdx.mpr ⟨i, hi, rfl⟩)
      (hinputs operator.inputs[i] (List.getElem_mem hi)) rfl (Option.some_ne_none _)
  · exact WorkflowContent.outerLinkValid_of_output houtputIds (List.mem_mapIdx.mpr ⟨i, hi, rfl⟩)
      (houtputs operator.outputs[i] (List.getElem_mem hi)) rfl (Option.some_ne_none _)

/-- Every connector of the operator of a wrapper is exposed. -/
theorem exists_wrapperContent_key (uuid4 : WrapperDraw → UUID) (operator : Operator V) :
    (∀ connector ∈ inputConnectors (wrapperContent uuid4 operator).operators,
      ∃ wfInput ∈ (wrapperContent uuid4 operator).inputs, wfInput.key = connector.1) ∧
    ∀ connector ∈ outputConnectors (wrapperContent uuid4 operator).operators,
      ∃ wfOutput ∈ (wrapperContent uuid4 operator).outputs, wfOutput.key = connector.1 := by
  change (∀ connector ∈ inputConnectors [operator], _) ∧
    ∀ connector ∈ outputConnectors [operator], _
  rw [inputConnectors_singleton, outputConnectors_singleton]
  constructor
  · intro connector hconnector
    obtain ⟨input, hinput, rfl⟩ := List.mem_map.mp hconnector
    obtain ⟨i, hi, rfl⟩ := List.mem_iff_getElem.mp hinput
    exact ⟨_, List.mem_mapIdx.mpr ⟨i, hi, rfl⟩, rfl⟩
  · intro connector hconnector
    obtain ⟨output, houtput, rfl⟩ := List.mem_map.mp hconnector
    obtain ⟨i, hi, rfl⟩ := List.mem_iff_getElem.mp houtput
    exact ⟨_, List.mem_mapIdx.mpr ⟨i, hi, rfl⟩, rfl⟩

/-- The content of a wrapper is accepted as it is. -/
theorem exists_validate_wrapperContent [UnicodeData] (huuid : Function.Injective uuid4)
    (hid : operator.id = uuid4 .operator) (hstrings : operator.stringsValid = true)
    (hinputs : (operator.inputs.map fun input => input.id).Nodup)
    (houtputs : (operator.outputs.map fun output => output.id).Nodup)
    (hexposed : ∀ input ∈ operator.inputs, input.exposed = true)
    (hnamed : ∀ input ∈ operator.inputs, input.named = true)
    (hnamed' : ∀ output ∈ operator.outputs, output.named = true)
    (hnames : namesEmptyOrUnique (fun input => input.toIo) operator.inputs = true)
    (hnames' : namesEmptyOrUnique (fun output => output.toIo) operator.outputs = true)
    (draws : ℕ → UUID) :
    ∃ content, (wrapperContent uuid4 operator).validate draws = .ok content ∧
      SameContent (wrapperContent uuid4 operator) content ∧
        content.operators = renameOperators [operator] := by
  have hinputNames : namesEmptyOrUnique (fun wfInput => wfInput.toIo)
      (wrapperContent uuid4 operator).inputs = true := by
    rw [← hnames]
    exact namesEmptyOrUnique_congr (map_mapIdx_of_forall (by intros; rfl) _)
  have houtputNames : namesEmptyOrUnique (fun wfOutput => wfOutput.toIo)
      (wrapperContent uuid4 operator).outputs = true := by
    rw [← hnames']
    exact namesEmptyOrUnique_congr (map_mapIdx_of_forall (by intros; rfl) _)
  have hintact := (wrapperContent_connected huuid hinputs houtputs hexposed).intact
    (by simpa [wrapperContent] using hstrings) (wrapperContent_acyclic huuid hid) hinputNames
    houtputNames
  obtain ⟨content, hcontent⟩ := hintact.exists_validate draws
  have haccepted := WorkflowContent.accepted_of_validate hcontent
  obtain ⟨hkeys, hkeys'⟩ := exists_wrapperContent_key uuid4 operator
  rw [← hintact.keptInputs_eq] at hkeys
  rw [← hintact.keptOutputs_eq] at hkeys'
  have hcontentInputs : content.inputs = (wrapperContent uuid4 operator).inputs := by
    rw [haccepted.inputs, WorkflowContent.newInputs_eq_nil hkeys, List.append_nil,
      hintact.keptInputs_eq]
  have hcontentOutputs : content.outputs = (wrapperContent uuid4 operator).outputs := by
    rw [haccepted.outputs, WorkflowContent.newOutputs_eq_nil hkeys', List.append_nil,
      hintact.keptOutputs_eq]
  have hlinks := haccepted.links
  rw [hcontentInputs, hcontentOutputs, hintact.matchedLinks_eq] at hlinks
  have houter : cleanUpOuterLinks (wrapperContent uuid4 operator).constants
      (wrapperContent uuid4 operator).inputs (wrapperContent uuid4 operator).outputs
        (wrapperContent uuid4 operator).links = (wrapperContent uuid4 operator).links :=
    List.filter_eq_self.mpr fun link hlink => wrapperContent_outerLinks huuid hnamed hnamed' hlink
  rw [houter] at hlinks
  refine ⟨content, hcontent, ⟨?_, hlinks, haccepted.constants, hcontentInputs, hcontentOutputs⟩,
    haccepted.operators⟩
  rw [haccepted.operators]
  exact renameOperators_map _ (fun _ _ => rfl) _

end Content

/-! ## The name of a wrapper -/

section Name

variable [UnicodeData]

/-- A newline is no allowed character. -/
theorem not_allowedChar_newline : allowedChar '\n' = false := by
  have halphanum : ('\n' : Char).isAlphanum = false := by decide
  simp [allowedChar, halphanum]

/-- An accepted string consists of allowed characters unless it ends with a newline. -/
theorem all_allowedChar_iff {s : PyStr} (h : nonEmptyValidStr s = true) :
    s.all allowedChar = true ↔ s.getLast? ≠ some '\n' := by
  obtain ⟨-, hbody⟩ := of_decide_eq_true h
  constructor
  · intro hall hlast
    have hnewline := List.all_eq_true.mp hall _ (List.mem_of_getLast? hlast)
    rw [not_allowedChar_newline] at hnewline
    cases hnewline
  · intro hlast
    rwa [if_neg hlast] at hbody

/-- A string which does not end with a newline is accepted if all its characters are allowed. -/
theorem nonEmptyValidStr_iff_of_getLast? {s : PyStr} (hne : s ≠ []) (h : s.getLast? ≠ some '\n') :
    nonEmptyValidStr s = true ↔ s.all allowedChar = true := by
  unfold nonEmptyValidStr
  rw [if_neg h]
  exact ⟨fun hvalid => (of_decide_eq_true hvalid).2, fun hall => decide_eq_true ⟨hne, hall⟩⟩

/-- The text of an id consists of allowed characters. -/
theorem uuidStr_all_allowedChar (id : UUID) : (uuidStr id).all allowedChar = true := by
  rw [List.all_eq_true]
  intro c hc
  rcases mem_of_uuidStr id c hc with rfl | hhex
  · simp [allowedChar]
  · have halphanum : lowerHex.all Char.isAlphanum = true := by decide
    simp [allowedChar, List.all_eq_true.mp halphanum c hhex]

/-- Characters which the name of a wrapper contains besides those of the component. -/
def wrapperChar (c : Char) : Bool := c.isAlphanum || c ∈ [' ', '(', ')']

/-- Texts of these characters are allowed. -/
theorem all_allowedChar_of_wrapperChar {s : PyStr} (h : s.all wrapperChar = true) :
    s.all allowedChar = true := by
  rw [List.all_eq_true] at h ⊢
  intro c hc
  have hchar := h c hc
  rw [wrapperChar, Bool.or_eq_true] at hchar
  rcases hchar with hchar | hchar
  · simp [allowedChar, hchar]
  · have hsubset : [' ', '(', ')'] ⊆ [' ', ',', '.', '-', '(', ')', '&', '+', '=', '/'] := by simp
    rw [allowedChar, decide_eq_true (hsubset (of_decide_eq_true hchar)), Bool.or_true]

/-- Whether two texts between allowed ones make an accepted string depends on these two. -/
theorem nonEmptyValidStr_between {first second third : PyStr} (name tag : PyStr)
    (hfirst : first.all allowedChar = true) (hsecond : second.all allowedChar = true)
    (hthird : third.all allowedChar = true) (hne : third ≠ []) :
    nonEmptyValidStr (first ++ name ++ second ++ tag ++ third) = true ↔
      name.all allowedChar = true ∧ tag.all allowedChar = true := by
  have hlast : (first ++ name ++ second ++ tag ++ third).getLast? ≠ some '\n' := by
    rw [List.getLast?_append, List.getLast?_eq_some_getLast hne]
    intro hnewline
    have hallowed := List.all_eq_true.mp hthird _ (List.getLast_mem hne)
    rw [Option.some.inj hnewline, not_allowedChar_newline] at hallowed
    cases hallowed
  rw [nonEmptyValidStr_iff_of_getLast? (List.append_ne_nil_of_right_ne_nil _ hne) hlast]
  simp only [List.all_append, Bool.and_eq_true]
  exact ⟨fun h => ⟨h.1.1.1.2, h.1.2⟩, fun h => ⟨⟨⟨⟨hfirst, h.1⟩, hsecond⟩, h.2⟩, hthird⟩⟩

/-- The name of a wrapper is accepted exactly if neither the name nor the version tag of the component
ends with a newline. -/
theorem nonEmptyValidStr_wrapperName {W : Type} {text : TextTools V} (htext : text.uuidStr = uuidStr)
    {revision : TransformationRevision V W} (hname : nonEmptyValidStr revision.name = true)
    (htag : nonEmptyValidStr revision.versionTag = true) :
    nonEmptyValidStr (wrapperName text revision) = true ↔
      revision.name.getLast? ≠ some '\n' ∧ revision.versionTag.getLast? ≠ some '\n' := by
  have hfirst : "COMPONENT EXECUTION WRAPPER WORKFLOW for component ".toList.all wrapperChar = true :=
    by decide
  have hsecond : " (".toList.all wrapperChar = true := by decide
  have hthird : ") with id ".toList.all wrapperChar = true := by decide
  have hne : ") with id ".toList ≠ [] := by decide
  unfold wrapperName
  -- the texts in between are only known by their characters from here on
  generalize "COMPONENT EXECUTION WRAPPER WORKFLOW for component ".toList = first at hfirst ⊢
  generalize " (".toList = second at hsecond ⊢
  generalize ") with id ".toList = third at hthird hne ⊢
  have hend : (third ++ uuidStr revision.id).all allowedChar = true := by
    rw [List.all_append, all_allowedChar_of_wrapperChar hthird, uuidStr_all_allowedChar]
    rfl
  rw [htext, List.append_assoc _ third,
    nonEmptyValidStr_between _ _ (all_allowedChar_of_wrapperChar hfirst)
      (all_allowedChar_of_wrapperChar hsecond) hend (List.append_ne_nil_of_left_ne_nil hne _),
    all_allowedChar_iff hname, all_allowedChar_iff htag]

end Name

/-! ## The operator of a component -/

section Operators

variable {W : Type} {uuid4 : WrapperDraw → UUID} {revision : TransformationRevision V W}

/-- The ios of the operator of a component have ids of their own. -/
theorem nodup_toOperator_ids (huuid : Function.Injective uuid4)
    (revision : TransformationRevision V W) :
    ((revision.toOperator uuid4).inputs.map fun input => input.id).Nodup ∧
      ((revision.toOperator uuid4).outputs.map fun output => output.id).Nodup :=
  ⟨nodup_map_mapIdx _ fun _ _ _ _ h => WrapperDraw.operatorInput.inj (huuid h),
    nodup_map_mapIdx _ fun _ _ _ _ h => WrapperDraw.operatorOutput.inj (huuid h)⟩

/-- The inputs of the operator of a component are all exposed. -/
theorem exposed_toOperator : ∀ input ∈ (revision.toOperator uuid4).inputs, input.exposed = true := by
  intro input hinput
  obtain ⟨i, hi, rfl⟩ := List.mem_mapIdx.mp hinput
  rfl

/-- The ios of the operator are named if those of the component are. -/
theorem named_toOperator (uuid4 : WrapperDraw → UUID) (h : revision.AllNamed) :
    (∀ input ∈ (revision.toOperator uuid4).inputs, input.named = true) ∧
      ∀ output ∈ (revision.toOperator uuid4).outputs, output.named = true := by
  constructor
  · intro input hinput
    obtain ⟨i, hi, rfl⟩ := List.mem_mapIdx.mp hinput
    exact h.1 _ (List.getElem_mem hi)
  · intro output houtput
    obtain ⟨i, hi, rfl⟩ := List.mem_mapIdx.mp houtput
    exact h.2 revision.ioInterface.outputs[i] (List.getElem_mem hi)

/-- The names on each side are those of the component. -/
theorem names_toOperator (uuid4 : WrapperDraw → UUID) (revision : TransformationRevision V W) :
    namesEmptyOrUnique (fun input => input.toIo) (revision.toOperator uuid4).inputs =
        namesEmptyOrUnique TransformationInput.toIo revision.ioInterface.inputs ∧
      namesEmptyOrUnique (fun output => output.toIo) (revision.toOperator uuid4).outputs =
        namesEmptyOrUnique id revision.ioInterface.outputs :=
  ⟨namesEmptyOrUnique_congr (map_mapIdx_of_forall (by intros; rfl) _),
    namesEmptyOrUnique_congr (map_mapIdx_of_forall (by intros; rfl) _)⟩

/-- Data of the inputs of a wrapper which is that of the inputs of the component. -/
theorem map_wrapperInputs {B : Type} {f : WorkflowContentDynamicInput V → B}
    {g : TransformationInput V → B} (h : ∀ id id' input, f (.ofOperatorInput id
      (revision.toOperator uuid4) (.ofTransformationInput id' input)) = g input) :
    (wrapperContent uuid4 (revision.toOperator uuid4)).inputs.map f =
      revision.ioInterface.inputs.map g := by
  refine List.ext_getElem (by simp [wrapperContent, TransformationRevision.toOperator]) ?_
  intro i hi hi'
  simp [wrapperContent, TransformationRevision.toOperator] at h ⊢
  exact h _ _ _

/-- Data of the outputs of a wrapper which is that of the outputs of the component. -/
theorem map_wrapperOutputs {B : Type} {f : WorkflowContentOutput → B}
    {g : TransformationOutput → B} (h : ∀ id id' output, f (workflowOutputOfOperatorOutput id
      (revision.toOperator uuid4) (operatorOutputOfTransformationOutput id' output)) = g output) :
    (wrapperContent uuid4 (revision.toOperator uuid4)).outputs.map f =
      revision.ioInterface.outputs.map g := by
  refine List.ext_getElem (by simp [wrapperContent, TransformationRevision.toOperator]) ?_
  intro i hi hi'
  simp [wrapperContent, TransformationRevision.toOperator] at h ⊢
  exact h _ _ _

end Operators

/-! ## Wrappers -/

section Wrappers

variable [UnicodeData] [DecidableEq V] {W : Type}

/-- Validation with a content which has been validated succeeds exactly if the fields are valid and
the operators may be drafts. -/
theorem validateWithContent_eq_ok_iff {data revision : TransformationRevision V W}
    {content : WorkflowContent V} :
    data.validateWithContent content = .ok revision ↔ data.fieldsValid ∧
      (∀ operator ∈ content.operators, operator.state = .draft → data.state = .draft) ∧
        revision = data.withContent content.filterUnnamedOperatorInputsAndOutputs := by
  unfold TransformationRevision.validateWithContent TransformationRevision.fieldsValid
  simp only [check_bind_eq_ok, require_eq_ok, return_eq_ok,
    TransformationRevision.onlyDraftsAllowed_iff, and_assoc]
  constructor
  · rintro ⟨h₁, h₂, h₃, h₄, h₅, h₆, h₇⟩
    exact ⟨h₁, h₂, h₃, h₄, h₅, h₆, h₇.symm⟩
  · rintro ⟨h₁, h₂, h₃, h₄, h₅, h₆, h₇⟩
    exact ⟨h₁, h₂, h₃, h₄, h₅, h₆, h₇.symm⟩

/-- The data of a wrapper with a content. -/
def wrapperData (text : TextTools V) (uuid4 : WrapperDraw → UUID)
    (revision : TransformationRevision V W) (content : WorkflowContent V) :
    TransformationRevision V W where
  id := uuid4 .wrapper
  revisionGroupId := uuid4 .revisionGroup
  name := wrapperName text revision
  description := []
  category := revision.category
  versionTag := revision.versionTag
  disabledTimestamp := revision.disabledTimestamp
  releasedTimestamp := revision.releasedTimestamp
  state := revision.state
  type := .workflow
  ioInterface := {
    inputs := (wrapperContent uuid4 (revision.toOperator uuid4)).inputs.map fun wfInput =>
      wfInput.toTransformationInput
    outputs := (wrapperContent uuid4 (revision.toOperator uuid4)).outputs.map fun wfOutput =>
      wfOutput.toTransformationOutput }
  documentation := defaultDocumentation
  content := .workflow content
  testWiring := revision.testWiring
  releaseWiring := revision.releaseWiring

variable {text : TextTools V} {uuid4 : WrapperDraw → UUID} {revision : TransformationRevision V W}

omit [UnicodeData] in
/-- The interface of the data of a wrapper fits the ios it was made of. -/
theorem fitIoInterface_wrapperData (huuid : Function.Injective uuid4)
    {content data : WorkflowContent V}
    (hinputs : content.inputs = (wrapperContent uuid4 (revision.toOperator uuid4)).inputs)
    (houtputs : content.outputs = (wrapperContent uuid4 (revision.toOperator uuid4)).outputs) :
    fitIoInterface content (wrapperData text uuid4 revision data).ioInterface =
      (wrapperData text uuid4 revision data).ioInterface := by
  have hinputIds : (content.inputs.map fun wfInput => wfInput.id).Nodup := by
    rw [hinputs]
    exact nodup_map_mapIdx _ fun i j _ _ h => WrapperDraw.workflowInput.inj (huuid h)
  have houtputIds : (content.outputs.map fun wfOutput => wfOutput.id).Nodup := by
    rw [houtputs]
    exact nodup_map_mapIdx _ fun i j _ _ h => WrapperDraw.workflowOutput.inj (huuid h)
  refine congrArg₂ IOInterface.mk ?_ ?_
  · have hdict : dictById (fun wfInput => wfInput.id) content.inputs = content.inputs :=
      insertAll_of_nodup hinputIds
    refine fitEntries_of_perm matchesTrafoInput_iff ?_ ?_
    · exact fun _ => rfl
    · rw [hdict, hinputs]
      exact .refl _
  · have hdict : dictById (fun wfOutput => wfOutput.id) content.outputs = content.outputs :=
      insertAll_of_nodup houtputIds
    refine fitEntries_of_perm matchesTrafoOutput_iff ?_ ?_
    · exact fun _ => rfl
    · rw [hdict, houtputs]
      exact .refl _

/-- An accepted component has valid fields. -/
theorem fieldsValid_of_component {draws : ℕ → UUID} {data : TransformationRevision V W}
    (h : data.validate draws = .ok revision) (htype : revision.type = .component) :
    revision.fieldsValid := by
  unfold TransformationRevision.validate TransformationRevision.validateWith at h
  simp only [require_bind_eq_ok] at h
  obtain ⟨hstrings, htag, htimestamps, hnames, hnamed, h⟩ := h
  split at h
  · obtain rfl := return_eq_ok.mp h
    refine ⟨hstrings, htag, ?_, hnames, hnamed⟩
    rw [← htimestamps]
    unfold TransformationRevision.timestampsFitState
      TransformationRevision.releasedTimestampOrDisabled
    cases hstate : data.state <;> cases hreleased : data.releasedTimestamp <;>
      cases hdisabled : data.disabledTimestamp <;> rfl
  · rename_i hworkflow _
    obtain ⟨content, -, h⟩ := bind_eq_ok.mp h
    obtain rfl := return_eq_ok.mp h
    exact absurd (htype.symm.trans hworkflow) (by decide)
  · cases h

omit [DecidableEq V] in
/-- The fields of a wrapper are valid exactly if its name is. -/
theorem fieldsValid_wrapperData (htext : text.uuidStr = uuidStr) (h : revision.fieldsValid)
    (hnamed : revision.AllNamed) (content : WorkflowContent V) :
    (wrapperData text uuid4 revision content).fieldsValid ↔
      revision.name.getLast? ≠ some '\n' ∧ revision.versionTag.getLast? ≠ some '\n' := by
  obtain ⟨hstrings, htag, htimestamps, hnames, -⟩ := h
  obtain ⟨hname, -, hcategory, hversionTag⟩ := of_decide_eq_true hstrings
  obtain ⟨-, hversionTag'⟩ := of_decide_eq_true hversionTag
  have hdescription : validStr [] = true := rfl
  rw [← nonEmptyValidStr_wrapperName htext hname hversionTag']
  constructor
  · intro hfields
    exact (of_decide_eq_true hfields.1).1
  · intro hwrapper
    obtain ⟨hinputs, houtputs⟩ := of_decide_eq_true hnames
    refine ⟨decide_eq_true ⟨hwrapper, hdescription, hcategory, hversionTag⟩, htag, htimestamps,
      decide_eq_true ⟨?_, ?_⟩, decide_eq_true (Or.inr ⟨?_, ?_⟩)⟩
    · rw [← hinputs]
      apply namesEmptyOrUnique_congr
      rw [wrapperData, List.map_map]
      exact map_wrapperInputs fun _ _ _ => rfl
    · rw [← houtputs]
      apply namesEmptyOrUnique_congr
      rw [wrapperData, List.map_map]
      exact map_wrapperOutputs fun _ _ _ => rfl
    · rw [List.all_eq_true]
      intro input hinput
      obtain ⟨wfInput, hwfInput, rfl⟩ := List.mem_map.mp hinput
      obtain ⟨i, hi, rfl⟩ := List.mem_mapIdx.mp hwfInput
      exact (named_toOperator uuid4 hnamed).1 _ (List.getElem_mem hi)
    · rw [List.all_eq_true]
      intro output houtput
      obtain ⟨wfOutput, hwfOutput, rfl⟩ := List.mem_map.mp houtput
      obtain ⟨i, hi, rfl⟩ := List.mem_mapIdx.mp hwfOutput
      exact (named_toOperator uuid4 hnamed).2 (revision.toOperator uuid4).outputs[i]
        (List.getElem_mem hi)

omit [UnicodeData] [DecidableEq V] in
/-- One operator keeps everything but its name. -/
theorem exists_renameOperators_singleton (operator : Operator V) :
    ∃ name, renameOperators [operator] = [{ operator with name := name }] :=
  ⟨_, rfl⟩

omit [UnicodeData] [DecidableEq V] in
/-- An operator with named ios only keeps them all. -/
theorem filterUnnamed_of_named {content : WorkflowContent V}
    (h : ∀ operator ∈ content.operators, (∀ input ∈ operator.inputs, input.named = true) ∧
      ∀ output ∈ operator.outputs, output.named = true) :
    content.filterUnnamedOperatorInputsAndOutputs = content := by
  have hmap : content.operators.map filterUnnamedOperatorIos = content.operators := by
    refine (List.map_congr_left fun operator hoperator => ?_).trans (List.map_id _)
    obtain ⟨hinputs, houtputs⟩ := h operator hoperator
    rw [filterUnnamedOperatorIos, List.filter_eq_self.mpr hinputs,
      List.filter_eq_self.mpr houtputs]
    rfl
  rw [WorkflowContent.filterUnnamedOperatorInputsAndOutputs, hmap]

omit [DecidableEq V] in
/-- The content of the wrapper of a component is accepted as it is. -/
theorem exists_validate_component (huuid : Function.Injective uuid4) (hfields : revision.fieldsValid)
    (hnamed : revision.AllNamed) (draws : ℕ → UUID) :
    ∃ content name,
      (wrapperContent uuid4 (revision.toOperator uuid4)).validate draws = .ok content ∧
      SameContent (wrapperContent uuid4 (revision.toOperator uuid4)) content ∧
        content.operators = [{ revision.toOperator uuid4 with name := name }] := by
  obtain ⟨hstrings, -, -, hnames, -⟩ := hfields
  obtain ⟨hname, -, -, hversionTag⟩ := of_decide_eq_true hstrings
  obtain ⟨hinputIds, houtputIds⟩ := nodup_toOperator_ids huuid revision
  obtain ⟨hinputs, houtputs⟩ := named_toOperator uuid4 hnamed
  obtain ⟨hinputNames, houtputNames⟩ := of_decide_eq_true hnames
  rw [← (names_toOperator uuid4 revision).1] at hinputNames
  rw [← (names_toOperator uuid4 revision).2] at houtputNames
  obtain ⟨content, hcontent, hsame, hoperators⟩ := exists_validate_wrapperContent huuid rfl
    (decide_eq_true ⟨hname, hversionTag⟩) hinputIds houtputIds exposed_toOperator hinputs houtputs
      hinputNames houtputNames draws
  obtain ⟨name, hrenamed⟩ := exists_renameOperators_singleton (revision.toOperator uuid4)
  exact ⟨content, name, hcontent, hsame, hoperators.trans hrenamed⟩

end Wrappers

/-! ## The node of a wrapper -/

section Node

variable {W : Type} {text : TextTools V} {uuid4 : WrapperDraw → UUID} {revision : Revision V J}

/-- A name which is not empty is an identifier. -/
theorem exists_requireIdentifier {io : Io} (h : io.named = true) :
    ∃ name, requireIdentifier io.name = .ok name := by
  obtain ⟨hnone, hempty⟩ := of_decide_eq_true h
  match hname : io.name with
  | none => exact absurd hname hnone
  | some [] => exact absurd hname hempty
  | some (c :: rest) => exact ⟨c :: rest, rfl⟩

/-- A named dynamic input becomes an input of the node. -/
theorem toWorkflowInput_of_named {wfInput : WorkflowContentDynamicInput V}
    (hnamed : wfInput.named = true) (hconnector : wfInput.connectorName = wfInput.name) :
    ∃ input, wfInput.toWorkflowInput text = .ok input := by
  obtain ⟨name, hname⟩ := exists_requireIdentifier hnamed
  have hconnector' := hconnector.trans (eq_some_of_requireIdentifier hname)
  rw [WorkflowContentDynamicInput.toWorkflowInput, hname, requireName_eq_ok.mpr hconnector']
  exact ⟨_, rfl⟩

/-- A named output becomes an output of the node. -/
theorem toWorkflowOutput_of_named {wfOutput : WorkflowContentOutput}
    (hnamed : wfOutput.named = true) (hconnector : wfOutput.connectorName = wfOutput.name) :
    ∃ output, wfOutput.toWorkflowOutput text = .ok output := by
  obtain ⟨name, hname⟩ := exists_requireIdentifier hnamed
  have hconnector' := hconnector.trans (eq_some_of_requireIdentifier hname)
  rw [WorkflowContentIo.toWorkflowOutput, hname, requireName_eq_ok.mpr hconnector']
  exact ⟨_, rfl⟩

/-- What an input of the node has from the dynamic input. -/
theorem data_of_toWorkflowInput {wfInput : WorkflowContentDynamicInput V} {input : WorkflowInput V}
    (h : wfInput.toWorkflowInput text = .ok input) :
    (input.name, input.type, input.default, input.defaultValue, input.idOfSubNode,
        some input.nameInSubnode) =
      (wfInput.name, wfInput.dataType, (wfInput.type = .optional : Bool), wfInput.value,
        text.uuidStr wfInput.operatorId, wfInput.connectorName) := by
  obtain ⟨name, hname, h⟩ := bind_eq_ok.mp h
  obtain ⟨nameInSubnode, hconnector, h⟩ := bind_eq_ok.mp h
  obtain rfl := return_eq_ok.mp h
  rw [eq_some_of_requireIdentifier hname, requireName_eq_ok.mp hconnector]

/-- What an output of the node has from the output. -/
theorem data_of_toWorkflowOutput {wfOutput : WorkflowContentOutput} {output : WorkflowOutput}
    (h : wfOutput.toWorkflowOutput text = .ok output) :
    (some output.name, output.type, output.idOfSubNode, some output.nameInSubnode) =
      (wfOutput.name, wfOutput.dataType, text.uuidStr wfOutput.operatorId,
        wfOutput.connectorName) := by
  obtain ⟨name, hname, h⟩ := bind_eq_ok.mp h
  obtain ⟨nameInSubnode, hconnector, h⟩ := bind_eq_ok.mp h
  obtain rfl := return_eq_ok.mp h
  rw [eq_some_of_requireIdentifier hname, requireName_eq_ok.mp hconnector]

/-- Links to outer ios are no connections. -/
theorem toConnection_of_outer {link : Link} (h : link.start.operator = none ∨
    link.finish.operator = none) : ∃ connection, link.toConnection text = .ok connection := by
  unfold Link.toConnection
  rcases h with h | h
  · rw [h]
    exact ⟨none, rfl⟩
  · rw [h]
    cases link.start.operator <;> exact ⟨none, rfl⟩

/-- The content of a wrapper becomes a node which leads each io to the equally named one. -/
theorem exists_toWorkflowNode (text : TextTools V) {content : WorkflowContent V}
    (hsame : SameContent (wrapperContent uuid4 (revision.toOperator uuid4)) content)
    (hnamed : revision.AllNamed) (id : UUID) (name tag nodeId : PyStr) (nodeName : Option PyStr)
    (component : ComponentNode) (hid : component.id = text.uuidStr (uuid4 .operator))
    (huuid : component.componentUuid = text.uuidStr revision.id) :
    ∃ node, content.toWorkflowNode text id name tag nodeId nodeName [.component component] =
        .ok (.workflow node [.component component]) ∧ MapsIos text revision node component := by
  obtain ⟨hnamedInputs, hnamedOutputs⟩ := named_toOperator uuid4 hnamed
  obtain ⟨inputs, hinputs⟩ : ∃ inputs,
      (content.inputs.mapM fun wfInput => wfInput.toWorkflowInput text) = .ok inputs := by
    refine exists_mapM fun wfInput hwfInput => ?_
    rw [hsame.inputs] at hwfInput
    obtain ⟨i, hi, rfl⟩ := List.mem_mapIdx.mp hwfInput
    exact toWorkflowInput_of_named (hnamedInputs _ (List.getElem_mem hi)) rfl
  obtain ⟨outputs, houtputs⟩ : ∃ outputs,
      (content.outputs.mapM fun wfOutput => wfOutput.toWorkflowOutput text) = .ok outputs := by
    refine exists_mapM fun wfOutput hwfOutput => ?_
    rw [hsame.outputs] at hwfOutput
    obtain ⟨i, hi, rfl⟩ := List.mem_mapIdx.mp hwfOutput
    exact toWorkflowOutput_of_named
      (hnamedOutputs (revision.toOperator uuid4).outputs[i] (List.getElem_mem hi)) rfl
  obtain ⟨connections, hconnections⟩ : ∃ connections,
      (content.links.mapM fun link => link.toConnection text) = .ok connections := by
    refine exists_mapM fun link hlink => ?_
    obtain ⟨link', hlink', hsame'⟩ := hsame.links.exists_mem hlink
    refine toConnection_of_outer ?_
    rw [← Link.atOrigin_start_operator, ← Link.atOrigin_finish_operator, ← hsame',
      Link.atOrigin_start_operator, Link.atOrigin_finish_operator]
    rcases mem_wrapperContent_links hlink' with ⟨i, hi, rfl⟩ | ⟨i, hi, rfl⟩
    · exact Or.inl rfl
    · exact Or.inr rfl
  have hconstants : (content.constants.mapM fun constant => constant.toWorkflowInput text) =
      .ok ([] : List (WorkflowInput V)) := by
    rw [hsame.constants]
    rfl
  rw [WorkflowContent.toWorkflowNode, hinputs, hconstants, houtputs, hconnections]
  refine ⟨_, rfl, huuid, ?_, ?_⟩
  · rw [List.append_nil, map_eq_of_mapM hinputs fun _ _ => data_of_toWorkflowInput, hsame.inputs,
      hid]
    exact map_wrapperInputs fun _ _ _ => rfl
  · rw [map_eq_of_mapM houtputs fun _ _ => data_of_toWorkflowOutput, hsame.outputs, hid]
    exact map_wrapperOutputs fun _ _ _ => rfl

/-- The only sub node of a wrapper is that of its component. -/
theorem nestedNodes_wrapper {wrapper : Revision V J} {content : WorkflowContent V} {name : PyStr}
    (htype : revision.type = .component) (hwrapper : wrapper.type = .workflow)
    (hcontent : wrapper.content = .workflow content)
    (hoperators : content.operators = [{ revision.toOperator uuid4 with name := name }])
    (levels : ℕ) :
    (nestedNodes text (fun id => (lastEntry Prod.fst [(revision.id, revision)] id).map Prod.snd)
      (levels + 1) wrapper).run = some (.ok [.component
        { id := text.uuidStr (uuid4 .operator)
          componentUuid := text.uuidStr revision.id
          name := some name }]) := by
  have hrequire : requireWorkflow wrapper = .ok content := by
    rw [requireWorkflow, hwrapper, hcontent]
  have hfound : ((lastEntry Prod.fst [(revision.id, revision)] revision.id).map Prod.snd) =
      some revision := by
    rw [lastEntry_cons, if_pos rfl]
    rfl
  have hchildren : getDirectChildTrafosByOperatorId
      (fun id => (lastEntry Prod.fst [(revision.id, revision)] id).map Prod.snd) content =
        .ok [(uuid4 .operator, revision)] := by
    refine mapM_eq_ok.mpr ?_
    rw [hoperators]
    refine .cons ?_ .nil
    dsimp only [TransformationRevision.toOperator]
    rw [hfound]
  have hchild : (lastEntry Prod.fst [(uuid4 .operator, revision)] (uuid4 .operator)).map Prod.snd =
      some revision := by
    rw [lastEntry_cons, if_pos rfl]
    rfl
  have hnode : revision.toComponentNode text (uuid4 .operator) name = .ok (.component
      { id := text.uuidStr (uuid4 .operator)
        componentUuid := text.uuidStr revision.id
        name := some name }) := require_bind_of (decide_eq_true htype)
  refine run_bind_eq_ok.mpr ⟨content, by rw [hrequire]; rfl, ?_⟩
  refine run_bind_eq_ok.mpr ⟨_, by rw [hchildren]; rfl, ?_⟩
  rw [collectChildNodes, hoperators, List.mapM_cons, List.mapM_nil]
  refine run_bind_eq_ok.mpr ⟨_, run_bind_eq_ok.mpr ⟨revision, ?_, ?_⟩, rfl⟩
  · dsimp only [TransformationRevision.toOperator]
    rw [hchild]
    rfl
  · dsimp only [TransformationRevision.toOperator]
    rw [htype]
    dsimp only
    rw [hnode]
    rfl

/-- The node of a wrapper leads each io to the equally named one of the component. -/
theorem toWorkflowNode_wrapper {tools : PreparationTools V W}
    {uuid4 : WrapperDraw → UUID} {revision wrapper : Revision V (WiringData W)}
    {content : WorkflowContent V} {name : PyStr}
    (htype : revision.type = .component) (hwrapper : wrapper.type = .workflow)
    (hcontent : wrapper.content = .workflow content)
    (hoperators : content.operators = [{ revision.toOperator uuid4 with name := name }])
    (hsame : SameContent (wrapperContent uuid4 (revision.toOperator uuid4)) content)
    (hnamed : revision.AllNamed) {levels : ℕ} (hlevels : 0 < levels) :
    ∃ node component, ((LoadedWorkflow.mk revision wrapper
        [(revision.id, revision)]).toWorkflowNode tools levels).run =
          some (.ok (.workflow node [.component component])) ∧
      MapsIos tools.text revision node component := by
  obtain ⟨node, hnode, hmaps⟩ := exists_toWorkflowNode tools.text hsame hnamed wrapper.id
    wrapper.name wrapper.versionTag (tools.text.uuidStr (tools.uuid4 .node)) (some wrapper.name)
    ⟨tools.text.uuidStr (uuid4 .operator), tools.text.uuidStr revision.id, some name⟩ rfl rfl
  have hrequire : requireWorkflow wrapper = .ok content := by
    rw [requireWorkflow, hwrapper, hcontent]
  obtain ⟨levels, rfl⟩ := Nat.exists_eq_succ_of_ne_zero hlevels.ne'
  refine ⟨node, _, ?_, hmaps⟩
  refine run_bind_eq_ok.mpr ⟨_, nestedNodes_wrapper htype hwrapper hcontent hoperators levels, ?_⟩
  refine run_bind_eq_ok.mpr ⟨content, by rw [hrequire]; rfl, ?_⟩
  rw [hnode]
  rfl

end Node

/-! ## Nothing is lost -/

section Lossless

variable [UnicodeData] [DecidableEq V] {tools : PreparationTools V J}
  {revision : Revision V (WiringData J)}

/-- A component which is wrapped has a name and a version tag which do not end with a newline. -/
theorem getLast?_of_wrapComponent {text : TextTools V} {uuid4 : WrapperDraw → UUID}
    {wrapper : Revision V (WiringData J)} (htext : text.uuidStr = uuidStr)
    (hfields : revision.fieldsValid) (hnamed : revision.AllNamed)
    (h : revision.wrapComponentInTrWorkflow text uuid4 = .ok wrapper) :
    revision.name.getLast? ≠ some '\n' ∧ revision.versionTag.getLast? ≠ some '\n' := by
  obtain ⟨content, -, hwrapped⟩ := bind_eq_ok.mp h
  exact (fieldsValid_wrapperData htext hfields hnamed content).mp
    (validateWithContent_eq_ok_iff.mp hwrapped).1

/-- A component all of whose ios are named is wrapped without loss exactly if neither its name nor its
version tag ends with a newline. -/
theorem wrapsWithoutLoss_iff (huuid : Function.Injective tools.uuid4)
    (htext : tools.text.uuidStr = uuidStr) (htype : revision.type = .component)
    (hvalid : ∃ draws data, TransformationRevision.validate draws data = .ok revision)
    (hnamed : revision.AllNamed) :
    (∃ wrapper, WrapsWithoutLoss tools revision wrapper) ↔
      revision.name.getLast? ≠ some '\n' ∧ revision.versionTag.getLast? ≠ some '\n' := by
  obtain ⟨draws, data, hvalid⟩ := hvalid
  have hfields := fieldsValid_of_component hvalid htype
  have hdraws : Function.Injective fun draw => tools.uuid4 (.wrapper draw) :=
    fun draw draw' h => PreparationDraw.wrapper.inj (huuid h)
  obtain ⟨content, name, hcontent, hsame, hoperators⟩ :=
    exists_validate_component hdraws hfields hnamed fun i => tools.uuid4 (.wrapper (.content i))
  constructor
  · rintro ⟨wrapper, hwraps⟩
    exact getLast?_of_wrapComponent htext hfields hnamed hwraps.wrapped
  · intro hnames
    have hwrapper : (wrapperData tools.text (fun draw => tools.uuid4 (.wrapper draw)) revision
        content).fieldsValid := (fieldsValid_wrapperData htext hfields hnamed content).mpr hnames
    have hfiltered : content.filterUnnamedOperatorInputsAndOutputs = content := by
      refine filterUnnamed_of_named fun operator hoperator => ?_
      rw [hoperators] at hoperator
      rw [List.mem_singleton.mp hoperator]
      exact named_toOperator (fun draw => tools.uuid4 (.wrapper draw)) hnamed
    have hwrapped : revision.wrapComponentInTrWorkflow tools.text
        (fun draw => tools.uuid4 (.wrapper draw)) = .ok ((wrapperData tools.text
          (fun draw => tools.uuid4 (.wrapper draw)) revision content).withContent
            content.filterUnnamedOperatorInputsAndOutputs) := by
      refine bind_eq_ok.mpr ⟨content, hcontent, ?_⟩
      refine validateWithContent_eq_ok_iff.mpr ⟨hwrapper, fun operator hoperator hdraft => ?_, rfl⟩
      rw [hoperators] at hoperator
      rw [List.mem_singleton.mp hoperator] at hdraft
      exact hdraft
    have hfit : fitIoInterface content (wrapperData tools.text
        (fun draw => tools.uuid4 (.wrapper draw)) revision content).ioInterface =
          (wrapperData tools.text (fun draw => tools.uuid4 (.wrapper draw)) revision
            content).ioInterface :=
      fitIoInterface_wrapperData hdraws hsame.inputs hsame.outputs
    rw [hfiltered, TransformationRevision.withContent, hfit] at hwrapped
    refine ⟨_, hwrapped, ⟨content, rfl, hsame⟩, ?_, ?_, fun levels hlevels => ?_⟩
    · rw [wrapperData, List.map_map]
      exact map_wrapperInputs fun _ _ _ => rfl
    · rw [wrapperData, List.map_map]
      exact map_wrapperOutputs fun _ _ _ => rfl
    · exact toWorkflowNode_wrapper htype rfl rfl hoperators hsame hnamed hlevels

end Lossless

/-! ## A component whose name ends with a newline -/

/-- A number for each place where an id is drawn. -/
def numberOfDraw : PreparationDraw → UUID
  | .wrapper (.operatorInput i) => 8 * i
  | .wrapper (.operatorOutput i) => 8 * i + 1
  | .wrapper (.workflowInput i) => 8 * i + 2
  | .wrapper (.workflowOutput i) => 8 * i + 3
  | .wrapper (.inputLink i) => 8 * i + 4
  | .wrapper (.outputLink i) => 8 * i + 5
  | .wrapper (.content i) => 8 * i + 6
  | .wrapper .operator => 7
  | .wrapper .wrapper => 15
  | .wrapper .revisionGroup => 23
  | .node => 31

/-- The place with a number. -/
def drawOfNumber (n : ℕ) : PreparationDraw :=
  match n % 8, n / 8 with
  | 0, i => .wrapper (.operatorInput i)
  | 1, i => .wrapper (.operatorOutput i)
  | 2, i => .wrapper (.workflowInput i)
  | 3, i => .wrapper (.workflowOutput i)
  | 4, i => .wrapper (.inputLink i)
  | 5, i => .wrapper (.outputLink i)
  | 6, i => .wrapper (.content i)
  | _, 0 => .wrapper .operator
  | _, 1 => .wrapper .wrapper
  | _, 2 => .wrapper .revisionGroup
  | _, _ => .node

/-- No two places have the same number. -/
theorem numberOfDraw_injective : Function.Injective numberOfDraw := by
  apply Function.LeftInverse.injective (g := drawOfNumber)
  rintro (draw | _)
  · cases draw with
    | operatorInput i => simp [numberOfDraw, drawOfNumber]
    | operatorOutput i => simp [numberOfDraw, drawOfNumber, Nat.mul_add_div]
    | operator => rfl
    | workflowInput i => simp [numberOfDraw, drawOfNumber, Nat.mul_add_div]
    | workflowOutput i => simp [numberOfDraw, drawOfNumber, Nat.mul_add_div]
    | inputLink i => simp [numberOfDraw, drawOfNumber, Nat.mul_add_div]
    | outputLink i => simp [numberOfDraw, drawOfNumber, Nat.mul_add_div]
    | content i => simp [numberOfDraw, drawOfNumber, Nat.mul_add_div]
    | wrapper => rfl
    | revisionGroup => rfl
  · rfl

/-- Tools which draw distinct ids. -/
def freshTools : PreparationTools ℤ ℤ := { plainPreparationTools with uuid4 := numberOfDraw }

/-- The component with one input under a name which ends with a newline. -/
def newlineComponent : Revision ℤ (WiringData ℤ) := { componentOfX with name := ['A', '\n'] }

/-- The component is accepted, its ios are named, and it is not wrapped. -/
theorem newlineComponent_not_wrapped :
    (∃ draws data, @TransformationRevision.validate ℤ _ asciiOnly _ draws data =
        .ok newlineComponent) ∧ newlineComponent.type = .component ∧ newlineComponent.AllNamed ∧
      ¬ ∃ wrapper, @WrapsWithoutLoss ℤ ℤ asciiOnly _ freshTools newlineComponent wrapper := by
  have hvalid : @TransformationRevision.validate ℤ _ asciiOnly _ (fun _ => 0) newlineComponent =
      .ok newlineComponent := rfl
  have hnamed : newlineComponent.AllNamed := by
    constructor
    · intro input hinput
      obtain rfl := List.mem_singleton.mp hinput
      rfl
    · exact fun output houtput => absurd houtput List.not_mem_nil
  refine ⟨⟨_, _, hvalid⟩, rfl, hnamed, ?_⟩
  rintro ⟨wrapper, hwraps⟩
  have hfields := @fieldsValid_of_component ℤ asciiOnly _ _ _ _ _ hvalid rfl
  exact (@getLast?_of_wrapComponent ℤ ℤ asciiOnly _ _ _ _ _ rfl hfields hnamed
    (@WrapsWithoutLoss.wrapped ℤ ℤ asciiOnly _ _ _ _ hwraps)).1 rfl

/-- A component with a required and an optional input and an output; its description ends with a
newline. -/
def componentOfXY : Revision ℤ (WiringData ℤ) :=
  { componentOfX with
    name := "Weighted Sum".toList
    description := ['s', '\n']
    ioInterface := ⟨[
      { id := 2, name := some ['x'], dataType := .series, type := .required, value := none
        value_set_only_for_optional_input := InputType.required_without_value },
      { id := 3, name := some ['y'], dataType := .float, type := .optional, value := some 2
        value_set_only_for_optional_input := fun h => absurd h (by decide) }],
      [⟨4, some ['z'], .series⟩]⟩ }

/-- The component is accepted, its ios are named, neither its name nor its version tag ends with a
newline, and it is wrapped without loss. -/
theorem componentOfXY_wrapped :
    (∃ draws data, @TransformationRevision.validate ℤ _ asciiOnly _ draws data =
        .ok componentOfXY) ∧ componentOfXY.AllNamed ∧
      (componentOfXY.name.getLast? ≠ some '\n' ∧ componentOfXY.versionTag.getLast? ≠ some '\n') ∧
      ∃ wrapper, @WrapsWithoutLoss ℤ ℤ asciiOnly _ freshTools componentOfXY wrapper := by
  have hvalid : ∃ draws data, @TransformationRevision.validate ℤ _ asciiOnly _ draws data =
      .ok componentOfXY := ⟨fun _ => 0, componentOfXY, rfl⟩
  have hnamed : componentOfXY.AllNamed := ⟨by decide, by decide⟩
  have hnames : componentOfXY.name.getLast? ≠ some '\n' ∧
      componentOfXY.versionTag.getLast? ≠ some '\n' := by decide
  exact ⟨hvalid, hnamed, hnames, (@wrapsWithoutLoss_iff ℤ ℤ asciiOnly _ freshTools componentOfXY
    numberOfDraw_injective rfl rfl hvalid hnamed).mpr hnames⟩

end HetidaDesigner
