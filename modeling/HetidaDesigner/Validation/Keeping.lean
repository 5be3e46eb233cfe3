import HetidaDesigner.Library.KeyedList
import HetidaDesigner.Validation.FixedPoint

/-!
# Data of which validation drops nothing

Validation may add ios to such data and move link connectors, but keeps all links which match the
operators, and all ios. This holds of data in which operator ios have keys of their own, at most one
link ends at a place or leaves an outer input, and the ios have links which fit them.
-/

namespace HetidaDesigner

open Checks LastEntry KeyedList

variable {V : Type}

namespace WorkflowContent

/-- All tests of the validators come out such that links match and ios are kept. -/
structure Intact [UnicodeData] (data : WorkflowContent V) : Prop where
  strings : data.operators.all Operator.stringsValid = true
  acyclic : linksAcyclicDirectedGraph data.links = true
  linksMatch : ∀ link ∈ data.links, linkMatchesOperators data.operators link = true
  inputsKept : ∀ wfInput ∈ data.inputs, wfInputKept data.operators data.links wfInput = true
  outputsKept : ∀ wfOutput ∈ data.outputs, wfOutputKept data.operators data.links wfOutput = true
  inputNames : namesEmptyOrUnique (fun wfInput => wfInput.toIo) data.inputs = true
  outputNames : namesEmptyOrUnique (fun wfOutput => wfOutput.toIo) data.outputs = true

/-- Operator ios have keys of their own, at most one link ends at a place or leaves an outer input,
links fit the operator ios at their ends, and each io has a link which fits it. A link to an
operator output which is exposed leads to the output. -/
structure Connected (data : WorkflowContent V) : Prop where
  inputKeys : ((inputConnectors data.operators).map Prod.fst).Nodup
  outputKeys : ((outputConnectors data.operators).map Prod.fst).Nodup
  linkEnds : (data.links.map fun link => link.finish.key).Nodup
  outerStarts : ((data.links.filter fun link => link.start.operator = none).map
    fun link => link.start.key).Nodup
  starts : ∀ link ∈ data.links, ∀ operator, link.start.operator = some operator →
    ∃ output, ((operator, link.start.connector.id), output) ∈ outputConnectors data.operators ∧
      link.start.connector.matchesConnector output = true
  ends : ∀ link ∈ data.links, ∀ operator, link.finish.operator = some operator →
    ∃ input, ((operator, link.finish.connector.id), input) ∈ inputConnectors data.operators ∧
      link.finish.connector.matchesConnector input.toConnector = true ∧ input.exposed = true
  inputsFit : ∀ wfInput ∈ data.inputs, ∃ input,
    (wfInput.key, input) ∈ inputConnectors data.operators ∧ input.exposed = true ∧
      wfInput.matchesOperatorIo input.toConnector = true
  inputsLinked : ∀ wfInput ∈ data.inputs, ∃ link ∈ data.links,
    link.start.key = (none, wfInput.id) ∧ linkFitsInput wfInput link = true
  outputsFit : ∀ wfOutput ∈ data.outputs, ∃ output,
    (wfOutput.key, output) ∈ outputConnectors data.operators ∧
      wfOutput.matchesOperatorIo output = true
  outputsLinked : ∀ wfOutput ∈ data.outputs, ∃ link ∈ data.links,
    link.finish.key = (none, wfOutput.id) ∧ linkFitsOutput wfOutput link = true
  outputsAlone : ∀ wfOutput ∈ data.outputs, ∀ link ∈ data.links,
    link.start.key = (some wfOutput.operatorId, wfOutput.connectorId) →
      link.finish.connector.id = wfOutput.id

end WorkflowContent

/-! ## Intact data is accepted -/

/-- The clean-up of inputs which are all kept succeeds. -/
theorem exists_cleanUpWorkflowContentInputs {operators : List (Operator V)} {links : List Link}
    {inputs : List (WorkflowContentDynamicInput V)}
    (hkept : ∀ wfInput ∈ inputs, wfInputKept operators links wfInput = true) :
    ∃ links', cleanUpWorkflowContentInputs operators links inputs = .ok (inputs, links') := by
  induction inputs generalizing links with
  | nil => exact ⟨links, rfl⟩
  | cons wfInput rest ih =>
    rw [List.forall_mem_cons] at hkept
    obtain ⟨hfirst, hrest⟩ := hkept
    obtain ⟨hnecessary, hnamed⟩ := (wfInputKept_iff _ _ _).mp hfirst
    unfold cleanUpWorkflowContentInputs
    rw [if_neg (by simp [hnecessary])]
    split
    · rename_i hname
      have halign := alignStartPosition_sameButPositions wfInput links
      rw [← halign.wfInputKept] at hrest
      obtain ⟨links', hlinks'⟩ := ih hrest
      exact ⟨links', by rw [hnamed hname, hlinks']; rfl⟩
    · obtain ⟨links', hlinks'⟩ := ih hrest
      exact ⟨links', by rw [hlinks']; rfl⟩

/-- The clean-up of inputs succeeds if at most one link starts at each place outside. -/
theorem exists_cleanUpWorkflowContentInputs_of_starts {operators : List (Operator V)}
    {links : List Link} {inputs : List (WorkflowContentDynamicInput V)}
    (hstarts : ∀ id, (linksByStart links (none, id)).length ≤ 1) :
    ∃ cleaned, cleanUpWorkflowContentInputs operators links inputs = .ok cleaned := by
  induction inputs generalizing links with
  | nil => exact ⟨_, rfl⟩
  | cons wfInput rest ih =>
    have hunnecessary : ∃ unnecessary, namedWfInputUnnecessary links wfInput = .ok unnecessary := by
      have hlength := hstarts wfInput.id
      unfold namedWfInputUnnecessary
      generalize linksByStart links (none, wfInput.id) = starting at hlength
      rcases starting with _ | ⟨link, _ | ⟨second, others⟩⟩
      · exact ⟨_, rfl⟩
      · exact ⟨_, rfl⟩
      · exact absurd hlength (by simp)
    have haligned : ∀ id,
        (linksByStart (alignStartPosition wfInput links) (none, id)).length ≤ 1 := by
      intro id
      have hsame := (alignStartPosition_sameButPositions wfInput links).linksByStart (none, id)
      have hlength := congrArg List.length hsame
      rw [List.length_map, List.length_map] at hlength
      rw [hlength]
      exact hstarts id
    unfold cleanUpWorkflowContentInputs
    split
    · exact ih hstarts
    · split
      · obtain ⟨unnecessary, hunnecessary⟩ := hunnecessary
        obtain ⟨cleaned, hcleaned⟩ := ih haligned
        rw [hunnecessary, hcleaned]
        exact ⟨_, rfl⟩
      · obtain ⟨cleaned, hcleaned⟩ := ih hstarts
        rw [hcleaned]
        exact ⟨_, rfl⟩

/-- Whether names are unique depends on the names only. -/
theorem namesEmptyOrUnique_congr {A B : Type} {io : A → Io} {io' : B → Io} {ios : List A}
    {ios' : List B} (h : (ios.map fun a => (io a).name) = ios'.map fun b => (io' b).name) :
    namesEmptyOrUnique io ios = namesEmptyOrUnique io' ios' := by
  have hnames {C : Type} (f : C → Io) (cs : List C) : ((cs.map f).filter Io.named).map Io.name =
      (cs.map fun c => (f c).name).filter fun name => name ≠ none ∧ name ≠ some [] := by
    rw [List.filter_map, List.filter_map, List.map_map]
    rfl
  rw [namesEmptyOrUnique, namesEmptyOrUnique, hnames, hnames, h]

/-- Fewer ios have unique names as well. -/
theorem namesEmptyOrUnique_of_sublist {A : Type} {io : A → Io} {ios ios' : List A}
    (hsub : ios'.Sublist ios) (h : namesEmptyOrUnique io ios = true) :
    namesEmptyOrUnique io ios' = true :=
  decide_eq_true ((of_decide_eq_true h).sublist (((hsub.map io).filter _).map Io.name))

/-- Unnamed ios do not count for the uniqueness of names. -/
theorem namesEmptyOrUnique_append {A : Type} {io : A → Io} {ios added : List A}
    (h : ∀ a ∈ added, (io a).named = false) :
    namesEmptyOrUnique io (ios ++ added) = namesEmptyOrUnique io ios := by
  have hnil : (added.map io).filter Io.named = [] := by
    rw [List.filter_eq_nil_iff]
    intro i hi
    obtain ⟨a, ha, rfl⟩ := List.mem_map.mp hi
    rw [h a ha]
    exact Bool.false_ne_true
  rw [namesEmptyOrUnique, namesEmptyOrUnique, List.map_append, List.filter_append, hnil,
    List.append_nil]

/-- Generated inputs have no name. -/
theorem named_of_mem_addedInputs {uuid4 : ℕ → UUID} {operators : List (Operator V)}
    {links : List Link} {constants : List WorkflowContentConstantInput}
    {inputs : List (WorkflowContentDynamicInput V)} {wfInput : WorkflowContentDynamicInput V}
    (h : wfInput ∈ addedInputs uuid4 operators links constants inputs) :
    wfInput.named = false := by
  obtain ⟨i, hi, rfl⟩ := List.mem_mapIdx.mp h
  rfl

/-- Generated outputs have no name. -/
theorem named_of_mem_addedOutputs {uuid4 : ℕ → UUID} {operators : List (Operator V)}
    {links : List Link} {outputs : List WorkflowContentOutput} {wfOutput : WorkflowContentOutput}
    (h : wfOutput ∈ addedOutputs uuid4 operators links outputs) : wfOutput.named = false := by
  obtain ⟨i, hi, rfl⟩ := List.mem_mapIdx.mp h
  rfl

namespace WorkflowContent

section Accept

variable [UnicodeData] {data : WorkflowContent V}

/-- All links of intact data match the operators. -/
theorem Intact.matchedLinks_eq (h : data.Intact) : data.matchedLinks = data.links :=
  List.filter_eq_self.mpr h.linksMatch

/-- All inputs of intact data are kept. -/
theorem Intact.keptInputs_eq (h : data.Intact) : data.keptInputs = data.inputs := by
  rw [keptInputs, h.matchedLinks_eq]
  exact List.filter_eq_self.mpr h.inputsKept

/-- All outputs of intact data are kept. -/
theorem Intact.keptOutputs_eq (h : data.Intact) : data.keptOutputs = data.outputs := by
  rw [keptOutputs, h.matchedLinks_eq]
  exact List.filter_eq_self.mpr h.outputsKept

/-- Intact data is accepted. -/
theorem Intact.exists_validate (h : data.Intact) (uuid4 : ℕ → UUID) :
    ∃ content, data.validate uuid4 = .ok content := by
  have hmatched : linkConnectorsMatchOperatorIos (renameOperators data.operators) data.links =
      data.links := by
    rw [linkConnectorsMatchOperatorIos, linkMatchesOperators_renameOperators]
    exact List.filter_eq_self.mpr h.linksMatch
  have hkept := h.inputsKept
  rw [← wfInputKept_renameOperators] at hkept
  obtain ⟨aligned, haligned⟩ := exists_cleanUpWorkflowContentInputs hkept
  have hsame := (cleanUpWorkflowContentInputs_ok haligned).2
  obtain ⟨houtputs, -⟩ := cleanUpWorkflowContentOutputs_spec
    (renameOperators data.operators) aligned data.outputs
  rw [wfOutputKept_renameOperators, hsame.wfOutputKept,
    List.filter_eq_self.mpr h.outputsKept] at houtputs
  unfold WorkflowContent.validate WorkflowContent.validateWith
  simp only [received_all, IoKeys.all_inputs, IoKeys.all_outputs, if_true]
  rw [require_bind_of h.strings]
  rw [hmatched, require_bind_of h.acyclic, haligned]
  refine ⟨_, (require_bind_of ?_).trans ((require_bind_of ?_).trans rfl)⟩
  · rw [namesEmptyOrUnique_append fun _ => named_of_mem_addedInputs]
    exact h.inputNames
  · rw [namesEmptyOrUnique_append fun _ => named_of_mem_addedOutputs, houtputs]
    exact h.outputNames

/-- Data whose links form no cycle is accepted if at most one link starts at each place outside. -/
theorem exists_validate_of_starts (hstrings : data.operators.all Operator.stringsValid = true)
    (hacyclic : linksAcyclicDirectedGraph data.links = true)
    (hstarts : ∀ id, (linksByStart data.links (none, id)).length ≤ 1)
    (hinputs : namesEmptyOrUnique (fun wfInput => wfInput.toIo) data.inputs = true)
    (houtputs : namesEmptyOrUnique (fun wfOutput => wfOutput.toIo) data.outputs = true)
    (uuid4 : ℕ → UUID) : ∃ content, data.validate uuid4 = .ok content := by
  have hmatched : ∀ id, (linksByStart (linkConnectorsMatchOperatorIos
      (renameOperators data.operators) data.links) (none, id)).length ≤ 1 := fun id =>
    (List.filter_sublist.filter _).length_le.trans (hstarts id)
  obtain ⟨⟨kept, aligned⟩, hcleaned⟩ : ∃ cleaned, cleanUpWorkflowContentInputs
      (renameOperators data.operators) (linkConnectorsMatchOperatorIos
        (renameOperators data.operators) data.links) data.inputs = .ok cleaned :=
    exists_cleanUpWorkflowContentInputs_of_starts hmatched
  obtain ⟨hkept, -⟩ := cleanUpWorkflowContentInputs_ok hcleaned
  obtain ⟨hkeptOutputs, -⟩ := cleanUpWorkflowContentOutputs_spec
    (renameOperators data.operators) aligned data.outputs
  have hmatchedAcyclic : linksAcyclicDirectedGraph (linkConnectorsMatchOperatorIos
      (renameOperators data.operators) data.links) = true :=
    linksAcyclicDirectedGraph_mono (List.map_subset _ (List.filter_subset_self _)) hacyclic
  unfold WorkflowContent.validate WorkflowContent.validateWith
  simp only [received_all, IoKeys.all_inputs, IoKeys.all_outputs, if_true]
  rw [require_bind_of hstrings]
  rw [require_bind_of hmatchedAcyclic, hcleaned]
  refine ⟨_, (require_bind_of ?_).trans ((require_bind_of ?_).trans rfl)⟩
  · rw [namesEmptyOrUnique_append fun _ => named_of_mem_addedInputs, hkept]
    exact namesEmptyOrUnique_of_sublist List.filter_sublist hinputs
  · rw [namesEmptyOrUnique_append fun _ => named_of_mem_addedOutputs, hkeptOutputs]
    exact namesEmptyOrUnique_of_sublist List.filter_sublist houtputs

end Accept

/-- No input is generated if all operator inputs are exposed already. -/
theorem newInputs_eq_nil {data : WorkflowContent V} {uuid4 : ℕ → UUID}
    (h : ∀ connector ∈ inputConnectors data.operators,
      ∃ wfInput ∈ data.keptInputs, wfInput.key = connector.1) : data.newInputs uuid4 = [] := by
  rw [newInputs, addedInputs, List.mapIdx_eq_nil_iff, List.filter_eq_nil_iff]
  intro entry hentry hunlinked
  have hmem : (inputKey entry, entry.2) ∈ inputConnectors (renameOperators data.operators) :=
    List.mem_map_of_mem hentry
  rw [inputConnectors_renameOperators] at hmem
  obtain ⟨wfInput, hwfInput, hkey⟩ := h _ hmem
  simp only [operatorInputUnlinked, Bool.and_eq_true, Bool.not_eq_true', List.any_eq_false,
    decide_eq_true_eq] at hunlinked
  exact hunlinked.1.1.2 wfInput hwfInput hkey

/-- No output is generated if all operator outputs are exposed already. -/
theorem newOutputs_eq_nil {data : WorkflowContent V} {uuid4 : ℕ → UUID}
    (h : ∀ connector ∈ outputConnectors data.operators,
      ∃ wfOutput ∈ data.keptOutputs, wfOutput.key = connector.1) : data.newOutputs uuid4 = [] := by
  rw [newOutputs, addedOutputs, List.mapIdx_eq_nil_iff, List.filter_eq_nil_iff]
  intro entry hentry hunlinked
  have hmem : (outputKey entry, entry.2) ∈ outputConnectors (renameOperators data.operators) :=
    List.mem_map_of_mem hentry
  rw [outputConnectors_renameOperators] at hmem
  obtain ⟨wfOutput, hwfOutput, hkey⟩ := h _ hmem
  simp only [operatorOutputUnlinked, Bool.and_eq_true, Bool.not_eq_true', List.any_eq_false,
    decide_eq_true_eq] at hunlinked
  exact hunlinked.1 wfOutput hwfOutput hkey

/-! ## Outer links -/

section Outer

variable {constants : List WorkflowContentConstantInput}
  {inputs : List (WorkflowContentDynamicInput V)} {outputs : List WorkflowContentOutput}
  {link : Link}

/-- A link from a named input is valid. -/
theorem outerLinkValid_of_input (hids : (inputs.map fun wfInput => wfInput.id).Nodup)
    {wfInput : WorkflowContentDynamicInput V} (hmem : wfInput ∈ inputs)
    (hnamed : wfInput.named = true) (hid : link.start.connector.id = wfInput.id)
    (hfinish : link.finish.operator ≠ none) :
    outerLinkValid constants inputs outputs link = true := by
  obtain ⟨operator, hoperator⟩ := Option.ne_none_iff_exists'.mp hfinish
  have hlast := lastEntry_of_nodup hids hmem
  rw [← hid] at hlast
  rw [outerLinkValid, outerLinkInvalidDueToWorkflowOutput, hoperator,
    outerLinkInvalidDueToWorkflowInput]
  cases link.start.operator with
  | some start => rfl
  | none =>
    dsimp only
    split
    · rfl
    · rw [hlast]
      simp [hnamed]

/-- A link to a named output is valid. -/
theorem outerLinkValid_of_output (hids : (outputs.map fun wfOutput => wfOutput.id).Nodup)
    {wfOutput : WorkflowContentOutput} (hmem : wfOutput ∈ outputs)
    (hnamed : wfOutput.named = true) (hid : link.finish.connector.id = wfOutput.id)
    (hstart : link.start.operator ≠ none) :
    outerLinkValid constants inputs outputs link = true := by
  obtain ⟨operator, hoperator⟩ := Option.ne_none_iff_exists'.mp hstart
  have hlast := lastEntry_of_nodup hids hmem
  rw [← hid] at hlast
  rw [outerLinkValid, outerLinkInvalidDueToWorkflowInput, hoperator,
    outerLinkInvalidDueToWorkflowOutput]
  cases link.finish.operator with
  | some finish => rfl
  | none =>
    dsimp only
    rw [hlast]
    simp [hnamed]

end Outer

/-! ## Connected data is intact -/

section Connect

variable {data : WorkflowContent V}

/-- Each operator input is found under its key. -/
theorem Connected.operatorInputById (h : data.Connected) {key : UUID × UUID}
    {input : OperatorInput V} (hinput : (key, input) ∈ inputConnectors data.operators) :
    HetidaDesigner.operatorInputById data.operators key = some input := by
  rw [operatorInputById_eq, lastEntry_of_nodup h.inputKeys hinput]
  rfl

/-- Each operator output is found under its key. -/
theorem Connected.operatorOutputById (h : data.Connected) {key : UUID × UUID}
    {output : OperatorOutput} (houtput : (key, output) ∈ outputConnectors data.operators) :
    HetidaDesigner.operatorOutputById data.operators key = some output := by
  rw [operatorOutputById_eq, lastEntry_of_nodup h.outputKeys houtput]
  rfl

/-- Each link is found where it ends. -/
theorem Connected.linkByEnd (h : data.Connected) {link : Link} (hlink : link ∈ data.links) :
    HetidaDesigner.linkByEnd data.links link.finish.key = some link :=
  lastEntry_of_nodup h.linkEnds hlink

/-- A link from outside is the only one which starts there. -/
theorem Connected.linksByStart (h : data.Connected) {link : Link} (hlink : link ∈ data.links)
    (houter : link.start.operator = none) :
    HetidaDesigner.linksByStart data.links link.start.key = [link] := by
  have hentries : HetidaDesigner.linksByStart data.links link.start.key =
      (data.links.filter fun link => link.start.operator = none).filter
        fun other => other.start.key = link.start.key := by
    rw [List.filter_filter]
    refine List.filter_congr fun other _ => ?_
    by_cases hkey : other.start.key = link.start.key
    · have hoperator : other.start.operator = link.start.operator := congrArg Prod.fst hkey
      simp [hkey, hoperator, houter]
    · simp [hkey]
  rw [hentries]
  refine filter_eq_singleton h.outerStarts (List.mem_filter.mpr ⟨hlink, by simp [houter]⟩)
    (by simp) fun other _ hother => of_decide_eq_true hother

/-- Links of connected data match the operators. -/
theorem Connected.linkMatchesOperators (h : data.Connected) {link : Link}
    (hlink : link ∈ data.links) :
    HetidaDesigner.linkMatchesOperators data.operators link = true := by
  rw [HetidaDesigner.linkMatchesOperators, Bool.and_eq_true]
  constructor
  · unfold linkInvalidDueToOperatorOutput
    cases hstart : link.start.operator with
    | none => rfl
    | some operator =>
      obtain ⟨output, hmem, hmatches⟩ := h.starts link hlink operator hstart
      dsimp only
      rw [h.operatorOutputById hmem]
      simp [hmatches]
  · unfold linkInvalidDueToOperatorInput
    cases hfinish : link.finish.operator with
    | none => rfl
    | some operator =>
      obtain ⟨input, hmem, hmatches, hexposed⟩ := h.ends link hlink operator hfinish
      dsimp only
      rw [h.operatorInputById hmem]
      simp [hmatches, hexposed]

/-- Inputs of connected data are kept. -/
theorem Connected.wfInputKept (h : data.Connected) {wfInput : WorkflowContentDynamicInput V}
    (hwfInput : wfInput ∈ data.inputs) :
    HetidaDesigner.wfInputKept data.operators data.links wfInput = true := by
  obtain ⟨input, hmem, hexposed, hmatches⟩ := h.inputsFit wfInput hwfInput
  obtain ⟨link, hlink, hstart, hfits⟩ := h.inputsLinked wfInput hwfInput
  obtain ⟨-, hfinish⟩ := of_decide_eq_true hfits
  have houter : link.start.operator = none := congrArg Prod.fst hstart
  have hid : link.start.connector.id = wfInput.id := congrArg Prod.snd hstart
  have hend := h.linkByEnd hlink
  have hstarts := h.linksByStart hlink houter
  rw [hfinish] at hend
  rw [hstart] at hstarts
  refine (wfInputKept_iff _ _ _).mpr ⟨?_, fun _ => ?_⟩
  · unfold wfInputUnnecessary
    rw [h.operatorInputById hmem]
    dsimp only
    rw [hend]
    simp [hmatches, hexposed, hid]
  · unfold namedWfInputUnnecessary
    rw [hstarts]
    dsimp only
    rw [hfits]
    rfl

/-- Outputs of connected data are kept. -/
theorem Connected.wfOutputKept (h : data.Connected) {wfOutput : WorkflowContentOutput}
    (hwfOutput : wfOutput ∈ data.outputs) :
    HetidaDesigner.wfOutputKept data.operators data.links wfOutput = true := by
  obtain ⟨output, hmem, hmatches⟩ := h.outputsFit wfOutput hwfOutput
  obtain ⟨link, hlink, hfinish, hfits⟩ := h.outputsLinked wfOutput hwfOutput
  have hend := h.linkByEnd hlink
  rw [hfinish] at hend
  refine (wfOutputKept_iff _ _ _).mpr ⟨?_, fun _ => ?_⟩
  · have halone : (HetidaDesigner.linksByStart data.links
        (some wfOutput.operatorId, wfOutput.connectorId)).any
          (fun link => wfOutput.id ≠ link.finish.connector.id) = false := by
      rw [List.any_eq_false]
      intro other hother
      obtain ⟨hother, hkey⟩ := List.mem_filter.mp hother
      simp [h.outputsAlone wfOutput hwfOutput other hother (of_decide_eq_true hkey)]
    unfold wfOutputUnnecessary
    rw [h.operatorOutputById hmem]
    dsimp only
    rw [halone, hmatches]
    rfl
  · unfold namedWfOutputUnnecessary
    rw [hend]
    dsimp only
    rw [hfits]
    rfl

/-- Connected data is intact if strings, names and the graph of the links are accepted. -/
theorem Connected.intact [UnicodeData] (h : data.Connected)
    (hstrings : data.operators.all Operator.stringsValid = true)
    (hacyclic : linksAcyclicDirectedGraph data.links = true)
    (hinputs : namesEmptyOrUnique (fun wfInput => wfInput.toIo) data.inputs = true)
    (houtputs : namesEmptyOrUnique (fun wfOutput => wfOutput.toIo) data.outputs = true) :
    data.Intact :=
  ⟨hstrings, hacyclic, fun _ => h.linkMatchesOperators, fun _ => h.wfInputKept,
    fun _ => h.wfOutputKept, hinputs, houtputs⟩

end Connect

end WorkflowContent

end HetidaDesigner
