import HetidaDesigner.Validation.IoInterface
import HetidaDesigner.Validation.Sources

/-!
# What a second validation can rely on

After validation all outer links are valid and names are unique. If inputs and outputs are given, every
exposed operator input and every operator output is covered, too. Dropping outer links does not uncover
anything, since a connector covered by a link only is covered by links between operators.
-/

namespace HetidaDesigner

open LastEntry

variable {V : Type}

/-- A content for which validation has no outer link to drop and no name clash to report. -/
structure WorkflowContent.Consistent (content : WorkflowContent V) : Prop where
  acyclic : linksAcyclicDirectedGraph content.links = true
  outerLinks : ∀ link ∈ content.links,
    outerLinkValid content.constants content.inputs content.outputs link = true
  inputNames : namesEmptyOrUnique (fun wfInput => wfInput.toIo) content.inputs = true
  outputNames : namesEmptyOrUnique (fun wfOutput => wfOutput.toIo) content.outputs = true

/-- A content for which validation has no io to add. -/
structure WorkflowContent.Covered (content : WorkflowContent V) : Prop where
  inputs : ∀ entry ∈ operatorInputs content.operators, entry.2.exposed = true →
    (∃ wfInput ∈ content.inputs, wfInput.key = inputKey entry) ∨
      (∃ constant ∈ content.constants, constant.key = inputKey entry) ∨
        ∃ link, linkByEnd content.links (some entry.1.id, entry.2.id) = some link ∧
          link.start.operator ≠ none
  outputs : ∀ entry ∈ operatorOutputs content.operators,
    (∃ wfOutput ∈ content.outputs, wfOutput.key = outputKey entry) ∨
      (linksByStart content.links (some entry.1.id, entry.2.id) ≠ [] ∧
        ∀ link ∈ linksByStart content.links (some entry.1.id, entry.2.id),
          link.finish.operator ≠ none)

/-- No input is generated for an exposed operator input to which an input, a constant or a link from
an operator leads. -/
theorem operatorInputUnlinked_eq_false_iff {links : List Link}
    {constants : List WorkflowContentConstantInput}
    {inputs : List (WorkflowContentDynamicInput V)} {entry : Operator V × OperatorInput V}
    (hexposed : entry.2.exposed = true) :
    operatorInputUnlinked links constants inputs entry = false ↔
      (∃ wfInput ∈ inputs, wfInput.key = inputKey entry) ∨
        (∃ constant ∈ constants, constant.key = inputKey entry) ∨
          ∃ link, linkByEnd links (some entry.1.id, entry.2.id) = some link ∧
            link.start.operator ≠ none := by
  simp only [operatorInputUnlinked, hexposed, Bool.true_and, Bool.and_eq_false_iff,
    Bool.not_eq_false', List.any_eq_true, decide_eq_true_eq, or_assoc]
  refine or_congr_right (or_congr_right ?_)
  cases linkByEnd links (some entry.1.id, entry.2.id) with
  | none => simp
  | some link => simp

/-- No output is generated for an operator output from which an output or only links to operators
come. -/
theorem operatorOutputUnlinked_eq_false_iff {links : List Link}
    {outputs : List WorkflowContentOutput} {entry : Operator V × OperatorOutput} :
    operatorOutputUnlinked links outputs entry = false ↔
      (∃ wfOutput ∈ outputs, wfOutput.key = outputKey entry) ∨
        (linksByStart links (some entry.1.id, entry.2.id) ≠ [] ∧
          ∀ link ∈ linksByStart links (some entry.1.id, entry.2.id),
            link.finish.operator ≠ none) := by
  simp only [operatorOutputUnlinked, Bool.and_eq_false_iff, Bool.not_eq_false', List.any_eq_true,
    decide_eq_true_eq]
  refine or_congr_right ?_
  split
  · rename_i hnil
    simp [hnil]
  · rename_i hne
    rw [List.any_eq_false]
    simp only [decide_eq_true_eq]
    exact (and_iff_right hne).symm

namespace WorkflowContent

variable [UnicodeData] {keys : IoKeys} {uuid4 : ℕ → UUID} {data content : WorkflowContent V}

/-- Accepted links are acyclic. -/
theorem AcceptedWith.linksAcyclic (h : data.AcceptedWith keys uuid4 content) :
    linksAcyclicDirectedGraph content.links = true := by
  refine linksAcyclicDirectedGraph_mono ?_ h.acyclic
  intro edge hedge
  rw [h.links.map_eq Link.atOrigin_edge] at hedge
  obtain ⟨link, hlink, rfl⟩ := List.mem_map.mp hedge
  exact List.mem_map_of_mem (List.mem_filter.mp hlink).1

/-- The last link to an operator input stays the last one if it comes from an operator. -/
theorem AcceptedWith.linkByEnd (h : data.AcceptedWith keys uuid4 content) {key : Option UUID × UUID}
    {link : Link} (hlast : HetidaDesigner.linkByEnd data.matchedLinks key = some link)
    (hstart : link.start.operator ≠ none) (hkey : key.1 ≠ none) :
    ∃ link', HetidaDesigner.linkByEnd content.links key = some link' ∧
      link'.start.operator ≠ none := by
  have hfinish : link.finish.operator ≠ none := by
    rw [← (mem_of_lastEntry hlast).2] at hkey
    exact hkey
  have hvalid := outerLinkValid_of_inner data.constants content.inputs content.outputs hstart
    hfinish
  have hkept : HetidaDesigner.linkByEnd (cleanUpOuterLinks data.constants content.inputs
      content.outputs data.matchedLinks) key = some link := lastEntry_filter_of_keep hlast hvalid
  have hsame := h.links.linkByEnd key
  rw [hkept, Option.map_some, Option.map_eq_some_iff] at hsame
  obtain ⟨link', hlink', horigin⟩ := hsame
  refine ⟨link', hlink', ?_⟩
  have hoperator : link'.start.operator = link.start.operator :=
    congrArg (fun l => l.start.operator) horigin
  rwa [hoperator]

/-- If all links from an operator output lead to operators, all of them are kept. -/
theorem AcceptedWith.linksByStart (h : data.AcceptedWith keys uuid4 content) {key : Option UUID × UUID}
    (hfinish : ∀ link ∈ HetidaDesigner.linksByStart data.matchedLinks key,
      link.finish.operator ≠ none) (hkey : key.1 ≠ none) :
    SameButPositions (HetidaDesigner.linksByStart content.links key)
      (HetidaDesigner.linksByStart data.matchedLinks key) := by
  refine (h.links.linksByStart key).trans ?_
  have hall : HetidaDesigner.linksByStart (cleanUpOuterLinks data.constants content.inputs
      content.outputs data.matchedLinks) key =
      HetidaDesigner.linksByStart data.matchedLinks key := by
    rw [HetidaDesigner.linksByStart, cleanUpOuterLinks, entries_filter]
    refine List.filter_eq_self.mpr fun link hlink => ?_
    refine outerLinkValid_of_inner _ _ _ ?_ (hfinish link hlink)
    rw [← (mem_entries.mp hlink).2] at hkey
    exact hkey
  rw [hall]
  exact .refl _

/-- Exposed operator inputs are covered if inputs are given. -/
theorem Accepted.inputsCovered (h : data.Accepted uuid4 content)
    {entry : Operator V × OperatorInput V} (hentry : entry ∈ operatorInputs content.operators)
    (hexposed : entry.2.exposed = true) :
    (∃ wfInput ∈ content.inputs, wfInput.key = inputKey entry) ∨
      (∃ constant ∈ content.constants, constant.key = inputKey entry) ∨
        ∃ link, HetidaDesigner.linkByEnd content.links (some entry.1.id, entry.2.id) = some link ∧
          link.start.operator ≠ none := by
  cases hunlinked : operatorInputUnlinked data.matchedLinks data.constants data.keptInputs entry with
  | true =>
    left
    have hkey : inputKey entry ∈ (data.newInputs uuid4).map fun wfInput => wfInput.key := by
      rw [newInputs, map_key_addedInputs, ← h.operators]
      exact List.mem_map_of_mem (List.mem_filter.mpr ⟨hentry, hunlinked⟩)
    obtain ⟨wfInput, hwfInput, hkey⟩ := List.mem_map.mp hkey
    exact ⟨wfInput, h.inputs ▸ List.mem_append_right _ hwfInput, hkey⟩
  | false =>
    rcases (operatorInputUnlinked_eq_false_iff hexposed).mp hunlinked with
      ⟨wfInput, hwfInput, hkey⟩ | ⟨constant, hconstant, hkey⟩ | ⟨link, hlast, hstart⟩
    · exact Or.inl ⟨wfInput, h.inputs ▸ List.mem_append_left _ hwfInput, hkey⟩
    · exact Or.inr (Or.inl ⟨constant, h.constants ▸ hconstant, hkey⟩)
    · exact Or.inr (Or.inr (h.linkByEnd hlast hstart (by simp)))

/-- Operator outputs are covered if outputs are given. -/
theorem Accepted.outputsCovered (h : data.Accepted uuid4 content)
    {entry : Operator V × OperatorOutput} (hentry : entry ∈ operatorOutputs content.operators) :
    (∃ wfOutput ∈ content.outputs, wfOutput.key = outputKey entry) ∨
      (HetidaDesigner.linksByStart content.links (some entry.1.id, entry.2.id) ≠ [] ∧
        ∀ link ∈ HetidaDesigner.linksByStart content.links (some entry.1.id, entry.2.id),
          link.finish.operator ≠ none) := by
  cases hunlinked : operatorOutputUnlinked data.matchedLinks data.keptOutputs entry with
  | true =>
    left
    have hkey : outputKey entry ∈ (data.newOutputs uuid4).map fun wfOutput => wfOutput.key := by
      rw [newOutputs, map_key_addedOutputs, ← h.operators]
      exact List.mem_map_of_mem (List.mem_filter.mpr ⟨hentry, hunlinked⟩)
    obtain ⟨wfOutput, hwfOutput, hkey⟩ := List.mem_map.mp hkey
    exact ⟨wfOutput, h.outputs ▸ List.mem_append_right _ hwfOutput, hkey⟩
  | false =>
    rcases operatorOutputUnlinked_eq_false_iff.mp hunlinked with
      ⟨wfOutput, hwfOutput, hkey⟩ | hmatched
    · exact Or.inl ⟨wfOutput, h.outputs ▸ List.mem_append_left _ hwfOutput, hkey⟩
    · have hsame := h.linksByStart hmatched.2 (by simp)
      refine Or.inr ⟨fun hnil => hmatched.1 ?_, fun link hlink => ?_⟩
      · rw [hnil] at hsame
        exact List.map_eq_nil_iff.mp hsame.symm
      · obtain ⟨link', hlink', horigin⟩ := hsame.exists_mem hlink
        have hoperator : link'.finish.operator = link.finish.operator :=
          congrArg (fun l => l.finish.operator) horigin
        exact hoperator ▸ hmatched.2 link' hlink'

/-- Outer links of an accepted content are valid. -/
theorem AcceptedWith.outerLinks (h : data.AcceptedWith keys uuid4 content) {link : Link}
    (hlink : link ∈ content.links) :
    outerLinkValid content.constants content.inputs content.outputs link = true := by
  obtain ⟨link', hlink', horigin⟩ := h.links.exists_mem hlink
  have hvalid := (List.mem_filter.mp hlink').2
  rwa [h.constants, ← outerLinkValid_atOrigin, ← horigin, outerLinkValid_atOrigin]

/-- A content which is accepted with all keys is covered. -/
theorem Accepted.covered (h : data.Accepted uuid4 content) : content.Covered where
  inputs := fun _ hentry hexposed => h.inputsCovered hentry hexposed
  outputs := fun _ hentry => h.outputsCovered hentry

/-- An accepted content is consistent. -/
theorem AcceptedWith.consistent (h : data.AcceptedWith keys uuid4 content) :
    content.Consistent where
  acyclic := h.linksAcyclic
  outerLinks := fun _ hlink => h.outerLinks hlink
  inputNames := h.inputNames
  outputNames := h.outputNames

end WorkflowContent

/-! ## Unnamed operator ios -/

/-- Inputs of an operator without its unnamed ios are inputs of the operator. -/
theorem exists_operatorInputs_of_filterUnnamed {operators : List (Operator V)}
    {entry : Operator V × OperatorInput V}
    (h : entry ∈ operatorInputs (operators.map filterUnnamedOperatorIos)) :
    ∃ operator, (operator, entry.2) ∈ operatorInputs operators ∧ operator.id = entry.1.id := by
  obtain ⟨operator', hoperator', hentry⟩ := List.mem_flatMap.mp h
  obtain ⟨operator, hoperator, rfl⟩ := List.mem_map.mp hoperator'
  obtain ⟨input, hinput, rfl⟩ := List.mem_map.mp hentry
  exact ⟨operator, List.mem_flatMap.mpr ⟨operator, hoperator,
    List.mem_map_of_mem (List.mem_filter.mp hinput).1⟩, rfl⟩

/-- Outputs of an operator without its unnamed ios are outputs of the operator. -/
theorem exists_operatorOutputs_of_filterUnnamed {operators : List (Operator V)}
    {entry : Operator V × OperatorOutput}
    (h : entry ∈ operatorOutputs (operators.map filterUnnamedOperatorIos)) :
    ∃ operator, (operator, entry.2) ∈ operatorOutputs operators ∧ operator.id = entry.1.id := by
  obtain ⟨operator', hoperator', hentry⟩ := List.mem_flatMap.mp h
  obtain ⟨operator, hoperator, rfl⟩ := List.mem_map.mp hoperator'
  obtain ⟨output, houtput, rfl⟩ := List.mem_map.mp hentry
  exact ⟨operator, List.mem_flatMap.mpr ⟨operator, hoperator,
    List.mem_map_of_mem (List.mem_filter.mp houtput).1⟩, rfl⟩

/-- Removing unnamed operator ios keeps a content covered. -/
theorem WorkflowContent.Covered.filterUnnamed {content : WorkflowContent V}
    (h : content.Covered) : content.filterUnnamedOperatorInputsAndOutputs.Covered where
  inputs := by
    intro entry hentry hexposed
    obtain ⟨operator, hentry', hid⟩ := exists_operatorInputs_of_filterUnnamed hentry
    have hcovered := h.inputs (operator, entry.2) hentry' hexposed
    simp only [inputKey, hid] at hcovered
    exact hcovered
  outputs := by
    intro entry hentry
    obtain ⟨operator, hentry', hid⟩ := exists_operatorOutputs_of_filterUnnamed hentry
    have hcovered := h.outputs (operator, entry.2) hentry'
    simp only [outputKey, hid] at hcovered
    exact hcovered

/-- Removing unnamed operator ios keeps a content consistent. -/
theorem WorkflowContent.Consistent.filterUnnamed {content : WorkflowContent V}
    (h : content.Consistent) : content.filterUnnamedOperatorInputsAndOutputs.Consistent where
  acyclic := h.acyclic
  outerLinks := h.outerLinks
  inputNames := h.inputNames
  outputNames := h.outputNames

/-- Filtering operator ios twice is filtering once. -/
theorem filterUnnamedOperatorInputsAndOutputs_idem (content : WorkflowContent V) :
    content.filterUnnamedOperatorInputsAndOutputs.filterUnnamedOperatorInputsAndOutputs =
      content.filterUnnamedOperatorInputsAndOutputs := by
  simp [WorkflowContent.filterUnnamedOperatorInputsAndOutputs, filterUnnamedOperatorIos,
    Function.comp_def]

end HetidaDesigner
