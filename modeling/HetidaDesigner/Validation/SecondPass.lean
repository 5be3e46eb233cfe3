import HetidaDesigner.Validation.Alignment

/-!
# What a second validation reveals

If a second validation returns the content it was given, up to the ids of unnamed ios, then the
content was settled. Unnamed ios could be dropped and generated anew at the same place only
where an outer link leads from a constant to a foreign operator input, where several links end
at one workflow output, or where operator connectors share a key; tidy contents have none of
these.
-/

namespace HetidaDesigner

open Checks LastEntry

variable {V : Type}

/-- A dynamic input without the id that validation may have generated for it. -/
def WorkflowContentDynamicInput.withoutUnnamedId (wfInput : WorkflowContentDynamicInput V) :
    WorkflowContentDynamicInput V :=
  if wfInput.named then wfInput else { wfInput with id := 0 }

/-- An output without the id that validation may have generated for it. -/
def WorkflowContentIo.withoutUnnamedId (wfOutput : WorkflowContentOutput) :
    WorkflowContentOutput :=
  if wfOutput.named then wfOutput else { wfOutput with id := 0 }

/-- A content without the ids of its unnamed ios. -/
def WorkflowContent.withoutUnnamedIds (content : WorkflowContent V) : WorkflowContent V :=
  { content with
    inputs := content.inputs.map WorkflowContentDynamicInput.withoutUnnamedId
    outputs := content.outputs.map WorkflowContentIo.withoutUnnamedId }

/-- Connectors of operators have distinct keys, links from constants end where constants refer
to, and no two links end at the same workflow output. -/
structure WorkflowContent.Tidy (content : WorkflowContent V) : Prop where
  inputKeys : ((operatorInputs content.operators).map inputKey).Nodup
  outputKeys : ((operatorOutputs content.operators).map outputKey).Nodup
  constantLinks : ∀ link ∈ content.links, link.start.operator = none →
    (∃ constant ∈ content.constants, constant.id = link.start.connector.id) →
      ∃ constant ∈ content.constants,
        link.finish.key = (some constant.operatorId, constant.connectorId)
  outerEnds : ∀ link ∈ content.links, ∀ link' ∈ content.links, link.finish.operator = none →
    link.finish.key = link'.finish.key → link = link'

/-! ## Ios without their ids -/

/-- Forgetting the id keeps everything else, and a named input as a whole. -/
theorem withoutUnnamedId_eq_input {a b : WorkflowContentDynamicInput V}
    (h : a.withoutUnnamedId = b.withoutUnnamedId) :
    a.key = b.key ∧ a.dataType = b.dataType ∧ a.named = b.named ∧ (a.named = true → a = b) := by
  have hkeep (w : WorkflowContentDynamicInput V) : w.withoutUnnamedId.key = w.key ∧
      w.withoutUnnamedId.dataType = w.dataType ∧ w.withoutUnnamedId.named = w.named := by
    unfold WorkflowContentDynamicInput.withoutUnnamedId
    split <;> exact ⟨rfl, rfl, rfl⟩
  have hnamed : a.named = b.named := by rw [← (hkeep a).2.2, h, (hkeep b).2.2]
  refine ⟨by rw [← (hkeep a).1, h, (hkeep b).1], by rw [← (hkeep a).2.1, h, (hkeep b).2.1],
    hnamed, fun ha => ?_⟩
  have hb : b.named = true := hnamed ▸ ha
  simpa [WorkflowContentDynamicInput.withoutUnnamedId, ha, hb] using h

/-- Forgetting the id keeps everything else, and a named output as a whole. -/
theorem withoutUnnamedId_eq_output {a b : WorkflowContentOutput}
    (h : a.withoutUnnamedId = b.withoutUnnamedId) :
    a.key = b.key ∧ a.dataType = b.dataType ∧ a.named = b.named ∧ (a.named = true → a = b) := by
  have hkeep (w : WorkflowContentOutput) : w.withoutUnnamedId.key = w.key ∧
      w.withoutUnnamedId.dataType = w.dataType ∧ w.withoutUnnamedId.named = w.named := by
    unfold WorkflowContentIo.withoutUnnamedId
    split <;> exact ⟨rfl, rfl, rfl⟩
  have hnamed : a.named = b.named := by rw [← (hkeep a).2.2, h, (hkeep b).2.2]
  refine ⟨by rw [← (hkeep a).1, h, (hkeep b).1], by rw [← (hkeep a).2.1, h, (hkeep b).2.1],
    hnamed, fun ha => ?_⟩
  have hb : b.named = true := hnamed ▸ ha
  simpa [WorkflowContentIo.withoutUnnamedId, ha, hb] using h

namespace WorkflowContent

variable {uuid4 : ℕ → UUID} {content again : WorkflowContent V}

/-- Two entries of a tidy content with the same key are the same. -/
theorem Tidy.input_eq (h : content.Tidy) {entry entry' : Operator V × OperatorInput V}
    (hentry : entry ∈ operatorInputs content.operators)
    (hentry' : entry' ∈ operatorInputs content.operators) (hkey : inputKey entry = inputKey entry') :
    entry = entry' :=
  List.inj_on_of_nodup_map h.inputKeys hentry hentry' hkey

/-- Two output entries of a tidy content with the same key are the same. -/
theorem Tidy.output_eq (h : content.Tidy) {entry entry' : Operator V × OperatorOutput}
    (hentry : entry ∈ operatorOutputs content.operators)
    (hentry' : entry' ∈ operatorOutputs content.operators)
    (hkey : outputKey entry = outputKey entry') : entry = entry' :=
  List.inj_on_of_nodup_map h.outputKeys hentry hentry' hkey

/-- The dictionary entry of an operator input of a tidy content. -/
theorem Tidy.operatorInputById (h : content.Tidy) {entry : Operator V × OperatorInput V}
    (hentry : entry ∈ operatorInputs content.operators) :
    HetidaDesigner.operatorInputById content.operators (inputKey entry) = some entry.2 := by
  obtain ⟨entry', hlast⟩ := exists_lastEntry inputKey hentry
  obtain ⟨hentry', hkey⟩ := mem_of_lastEntry hlast
  rw [HetidaDesigner.operatorInputById, hlast, h.input_eq hentry' hentry hkey]
  rfl

/-- The dictionary entry of an operator output of a tidy content. -/
theorem Tidy.operatorOutputById (h : content.Tidy) {entry : Operator V × OperatorOutput}
    (hentry : entry ∈ operatorOutputs content.operators) :
    HetidaDesigner.operatorOutputById content.operators (outputKey entry) = some entry.2 := by
  obtain ⟨entry', hlast⟩ := exists_lastEntry outputKey hentry
  obtain ⟨hentry', hkey⟩ := mem_of_lastEntry hlast
  rw [HetidaDesigner.operatorOutputById, hlast, h.output_eq hentry' hentry hkey]
  rfl

variable [UnicodeData]

/-- The second validation returns the content up to ids of unnamed ios. -/
structure Returned (uuid4 : ℕ → UUID) (content again : WorkflowContent V) : Prop where
  validate : content.validate uuid4 = .ok again
  operators : again.operators = content.operators
  links : again.links = content.links
  inputs : again.inputs.map WorkflowContentDynamicInput.withoutUnnamedId =
    content.inputs.map WorkflowContentDynamicInput.withoutUnnamedId
  outputs : again.outputs.map WorkflowContentIo.withoutUnnamedId =
    content.outputs.map WorkflowContentIo.withoutUnnamedId

/-- Operators which are returned had settled names. -/
theorem Returned.renameOperators (h : Returned uuid4 content again) :
    HetidaDesigner.renameOperators content.operators = content.operators := by
  rw [← (accepted_of_validate h.validate).operators, h.operators]

/-- Links which are returned all matched the operators. -/
theorem Returned.matchedLinks (h : Returned uuid4 content again) :
    content.matchedLinks = content.links := by
  have hlength := congrArg List.length (accepted_of_validate h.validate).links
  rw [List.length_map, List.length_map, h.links] at hlength
  have houter := List.length_filter_le (outerLinkValid content.constants again.inputs again.outputs)
    content.matchedLinks
  have hmatched := List.length_filter_le (linkMatchesOperators content.operators) content.links
  refine List.filter_eq_self.mpr (List.length_filter_eq_length_iff.mp ?_)
  rw [cleanUpOuterLinks] at hlength
  unfold WorkflowContent.matchedLinks linkConnectorsMatchOperatorIos at hlength houter
  omega

/-! ## Inputs -/

/-- Inputs generated by the second validation are unnamed and take over key and data type. -/
theorem Returned.of_mem_newInputs (h : Returned uuid4 content again)
    {wfInput : WorkflowContentDynamicInput V} (hmem : wfInput ∈ content.newInputs uuid4) :
    wfInput.named = false ∧ ∃ entry ∈ operatorInputs content.operators,
      operatorInputUnlinked content.links content.constants content.keptInputs entry = true ∧
        wfInput.key = inputKey entry ∧ wfInput.dataType = entry.2.dataType := by
  rw [newInputs, h.renameOperators, h.matchedLinks] at hmem
  obtain ⟨i, hi, rfl⟩ := List.mem_mapIdx.mp hmem
  obtain ⟨hentry, hunlinked⟩ := List.mem_filter.mp (List.getElem_mem hi)
  exact ⟨rfl, _, hentry, hunlinked, rfl, rfl⟩

/-- Named inputs of a returned content are kept by the second validation. -/
theorem Returned.kept_of_named (h : Returned uuid4 content again)
    {wfInput : WorkflowContentDynamicInput V} (hmem : wfInput ∈ content.inputs)
    (hnamed : wfInput.named = true) : wfInput ∈ content.keptInputs := by
  have hreturned := List.mem_map_of_mem (f := WorkflowContentDynamicInput.withoutUnnamedId) hmem
  rw [← h.inputs] at hreturned
  obtain ⟨wfInput', hmem', heq⟩ := List.mem_map.mp hreturned
  obtain ⟨-, -, hname, hsame⟩ := withoutUnnamedId_eq_input heq
  rw [hnamed] at hname
  obtain rfl := hsame hname
  rw [(accepted_of_validate h.validate).inputs] at hmem'
  rcases List.mem_append.mp hmem' with hkept | hnew
  · exact hkept
  · rw [(h.of_mem_newInputs hnew).1] at hname
    cases hname

/-- An operator input of a tidy content that no constant and no kept input refers to is not fed
from outside. -/
theorem Returned.start_ne_none (h : Returned uuid4 content again) (hconsistent : content.Consistent)
    (htidy : content.Tidy) (key : UUID × UUID)
    (hconstants : ∀ constant ∈ content.constants, constant.key ≠ key)
    (hinputs : ∀ wfInput ∈ content.keptInputs, wfInput.key ≠ key) {link : Link}
    (hlink : link ∈ content.links) (hfinish : link.finish.key = (some key.1, key.2)) :
    link.start.operator ≠ none := by
  intro hstart
  rcases outerStart_of_outerLinkValid (hconsistent.outerLinks link hlink) hstart with hconstant |
    ⟨wfInput, hmem, hid, hnamed⟩
  · obtain ⟨constant, hconstant, hkey⟩ := htidy.constantLinks link hlink hstart hconstant
    rw [hfinish, Prod.mk.injEq, Option.some.injEq] at hkey
    exact hconstants constant hconstant (Prod.ext hkey.1.symm hkey.2.symm)
  · -- The link is the one the named input fits to, so the input refers to its end.
    have hkept := h.kept_of_named hmem hnamed
    have hunnecessary := ((wfInputKept_iff _ _ _).mp (List.mem_filter.mp hkept).2).2 hnamed
    rw [h.matchedLinks] at hunnecessary
    have hstarting : link ∈ linksByStart content.links (none, wfInput.id) :=
      mem_entries.mpr ⟨hlink, Prod.ext hstart hid.symm⟩
    unfold namedWfInputUnnecessary at hunnecessary
    split at hunnecessary
    · cases hunnecessary
    · rename_i link' hsingle
      rw [hsingle, List.mem_singleton] at hstarting
      subst hstarting
      have hfits : linkFitsInput wfInput link = true := by simpa using hunnecessary
      have hkey : link.finish.key = (some wfInput.operatorId, wfInput.connectorId) :=
        (of_decide_eq_true hfits).2
      rw [hfinish, Prod.mk.injEq, Option.some.injEq] at hkey
      exact hinputs wfInput hkept (Prod.ext hkey.1.symm hkey.2.symm)
    · cases hunnecessary

/-- A generated input stands for one of the content, with its key and data type. -/
theorem Returned.exists_input (h : Returned uuid4 content again)
    {new : WorkflowContentDynamicInput V} (hnew : new ∈ content.newInputs uuid4) :
    ∃ wfInput ∈ content.inputs, wfInput.key = new.key ∧ wfInput.dataType = new.dataType := by
  have hmem : new ∈ again.inputs :=
    (accepted_of_validate h.validate).inputs ▸ List.mem_append_right _ hnew
  have hreturned := List.mem_map_of_mem (f := WorkflowContentDynamicInput.withoutUnnamedId) hmem
  rw [h.inputs] at hreturned
  obtain ⟨wfInput, hwfInput, heq⟩ := List.mem_map.mp hreturned
  obtain ⟨hkey, hdataType, -, -⟩ := withoutUnnamedId_eq_input heq
  exact ⟨wfInput, hwfInput, hkey, hdataType⟩

/-- The second validation of a tidy content generates no inputs. -/
theorem Returned.newInputs_eq_nil (h : Returned uuid4 content again)
    (hconsistent : content.Consistent) (htidy : content.Tidy) : content.newInputs uuid4 = [] := by
  refine List.eq_nil_iff_forall_not_mem.mpr fun new hnew => ?_
  obtain ⟨-, entry, hentry, hunlinked, hkey, hdataType⟩ := h.of_mem_newInputs hnew
  simp only [operatorInputUnlinked, Bool.and_eq_true, Bool.not_eq_true', List.any_eq_false,
    decide_eq_true_eq] at hunlinked
  obtain ⟨⟨⟨hexposed, hinputs⟩, hconstants⟩, hlast⟩ := hunlinked
  -- The operator input was covered by an input, which is dropped now.
  obtain ⟨wfInput, hmem, hwfKey, hwfType⟩ := h.exists_input hnew
  rw [hkey] at hwfKey
  have hdropped : ¬ wfInputKept content.operators content.links wfInput = true := fun hkept =>
    hinputs wfInput (List.mem_filter.mpr ⟨hmem, by rwa [h.matchedLinks]⟩) hwfKey
  have hunnamed : wfInput.named = false := by
    by_contra hnamed
    rw [Bool.not_eq_false] at hnamed
    exact hinputs wfInput (h.kept_of_named hmem hnamed) hwfKey
  have hunnecessary : wfInputUnnecessary content.operators content.links wfInput = true := by
    by_contra hnecessary
    refine hdropped ((wfInputKept_iff _ _ _).mpr ⟨by simpa using hnecessary, fun hnamed => ?_⟩)
    rw [hunnamed] at hnamed
    cases hnamed
  obtain ⟨hoperator, hconnector⟩ := Prod.mk.inj hwfKey
  have hmatches : wfInput.matchesOperatorIo entry.2.toConnector = true :=
    decide_eq_true ⟨hconnector, Or.inr (Or.inr (hwfType.trans hdataType))⟩
  unfold wfInputUnnecessary at hunnecessary
  rw [hwfKey, htidy.operatorInputById hentry, hoperator, hconnector] at hunnecessary
  simp only [hmatches, hexposed, Bool.not_true, Bool.false_or] at hunnecessary
  cases hlink : linkByEnd content.links (some entry.1.id, entry.2.id) with
  | none => simp [hlink] at hunnecessary
  | some link =>
    rw [hlink] at hlast
    obtain ⟨hmem', hfinish⟩ := mem_of_lastEntry hlink
    exact h.start_ne_none hconsistent htidy (inputKey entry) hconstants hinputs hmem' hfinish
      (of_decide_eq_true hlast)

/-- If nothing is generated, all inputs have been kept. -/
theorem Returned.inputsKept (h : Returned uuid4 content again) (hnew : content.newInputs uuid4 = []) :
    ∀ wfInput ∈ content.inputs, wfInputKept content.operators content.links wfInput = true := by
  have hlength := congrArg List.length h.inputs
  rw [List.length_map, List.length_map, (accepted_of_validate h.validate).inputs, hnew,
    List.append_nil, keptInputs, h.matchedLinks] at hlength
  exact List.length_filter_eq_length_iff.mp hlength

/-! ## Outputs -/

/-- Outputs generated by the second validation are unnamed and take over key and data type. -/
theorem Returned.of_mem_newOutputs (h : Returned uuid4 content again)
    {wfOutput : WorkflowContentOutput} (hmem : wfOutput ∈ content.newOutputs uuid4) :
    wfOutput.named = false ∧ ∃ entry ∈ operatorOutputs content.operators,
      operatorOutputUnlinked content.links content.keptOutputs entry = true ∧
        wfOutput.key = outputKey entry ∧ wfOutput.dataType = entry.2.dataType := by
  rw [newOutputs, h.renameOperators, h.matchedLinks] at hmem
  obtain ⟨i, hi, rfl⟩ := List.mem_mapIdx.mp hmem
  obtain ⟨hentry, hunlinked⟩ := List.mem_filter.mp (List.getElem_mem hi)
  exact ⟨rfl, _, hentry, hunlinked, rfl, rfl⟩

/-- Named outputs of a returned content are kept by the second validation. -/
theorem Returned.outputKept_of_named (h : Returned uuid4 content again)
    {wfOutput : WorkflowContentOutput} (hmem : wfOutput ∈ content.outputs)
    (hnamed : wfOutput.named = true) : wfOutput ∈ content.keptOutputs := by
  have hreturned := List.mem_map_of_mem (f := WorkflowContentIo.withoutUnnamedId) hmem
  rw [← h.outputs] at hreturned
  obtain ⟨wfOutput', hmem', heq⟩ := List.mem_map.mp hreturned
  obtain ⟨-, -, hname, hsame⟩ := withoutUnnamedId_eq_output heq
  rw [hnamed] at hname
  obtain rfl := hsame hname
  rw [(accepted_of_validate h.validate).outputs] at hmem'
  rcases List.mem_append.mp hmem' with hkept | hnew
  · exact hkept
  · rw [(h.of_mem_newOutputs hnew).1] at hname
    cases hname

/-- A generated output stands for one of the content, with its key and data type. -/
theorem Returned.exists_output (h : Returned uuid4 content again) {new : WorkflowContentOutput}
    (hnew : new ∈ content.newOutputs uuid4) :
    ∃ wfOutput ∈ content.outputs, wfOutput.key = new.key ∧ wfOutput.dataType = new.dataType := by
  have hmem : new ∈ again.outputs :=
    (accepted_of_validate h.validate).outputs ▸ List.mem_append_right _ hnew
  have hreturned := List.mem_map_of_mem (f := WorkflowContentIo.withoutUnnamedId) hmem
  rw [h.outputs] at hreturned
  obtain ⟨wfOutput, hwfOutput, heq⟩ := List.mem_map.mp hreturned
  obtain ⟨hkey, hdataType, -, -⟩ := withoutUnnamedId_eq_output heq
  exact ⟨wfOutput, hwfOutput, hkey, hdataType⟩

/-- An operator output of a tidy content that no kept output refers to has no link to outside. -/
theorem Returned.finish_ne_none (h : Returned uuid4 content again) (hconsistent : content.Consistent)
    (htidy : content.Tidy) (key : UUID × UUID)
    (houtputs : ∀ wfOutput ∈ content.keptOutputs, wfOutput.key ≠ key) {link : Link}
    (hlink : link ∈ content.links) (hstart : link.start.key = (some key.1, key.2)) :
    link.finish.operator ≠ none := by
  intro hfinish
  obtain ⟨wfOutput, hmem, hid, hnamed⟩ :=
    outerEnd_of_outerLinkValid (hconsistent.outerLinks link hlink) hfinish
  have hkept := h.outputKept_of_named hmem hnamed
  have hunnecessary := ((wfOutputKept_iff _ _ _).mp (List.mem_filter.mp hkept).2).2 hnamed
  rw [h.matchedLinks, namedWfOutputUnnecessary] at hunnecessary
  cases hlast : linkByEnd content.links (none, wfOutput.id) with
  | none => simp [hlast] at hunnecessary
  | some link' =>
    obtain ⟨hlink', hfinish'⟩ := mem_of_lastEntry hlast
    have hends : link.finish.key = link'.finish.key := hfinish'.symm ▸ Prod.ext hfinish hid.symm
    have hsame := htidy.outerEnds link hlink link' hlink' hfinish hends
    have hfits : linkFitsOutput wfOutput link' = true := by simpa [hlast] using hunnecessary
    have hkey : link'.start.key = (some wfOutput.operatorId, wfOutput.connectorId) :=
      (of_decide_eq_true hfits).2
    rw [← hsame, hstart, Prod.mk.injEq, Option.some.injEq] at hkey
    exact houtputs wfOutput hkept (Prod.ext hkey.1.symm hkey.2.symm)

/-- The second validation of a tidy content generates no outputs. -/
theorem Returned.newOutputs_eq_nil (h : Returned uuid4 content again)
    (hconsistent : content.Consistent) (htidy : content.Tidy) : content.newOutputs uuid4 = [] := by
  refine List.eq_nil_iff_forall_not_mem.mpr fun new hnew => ?_
  obtain ⟨-, entry, hentry, hunlinked, hkey, hdataType⟩ := h.of_mem_newOutputs hnew
  simp only [operatorOutputUnlinked, Bool.and_eq_true, Bool.not_eq_true', List.any_eq_false,
    decide_eq_true_eq] at hunlinked
  obtain ⟨houtputs, hlinks⟩ := hunlinked
  have hinner (link : Link)
      (hlink : link ∈ linksByStart content.links (some entry.1.id, entry.2.id)) :
      link.finish.operator ≠ none := by
    obtain ⟨hlink, hstart⟩ := mem_entries.mp hlink
    exact h.finish_ne_none hconsistent htidy (outputKey entry) houtputs hlink hstart
  have hnone : linksByStart content.links (some entry.1.id, entry.2.id) = [] := by
    split at hlinks
    · assumption
    · obtain ⟨link, hlink, houter⟩ := List.any_eq_true.mp hlinks
      exact absurd (of_decide_eq_true houter) (hinner link hlink)
  obtain ⟨wfOutput, hmem, hwfKey, hwfType⟩ := h.exists_output hnew
  rw [hkey] at hwfKey
  have hdropped : ¬ wfOutputKept content.operators content.links wfOutput = true := fun hkept =>
    houtputs wfOutput (List.mem_filter.mpr ⟨hmem, by rwa [h.matchedLinks]⟩) hwfKey
  have hunnamed : wfOutput.named = false := by
    by_contra hnamed
    rw [Bool.not_eq_false] at hnamed
    exact houtputs wfOutput (h.outputKept_of_named hmem hnamed) hwfKey
  have hunnecessary : wfOutputUnnecessary content.operators content.links wfOutput = true := by
    by_contra hnecessary
    refine hdropped ((wfOutputKept_iff _ _ _).mpr ⟨by simpa using hnecessary, fun hnamed => ?_⟩)
    rw [hunnamed] at hnamed
    cases hnamed
  obtain ⟨hoperator, hconnector⟩ := Prod.mk.inj hwfKey
  have hmatches : wfOutput.matchesOperatorIo entry.2 = true :=
    decide_eq_true ⟨hconnector, Or.inr (Or.inr (hwfType.trans hdataType))⟩
  unfold wfOutputUnnecessary at hunnecessary
  rw [hwfKey, htidy.operatorOutputById hentry, hoperator, hconnector, hnone] at hunnecessary
  simp [hmatches] at hunnecessary

/-- If nothing is generated, all outputs have been kept. -/
theorem Returned.outputsKept (h : Returned uuid4 content again)
    (hnew : content.newOutputs uuid4 = []) :
    ∀ wfOutput ∈ content.outputs, wfOutputKept content.operators content.links wfOutput = true := by
  have hlength := congrArg List.length h.outputs
  rw [List.length_map, List.length_map, (accepted_of_validate h.validate).outputs, hnew,
    List.append_nil, keptOutputs, h.matchedLinks] at hlength
  exact List.length_filter_eq_length_iff.mp hlength

/-- If nothing is generated, the content is covered. -/
theorem Returned.covered (h : Returned uuid4 content again) (hinputs : content.newInputs uuid4 = [])
    (houtputs : content.newOutputs uuid4 = []) : content.Covered where
  inputs := by
    intro entry hentry hexposed
    rw [newInputs, h.renameOperators, h.matchedLinks, HetidaDesigner.addedInputs,
      List.mapIdx_eq_nil_iff, List.filter_eq_nil_iff] at hinputs
    rcases (operatorInputUnlinked_eq_false_iff hexposed).mp
      (Bool.eq_false_iff.mpr (hinputs entry hentry)) with ⟨wfInput, hmem, hkey⟩ | hlinked
    · exact Or.inl ⟨wfInput, (List.mem_filter.mp hmem).1, hkey⟩
    · exact Or.inr hlinked
  outputs := by
    intro entry hentry
    rw [newOutputs, h.renameOperators, h.matchedLinks, HetidaDesigner.addedOutputs,
      List.mapIdx_eq_nil_iff, List.filter_eq_nil_iff] at houtputs
    rcases operatorOutputUnlinked_eq_false_iff.mp
      (Bool.eq_false_iff.mpr (houtputs entry hentry)) with ⟨wfOutput, hmem, hkey⟩ | hlinked
    · exact Or.inl ⟨wfOutput, (List.mem_filter.mp hmem).1, hkey⟩
    · exact Or.inr hlinked

end WorkflowContent

end HetidaDesigner
