import HetidaDesigner.Validation.WellFormed

/-!
# Sources of operator inputs after validation

Validation generates one dynamic input for every exposed operator input for which it finds no
source. Counting the generated inputs by operator input tells how many sources each of them
has in the end, and so when an accepted content is well-formed.
-/

namespace HetidaDesigner

open LastEntry

variable {V : Type}

/-! ## Generated ios -/

/-- Data of indexed images which does not depend on the index. -/
theorem map_mapIdx_of_forall {α β γ : Type} {f : ℕ → α → β} {g : β → γ} {h : α → γ}
    (hf : ∀ i a, g (f i a) = h a) (l : List α) : (l.mapIdx f).map g = l.map h := by
  refine List.ext_getElem (by simp) fun i h₁ h₂ => ?_
  simp [hf]

/-- Generated inputs carry generated ids. -/
theorem id_of_mem_addedInputs {uuid4 : ℕ → UUID} {operators : List (Operator V)}
    {links : List Link} {constants : List WorkflowContentConstantInput}
    {inputs : List (WorkflowContentDynamicInput V)} {wfInput : WorkflowContentDynamicInput V}
    (h : wfInput ∈ addedInputs uuid4 operators links constants inputs) :
    ∃ i, wfInput.id = uuid4 i := by
  obtain ⟨i, _, rfl⟩ := List.mem_mapIdx.mp h
  exact ⟨i, rfl⟩

/-- Generated outputs carry generated ids. -/
theorem id_of_mem_addedOutputs {uuid4 : ℕ → UUID} {operators : List (Operator V)}
    {links : List Link} {outputs : List WorkflowContentOutput} {wfOutput : WorkflowContentOutput}
    (h : wfOutput ∈ addedOutputs uuid4 operators links outputs) : ∃ i, wfOutput.id = uuid4 i := by
  obtain ⟨i, _, rfl⟩ := List.mem_mapIdx.mp h
  exact ⟨i, rfl⟩

/-- Generated inputs refer to the operator inputs they are generated for. -/
theorem map_key_addedInputs (uuid4 : ℕ → UUID) (operators : List (Operator V)) (links : List Link)
    (constants : List WorkflowContentConstantInput)
    (inputs : List (WorkflowContentDynamicInput V)) :
    (addedInputs uuid4 operators links constants inputs).map (fun wfInput => wfInput.key) =
      ((operatorInputs operators).filter (operatorInputUnlinked links constants inputs)).map
        inputKey := by
  refine map_mapIdx_of_forall ?_ _
  exact fun _ _ => rfl

/-- Generated outputs refer to the operator outputs they are generated for. -/
theorem map_key_addedOutputs (uuid4 : ℕ → UUID) (operators : List (Operator V))
    (links : List Link) (outputs : List WorkflowContentOutput) :
    (addedOutputs uuid4 operators links outputs).map (fun wfOutput => wfOutput.key) =
      ((operatorOutputs operators).filter (operatorOutputUnlinked links outputs)).map
        outputKey := by
  refine map_mapIdx_of_forall ?_ _
  exact fun _ _ => rfl

namespace WorkflowContent

/-- Generated inputs refer to operator inputs. -/
theorem hasInput_of_mem_newInputs {uuid4 : ℕ → UUID} {data : WorkflowContent V}
    {wfInput : WorkflowContentDynamicInput V} (h : wfInput ∈ data.newInputs uuid4) :
    HasInput data.operators wfInput.key := by
  have hkey := List.mem_map_of_mem (f := fun wfInput => wfInput.key) h
  rw [newInputs, map_key_addedInputs] at hkey
  obtain ⟨entry, hentry, hkey⟩ := List.mem_map.mp hkey
  rw [← hasInput_renameOperators, ← hkey]
  exact ⟨entry.2, List.mem_map.mpr ⟨entry, (List.mem_filter.mp hentry).1, rfl⟩⟩

/-- What is generated for data with some keys is generated for data with all keys. -/
theorem mem_newInputs_of_with {keys : IoKeys} {uuid4 : ℕ → UUID} {data : WorkflowContent V}
    {wfInput : WorkflowContentDynamicInput V} (h : wfInput ∈ data.newInputsWith keys uuid4) :
    wfInput ∈ data.newInputs uuid4 := by
  unfold newInputsWith at h
  split at h
  · exact h
  · cases h

/-- Outputs are generated if they are given. -/
theorem mem_addedOutputs_of_with {keys : IoKeys} {uuid4 : ℕ → UUID} {data : WorkflowContent V}
    {wfOutput : WorkflowContentOutput} (h : wfOutput ∈ data.newOutputsWith keys uuid4) :
    wfOutput ∈ addedOutputs (fun i => uuid4 ((data.newInputsWith keys uuid4).length + i))
      (renameOperators data.operators) data.matchedLinks data.keptOutputs := by
  unfold newOutputsWith at h
  split at h
  · exact h
  · cases h

/-- Generated outputs refer to operator outputs. -/
theorem hasOutput_of_mem_newOutputs {keys : IoKeys} {uuid4 : ℕ → UUID} {data : WorkflowContent V}
    {wfOutput : WorkflowContentOutput} (h : wfOutput ∈ data.newOutputsWith keys uuid4) :
    HasOutput data.operators wfOutput.key := by
  have hkey := List.mem_map_of_mem (f := fun wfOutput => wfOutput.key) (mem_addedOutputs_of_with h)
  rw [map_key_addedOutputs] at hkey
  obtain ⟨entry, hentry, hkey⟩ := List.mem_map.mp hkey
  rw [← hasOutput_renameOperators, ← hkey]
  exact ⟨entry.2, List.mem_map.mpr ⟨entry, (List.mem_filter.mp hentry).1, rfl⟩⟩

/-- An input is generated for every exposed operator input under a key without source. -/
theorem countP_newInputs (uuid4 : ℕ → UUID) (data : WorkflowContent V) (key : UUID × UUID) :
    (data.newInputs uuid4).countP (fun wfInput => wfInput.key = key) =
      if data.sourceMissing key then exposedCount data.operators key else 0 := by
  have hkeys := map_key_addedInputs uuid4 (renameOperators data.operators) data.matchedLinks
    data.constants data.keptInputs
  have hcount := congrArg (List.countP fun k => decide (k = key)) hkeys
  rw [List.countP_map, List.countP_map, List.countP_filter] at hcount
  have hexposed : exposedCount data.operators key =
      (operatorInputs (renameOperators data.operators)).countP fun entry =>
        inputKey entry = key ∧ entry.2.exposed := by
    rw [exposedCount, ← inputConnectors_renameOperators, inputConnectors, List.countP_map]
    rfl
  refine Eq.trans hcount ?_
  -- Under one key, all exposed entries get the same verdict.
  have hentry (entry : Operator V × OperatorInput V) (h : inputKey entry = key) :
      operatorInputUnlinked data.matchedLinks data.constants data.keptInputs entry =
        (entry.2.exposed && data.sourceMissing key) := by
    subst h
    unfold operatorInputUnlinked sourceMissing
    rw [Bool.and_assoc, Bool.and_assoc, Bool.and_assoc]
    rfl
  split
  · rename_i hmissing
    rw [hexposed]
    refine List.countP_congr fun entry _ => ?_
    by_cases h : inputKey entry = key
    · simp [h, hentry entry h, hmissing]
    · simp [h]
  · rename_i hmissing
    refine List.countP_eq_zero.mpr fun entry _ => ?_
    by_cases h : inputKey entry = key
    · simp [hentry entry h, hmissing]
    · simp [h]

/-- The inputs which are generated for data with some keys. -/
theorem countP_newInputsWith (keys : IoKeys) (uuid4 : ℕ → UUID) (data : WorkflowContent V)
    (key : UUID × UUID) :
    (data.newInputsWith keys uuid4).countP (fun wfInput => wfInput.key = key) =
      if keys.inputs && data.sourceMissing key then exposedCount data.operators key else 0 := by
  unfold newInputsWith
  cases keys.inputs with
  | true => rw [if_pos rfl, countP_newInputs, Bool.true_and]
  | false => rfl

/-- Generated inputs do not change which outer starts are valid. -/
theorem outerLinkInvalidDueToWorkflowInput_append {keys : IoKeys} {uuid4 : ℕ → UUID}
    {data : WorkflowContent V} (hfresh : data.FreshIds uuid4) {link : Link}
    (hlink : link ∈ data.links) :
    outerLinkInvalidDueToWorkflowInput data.constants
        (data.keptInputs ++ data.newInputsWith keys uuid4) link =
      outerLinkInvalidDueToWorkflowInput data.constants data.keptInputs link := by
  unfold outerLinkInvalidDueToWorkflowInput
  rw [lastEntry_append_of_ne]
  intro wfInput hwfInput
  obtain ⟨i, hi⟩ := id_of_mem_addedInputs (mem_newInputs_of_with hwfInput)
  rw [hi]
  exact (hfresh i link hlink).1

/-- Generated outputs do not change which outer ends are valid. -/
theorem outerLinkInvalidDueToWorkflowOutput_append {keys : IoKeys} {uuid4 : ℕ → UUID}
    {data : WorkflowContent V} (hfresh : data.FreshIds uuid4) {link : Link}
    (hlink : link ∈ data.links) :
    outerLinkInvalidDueToWorkflowOutput (data.keptOutputs ++ data.newOutputsWith keys uuid4) link =
      outerLinkInvalidDueToWorkflowOutput data.keptOutputs link := by
  unfold outerLinkInvalidDueToWorkflowOutput
  rw [lastEntry_append_of_ne]
  intro wfOutput hwfOutput
  obtain ⟨i, hi⟩ := id_of_mem_addedOutputs (mem_addedOutputs_of_with hwfOutput)
  rw [hi]
  exact (hfresh _ link hlink).2

/-! ## Sources in an accepted content -/

/-- Every accepted link is a matched link up to positions, with a valid outer end. -/
theorem AcceptedWith.exists_matched [UnicodeData] {keys : IoKeys} {uuid4 : ℕ → UUID}
    {data content : WorkflowContent V} (h : data.AcceptedWith keys uuid4 content) {link : Link} (hlink : link ∈ content.links) :
    ∃ link' ∈ data.links, link'.start.key = link.start.key ∧ link'.finish.key = link.finish.key ∧
      linkMatchesOperators data.operators link' = true ∧
      outerLinkValid content.constants content.inputs content.outputs link' = true := by
  obtain ⟨link', hlink', horigin⟩ := h.links.exists_mem hlink
  obtain ⟨hmatched, hvalid⟩ := List.mem_filter.mp hlink'
  obtain ⟨hdata, hmatches⟩ := List.mem_filter.mp hmatched
  exact ⟨link', hdata, congrArg (fun l => l.start.key) horigin,
    congrArg (fun l => l.finish.key) horigin, hmatches, h.constants ▸ hvalid⟩

/-- Links of an accepted content start outside or at an operator output. -/
theorem AcceptedWith.linkStarts [UnicodeData] {keys : IoKeys} {uuid4 : ℕ → UUID}
    {data content : WorkflowContent V} (h : data.AcceptedWith keys uuid4 content) {link : Link} (hlink : link ∈ content.links)
    {operator : UUID} (hstart : link.start.operator = some operator) :
    HasOutput content.operators (operator, link.start.connector.id) := by
  obtain ⟨link', -, hstartKey, -, hmatches, -⟩ := h.exists_matched hlink
  obtain ⟨hoperator, hid⟩ := Prod.mk.inj hstartKey
  rw [h.operators, hasOutput_renameOperators, ← hid]
  exact hasOutput_of_linkMatchesOperators hmatches (hoperator.trans hstart)

/-- Links of an accepted content end outside or at an exposed operator input. -/
theorem AcceptedWith.linkEnds [UnicodeData] {keys : IoKeys} {uuid4 : ℕ → UUID}
    {data content : WorkflowContent V} (h : data.AcceptedWith keys uuid4 content) {link : Link} (hlink : link ∈ content.links)
    {operator : UUID} (hfinish : link.finish.operator = some operator) :
    HasExposedInput content.operators (operator, link.finish.connector.id) := by
  obtain ⟨link', -, -, hfinishKey, hmatches, -⟩ := h.exists_matched hlink
  obtain ⟨hoperator, hid⟩ := Prod.mk.inj hfinishKey
  rw [h.operators, hasExposedInput_renameOperators, ← hid]
  exact hasExposedInput_of_linkMatchesOperators hmatches (hoperator.trans hfinish)

/-- Dynamic inputs of an accepted content refer to operator inputs. -/
theorem AcceptedWith.inputsRefer [UnicodeData] {keys : IoKeys} {uuid4 : ℕ → UUID}
    {data content : WorkflowContent V} (h : data.AcceptedWith keys uuid4 content) {wfInput : WorkflowContentDynamicInput V}
    (hwfInput : wfInput ∈ content.inputs) : HasInput content.operators wfInput.key := by
  rw [h.operators, hasInput_renameOperators]
  rw [h.inputs] at hwfInput
  rcases List.mem_append.mp hwfInput with hkept | hnew
  · exact hasInput_of_wfInputKept (List.mem_filter.mp hkept).2
  · exact hasInput_of_mem_newInputs (mem_newInputs_of_with hnew)

/-- Outputs of an accepted content refer to operator outputs. -/
theorem AcceptedWith.outputsRefer [UnicodeData] {keys : IoKeys} {uuid4 : ℕ → UUID}
    {data content : WorkflowContent V} (h : data.AcceptedWith keys uuid4 content) {wfOutput : WorkflowContentOutput}
    (hwfOutput : wfOutput ∈ content.outputs) : HasOutput content.operators wfOutput.key := by
  rw [h.operators, hasOutput_renameOperators]
  rw [h.outputs] at hwfOutput
  rcases List.mem_append.mp hwfOutput with hkept | hnew
  · exact hasOutput_of_wfOutputKept (List.mem_filter.mp hkept).2
  · exact hasOutput_of_mem_newOutputs hnew

/-- Links of an accepted content which come from outside start at a constant or an input. -/
theorem AcceptedWith.outerStarts [UnicodeData] {keys : IoKeys} {uuid4 : ℕ → UUID}
    {data content : WorkflowContent V} (h : data.AcceptedWith keys uuid4 content) {link : Link} (hlink : link ∈ content.links)
    (hstart : link.start.operator = none) :
    (∃ constant ∈ content.constants, constant.id = link.start.connector.id) ∨
      ∃ wfInput ∈ content.inputs, wfInput.id = link.start.connector.id := by
  obtain ⟨link', -, hstartKey, -, -, hvalid⟩ := h.exists_matched hlink
  obtain ⟨hoperator, hid⟩ := Prod.mk.inj hstartKey
  rw [← hid]
  rcases outerStart_of_outerLinkValid hvalid (hoperator.trans hstart) with hconstant |
    ⟨wfInput, hmem, hid, -⟩
  · exact Or.inl hconstant
  · exact Or.inr ⟨wfInput, hmem, hid⟩

/-- Links of an accepted content which lead outside end at an output. -/
theorem AcceptedWith.outerEnds [UnicodeData] {keys : IoKeys} {uuid4 : ℕ → UUID}
    {data content : WorkflowContent V} (h : data.AcceptedWith keys uuid4 content) {link : Link} (hlink : link ∈ content.links)
    (hfinish : link.finish.operator = none) :
    ∃ wfOutput ∈ content.outputs, wfOutput.id = link.finish.connector.id := by
  obtain ⟨link', -, -, hfinishKey, -, hvalid⟩ := h.exists_matched hlink
  obtain ⟨hoperator, hid⟩ := Prod.mk.inj hfinishKey
  rw [← hid]
  obtain ⟨wfOutput, hmem, hid, -⟩ := outerEnd_of_outerLinkValid hvalid (hoperator.trans hfinish)
  exact ⟨wfOutput, hmem, hid⟩

/-- With fresh generated ids the links of an accepted content are the surviving ones. -/
theorem AcceptedWith.sameButPositions_survivingLinks [UnicodeData] {keys : IoKeys} {uuid4 : ℕ → UUID}
    {data content : WorkflowContent V} (h : data.AcceptedWith keys uuid4 content)
    (hfresh : data.FreshIds uuid4) : SameButPositions content.links data.survivingLinks := by
  refine h.links.trans ?_
  have hsame : cleanUpOuterLinks data.constants content.inputs content.outputs data.matchedLinks =
      data.survivingLinks := by
    refine List.filter_congr fun link hlink => ?_
    have hdata : link ∈ data.links := (List.mem_filter.mp hlink).1
    rw [outerLinkValid, outerLinkValid, h.inputs, h.outputs,
      outerLinkInvalidDueToWorkflowInput_append hfresh hdata,
      outerLinkInvalidDueToWorkflowOutput_append hfresh hdata]
  rw [hsame]
  exact .refl _

/-- Dropping outer links keeps the links from operators to an operator input. -/
theorem countP_linkFromOperatorTo_cleanUpOuterLinks
    (constants : List WorkflowContentConstantInput) (inputs : List (WorkflowContentDynamicInput V))
    (outputs : List WorkflowContentOutput) (links : List Link) (key : UUID × UUID) :
    (cleanUpOuterLinks constants inputs outputs links).countP (linkFromOperatorTo key) =
      links.countP (linkFromOperatorTo key) := by
  rw [cleanUpOuterLinks, List.countP_filter]
  refine List.countP_congr fun link _ => ?_
  simp only [linkFromOperatorTo, Bool.decide_and, Bool.and_eq_true, decide_eq_true_eq]
  refine ⟨And.left, fun h => ⟨h, ?_⟩⟩
  obtain ⟨hstart, hfinish⟩ := h
  have hend : link.finish.operator = some key.1 := congrArg Prod.fst hfinish
  exact outerLinkValid_of_inner _ _ _ hstart (by simp [hend])

/-- The sources of an operator input after validation are those in the data and the generated
inputs. -/
theorem AcceptedWith.sourceCount [UnicodeData] {keys : IoKeys} {uuid4 : ℕ → UUID}
    {data content : WorkflowContent V} (h : data.AcceptedWith keys uuid4 content) (key : UUID × UUID) :
    HetidaDesigner.sourceCount content.links content.constants content.inputs key =
      data.dataSources key +
        if keys.inputs && data.sourceMissing key then exposedCount data.operators key else 0 := by
  have hlinks : content.links.countP (linkFromOperatorTo key) =
      data.matchedLinks.countP (linkFromOperatorTo key) := by
    have hmap := h.links.map_eq (f := linkFromOperatorTo key) fun _ => rfl
    have hcount := congrArg (List.countP id) hmap
    rw [List.countP_map, List.countP_map] at hcount
    exact hcount.trans (countP_linkFromOperatorTo_cleanUpOuterLinks _ _ _ _ _)
  rw [HetidaDesigner.sourceCount, dataSources, HetidaDesigner.sourceCount, hlinks, h.constants,
    h.inputs, List.countP_append, countP_newInputsWith]
  omega

/-- An operator input whose source validation does not see as missing has a source. -/
theorem dataSources_pos_of_not_sourceMissing {data : WorkflowContent V} {key : UUID × UUID}
    (h : data.sourceMissing key = false) : 0 < data.dataSources key := by
  rw [dataSources, HetidaDesigner.sourceCount]
  simp only [sourceMissing, Bool.and_eq_false_iff, Bool.not_eq_false'] at h
  rcases h with (h | h) | h
  · obtain ⟨wfInput, hmem, hkey⟩ := List.any_eq_true.mp h
    have hpos := List.countP_pos_iff (p := fun w => decide (w.key = key)).mpr ⟨wfInput, hmem, hkey⟩
    omega
  · obtain ⟨constant, hmem, hkey⟩ := List.any_eq_true.mp h
    have hpos := List.countP_pos_iff (p := fun c => decide (c.key = key)).mpr ⟨constant, hmem, hkey⟩
    omega
  · cases hlast : linkByEnd data.matchedLinks (some key.1, key.2) with
    | none => simp [hlast] at h
    | some link =>
      obtain ⟨hmem, hfinish⟩ := mem_of_lastEntry hlast
      simp only [hlast, decide_eq_false_iff_not] at h
      have hpos := List.countP_pos_iff (p := linkFromOperatorTo key).mpr
        ⟨link, hmem, by simp [linkFromOperatorTo, h, hfinish]⟩
      omega

/-- An existing exposed operator input is counted. -/
theorem exposedCount_pos {operators : List (Operator V)} {key : UUID × UUID}
    (h : HasExposedInput operators key) : 0 < exposedCount operators key := by
  obtain ⟨input, hmem, hexposed⟩ := h
  exact List.countP_pos_iff.mpr ⟨(key, input), hmem, by simp [hexposed]⟩

/-- After validation an exposed operator input has one source exactly if the data has one that
validation sees if it looks for one, or has none, inputs are given and the operator input is listed
once. -/
theorem AcceptedWith.sourceCount_eq_one_iff [UnicodeData] {keys : IoKeys} {uuid4 : ℕ → UUID}
    {data content : WorkflowContent V} (h : data.AcceptedWith keys uuid4 content) {key : UUID × UUID}
    (hexposed : HasExposedInput data.operators key) :
    HetidaDesigner.sourceCount content.links content.constants content.inputs key = 1 ↔
      (data.dataSources key = 1 ∧ (keys.inputs = true → data.sourceMissing key = false)) ∨
        (keys.inputs = true ∧ data.dataSources key = 0 ∧ exposedCount data.operators key = 1) := by
  have hpos := exposedCount_pos hexposed
  rw [h.sourceCount]
  cases keys.inputs with
  | false =>
    simp only [Bool.false_and, Bool.false_eq_true, if_false, Nat.add_zero, IsEmpty.forall_iff,
      and_true, false_and, or_false]
  | true =>
    rw [Bool.true_and]
    cases hmissing : data.sourceMissing key with
    | true =>
      simp only [if_true, Bool.true_eq_false, imp_false, not_true, and_false, false_or, true_and]
      omega
    | false =>
      have hsources := dataSources_pos_of_not_sourceMissing hmissing
      simp only [Bool.false_eq_true, if_false, true_imp_iff, and_true, true_and]
      omega

/-- Accepted contents are well-formed exactly on data with single sources. -/
theorem wellFormed_iff_singleSources [UnicodeData] {keys : IoKeys} {uuid4 : ℕ → UUID}
    {data content : WorkflowContent V} (hvalidate : data.validateWith keys uuid4 = .ok content)
    (hfresh : data.FreshIds uuid4) :
    content.WellFormed ↔ (data.received keys).SingleSources keys := by
  have h := acceptedWith_of_validateWith hvalidate
  replace hfresh : (data.received keys).FreshIds uuid4 := hfresh
  generalize data.received keys = data at h hfresh ⊢
  have hends : (content.links.map fun link => link.finish.key) =
      data.survivingLinks.map fun link => link.finish.key :=
    (h.sameButPositions_survivingLinks hfresh).map_eq fun _ => rfl
  constructor
  · intro hwf
    refine ⟨?_, hends ▸ hwf.oneLinkPerEnd, fun key hkey => ?_⟩
    · intro constant hconstant
      have hrefers := hwf.constantsRefer constant (h.constants ▸ hconstant)
      rwa [h.operators, hasInput_renameOperators] at hrefers
    · refine (h.sourceCount_eq_one_iff hkey).mp (hwf.oneSource key ?_)
      rwa [h.operators, hasExposedInput_renameOperators]
  · intro hsingle
    have hsource (key : UUID × UUID) (hkey : HasExposedInput content.operators key) :
        HetidaDesigner.sourceCount content.links content.constants content.inputs key = 1 := by
      rw [h.operators, hasExposedInput_renameOperators] at hkey
      exact (h.sourceCount_eq_one_iff hkey).mpr (hsingle.sources key hkey)
    have hconstants (constant : WorkflowContentConstantInput)
        (hconstant : constant ∈ content.constants) :
        HasInput content.operators constant.key := by
      rw [h.operators, hasInput_renameOperators]
      exact hsingle.constantsRefer constant (h.constants ▸ hconstant)
    exact {
      linkStarts := fun _ hlink _ hstart => h.linkStarts hlink hstart
      linkEnds := fun _ hlink _ hfinish => h.linkEnds hlink hfinish
      oneLinkPerEnd := hends ▸ hsingle.endsDiffer
      oneSource := hsource
      inputsRefer := fun _ hwfInput => h.inputsRefer hwfInput
      constantsRefer := hconstants
      outputsRefer := fun _ hwfOutput => h.outputsRefer hwfOutput
      outerStarts := fun _ hlink hstart => h.outerStarts hlink hstart
      outerEnds := fun _ hlink hfinish => h.outerEnds hlink hfinish }

end WorkflowContent

/-! ## Two links to one operator input -/

/-- Unicode tables without word characters and whitespace outside of ASCII. -/
abbrev asciiOnly : UnicodeData := ⟨fun _ => false, fun _ => false⟩

/-- Random identifiers which are not below a bound. -/
def uuid4Above (bound : ℕ) (i : ℕ) : UUID := bound + i

/-- A connector at the origin. -/
def plainConnector (id : UUID) : Connector :=
  { id := id, name := some ['x'], dataType := .float, position := .origin }

/-- An operator which instantiates a released component. -/
def plainOperator (id : UUID) (name : Char) (inputs : List (OperatorInput ℤ))
    (outputs : List OperatorOutput) : Operator ℤ where
  id := id
  revisionGroupId := 100
  name := [name]
  type := .component
  state := .released
  versionTag := ['1']
  transformationId := 101
  inputs := inputs
  outputs := outputs
  position := .origin

/-- A link between plain connectors of two operators. -/
def plainLink (id start startConnector finish finishConnector : UUID) (h : start ≠ finish) :
    Link where
  id := id
  start := ⟨some start, plainConnector startConnector⟩
  finish := ⟨some finish, plainConnector finishConnector⟩
  path := []
  types_match := Or.inl rfl
  no_self_reference := fun heq => h (Option.some.inj heq)
  no_link_without_operator := fun hnone => nomatch hnone.1

/-- An input of an operator which is required. -/
def plainInput (id : UUID) : OperatorInput ℤ :=
  { plainConnector id with
    type := .required, value := none, exposed := true
    value_set_only_for_optional_input := InputType.required_without_value
    required_inputs_exposed := fun _ => rfl }

/-- A workflow input which refers to an input of the operator `A`. -/
def linkedInput : WorkflowContentDynamicInput ℤ where
  id := 51
  name := some ['u']
  dataType := .float
  position := ⟨7, 7⟩
  operatorId := 1
  connectorId := 12
  operatorName := ['A']
  connectorName := some ['x']
  type := .required
  value := none
  value_set_only_for_optional_input := InputType.required_without_value

/-- A workflow output which refers to an output of the operator `C`. -/
def linkedOutput : WorkflowContentOutput where
  id := 61
  name := some ['v']
  dataType := .float
  position := .origin
  operatorId := 3
  connectorId := 33
  operatorName := ['C']
  connectorName := some ['x']

/-- The link from the workflow input; its start is somewhere. -/
def linkFromInput (position : Position) : Link where
  id := 42
  start := ⟨none, { linkedInput with position := position }⟩
  finish := ⟨some 1, plainConnector 12⟩
  path := []
  types_match := Or.inl rfl
  no_self_reference := (Option.some_ne_none 1).symm
  no_link_without_operator := fun hnone => absurd hnone.2 (Option.some_ne_none 1)

/-- The link to the workflow output. -/
def linkToOutput : Link where
  id := 43
  start := ⟨some 3, plainConnector 33⟩
  finish := ⟨none, { linkedOutput with }⟩
  path := []
  types_match := Or.inl rfl
  no_self_reference := by decide
  no_link_without_operator := by decide

/-- A link from the output of the operator `A` to the input of the operator `C`. -/
def linkBetween : Link :=
  plainLink 41 1 11 3 31 (by decide)

/-- Two operators whose outputs are both linked to the only input of a third one. -/
def twoLinksToOneInput : WorkflowContent ℤ where
  operators := [
    plainOperator 1 'A' [] [plainConnector 11],
    plainOperator 2 'B' [] [plainConnector 21],
    plainOperator 3 'C' [plainInput 31] []]
  links := [linkBetween, plainLink 42 2 21 3 31 (by decide)]
  constants := []
  inputs := []
  outputs := []

/-- The two links pass validation unchanged. -/
theorem twoLinksToOneInput_not_wellFormed :
    @WorkflowContent.validate ℤ asciiOnly (uuid4Above 1000) twoLinksToOneInput =
        .ok twoLinksToOneInput ∧
      ¬ twoLinksToOneInput.WellFormed :=
  ⟨by decide, fun h => absurd h.oneLinkPerEnd (by decide)⟩

/-- An operator whose output is linked to another one with one more input and an output. -/
def linkedOperators : WorkflowContent ℤ where
  operators := [
    plainOperator 1 'A' [] [plainConnector 11],
    plainOperator 3 'C' [plainInput 31, plainInput 32] [plainConnector 33]]
  links := [linkBetween]
  constants := []
  inputs := []
  outputs := []

/-- The input and the output without a link are generated, and the content is well-formed. -/
theorem linkedOperators_wellFormed : ∃ content,
    @WorkflowContent.validateWith ℤ asciiOnly .all (uuid4Above 1000) linkedOperators = .ok content ∧
      content.inputs.map (fun wfInput => wfInput.key) = [(3, 32)] ∧
      content.outputs.map (fun wfOutput => wfOutput.key) = [(3, 33)] ∧ content.WellFormed := by
  let content : WorkflowContent ℤ := { linkedOperators with
    inputs := [generatedInput 1000 (plainOperator 3 'C' [plainInput 31, plainInput 32]
      [plainConnector 33], plainInput 32)]
    outputs := [generatedOutput 1001 (plainOperator 3 'C' [plainInput 31, plainInput 32]
      [plainConnector 33], plainConnector 33)] }
  have hvalid : @WorkflowContent.validateWith ℤ asciiOnly .all (uuid4Above 1000) linkedOperators =
      .ok content := by decide
  have hfresh : linkedOperators.FreshIds (uuid4Above 1000) := by
    intro i link hlink
    have hsmall : ∀ link ∈ linkedOperators.links,
        link.start.connector.id < 1000 ∧ link.finish.connector.id < 1000 := by decide
    have hlarge : 1000 ≤ uuid4Above 1000 i := Nat.le_add_right _ _
    exact ⟨Nat.ne_of_gt (Nat.lt_of_lt_of_le (hsmall link hlink).1 hlarge),
      Nat.ne_of_gt (Nat.lt_of_lt_of_le (hsmall link hlink).2 hlarge)⟩
  refine ⟨content, hvalid, rfl, rfl, (@WorkflowContent.wellFormed_iff_singleSources ℤ asciiOnly _ _
    _ _ hvalid hfresh).mpr ⟨fun _ hconstant => absurd hconstant List.not_mem_nil, by decide, ?_⟩⟩
  rintro key ⟨input, hmem, -⟩
  rcases List.mem_pair.mp hmem with heq | heq <;> cases heq <;> decide

/-- If the key of the inputs is missing, none is generated, and an operator input has no source. -/
example : (@WorkflowContent.validateWith ℤ asciiOnly ⟨false, true⟩ (uuid4Above 1000)
    linkedOperators).map (fun content => content.inputs) = .ok [] ∧
      ¬ linkedOperators.dataSources (3, 32) = 1 := by
  decide

end HetidaDesigner
