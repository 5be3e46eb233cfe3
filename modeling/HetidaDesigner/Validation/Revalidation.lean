import HetidaDesigner.Validation.SecondPass

/-!
# Validating an accepted workflow once more

Every load from the database validates the stored data again. An accepted workflow passes a
second validation unchanged if it is settled, and a tidy one only then.
-/

namespace HetidaDesigner

open Checks LastEntry

variable {V W : Type}

/-! ## Contents -/

namespace WorkflowContent

variable {uuid4 : ℕ → UUID} {content again : WorkflowContent V}

/-- Named inputs which touch the same link are the same. -/
theorem Consistent.input_eq_of_touches (h : content.Consistent)
    {a b : WorkflowContentDynamicInput V} (ha : a ∈ content.inputs) (hb : b ∈ content.inputs)
    (hnamed : a.named = true) {link : Link} (hta : touchesStart a link)
    (htb : touchesStart b link) : a = b := by
  have hna : a.name = link.start.connector.name := (of_decide_eq_true hta.2).2.1
  have hnb : b.name = link.start.connector.name := (of_decide_eq_true htb.2).2.1
  exact eq_of_namesEmptyOrUnique h.inputNames ha hb hnamed (hna.trans hnb.symm)

/-- Named outputs which touch the same link are the same. -/
theorem Consistent.output_eq_of_touches (h : content.Consistent) {a b : WorkflowContentOutput}
    (ha : a ∈ content.outputs) (hb : b ∈ content.outputs) (hnamed : a.named = true) {link : Link}
    (hta : touchesFinish a link) (htb : touchesFinish b link) : a = b := by
  have hna : a.name = link.finish.connector.name := (of_decide_eq_true hta.2).2.1
  have hnb : b.name = link.finish.connector.name := (of_decide_eq_true htb.2).2.1
  exact eq_of_namesEmptyOrUnique h.outputNames ha hb hnamed (hna.trans hnb.symm)

variable [UnicodeData]

/-- The links of an accepted content are those left by both clean-ups, up to invalid outer
links. -/
theorem exists_aligned_of_validate {data : WorkflowContent V}
    (h : data.validate uuid4 = .ok content) :
    ∃ kept aligned, cleanUpWorkflowContentInputs (renameOperators data.operators)
        data.matchedLinks data.inputs = .ok (kept, aligned) ∧
      content.links = cleanUpOuterLinks data.constants content.inputs content.outputs
        (cleanUpWorkflowContentOutputs (renameOperators data.operators) aligned data.outputs).2 := by
  have hmatched : linkConnectorsMatchOperatorIos (renameOperators data.operators) data.links =
      data.matchedLinks := by
    rw [matchedLinks, linkConnectorsMatchOperatorIos, linkMatchesOperators_renameOperators]
    rfl
  unfold validate validateWith at h
  obtain ⟨-, h⟩ := require_bind_eq_ok.mp h
  obtain ⟨-, h⟩ := require_bind_eq_ok.mp h
  obtain ⟨⟨kept, aligned⟩, hinputs, h⟩ := bind_eq_ok.mp h
  obtain ⟨-, h⟩ := require_bind_eq_ok.mp h
  obtain ⟨-, h⟩ := require_bind_eq_ok.mp h
  obtain rfl := return_eq_ok.mp h
  rw [received_all, hmatched] at hinputs
  exact ⟨kept, aligned, hinputs, rfl⟩

/-- The links of a returned content are those left by both clean-ups. -/
theorem Returned.exists_aligned (h : Returned uuid4 content again) :
    ∃ kept aligned, cleanUpWorkflowContentInputs content.operators content.links content.inputs =
        .ok (kept, aligned) ∧ SameButPositions aligned content.links ∧
      (cleanUpWorkflowContentOutputs content.operators aligned content.outputs).2 =
        content.links := by
  obtain ⟨kept, aligned, hinputs, hlinks⟩ := exists_aligned_of_validate h.validate
  rw [h.renameOperators] at hinputs hlinks
  rw [h.matchedLinks] at hinputs
  have haligned := (cleanUpWorkflowContentInputs_ok hinputs).2
  have hsame := (cleanUpWorkflowContentOutputs_spec content.operators aligned content.outputs).2
  refine ⟨kept, aligned, hinputs, haligned, ?_⟩
  have hlength := congrArg List.length (hsame.trans haligned)
  rw [List.length_map, List.length_map] at hlength
  rw [h.links, cleanUpOuterLinks] at hlinks
  have hall : (List.filter (outerLinkValid content.constants again.inputs again.outputs)
      (cleanUpWorkflowContentOutputs content.operators aligned content.outputs).2).length =
      (cleanUpWorkflowContentOutputs content.operators aligned content.outputs).2.length := by
    rw [← hlinks, hlength]
  rw [hlinks]
  exact (List.filter_eq_self.mpr (List.length_filter_eq_length_iff.mp hall)).symm

/-- Links of a returned content start where the named inputs are. -/
theorem Returned.startsAligned (h : Returned uuid4 content again) (hconsistent : content.Consistent)
    (hkept : ∀ wfInput ∈ content.inputs,
      wfInputKept content.operators content.links wfInput = true) :
    ∀ wfInput ∈ content.inputs, wfInput.named = true → ∀ link ∈ content.links,
      touchesStart wfInput link → link.start.connector.position = wfInput.position := by
  intro wfInput hmem hnamed link hlink htouches
  obtain ⟨kept, aligned, hinputs, -, hlinks⟩ := h.exists_aligned
  have hstart : link.start ∈ aligned.map Link.start := by
    rw [← map_start_cleanUpWorkflowContentOutputs content.operators aligned content.outputs, hlinks]
    exact List.mem_map_of_mem hlink
  obtain ⟨link', hlink', hstart⟩ := List.mem_map.mp hstart
  have htouches' : touchesStart wfInput link' := by
    unfold touchesStart
    rwa [hstart]
  obtain ⟨w, hw, hwnamed, hwtouches, hposition⟩ :=
    exists_start_position hinputs hkept hlink' ⟨wfInput, hmem, hnamed, htouches'⟩
  rw [← hstart, hposition, hconsistent.input_eq_of_touches hw hmem hwnamed hwtouches htouches']

/-- Links of a returned content end where the named outputs are. -/
theorem Returned.endsAligned (h : Returned uuid4 content again) (hconsistent : content.Consistent)
    (hkept : ∀ wfOutput ∈ content.outputs,
      wfOutputKept content.operators content.links wfOutput = true) :
    ∀ wfOutput ∈ content.outputs, wfOutput.named = true → ∀ link,
      linkByEnd content.links (none, wfOutput.id) = some link → touchesFinish wfOutput link →
        link.finish.connector.position = wfOutput.position := by
  intro wfOutput hmem hnamed link hlast htouches
  obtain ⟨kept, aligned, -, haligned, hlinks⟩ := h.exists_aligned
  rw [← hlinks] at hlast
  have hkept' : ∀ w ∈ content.outputs, wfOutputKept content.operators aligned w = true :=
    fun w hw => by rw [haligned.wfOutputKept]; exact hkept w hw
  obtain ⟨w, hw, hwnamed, hwtouches, hposition⟩ :=
    exists_finish_position hkept' hlast ⟨wfOutput, hmem, hnamed, htouches⟩
  rw [hposition, hconsistent.output_eq_of_touches hw hmem hwnamed hwtouches htouches]

/-- A consistent and tidy content which validation returns is settled. -/
theorem Returned.settled (h : Returned uuid4 content again) (hconsistent : content.Consistent)
    (htidy : content.Tidy) : content.Settled := by
  have hnewInputs := h.newInputs_eq_nil hconsistent htidy
  have hnewOutputs := h.newOutputs_eq_nil hconsistent htidy
  have hinputs := h.inputsKept hnewInputs
  have houtputs := h.outputsKept hnewOutputs
  exact {
    strings := (accepted_of_validate h.validate).strings
    names := (renameOperators_eq_iff _).mp h.renameOperators
    covered := h.covered hnewInputs hnewOutputs
    linksMatch := List.filter_eq_self.mp h.matchedLinks
    inputsKept := hinputs
    outputsKept := houtputs
    startsAligned := h.startsAligned hconsistent hinputs
    endsAligned := h.endsAligned hconsistent houtputs }

end WorkflowContent

/-! ## Transformation revisions -/

/-- An io interface without the ids of its unnamed entries. -/
def IOInterface.withoutUnnamedIds (ioInterface : IOInterface V) : IOInterface V where
  inputs := ioInterface.inputs.map fun input => if input.named then input else { input with id := 0 }
  outputs := ioInterface.outputs.map fun output =>
    if output.named then output else { output with id := 0 }

/-- A content without the ids of its unnamed ios, if it is a workflow. -/
def Content.withoutUnnamedIds : Content V → Content V
  | .code text => .code text
  | .workflow content => .workflow content.withoutUnnamedIds

namespace TransformationRevision

/-- A revision without the ids of unnamed ios. -/
def withoutUnnamedIds (revision : TransformationRevision V W) : TransformationRevision V W :=
  { revision with
    content := revision.content.withoutUnnamedIds
    ioInterface := revision.ioInterface.withoutUnnamedIds }

/-- The workflow content of the revision is settled, and its interface has names unless it is a
draft. -/
def Settled [UnicodeData] (revision : TransformationRevision V W) : Prop :=
  ∃ content, revision.content = .workflow content ∧ content.Settled ∧
    revision.ioInterfaceNamed = true

/-- The workflow content of the revision is tidy. -/
def Tidy (revision : TransformationRevision V W) : Prop :=
  ∀ content, revision.content = .workflow content → content.Tidy

variable [DecidableEq V] [UnicodeData]

/-- A second validation accepts the revision and returns it up to ids of unnamed ios. -/
def Revalidates (uuid4 : ℕ → UUID) (revision : TransformationRevision V W) : Prop :=
  ∃ again, revision.validate uuid4 = .ok again ∧
    again.withoutUnnamedIds = revision.withoutUnnamedIds

omit [DecidableEq V] in
/-- The checks of all fields but the content. -/
def fieldsValid (data : TransformationRevision V W) : Prop :=
  data.stringsValid = true ∧ data.versionTagNotLatest = true ∧ data.timestampsFitState = true ∧
    data.ioInterface.ioNamesUnique = true ∧ data.ioInterfaceNamed = true

/-- The revision made of the data and its validated workflow content. -/
def withContent (data : TransformationRevision V W) (content : WorkflowContent V) :
    TransformationRevision V W :=
  { data with
    releasedTimestamp := data.releasedTimestampOrDisabled
    content := .workflow content
    ioInterface := fitIoInterface content data.ioInterface }

/-- Validation of workflows succeeds exactly if the fields and the content are valid. -/
theorem validateWith_eq_ok_iff {keys : IoKeys} {uuid4 : ℕ → UUID}
    {data revision : TransformationRevision V W} {contentData : WorkflowContent V}
    (htype : data.type = .workflow) (hcontent : data.content = .workflow contentData) :
    data.validateWith keys uuid4 = .ok revision ↔ data.fieldsValid ∧ ∃ content,
      validateWorkflowContentWith keys uuid4 data.state contentData = .ok content ∧
        revision = data.withContent content := by
  unfold validateWith
  simp only [require_bind_eq_ok]
  simp only [htype, hcontent, bind_eq_ok, return_eq_ok, fieldsValid, and_assoc]
  constructor
  · rintro ⟨h₁, h₂, h₃, h₄, h₅, content, hvalid, rfl⟩
    exact ⟨h₁, h₂, h₃, h₄, h₅, content, hvalid, by rw [withContent, htype]⟩
  · rintro ⟨h₁, h₂, h₃, h₄, h₅, content, hvalid, rfl⟩
    exact ⟨h₁, h₂, h₃, h₄, h₅, content, hvalid, by rw [withContent, htype]⟩

/-- The same for data with all keys. -/
theorem validate_eq_ok_iff {uuid4 : ℕ → UUID} {data revision : TransformationRevision V W}
    {contentData : WorkflowContent V} (htype : data.type = .workflow)
    (hcontent : data.content = .workflow contentData) :
    data.validate uuid4 = .ok revision ↔ data.fieldsValid ∧ ∃ content,
      validateWorkflowContent uuid4 data.state contentData = .ok content ∧
        revision = data.withContent content :=
  validateWith_eq_ok_iff htype hcontent

/-- An accepted revision keeps its type, and only a workflow has a workflow content. -/
theorem exists_content_of_validateWith {keys : IoKeys} {uuid4 : ℕ → UUID}
    {data revision : TransformationRevision V W} (h : data.validateWith keys uuid4 = .ok revision)
    (htype : revision.type = .workflow) :
    data.type = .workflow ∧ ∃ contentData, data.content = .workflow contentData := by
  unfold validateWith at h
  simp only [require_bind_eq_ok] at h
  obtain ⟨-, -, -, -, -, h⟩ := h
  split at h
  · obtain rfl := return_eq_ok.mp h
    rename_i hcomponent _
    exact absurd (htype.symm.trans hcomponent) (by decide)
  · rename_i contentData hworkflow hcontent
    exact ⟨hworkflow, contentData, hcontent⟩
  · cases h

omit [DecidableEq V] [UnicodeData] in
/-- Whether draft operators are allowed depends on their states only. -/
theorem onlyDraftsAllowed_iff (state : State) (operators : List (Operator V)) :
    onlyDraftsAllowedInDraftWorkflows state operators = .ok () ↔
      ∀ operator ∈ operators, operator.state = .draft → state = .draft := by
  unfold onlyDraftsAllowedInDraftWorkflows
  cases hfind : operators.find? fun operator => operator.state = .draft ∧ state ≠ .draft with
  | none => simpa using hfind
  | some operator =>
    have hmem := List.mem_of_find?_eq_some hfind
    have hdraft : operator.state = .draft ∧ state ≠ .draft := by simpa using List.find?_some hfind
    simp only [reduceCtorEq, false_iff]
    exact fun h => hdraft.2 (h operator hmem hdraft.1)

omit [DecidableEq V] in
/-- The content validators succeed exactly if the content is accepted and its operators may be
drafts. -/
theorem validateWorkflowContentWith_eq_ok_iff {keys : IoKeys} {uuid4 : ℕ → UUID} {state : State}
    {data content : WorkflowContent V} :
    validateWorkflowContentWith keys uuid4 state data = .ok content ↔
      ∃ accepted, data.validateWith keys uuid4 = .ok accepted ∧
        (∀ operator ∈ accepted.operators, operator.state = .draft → state = .draft) ∧
          content = accepted.filterUnnamedOperatorInputsAndOutputs := by
  unfold validateWorkflowContentWith
  simp only [bind_eq_ok, return_eq_ok, ← onlyDraftsAllowed_iff]
  constructor
  · rintro ⟨accepted, hvalid, ⟨⟩, hdrafts, rfl⟩
    exact ⟨accepted, hvalid, hdrafts, rfl⟩
  · rintro ⟨accepted, hvalid, hdrafts, rfl⟩
    exact ⟨accepted, hvalid, (), hdrafts, rfl⟩

omit [DecidableEq V] in
/-- The same for data with all keys. -/
theorem validateWorkflowContent_eq_ok_iff {uuid4 : ℕ → UUID} {state : State}
    {data content : WorkflowContent V} :
    validateWorkflowContent uuid4 state data = .ok content ↔
      ∃ accepted, data.validate uuid4 = .ok accepted ∧
        (∀ operator ∈ accepted.operators, operator.state = .draft → state = .draft) ∧
          content = accepted.filterUnnamedOperatorInputsAndOutputs :=
  validateWorkflowContentWith_eq_ok_iff

/-- The fields of an accepted workflow pass their checks again, except that its interface may
contain unnamed ios. -/
theorem fieldsValid_withContent {data : TransformationRevision V W} (h : data.fieldsValid)
    {content : WorkflowContent V} (hconsistent : content.Consistent) :
    (data.withContent content).fieldsValid ↔
      (data.withContent content).ioInterfaceNamed = true := by
  obtain ⟨hstrings, htag, htimestamps, -, -⟩ := h
  refine ⟨fun h => h.2.2.2.2, fun hnamed => ⟨hstrings, htag, ?_, ?_, hnamed⟩⟩
  · rw [← htimestamps]
    unfold timestampsFitState releasedTimestampOrDisabled withContent
    cases hstate : data.state <;> cases hreleased : data.releasedTimestamp <;>
      cases hdisabled : data.disabledTimestamp <;>
      simp [releasedTimestampOrDisabled, hreleased, hdisabled]
  · exact fitIoInterface_ioNamesUnique content data.ioInterface hconsistent.inputNames
      hconsistent.outputNames

/-- A second validation of an accepted workflow succeeds exactly if its interface has names
unless it is a draft, and its content passes validation again. -/
theorem validate_withContent_eq_ok_iff {data again : TransformationRevision V W}
    (hfields : data.fieldsValid) (htype : data.type = .workflow) {content : WorkflowContent V}
    (hconsistent : content.Consistent) (uuid4 : ℕ → UUID) :
    (data.withContent content).validate uuid4 = .ok again ↔
      (data.withContent content).ioInterfaceNamed = true ∧ ∃ content',
        validateWorkflowContent uuid4 data.state content = .ok content' ∧
          again = (data.withContent content).withContent content' := by
  have htype' : (data.withContent content).type = .workflow := htype
  have hcontent : (data.withContent content).content = .workflow content := rfl
  rw [validate_eq_ok_iff htype' hcontent, fieldsValid_withContent hfields hconsistent]
  rfl

omit [UnicodeData] in
/-- Fitting the interface to the same content again changes nothing. -/
theorem withContent_idem (data : TransformationRevision V W) (content : WorkflowContent V) :
    (data.withContent content).withContent content = data.withContent content := by
  unfold withContent
  simp only [fitIoInterface_idem]
  congr 1
  unfold releasedTimestampOrDisabled
  cases data.releasedTimestamp <;> cases data.disabledTimestamp <;> rfl

omit [DecidableEq V] [UnicodeData] in
/-- Renaming operators without unnamed ios gives operators without unnamed ios. -/
theorem filterUnnamed_renameOperators {content renamed : WorkflowContent V}
    (hfiltered : content.filterUnnamedOperatorInputsAndOutputs = content)
    (hrenamed : renamed.operators = renameOperators content.operators) :
    renamed.filterUnnamedOperatorInputsAndOutputs.operators = renamed.operators := by
  have hoperators := congrArg WorkflowContent.operators hfiltered
  have hsame := renameOperators_map (fun operator => (operator.inputs, operator.outputs))
    (fun _ _ => rfl) content.operators
  refine (List.map_congr_left fun operator hoperator => ?_).trans (List.map_id renamed.operators)
  rw [hrenamed] at hoperator
  have hmem := List.mem_map_of_mem (f := fun operator => (operator.inputs, operator.outputs)) hoperator
  rw [hsame, ← hoperators] at hmem
  obtain ⟨filtered, hfiltered, hios⟩ := List.mem_map.mp hmem
  obtain ⟨original, -, rfl⟩ := List.mem_map.mp hfiltered
  obtain ⟨hinputs, houtputs⟩ := Prod.mk.inj hios
  have hinputs' : operator.inputs.filter (fun input => input.named) = operator.inputs := by
    rw [← hinputs]
    simp [filterUnnamedOperatorIos]
  have houtputs' : operator.outputs.filter (fun output => output.named) = operator.outputs := by
    rw [← houtputs]
    simp [filterUnnamedOperatorIos]
  rw [filterUnnamedOperatorIos, hinputs', houtputs']
  rfl

/-- If no key of the ios is missing, nothing is left to be added to the accepted workflow. -/
theorem covered_of_validate {uuid4 : ℕ → UUID} {data revision : TransformationRevision V W}
    (hvalidate : data.validate uuid4 = .ok revision) (htype : revision.type = .workflow)
    {content : WorkflowContent V} (hcontent : revision.content = .workflow content) :
    content.Covered := by
  obtain ⟨hworkflow, contentData, hcontentData⟩ := exists_content_of_validateWith hvalidate htype
  obtain ⟨-, content', hcontent', rfl⟩ :=
    (validate_eq_ok_iff hworkflow hcontentData).mp hvalidate
  obtain ⟨accepted, haccepted, -, rfl⟩ := validateWorkflowContent_eq_ok_iff.mp hcontent'
  obtain rfl := Content.workflow.inj hcontent
  exact (WorkflowContent.accepted_of_validate haccepted).covered.filterUnnamed

end TransformationRevision

/-! ## An operator name with two numbers -/

/-- A draft workflow with some operators and no ios of its own. -/
def plainDraft (id : UUID) (operators : List (Operator ℤ)) : TransformationRevision ℤ Unit where
  id := id
  revisionGroupId := id
  name := ['W']
  description := []
  category := ['C']
  versionTag := ['1']
  disabledTimestamp := none
  releasedTimestamp := none
  state := .draft
  type := .workflow
  ioInterface := ⟨[], []⟩
  documentation := []
  content := .workflow ⟨operators, [], [], [], []⟩
  testWiring := ()
  releaseWiring := none

/-- A workflow with one operator of the given name. -/
def oneOperator (name : PyStr) : TransformationRevision ℤ Unit :=
  plainDraft 50 [{ plainOperator 1 'A' [] [] with name := name }]

/-- Two linked operators; the first one is fed by the workflow input, and one of two outputs of the
second one is linked to the workflow output. -/
def linkedIosContent (position : Position) (outputs : List WorkflowContentOutput) :
    WorkflowContent ℤ where
  operators := [
    plainOperator 1 'A' [plainInput 12] [plainConnector 11],
    plainOperator 3 'C' [plainInput 31] [plainConnector 33, plainConnector 34]]
  links := [linkFromInput position, linkBetween, linkToOutput]
  constants := []
  inputs := [linkedInput]
  outputs := outputs

/-- The workflow as it is given: the link starts besides its input, an output is missing, and the
interface is empty. -/
def linkedIosData : TransformationRevision ℤ Unit :=
  { plainDraft 50 [] with content := .workflow (linkedIosContent .origin [linkedOutput]) }

/-- What the first validation makes of the workflow. -/
def linkedIos : TransformationRevision ℤ Unit :=
  let outputs := [linkedOutput, generatedOutput 1000 (plainOperator 3 'C' [plainInput 31]
    [plainConnector 33, plainConnector 34], plainConnector 34)]
  { plainDraft 50 [] with
    content := .workflow (linkedIosContent linkedInput.position outputs)
    ioInterface := ⟨[linkedInput.toTransformationInput],
      outputs.map WorkflowContentIo.toTransformationOutput⟩ }

/-- If the key of the inputs is missing, only the second validation adds the input. -/
example :
    let _ := asciiOnly
    let first := linkedIosData.validateWith ⟨false, true⟩ (uuid4Above 1000)
    first.map (fun revision => revision.ioInterface.inputs.length) = .ok 0 ∧
      (first.bind fun revision => revision.validate (uuid4Above 2000)).map
        (fun revision => revision.ioInterface.inputs.length) = .ok 1 := by
  decide

end HetidaDesigner
