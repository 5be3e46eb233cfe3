import HetidaDesigner.Trafoutils.Constructed

/-!
# Finalized constructions

Finalizing keeps all which has been declared, unless an operator output has been made an output of
the workflow twice: the method `output` does not look whether it is one already, and validation
removes outputs whose operator output has links to elsewhere.
-/

namespace HetidaDesigner

open Checks KeyedList LastEntry

variable {V W : Type}

/-- Finalizing gives a workflow with all which has been declared. -/
def FinalizesDeclared [UnicodeData] [DecidableEq V] (metadata : WorkflowMetadata) (testWiring : W)
    (uuid4 : ConstructionDraw → UUID) (now : Timestamp) (state : Construction V) : Prop :=
  ∃ result content, state.finalize metadata testWiring uuid4 now = .ok result ∧
    result.content = .workflow content ∧ KeepsDeclared state content

/-- The workflow may be released: it is not disabled, uses no drafts, its operators keep valid names,
all its ios are named, and links lead to all operator inputs and from all operator outputs. -/
structure Construction.Releasable [UnicodeData] (state : Construction V)
    (metadata : WorkflowMetadata) : Prop where
  notDisabled : metadata.disabledTimestamp = none
  noDrafts : ∀ operator ∈ state.operators, operator.state ≠ .draft
  operatorNames :
    (renameOperators state.contentData.operators).all Operator.stringsValid = true
  inputsNamed : ∀ wfInput ∈ state.contentInputs, wfInput.named = true
  outputsNamed : ∀ wfOutput ∈ state.contentOutputs, wfOutput.named = true
  inputsLinked : ∀ operator ∈ state.operators, ∀ input ∈ operator.inputs,
    ∃ link ∈ state.links ++ state.ioLinks, link.finish.key = (some operator.id, input.id)
  outputsLinked : ∀ operator ∈ state.operators, ∀ output ∈ operator.outputs,
    ∃ link ∈ state.links ++ state.ioLinks, link.start.key = (some operator.id, output.id)

/-- The validators of a revision accept what the constructor was given and the names of the ios, and
drafts are only used in drafts. A workflow which is to be released may be. -/
structure Construction.Acceptable [UnicodeData] (state : Construction V)
    (metadata : WorkflowMetadata) (testWiring : W) : Prop where
  fields : (state.revisionData metadata testWiring state.contentData).fieldsValid
  drafts : ∀ operator ∈ state.operators, operator.state = .draft → metadata.state = .draft
  released : metadata.autoRelease = true → state.Releasable metadata

/-- A revision with the state and the timestamp which it gets when it is released. -/
def TransformationRevision.asReleased (now : Timestamp) (revision : TransformationRevision V W) :
    TransformationRevision V W :=
  { revision with
    releasedTimestamp := some now
    releaseWiring := some revision.testWiring
    state := .released }

/-! ## Validated revisions -/

section Validated

variable [UnicodeData] [DecidableEq V] {metadata : WorkflowMetadata} {testWiring : W}
  {uuid4 : ConstructionDraw → UUID} {state : Construction V}

omit [UnicodeData] [DecidableEq V] in
/-- Validation keeps the states of operators. -/
theorem Construction.states_of_renamed (p : State → Prop) :
    (∀ operator ∈ renameOperators state.contentData.operators, p operator.state) ↔
      ∀ operator ∈ state.operators, p operator.state := by
  have hstates : (renameOperators state.contentData.operators).map (fun operator => operator.state) =
      state.operators.map fun operator => operator.state := by
    rw [renameOperators_map (fun operator => operator.state) (fun _ _ => rfl),
      Construction.contentData, List.map_map]
    rfl
  rw [← List.forall_mem_map (f := fun operator : Operator V => operator.state) (P := p), hstates,
    List.forall_mem_map]

/-- Validation succeeds exactly if the content is accepted, the fields are valid, and drafts are
only used in drafts. -/
theorem Construction.validated_eq_ok_iff {result : TransformationRevision V W} :
    state.validated metadata testWiring uuid4 = .ok result ↔
      (state.revisionData metadata testWiring state.contentData).fieldsValid ∧
        (∀ operator ∈ state.operators, operator.state = .draft → metadata.state = .draft) ∧
          ∃ content, state.contentData.validate (fun i => uuid4 (.content i)) = .ok content ∧
            result = (state.revisionData metadata testWiring state.contentData).withContent
              content.filterUnnamedOperatorInputsAndOutputs := by
  have hdrafts {content : WorkflowContent V}
      (hvalid : state.contentData.validate (fun i => uuid4 (.content i)) = .ok content) :
      (∀ operator ∈ content.operators, operator.state = .draft → metadata.state = .draft) ↔
        ∀ operator ∈ state.operators, operator.state = .draft → metadata.state = .draft := by
    rw [(WorkflowContent.accepted_of_validate hvalid).operators]
    exact Construction.states_of_renamed fun s => s = .draft → metadata.state = .draft
  rw [Construction.validated, bind_eq_ok]
  constructor
  · rintro ⟨content, hvalid, hresult⟩
    obtain ⟨hfields, hstates, rfl⟩ := validateWithContent_eq_ok_iff.mp hresult
    exact ⟨hfields, (hdrafts hvalid).mp hstates, content, hvalid, rfl⟩
  · rintro ⟨hfields, hstates, content, hvalid, rfl⟩
    exact ⟨content, hvalid,
      validateWithContent_eq_ok_iff.mpr ⟨hfields, (hdrafts hvalid).mpr hstates, rfl⟩⟩

/-- Releasing keeps the content. -/
theorem TransformationRevision.content_of_release {draws : ℕ → UUID} {now : Timestamp}
    {revision released : TransformationRevision V W}
    (h : revision.release draws now = .ok released) : released.content = revision.content := by
  unfold TransformationRevision.release at h
  obtain ⟨-, h⟩ := require_bind_eq_ok.mp h
  obtain ⟨-, -, h⟩ := bind_eq_ok.mp h
  obtain rfl := return_eq_ok.mp h
  rfl

/-- Finalizing keeps what has been declared exactly if validation does and a workflow which is to be
released can be. -/
theorem finalizesDeclared_iff_validated {now : Timestamp} :
    FinalizesDeclared metadata testWiring uuid4 now state ↔
      (state.revisionData metadata testWiring state.contentData).fieldsValid ∧
        (∀ operator ∈ state.operators, operator.state = .draft → metadata.state = .draft) ∧
          ∃ content, state.contentData.validate (fun i => uuid4 (.content i)) = .ok content ∧
            KeepsDeclared state content ∧ (metadata.autoRelease = true → ∃ released,
              ((state.revisionData metadata testWiring state.contentData).withContent
                content.filterUnnamedOperatorInputsAndOutputs).release
                  (fun i => uuid4 (.release i)) now = .ok released) := by
  have hfinalize {result : TransformationRevision V W} :
      state.finalize metadata testWiring uuid4 now = .ok result ↔
        ∃ made, state.validated metadata testWiring uuid4 = .ok made ∧
          if metadata.autoRelease then
            made.release (fun i => uuid4 (.release i)) now = .ok result
          else made = result := by
    rw [Construction.finalize, bind_eq_ok]
    refine exists_congr fun made => and_congr_right fun _ => ?_
    split
    · exact .rfl
    · exact return_eq_ok
  constructor
  · rintro ⟨result, content', hresult, hcontent', hkeeps⟩
    obtain ⟨made, hmade, hreleased⟩ := hfinalize.mp hresult
    obtain ⟨hfields, hdrafts, content, hvalid, rfl⟩ := Construction.validated_eq_ok_iff.mp hmade
    refine ⟨hfields, hdrafts, content, hvalid, ?_, fun hauto => ?_⟩
    · have hsame : result.content =
          .workflow content.filterUnnamedOperatorInputsAndOutputs := by
        split at hreleased
        · exact TransformationRevision.content_of_release hreleased
        · exact congrArg TransformationRevision.content hreleased.symm
      obtain rfl := Content.workflow.inj (hcontent'.symm.trans hsame)
      exact ⟨hkeeps.links, hkeeps.constants, hkeeps.inputs, hkeeps.outputs⟩
    · rw [if_pos hauto] at hreleased
      exact ⟨result, hreleased⟩
  · rintro ⟨hfields, hdrafts, content, hvalid, hkeeps, hrelease⟩
    have hmade := Construction.validated_eq_ok_iff.mpr ⟨hfields, hdrafts, content, hvalid, rfl⟩
    have hfiltered : KeepsDeclared state content.filterUnnamedOperatorInputsAndOutputs :=
      ⟨hkeeps.links, hkeeps.constants, hkeeps.inputs, hkeeps.outputs⟩
    by_cases hauto : metadata.autoRelease = true
    · obtain ⟨released, hreleased⟩ := hrelease hauto
      refine ⟨released, _, hfinalize.mpr ⟨_, hmade, ?_⟩,
        TransformationRevision.content_of_release hreleased, hfiltered⟩
      rw [if_pos hauto]
      exact hreleased
    · have hdone := hfinalize.mpr ⟨_, hmade, (if_neg hauto).mpr rfl⟩
      exact ⟨_, _, hdone, rfl, hfiltered⟩

end Validated

/-! ## Operator outputs which are outputs of the workflow -/

section Apart

variable [UnicodeData] {uuid4 : ConstructionDraw → UUID} {state : Construction V}
  {declared : List (Declaration V)}

omit [UnicodeData] in
/-- All links from the operator output of a necessary output lead to it. -/
theorem eq_of_wfOutputUnnecessary {operators : List (Operator V)} {links : List Link}
    {wfOutput : WorkflowContentOutput} (h : wfOutputUnnecessary operators links wfOutput = false)
    {link : Link} (hlink : link ∈ links)
    (hstart : link.start.key = (some wfOutput.operatorId, wfOutput.connectorId)) :
    wfOutput.id = link.finish.connector.id := by
  unfold wfOutputUnnecessary at h
  split at h
  · cases h
  · rw [Bool.or_eq_false_iff, List.any_eq_false] at h
    have hmem : link ∈ linksByStart links (some wfOutput.operatorId, wfOutput.connectorId) :=
      mem_entries.mpr ⟨hlink, hstart⟩
    simpa using h.2 link hmem

/-- Declared ios of one kind have ids of their own, which were drawn for ios. -/
theorem Construction.Explained.nodup_ioIds (h : state.Explained uuid4 declared) {A : Type}
    {part : Declaration V → Option A} {id : A → UUID}
    (hpart : ∀ declaration a, part declaration = some a → declaration.ioId? = some (id a)) :
    ((declared.filterMap part).map id).Nodup ∧
      ∀ a ∈ declared.filterMap part, ∃ n, id a = uuid4 (.io n) := by
  constructor
  · have hmap : (declared.filterMap part).map id =
        (declared.filter fun declaration => (part declaration).isSome).filterMap
          Declaration.ioId? := by
      rw [List.map_filterMap, List.filterMap_filter]
      refine List.filterMap_congr fun declaration _ => ?_
      cases heq : part declaration with
      | none => rfl
      | some a => exact (hpart declaration a heq).symm
    rw [hmap]
    exact h.apart.ioIds.sublist (List.filter_sublist.filterMap _)
  · intro a ha
    obtain ⟨declaration, hdeclared, heq⟩ := List.mem_filterMap.mp ha
    obtain ⟨n, -, hdrawn⟩ := h.apart.drawn (id a)
      (List.mem_filterMap.mpr ⟨declaration, hdeclared, hpart declaration a heq⟩)
    exact ⟨n, hdrawn⟩

/-- Outputs have ids of their own, which were drawn for ios. -/
theorem Construction.Explained.nodup_outputIds (h : state.Explained uuid4 declared) :
    (state.contentOutputs.map fun wfOutput => wfOutput.id).Nodup ∧
      ∀ wfOutput ∈ state.contentOutputs, ∃ n, wfOutput.id = uuid4 (.io n) := by
  rw [h.lists.contentOutputs]
  refine h.nodup_ioIds fun declaration wfOutput heq => ?_
  cases declaration with
  | output wfOutput' made =>
    obtain rfl := Option.some.inj heq
    rfl
  | link made => cases heq
  | input wfInput made => cases heq
  | constant wfConstant made => cases heq

/-- Inputs have ids of their own, which were drawn for ios. -/
theorem Construction.Explained.nodup_inputIds (h : state.Explained uuid4 declared) :
    (state.contentInputs.map fun wfInput => wfInput.id).Nodup ∧
      ∀ wfInput ∈ state.contentInputs, ∃ n, wfInput.id = uuid4 (.io n) := by
  rw [h.lists.contentInputs]
  refine h.nodup_ioIds fun declaration wfInput heq => ?_
  cases declaration with
  | input wfInput' made =>
    obtain rfl := Option.some.inj heq
    rfl
  | link made => cases heq
  | output wfOutput made => cases heq
  | constant wfConstant made => cases heq

/-- An operator output of which two outputs are made loses them: validation finds a link to
elsewhere for each. -/
theorem Construction.Explained.nodup_outputKeys (huuid : Function.Injective uuid4)
    (h : state.Explained uuid4 declared) {content : WorkflowContent V}
    (haccepted : WorkflowContent.Accepted (fun i => uuid4 (.content i)) state.contentData content)
    (hkept : ∀ wfOutput ∈ state.contentOutputs, wfOutput ∈ content.outputs) :
    (state.contentOutputs.map fun wfOutput => wfOutput.key).Nodup := by
  have hconnected := h.connected (List.nil_subset _) (fun _ h => absurd h List.not_mem_nil)
  have hmatched : state.contentData.matchedLinks = state.contentData.links :=
    List.filter_eq_self.mpr fun link hlink => hconnected.linkMatchesOperators hlink
  refine List.pairwise_map.mpr ?_
  refine (List.pairwise_map.mp h.nodup_outputIds.1).imp_of_mem ?_
  intro wfOutput other hwfOutput hother hids hkeys
  have hmem := hkept wfOutput hwfOutput
  obtain ⟨n, hdrawn⟩ := h.nodup_outputIds.2 wfOutput hwfOutput
  rw [haccepted.outputs, List.mem_append] at hmem
  rcases hmem with hmem | hmem
  · -- the link of the other output starts at the same operator output
    have hnecessary := (wfOutputKept_iff _ _ _).mp (List.mem_filter.mp hmem).2
    obtain ⟨made', hdeclared'⟩ := h.mem_outputs_iff.mp hother
    have hfits := h.fits _ hdeclared'
    rw [hmatched] at hnecessary
    have hstart : made'.start.key = (some wfOutput.operatorId, wfOutput.connectorId) := by
      rw [hfits.key]
      exact congrArg (fun key : UUID × UUID => (some key.1, key.2)) hkeys.symm
    have hsame := eq_of_wfOutputUnnecessary hnecessary.1
      (h.mem_links_iff.mpr ⟨_, hdeclared', rfl⟩) hstart
    rw [Declaration.made, hfits.finish] at hsame
    exact hids hsame
  · -- generated ids are drawn for the content
    obtain ⟨i, hi, rfl⟩ := List.mem_mapIdx.mp hmem
    cases huuid (hdrawn.symm.trans rfl)

end Apart

/-! ## Releasing -/

section Release

variable [DecidableEq V]

/-- What holds of all ios of a content with ids of their own holds of all entries of the fitted
interface. -/
theorem all_fitEntries_iff {A B : Type} [DecidableEq B] {key : A → UUID} {key' : B → UUID}
    {fits : A → B → Bool} {toEntry : A → B}
    (hfits : ∀ a entry, fits a entry = true ↔ entry = toEntry a) {ios : List A} {entries : List B}
    (hids : (ios.map key).Nodup) {p : B → Bool} :
    (fitEntries key key' fits toEntry ios entries).all p = true ↔ ∀ a ∈ ios, p (toEntry a) = true := by
  have hperm : (fitEntries key key' fits toEntry ios entries).Perm ((dictById key ios).map toEntry) :=
    fitEntries_perm hfits ios entries
  rw [hperm.all_eq, List.all_map, List.all_eq_true]
  constructor
  · intro h a ha
    obtain ⟨b, hb, hkey⟩ : ∃ b ∈ dictById key ios, key b = key a := exists_mem_dictById ha
    obtain rfl := KeyedList.eq_of_key_eq hids (mem_of_mem_dictById hb) ha hkey
    exact h b hb
  · exact fun h a ha => h a (mem_of_mem_dictById ha)

variable [UnicodeData]

/-- A revision can be released exactly if it is valid with what it gets by that. -/
theorem exists_release_iff {revision : TransformationRevision V W} {draws : ℕ → UUID}
    {now : Timestamp} : (∃ released, revision.release draws now = .ok released) ↔
      (revision.asReleased now).timestampsFitState = true ∧
        ∃ validated, (revision.asReleased now).validate draws = .ok validated := by
  have hrelease : revision.release draws now = (do
      require (revision.asReleased now).timestampsFitState .timestampsNotFittingToState
      let _ ← (revision.asReleased now).validate draws
      return revision.asReleased now) := rfl
  simp only [hrelease, require_bind_eq_ok]
  constructor
  · rintro ⟨released, hfit, hvalid⟩
    obtain ⟨validated, hvalid, -⟩ := bind_eq_ok.mp hvalid
    exact ⟨hfit, validated, hvalid⟩
  · rintro ⟨hfit, validated, hvalid⟩
    exact ⟨_, hfit, bind_eq_ok.mpr ⟨validated, hvalid, rfl⟩⟩

/-- A workflow which has been validated can be released exactly if it is not disabled, uses no
drafts, its operators keep valid names, and its ios are named. -/
theorem exists_release_withContent_iff {data : TransformationRevision V W}
    (htype : data.type = .workflow) (hfields : data.fieldsValid) {content : WorkflowContent V}
    (hconsistent : content.Consistent)
    (hinputIds : (content.inputs.map fun wfInput => wfInput.id).Nodup)
    (houtputIds : (content.outputs.map fun wfOutput => wfOutput.id).Nodup)
    (hstarts : ∀ id, (linksByStart content.links (none, id)).length ≤ 1) {draws : ℕ → UUID}
    {now : Timestamp} :
    (∃ released, (data.withContent content).release draws now = .ok released) ↔
      data.disabledTimestamp = none ∧ (∀ operator ∈ content.operators, operator.state ≠ .draft) ∧
        content.operators.all Operator.stringsValid = true ∧
          (∀ wfInput ∈ content.inputs, wfInput.named = true) ∧
            ∀ wfOutput ∈ content.outputs, wfOutput.named = true := by
  obtain ⟨hstrings, htag, -, -, -⟩ := hfields
  have hcontent : (∃ content', validateWorkflowContent draws .released content = .ok content') ↔
      (∀ operator ∈ content.operators, operator.state ≠ .draft) ∧
        content.operators.all Operator.stringsValid = true := by
    have hstates (accepted : WorkflowContent V)
        (hrenamed : accepted.operators = renameOperators content.operators) :
        (∀ operator ∈ accepted.operators, operator.state = .draft → State.released = .draft) ↔
          ∀ operator ∈ content.operators, operator.state ≠ .draft := by
      rw [hrenamed, ← List.forall_mem_map (f := fun operator : Operator V => operator.state)
        (P := fun state => state = .draft → State.released = .draft),
        renameOperators_map (fun operator => operator.state) (fun _ _ => rfl), List.forall_mem_map]
      exact forall₂_congr fun operator _ => ⟨fun h hdraft => (by cases h hdraft),
        fun h hdraft => absurd hdraft h⟩
    constructor
    · rintro ⟨content', hvalid⟩
      obtain ⟨accepted, haccepted, hdrafts, -⟩ :=
        TransformationRevision.validateWorkflowContent_eq_ok_iff.mp hvalid
      have haccepted := WorkflowContent.accepted_of_validate haccepted
      exact ⟨(hstates accepted haccepted.operators).mp hdrafts, haccepted.strings⟩
    · rintro ⟨hdrafts, hstrings⟩
      obtain ⟨accepted, haccepted⟩ := WorkflowContent.exists_validate_of_starts hstrings
        hconsistent.acyclic hstarts hconsistent.inputNames hconsistent.outputNames draws
      have hrenamed := (WorkflowContent.accepted_of_validate haccepted).operators
      exact ⟨_, TransformationRevision.validateWorkflowContent_eq_ok_iff.mpr
        ⟨accepted, haccepted, (hstates accepted hrenamed).mpr hdrafts, rfl⟩⟩
  have hnamed : (fitIoInterface content data.ioInterface).inputs.all (fun input => input.named) =
        true ∧ (fitIoInterface content data.ioInterface).outputs.all (fun output => output.named) =
          true ↔ (∀ wfInput ∈ content.inputs, wfInput.named = true) ∧
            ∀ wfOutput ∈ content.outputs, wfOutput.named = true :=
    and_congr (all_fitEntries_iff matchesTrafoInput_iff hinputIds)
      (all_fitEntries_iff matchesTrafoOutput_iff houtputIds)
  have hunique := fitIoInterface_ioNamesUnique content data.ioInterface hconsistent.inputNames
    hconsistent.outputNames
  set released := (data.withContent content).asReleased now with hreleased
  have htimestamps : released.timestampsFitState = true ↔ data.disabledTimestamp = none := by
    rw [hreleased]
    unfold TransformationRevision.timestampsFitState
    exact decide_eq_true_iff.trans (and_iff_right (Option.some_ne_none now))
  have hnames : released.ioInterfaceNamed = true ↔
      (∀ wfInput ∈ content.inputs, wfInput.named = true) ∧
        ∀ wfOutput ∈ content.outputs, wfOutput.named = true := by
    rw [hreleased]
    unfold TransformationRevision.ioInterfaceNamed
    exact (decide_eq_true_iff.trans (or_iff_right (fun h => by cases h))).trans hnamed
  have hvalidate (validated : TransformationRevision V W) :
      released.validate draws = .ok validated ↔ released.fieldsValid ∧ ∃ content',
        validateWorkflowContent draws .released content = .ok content' ∧
          validated = released.withContent content' :=
    TransformationRevision.validate_eq_ok_iff htype rfl
  rw [exists_release_iff, ← hreleased]
  constructor
  · rintro ⟨hfit, validated, hvalid⟩
    obtain ⟨⟨-, -, -, -, hio⟩, content', hcontent', -⟩ := (hvalidate validated).mp hvalid
    obtain ⟨hdrafts, hoperators⟩ := hcontent.mp ⟨content', hcontent'⟩
    exact ⟨htimestamps.mp hfit, hdrafts, hoperators, hnames.mp hio⟩
  · rintro ⟨hdisabled, hdrafts, hoperators, hio⟩
    have hfit := htimestamps.mpr hdisabled
    obtain ⟨content', hcontent'⟩ := hcontent.mpr ⟨hdrafts, hoperators⟩
    exact ⟨hfit, _, (hvalidate _).mpr
      ⟨⟨hstrings, htag, hfit, hunique, hnames.mpr hio⟩, content', hcontent', rfl⟩⟩

end Release

/-! ## Constructions which are to be released -/

section Releasable

variable [UnicodeData] {uuid4 : ConstructionDraw → UUID} {state : Construction V}
  {declared : List (Declaration V)} {draws : ℕ → UUID}

/-- An input, a constant or a link from an operator leads to an operator input exactly if some link
does. -/
theorem Construction.Explained.exists_finish_iff (h : state.Explained uuid4 declared)
    {operatorId inputId : UUID} :
    ((∃ wfInput ∈ state.contentData.inputs, wfInput.key = (operatorId, inputId)) ∨
      (∃ constant ∈ state.contentData.constants, constant.key = (operatorId, inputId)) ∨
        ∃ link, linkByEnd state.contentData.links (some operatorId, inputId) = some link ∧
          link.start.operator ≠ none) ↔
      ∃ link ∈ state.contentData.links, link.finish.key = (some operatorId, inputId) := by
  constructor
  · rintro (⟨placed, hplaced, hkey⟩ | ⟨constant, hconstant, hkey⟩ | ⟨link, hlast, -⟩)
    · obtain ⟨wfInput, hwfInput, rfl⟩ := List.mem_map.mp hplaced
      obtain ⟨made, hdeclared⟩ := h.mem_inputs_iff.mp hwfInput
      exact ⟨made, h.mem_links_iff.mpr ⟨_, hdeclared, rfl⟩,
        (h.fits _ hdeclared).1.finish_key_iff.mpr ((placedInput_same _ wfInput).2.symm.trans hkey)⟩
    · rw [Construction.contentData, h.lists.constants] at hconstant
      obtain ⟨declaration, hdeclared, heq⟩ := List.mem_filterMap.mp hconstant
      cases declaration with
      | constant wfConstant made =>
        obtain rfl := Option.some.inj heq
        have hfits : LeadsIn _ _ _ := h.fits _ hdeclared
        exact ⟨made, h.mem_links_iff.mpr ⟨_, hdeclared, rfl⟩, hfits.finish_key_iff.mpr hkey⟩
      | link made => cases heq
      | output wfOutput made => cases heq
      | input wfInput made => cases heq
    · exact ⟨link, (mem_of_lastEntry hlast).1, (mem_of_lastEntry hlast).2⟩
  · rintro ⟨link, hlink, hfinish⟩
    obtain ⟨declaration, hdeclared, rfl⟩ := h.mem_links_iff.mp hlink
    have hfits := h.fits declaration hdeclared
    cases declaration with
    | link made =>
      obtain ⟨⟨output, operator, -, -, hstart⟩, -⟩ := hfits
      refine Or.inr (Or.inr ⟨made, ?_, ?_⟩)
      · rw [← hfinish]
        exact lastEntry_of_nodup h.nodup_finishes hlink
      · rw [hstart]
        exact Option.some_ne_none _
    | output wfOutput made =>
      rw [Declaration.made, hfits.finish] at hfinish
      cases congrArg Prod.fst hfinish
    | input wfInput made =>
      exact Or.inl ⟨_, List.mem_map_of_mem (h.mem_inputs_iff.mpr ⟨made, hdeclared⟩),
        (placedInput_same _ wfInput).2.trans (hfits.1.finish_key_iff.mp hfinish)⟩
    | constant wfConstant made =>
      refine Or.inr (Or.inl ⟨wfConstant, ?_, LeadsIn.finish_key_iff hfits |>.mp hfinish⟩)
      rw [Construction.contentData, h.lists.constants]
      exact List.mem_filterMap.mpr ⟨_, hdeclared, rfl⟩

/-- An output or only links to operators come from an operator output exactly if some link does. -/
theorem Construction.Explained.exists_start_iff (h : state.Explained uuid4 declared)
    {operatorId outputId : UUID} :
    ((∃ wfOutput ∈ state.contentData.outputs, wfOutput.key = (operatorId, outputId)) ∨
      (linksByStart state.contentData.links (some operatorId, outputId) ≠ [] ∧
        ∀ link ∈ linksByStart state.contentData.links (some operatorId, outputId),
          link.finish.operator ≠ none)) ↔
      ∃ link ∈ state.contentData.links, link.start.key = (some operatorId, outputId) := by
  constructor
  · rintro (⟨wfOutput, hwfOutput, hkey⟩ | ⟨hne, -⟩)
    · obtain ⟨made, hdeclared⟩ := h.mem_outputs_iff.mp hwfOutput
      have hfits : LeadsOut _ _ _ := h.fits _ hdeclared
      exact ⟨made, h.mem_links_iff.mpr ⟨_, hdeclared, rfl⟩, hfits.start_key_iff.mpr hkey⟩
    · obtain ⟨link, hlink⟩ := List.exists_mem_of_ne_nil _ hne
      exact ⟨link, mem_entries.mp hlink⟩
  · rintro ⟨link, hlink, hstart⟩
    by_cases houtput : ∃ wfOutput ∈ state.contentData.outputs,
        wfOutput.key = (operatorId, outputId)
    · exact Or.inl houtput
    · have hmem : link ∈ linksByStart state.contentData.links (some operatorId, outputId) :=
        mem_entries.mpr ⟨hlink, hstart⟩
      refine Or.inr ⟨List.ne_nil_of_mem hmem, fun other hother houter => houtput ?_⟩
      -- a link out of the workflow belongs to an output
      obtain ⟨hlinks, hother⟩ := mem_entries.mp hother
      obtain ⟨declaration, hdeclared, rfl⟩ := h.mem_links_iff.mp hlinks
      have hfits := h.fits declaration hdeclared
      cases declaration with
      | link made =>
        obtain ⟨-, input, operator, -, -, hfinish⟩ := hfits
        rw [Declaration.made, hfinish] at houter
        cases houter
      | output wfOutput made =>
        exact ⟨wfOutput, h.mem_outputs_iff.mpr ⟨made, hdeclared⟩,
          hfits.start_key_iff.mp hother⟩
      | input wfInput made => cases hfits.1.start_operator.symm.trans (congrArg Prod.fst hother)
      | constant wfConstant made => cases hfits.start_operator.symm.trans (congrArg Prod.fst hother)

omit [UnicodeData] in
/-- The inputs of the operators in the workflow are those of the operators. -/
theorem Construction.forall_operatorInputs_iff {p : UUID × UUID → OperatorInput V → Prop} :
    (∀ entry ∈ operatorInputs (renameOperators state.contentData.operators),
      p (inputKey entry) entry.2) ↔
        ∀ operator ∈ state.operators, ∀ input ∈ operator.inputs, p (operator.id, input.id) input := by
  have hconnectors : (∀ entry ∈ operatorInputs (renameOperators state.contentData.operators),
      p (inputKey entry) entry.2) ↔
        ∀ connector ∈ inputConnectors state.contentData.operators, p connector.1 connector.2 := by
    rw [← inputConnectors_renameOperators, inputConnectors, List.forall_mem_map]
  rw [hconnectors]
  constructor
  · intro h operator hoperator input hinput
    exact h _ (mem_inputConnectors_iff.mpr ⟨operator.fixInputOrdering,
      List.mem_map_of_mem hoperator, (orderOperatorInputs_perm _).mem_iff.mpr hinput, rfl⟩)
  · rintro h ⟨key, input⟩ hconnector
    obtain ⟨ordered, hordered, hinput, rfl⟩ := mem_inputConnectors_iff.mp hconnector
    obtain ⟨operator, hoperator, rfl⟩ := List.mem_map.mp hordered
    exact h operator hoperator input ((orderOperatorInputs_perm _).mem_iff.mp hinput)

omit [UnicodeData] in
/-- The outputs of the operators in the workflow are those of the operators. -/
theorem Construction.forall_operatorOutputs_iff {p : UUID × UUID → OperatorOutput → Prop} :
    (∀ entry ∈ operatorOutputs (renameOperators state.contentData.operators),
      p (outputKey entry) entry.2) ↔
        ∀ operator ∈ state.operators, ∀ output ∈ operator.outputs,
          p (operator.id, output.id) output := by
  have hconnectors : (∀ entry ∈ operatorOutputs (renameOperators state.contentData.operators),
      p (outputKey entry) entry.2) ↔
        ∀ connector ∈ outputConnectors state.contentData.operators, p connector.1 connector.2 := by
    rw [← outputConnectors_renameOperators, outputConnectors, List.forall_mem_map]
  rw [hconnectors]
  constructor
  · intro h operator hoperator output houtput
    exact h _ (mem_outputConnectors_iff.mpr ⟨operator.fixInputOrdering,
      List.mem_map_of_mem hoperator, houtput, rfl⟩)
  · rintro h ⟨key, output⟩ hconnector
    obtain ⟨ordered, hordered, houtput, rfl⟩ := mem_outputConnectors_iff.mp hconnector
    obtain ⟨operator, hoperator, rfl⟩ := List.mem_map.mp hordered
    exact h operator hoperator output houtput

/-- No inputs are generated exactly if links lead to all operator inputs. -/
theorem Construction.Explained.newInputs_eq_nil_iff (h : state.Explained uuid4 declared)
    (hintact : state.contentData.Intact) :
    state.contentData.newInputs draws = [] ↔ ∀ operator ∈ state.operators,
      ∀ input ∈ operator.inputs, ∃ link ∈ state.links ++ state.ioLinks,
        link.finish.key = (some operator.id, input.id) := by
  have hexposed : ∀ entry ∈ operatorInputs (renameOperators state.contentData.operators),
      entry.2.exposed = true :=
    (Construction.forall_operatorInputs_iff (p := fun _ input => input.exposed = true)).mpr
      fun operator hoperator => (h.operatorsFresh operator hoperator).exposed
  rw [WorkflowContent.newInputs, addedInputs, List.mapIdx_eq_nil_iff, List.filter_eq_nil_iff,
    hintact.matchedLinks_eq, hintact.keptInputs_eq]
  refine Iff.trans (forall₂_congr fun entry hentry => ?_)
    (Construction.forall_operatorInputs_iff (p := fun key _ =>
      ∃ link ∈ state.links ++ state.ioLinks, link.finish.key = (some key.1, key.2)))
  rw [Bool.not_eq_true, operatorInputUnlinked_eq_false_iff (hexposed entry hentry)]
  exact h.exists_finish_iff

/-- No outputs are generated exactly if links lead from all operator outputs. -/
theorem Construction.Explained.newOutputs_eq_nil_iff (h : state.Explained uuid4 declared)
    (hintact : state.contentData.Intact) :
    state.contentData.newOutputs draws = [] ↔ ∀ operator ∈ state.operators,
      ∀ output ∈ operator.outputs, ∃ link ∈ state.links ++ state.ioLinks,
        link.start.key = (some operator.id, output.id) := by
  rw [WorkflowContent.newOutputs, addedOutputs, List.mapIdx_eq_nil_iff, List.filter_eq_nil_iff,
    hintact.matchedLinks_eq, hintact.keptOutputs_eq]
  refine Iff.trans (forall₂_congr fun entry hentry => ?_)
    (Construction.forall_operatorOutputs_iff (p := fun key _ =>
      ∃ link ∈ state.links ++ state.ioLinks, link.start.key = (some key.1, key.2)))
  rw [Bool.not_eq_true, operatorOutputUnlinked_eq_false_iff]
  exact h.exists_start_iff

omit [UnicodeData] in
/-- Unnamed ios which are added to some are named with them only if there are none. -/
theorem forall_named_append_iff {A : Type} {named : A → Bool} {ios added : List A}
    (hadded : ∀ a ∈ added, named a = false) :
    (∀ a ∈ ios ++ added, named a = true) ↔ (∀ a ∈ ios, named a = true) ∧ added = [] := by
  rw [List.forall_mem_append]
  refine and_congr_right fun _ => ⟨fun h => List.eq_nil_iff_forall_not_mem.mpr fun a ha => ?_, ?_⟩
  · cases (hadded a ha).symm.trans (h a ha)
  · rintro rfl
    exact List.forall_mem_nil _

omit [UnicodeData] in
/-- The ids of ios and of generated ones are distinct. -/
theorem nodup_ids_append (huuid : Function.Injective uuid4) {A : Type} {id : A → UUID}
    {ios generated : List A} (hios : (ios.map id).Nodup ∧ ∀ a ∈ ios, ∃ n, id a = uuid4 (.io n))
    (hgenerated : (generated.map id).Nodup ∧ ∀ a ∈ generated, ∃ i, id a = uuid4 (.content i)) :
    ((ios ++ generated).map id).Nodup := by
  rw [List.map_append, List.nodup_append]
  refine ⟨hios.1, hgenerated.1, ?_⟩
  rintro x hx y hy rfl
  obtain ⟨a, ha, rfl⟩ := List.mem_map.mp hx
  obtain ⟨b, hb, heq⟩ := List.mem_map.mp hy
  obtain ⟨n, hn⟩ := hios.2 a ha
  obtain ⟨i, hi⟩ := hgenerated.2 b hb
  cases huuid (hn.symm.trans (heq.symm.trans hi))

variable [DecidableEq V] {metadata : WorkflowMetadata} {testWiring : W} {now : Timestamp}

omit [DecidableEq V] in
/-- At most one link of an accepted content starts at an io of the workflow. -/
theorem Construction.Explained.length_starts_le_one (h : state.Explained uuid4 declared)
    {content : WorkflowContent V}
    (haccepted : WorkflowContent.Accepted draws state.contentData content) (id : UUID) :
    (linksByStart content.links (none, id)).length ≤ 1 := by
  have hconnected := h.connected (List.nil_subset _) (fun _ h => absurd h List.not_mem_nil)
  have hdata : (linksByStart state.contentData.links (none, id)).length ≤ 1 := by
    rcases hstarting : linksByStart state.contentData.links (none, id) with _ | ⟨link, rest⟩
    · exact Nat.zero_le 1
    · have hmem : link ∈ linksByStart state.contentData.links (none, id) :=
        hstarting ▸ List.mem_cons_self
      obtain ⟨hlink, hstart⟩ := mem_entries.mp hmem
      have honly := hconnected.linksByStart hlink (congrArg Prod.fst hstart)
      rw [← hstarting, ← hstart]
      exact (congrArg List.length honly).le
  have hsame := congrArg List.length (haccepted.links.linksByStart (none, id))
  rw [List.length_map, List.length_map] at hsame
  rw [hsame]
  refine le_trans ?_ hdata
  exact ((List.filter_sublist.trans List.filter_sublist).filter _).length_le

omit [DecidableEq V] in
/-- The inputs of an accepted content have ids of their own, and are named exactly if the declared
ones are and no more are needed. -/
theorem Construction.Explained.inputs_of_accepted (huuid : Function.Injective uuid4)
    (h : state.Explained uuid4 declared) (hintact : state.contentData.Intact)
    {content : WorkflowContent V}
    (haccepted : WorkflowContent.Accepted (fun i => uuid4 (.content i)) state.contentData content) :
    (content.inputs.map fun wfInput => wfInput.id).Nodup ∧
      ((∀ wfInput ∈ content.inputs, wfInput.named = true) ↔
        (∀ wfInput ∈ state.contentInputs, wfInput.named = true) ∧ ∀ operator ∈ state.operators,
          ∀ input ∈ operator.inputs, ∃ link ∈ state.links ++ state.ioLinks,
            link.finish.key = (some operator.id, input.id)) := by
  have hplaced (operators : List (Operator V)) (wfInput : WorkflowContentDynamicInput V) :=
    (placedInput_same operators wfInput).1
  have hids : (state.contentData.inputs.map fun wfInput => wfInput.id) =
      state.contentInputs.map fun wfInput => wfInput.id := by
    rw [Construction.contentData, List.map_map]
    exact List.map_congr_left fun wfInput _ => congrArg Io.id (hplaced _ wfInput)
  have hnames : (∀ wfInput ∈ state.contentData.inputs, wfInput.named = true) ↔
      ∀ wfInput ∈ state.contentInputs, wfInput.named = true := by
    rw [Construction.contentData, List.forall_mem_map]
    exact forall₂_congr fun wfInput _ => by rw [hplaced]
  have hunnamed : ∀ wfInput ∈ state.contentData.newInputs fun i => uuid4 (.content i),
      wfInput.named = false := fun _ => named_of_mem_addedInputs
  rw [haccepted.inputs, hintact.keptInputs_eq]
  constructor
  · refine nodup_ids_append huuid ⟨hids ▸ h.nodup_inputIds.1, ?_⟩ ⟨?_, ?_⟩
    · intro placed hmem
      obtain ⟨wfInput, hwfInput, rfl⟩ := List.mem_map.mp hmem
      rw [hplaced]
      exact h.nodup_inputIds.2 wfInput hwfInput
    · exact nodup_map_mapIdx _ fun i j _ _ heq => ConstructionDraw.content.inj (huuid heq)
    · intro wfInput hmem
      obtain ⟨i, hi, rfl⟩ := List.mem_mapIdx.mp hmem
      exact ⟨i, rfl⟩
  · rw [forall_named_append_iff hunnamed, hnames, h.newInputs_eq_nil_iff hintact]

omit [DecidableEq V] in
/-- The outputs of an accepted content have ids of their own, and are named exactly if the declared
ones are and no more are needed. -/
theorem Construction.Explained.outputs_of_accepted (huuid : Function.Injective uuid4)
    (h : state.Explained uuid4 declared) (hintact : state.contentData.Intact)
    {content : WorkflowContent V}
    (haccepted : WorkflowContent.Accepted (fun i => uuid4 (.content i)) state.contentData content) :
    (content.outputs.map fun wfOutput => wfOutput.id).Nodup ∧
      ((∀ wfOutput ∈ content.outputs, wfOutput.named = true) ↔
        (∀ wfOutput ∈ state.contentOutputs, wfOutput.named = true) ∧ ∀ operator ∈ state.operators,
          ∀ output ∈ operator.outputs, ∃ link ∈ state.links ++ state.ioLinks,
            link.start.key = (some operator.id, output.id)) := by
  have hunnamed : ∀ wfOutput ∈ state.contentData.newOutputs fun i => uuid4 (.content i),
      wfOutput.named = false := fun _ => named_of_mem_addedOutputs
  have hdata : state.contentData.outputs = state.contentOutputs := rfl
  rw [haccepted.outputs, hintact.keptOutputs_eq, hdata]
  constructor
  · refine nodup_ids_append huuid h.nodup_outputIds ⟨?_, ?_⟩
    · refine nodup_map_mapIdx _ fun i j _ _ heq => ?_
      exact Nat.add_left_cancel (ConstructionDraw.content.inj (huuid heq))
    · intro wfOutput hmem
      obtain ⟨i, hi, rfl⟩ := List.mem_mapIdx.mp hmem
      exact ⟨_, rfl⟩
  · rw [forall_named_append_iff hunnamed, h.newOutputs_eq_nil_iff hintact]

/-- A workflow with all which has been declared can be released exactly if the construction is
releasable. -/
theorem Construction.Explained.exists_release_iff (huuid : Function.Injective uuid4)
    (h : state.Explained uuid4 declared) (hintact : state.contentData.Intact)
    {content : WorkflowContent V}
    (haccepted : WorkflowContent.Accepted (fun i => uuid4 (.content i)) state.contentData content)
    (hfields : (state.revisionData metadata testWiring state.contentData).fieldsValid) :
    (∃ released, ((state.revisionData metadata testWiring state.contentData).withContent
      content.filterUnnamedOperatorInputsAndOutputs).release draws now = .ok released) ↔
        state.Releasable metadata := by
  obtain ⟨hinputIds, hinputNames⟩ := h.inputs_of_accepted huuid hintact haccepted
  obtain ⟨houtputIds, houtputNames⟩ := h.outputs_of_accepted huuid hintact haccepted
  have hstarts := h.length_starts_le_one haccepted
  have hdrafts : (∀ operator ∈ content.filterUnnamedOperatorInputsAndOutputs.operators,
      operator.state ≠ .draft) ↔ ∀ operator ∈ state.operators, operator.state ≠ .draft := by
    rw [WorkflowContent.filterUnnamedOperatorInputsAndOutputs, haccepted.operators,
      List.forall_mem_map]
    exact Construction.states_of_renamed fun s => s ≠ .draft
  have hstrings : content.filterUnnamedOperatorInputsAndOutputs.operators.all
      Operator.stringsValid = (renameOperators state.contentData.operators).all
        Operator.stringsValid := by
    rw [WorkflowContent.filterUnnamedOperatorInputsAndOutputs, haccepted.operators, List.all_map]
    rfl
  rw [exists_release_withContent_iff rfl hfields haccepted.consistent.filterUnnamed hinputIds
    houtputIds hstarts, hdrafts, hstrings]
  constructor
  · rintro ⟨hdisabled, hdrafts, hstrings, hin, hout⟩
    exact ⟨hdisabled, hdrafts, hstrings, (hinputNames.mp hin).1, (houtputNames.mp hout).1,
      (hinputNames.mp hin).2, (houtputNames.mp hout).2⟩
  · intro hrelease
    exact ⟨hrelease.notDisabled, hrelease.noDrafts, hrelease.operatorNames,
      hinputNames.mpr ⟨hrelease.inputsNamed, hrelease.inputsLinked⟩,
      houtputNames.mpr ⟨hrelease.outputsNamed, hrelease.outputsLinked⟩⟩

end Releasable

/-! ## What finalizing keeps -/

/-- Calls none of which raises, whose links form no cycle, declare what the finalized workflow has
exactly if no operator output is made an output of the workflow twice, and the constructor is given
what its revision accepts. -/
theorem finalizesDeclared_iff [UnicodeData] [DecidableEq V] {uuid4 : ConstructionDraw → UUID}
    (huuid : Function.Injective uuid4) {options : ConstructionOptions V}
    {calls : List (ConstructionCall V W)} {state : Construction V}
    (hcalls : construct options uuid4 calls = .ok state)
    (hlinks : linksAcyclicDirectedGraph state.links = true) (metadata : WorkflowMetadata)
    (testWiring : W) (now : Timestamp) :
    FinalizesDeclared metadata testWiring uuid4 now state ↔
      state.Acceptable metadata testWiring ∧
        (state.contentOutputs.map fun wfOutput => wfOutput.key).Nodup := by
  obtain ⟨declared, h⟩ := explained_of_construct huuid hcalls
  rw [finalizesDeclared_iff_validated]
  constructor
  · rintro ⟨hfields, hdrafts, content, hvalid, hkeeps, hrelease⟩
    have haccepted := WorkflowContent.accepted_of_validate hvalid
    have hkeys := h.nodup_outputKeys huuid haccepted hkeeps.outputs
    have hintact := h.intact huuid hfields.2.2.2.1 hlinks hkeys
    exact ⟨⟨hfields, hdrafts, fun hauto =>
      (h.exists_release_iff huuid hintact haccepted hfields).mp (hrelease hauto)⟩, hkeys⟩
  · rintro ⟨⟨hfields, hdrafts, hreleased⟩, hkeys⟩
    have hintact := h.intact huuid hfields.2.2.2.1 hlinks hkeys
    obtain ⟨content, hvalid⟩ := hintact.exists_validate fun i => uuid4 (.content i)
    have haccepted := WorkflowContent.accepted_of_validate hvalid
    exact ⟨hfields, hdrafts, content, hvalid, h.keepsDeclared hintact haccepted, fun hauto =>
      (h.exists_release_iff huuid hintact haccepted hfields).mpr (hreleased hauto)⟩

/-! ## An operator output made an output twice -/

/-- A number for each place where an id is drawn. -/
def numberOfConstructionDraw : ConstructionDraw → ℕ
  | .operator call draw => 6 * Nat.pair call (numberOfDraw (.wrapper draw))
  | .link call => 6 * call + 1
  | .ioLink call => 6 * call + 2
  | .io call => 6 * call + 3
  | .content index => 6 * index + 4
  | .release index => 6 * index + 5

/-- No two places have the same number. -/
theorem numberOfConstructionDraw_injective : Function.Injective numberOfConstructionDraw := by
  intro draw draw' heq
  cases draw <;> cases draw' <;> simp only [numberOfConstructionDraw] at heq
  case operator.operator call draw call' draw' =>
    obtain ⟨rfl, hdraw⟩ := Nat.pair_eq_pair.mp (Nat.eq_of_mul_eq_mul_left (by decide) heq)
    obtain rfl := PreparationDraw.wrapper.inj (numberOfDraw_injective hdraw)
    rfl
  all_goals first
    | omega
    | exact congrArg _ (by omega)

/-- A component with the input `x` and the output `y`. -/
def componentOfXAndY : TransformationRevision ℤ Unit where
  id := 1
  revisionGroupId := 1
  name := ['A']
  description := []
  category := ['C']
  versionTag := ['1']
  disabledTimestamp := none
  releasedTimestamp := some 1
  state := .released
  type := .component
  ioInterface := ⟨[⟨⟨2, some ['x'], .float⟩, ⟨.required, none, InputType.required_without_value⟩⟩],
    [⟨3, some ['y'], .float⟩]⟩
  documentation := []
  content := .code []
  testWiring := ()
  releaseWiring := none

/-- The calls for two such components in a row, with a constant, and the output under some names. -/
def outputCalls (names : List PyStr) : List (ConstructionCall ℤ Unit) :=
  [.op componentOfXAndY none, .op componentOfXAndY none, .link ⟨0, ['y']⟩ ⟨1, ['x']⟩,
    .constant ⟨0, ['x']⟩ ['1']] ++ names.map fun name => .output name ⟨1, ['y']⟩

/-- The draft which a constructor makes by default. -/
def draftMetadata : WorkflowMetadata where
  id := 1000
  revisionGroupId := 1001
  name := "Unnamed".toList
  description := "no description".toList
  category := "Test".toList
  versionTag := "0.1.0".toList
  disabledTimestamp := none
  releasedTimestamp := none
  state := .draft
  documentation := []
  autoRelease := false

/-- Operators are arranged, and no default value is zero. -/
def zeroOptions : ConstructionOptions ℤ := ⟨fun value => value.getD 0, true⟩

/-- The names of the outputs of a workflow. -/
def outputNames {V W : Type} (revision : TransformationRevision V W) : List (Option PyStr) :=
  match revision.content with
  | .code _ => []
  | .workflow content => content.outputs.map fun wfOutput => wfOutput.name

/-- An operator output under two names is an output under none of them. -/
theorem outputTwice_not_kept : ∃ state,
    @construct ℤ Unit asciiOnly zeroOptions numberOfConstructionDraw (outputCalls [['a'], ['b']]) =
        .ok state ∧
      linksAcyclicDirectedGraph state.links = true ∧
      IOInterface.ioNamesUnique ⟨state.trafoInputs, state.trafoOutputs⟩ = true ∧
      ¬ @FinalizesDeclared ℤ Unit asciiOnly _ draftMetadata () numberOfConstructionDraw 2 state := by
  obtain ⟨state, hstate⟩ : ∃ state, @construct ℤ Unit asciiOnly zeroOptions numberOfConstructionDraw
      (outputCalls [['a'], ['b']]) = .ok state := ⟨_, rfl⟩
  have hevaluated {B : Type} (f : Construction ℤ → B) {b : B}
      (h : (@construct ℤ Unit asciiOnly zeroOptions numberOfConstructionDraw
        (outputCalls [['a'], ['b']])).toOption.map f = some b) : f state = b := by
    rw [hstate] at h
    exact Option.some.inj h
  have hdeclared := hevaluated
    (fun state => state.contentOutputs.map fun wfOutput => wfOutput.name)
    (b := [some ['a'], some ['b']]) (by decide)
  have hnames := hevaluated (fun state => (@Construction.finalize ℤ Unit asciiOnly _ draftMetadata ()
    numberOfConstructionDraw 2 state).toOption.map outputNames) (b := some [none]) (by decide)
  refine ⟨state, hstate, hevaluated (fun state => linksAcyclicDirectedGraph state.links) (by decide),
    hevaluated (fun state => IOInterface.ioNamesUnique ⟨state.trafoInputs, state.trafoOutputs⟩)
      (by decide), ?_⟩
  rintro ⟨result, content, hresult, hcontent, hkeeps⟩
  rw [hresult] at hnames
  have hkept : content.outputs.map (fun wfOutput => wfOutput.name) = [none] := by
    have hresult := Option.some.inj hnames
    rwa [outputNames, hcontent] at hresult
  have hmem : some ['a'] ∈ state.contentOutputs.map fun wfOutput => wfOutput.name := by
    rw [hdeclared]
    exact List.mem_cons_self
  obtain ⟨wfOutput, hwfOutput, hname⟩ := List.mem_map.mp hmem
  have hlost : some ['a'] ∈ content.outputs.map fun wfOutput => wfOutput.name :=
    List.mem_map.mpr ⟨wfOutput, hkeeps.outputs wfOutput hwfOutput, hname⟩
  rw [hkept] at hlost
  cases List.mem_singleton.mp hlost

/-- The characterisation for one name. -/
theorem outputOnce_kept : ∃ state,
    @construct ℤ Unit asciiOnly zeroOptions numberOfConstructionDraw (outputCalls [['a']]) =
        .ok state ∧
      @FinalizesDeclared ℤ Unit asciiOnly _ draftMetadata () numberOfConstructionDraw 2 state := by
  let _ : UnicodeData := asciiOnly
  refine ⟨_, rfl, (@finalizesDeclared_iff ℤ Unit asciiOnly _ _ numberOfConstructionDraw_injective
    zeroOptions (outputCalls [['a']]) _ rfl (by decide) draftMetadata () 2).mpr
      ⟨⟨?_, fun _ _ _ => rfl, ?_⟩, by decide⟩⟩
  · exact ⟨by decide, by decide, by decide, by decide, by decide⟩
  · exact fun hauto => absurd hauto (by decide)

end HetidaDesigner
