import HetidaDesigner.Models.CodeMarkers
import HetidaDesigner.Store.Marks
import HetidaDesigner.Store.Imports

/-!
# Released revisions are immutable

A released revision is written again when it is sent without changes, when it is deprecated and
when an operator in it gets a mark. Each time it has been loaded before, so it stays as it is
only if a load returns it as it was stored; and its code is updated, which keeps the rest of the
code only if both marker lines are there.
-/

namespace HetidaDesigner

open Checks Database Runs TransformationRevision

section Statement

variable {V W : Type}

/-- An operator is the same up to a mark. -/
def KeptOperator (operator operator' : Operator V) : Prop :=
  operator' = operator ∨ operator' = { operator with state := .disabled }

/-- A content is the same up to marks and the generated part of code. -/
inductive KeptContent : Content V → Content V → Prop
  | code {text text' : PyStr} (h : KeptCode text text') : KeptContent (.code text) (.code text')
  | workflow {content : WorkflowContent V} {operators : List (Operator V)}
      (h : List.Forall₂ KeptOperator content.operators operators) :
      KeptContent (.workflow content) (.workflow { content with operators := operators })

/-- A revision which is not a draft is still there: what identifies it, its interface and its
content are the same, and its state is the same or has changed from released to disabled. -/
structure KeptRelease (row row' : TransformationRevision V W) : Prop where
  state_ne_draft : row.state ≠ .draft
  id : row'.id = row.id
  revisionGroupId : row'.revisionGroupId = row.revisionGroupId
  type : row'.type = row.type
  name : row'.name = row.name
  category : row'.category = row.category
  versionTag : row'.versionTag = row.versionTag
  ioInterface : row'.ioInterface = row.ioInterface
  state : row'.state = row.state ∨ row.state = .released ∧ row'.state = .disabled
  content : KeptContent row.content row'.content

/-- Each row which is not a draft is kept. -/
def KeepsReleases {D : Type} (db db' : Database V D) : Prop :=
  ∀ row ∈ db.revisions, row.state ≠ .draft → ∃ row' ∈ db'.revisions, KeptRelease row row'

/-- Marking an operator twice. -/
theorem KeptOperator.trans {operator operator' operator'' : Operator V}
    (h : KeptOperator operator operator') (h' : KeptOperator operator' operator'') :
    KeptOperator operator operator'' := by
  rcases h with rfl | rfl
  · exact h'
  · rcases h' with rfl | rfl
    · exact Or.inr rfl
    · exact Or.inr rfl

/-- A transitive relation between the elements of lists is one between the lists. -/
theorem forall₂_trans {α : Type} {R : α → α → Prop} (htrans : ∀ a b c, R a b → R b c → R a c)
    {xs ys zs : List α} (h : List.Forall₂ R xs ys) (h' : List.Forall₂ R ys zs) :
    List.Forall₂ R xs zs := by
  induction h generalizing zs with
  | nil => exact h'
  | cons hfirst _ ih =>
    cases h' with
    | cons hfirst' hrest' => exact .cons (htrans _ _ _ hfirst hfirst') (ih hrest')

/-- Keeping a content twice. -/
theorem KeptContent.trans {content content' content'' : Content V}
    (h : KeptContent content content') (h' : KeptContent content' content'') :
    KeptContent content content'' := by
  cases h with
  | code hcode =>
    cases h' with
    | code hcode' => exact .code (hcode.trans hcode')
  | @workflow content operators hoperators =>
    cases h' with
    | @workflow _ operators' hoperators' =>
      exact .workflow (forall₂_trans (R := KeptOperator) (fun _ _ _ => KeptOperator.trans)
        hoperators hoperators')

/-- A content is kept if it does not change. -/
theorem KeptContent.refl (content : Content V) : KeptContent content content := by
  cases content with
  | code text => exact .code (Or.inl rfl)
  | workflow content => exact .workflow (List.forall₂_same.mpr fun _ _ => Or.inl rfl)

/-- A revision which is not a draft is kept if it does not change. -/
theorem KeptRelease.refl {row : TransformationRevision V W} (h : row.state ≠ .draft) :
    KeptRelease row row :=
  ⟨h, rfl, rfl, rfl, rfl, rfl, rfl, rfl, Or.inl rfl, .refl _⟩

/-- A kept revision is not a draft. -/
theorem KeptRelease.state_ne_draft' {row row' : TransformationRevision V W}
    (h : KeptRelease row row') : row'.state ≠ .draft := by
  rcases h.state with hsame | ⟨-, hdisabled⟩
  · exact hsame ▸ h.state_ne_draft
  · rw [hdisabled]
    exact fun h => by cases h

/-- Keeping a revision twice. -/
theorem KeptRelease.trans {row row' row'' : TransformationRevision V W}
    (h : KeptRelease row row') (h' : KeptRelease row' row'') : KeptRelease row row'' where
  state_ne_draft := h.state_ne_draft
  id := h'.id.trans h.id
  revisionGroupId := h'.revisionGroupId.trans h.revisionGroupId
  type := h'.type.trans h.type
  name := h'.name.trans h.name
  category := h'.category.trans h.category
  versionTag := h'.versionTag.trans h.versionTag
  ioInterface := h'.ioInterface.trans h.ioInterface
  content := h.content.trans h'.content
  state := by
    rcases h.state with hsame | ⟨hreleased, hdisabled⟩
    · rw [← hsame]
      exact h'.state
    · refine Or.inr ⟨hreleased, ?_⟩
      rcases h'.state with hsame | ⟨hreleased', -⟩
      · exact hsame.trans hdisabled
      · rw [hdisabled] at hreleased'
        cases hreleased'

end Statement

/-! ## Loads which change nothing -/

section Loads

variable {V W : Type} [UnicodeData] [DecidableEq V]

/-- A load returns the content and the interface of a revision as they are stored: the
validation of a workflow content gives it back, and the interface fits it. -/
def LoadsAsStored (row : TransformationRevision V W) : Prop :=
  ∀ content, row.content = .workflow content → ∀ uuid4 content',
    validateWorkflowContent uuid4 row.state content = .ok content' →
      content' = content ∧ fitIoInterface content row.ioInterface = row.ioInterface

/-- What a load returns of a revision which it does not change. -/
theorem LoadsAsStored.eq_of_validate {row loaded : TransformationRevision V W} {uuid4 : ℕ → UUID}
    (hloads : LoadsAsStored row) (h : row.validate uuid4 = .ok loaded) :
    loaded = { row with releasedTimestamp := row.releasedTimestampOrDisabled } ∧
      row.stringsValid = true := by
  unfold TransformationRevision.validate TransformationRevision.validateWith at h
  simp only [require_bind_eq_ok] at h
  obtain ⟨hstrings, -, -, -, -, h⟩ := h
  refine ⟨?_, hstrings⟩
  split at h
  · exact (return_eq_ok.mp h).symm
  · rename_i hcontent
    obtain ⟨content', hvalid, h⟩ := bind_eq_ok.mp h
    obtain rfl := return_eq_ok.mp h
    obtain ⟨rfl, hfit⟩ := hloads _ hcontent _ _ hvalid
    rw [hfit, hcontent]
  · cases h

omit [DecidableEq V] in
/-- The state matters to the content validators only as far as it is a draft. -/
theorem validateWorkflowContent_congr {uuid4 : ℕ → UUID} {state state' : State}
    (hstate : state ≠ .draft) (hstate' : state' ≠ .draft) (data : WorkflowContent V) :
    validateWorkflowContent uuid4 state data = validateWorkflowContent uuid4 state' data := by
  have honly (operators : List (Operator V)) :
      onlyDraftsAllowedInDraftWorkflows state operators =
        onlyDraftsAllowedInDraftWorkflows state' operators := by
    unfold onlyDraftsAllowedInDraftWorkflows
    simp [hstate, hstate']
  simp only [validateWorkflowContent, validateWorkflowContentWith, honly]

/-- Whether a load changes something depends on content and interface. -/
theorem LoadsAsStored.congr {row row' : TransformationRevision V W} (hloads : LoadsAsStored row)
    (hstate : row.state ≠ .draft) (hstate' : row'.state ≠ .draft)
    (hcontent : row'.content = row.content) (hinterface : row'.ioInterface = row.ioInterface) :
    LoadsAsStored row' := by
  intro content hworkflow uuid4 content' hvalid
  rw [validateWorkflowContent_congr hstate' hstate] at hvalid
  rw [hinterface]
  exact hloads content (hcontent ▸ hworkflow) uuid4 content' hvalid

/-- What a successful load says about the content of a workflow which it does not change. -/
theorem LoadsAsStored.content_of_validate {row loaded : TransformationRevision V W}
    {uuid4 : ℕ → UUID} (hloads : LoadsAsStored row) (hstate : row.state ≠ .draft)
    (h : row.validate uuid4 = .ok loaded) {content : WorkflowContent V}
    (hcontent : row.content = .workflow content) :
    (∀ operator ∈ content.operators, operator.state ≠ .draft) ∧
      content.filterUnnamedOperatorInputsAndOutputs = content ∧
        fitIoInterface content row.ioInterface = row.ioInterface := by
  unfold TransformationRevision.validate TransformationRevision.validateWith at h
  simp only [require_bind_eq_ok] at h
  obtain ⟨-, -, -, -, -, h⟩ := h
  split at h
  · rename_i hcode
    cases hcode.symm.trans hcontent
  · rename_i hworkflow
    obtain rfl := Content.workflow.inj (hworkflow.symm.trans hcontent)
    obtain ⟨content', hvalid, -⟩ := bind_eq_ok.mp h
    obtain ⟨rfl, hfit⟩ := hloads _ hcontent _ _ hvalid
    obtain ⟨accepted, -, hdrafts, heq⟩ := validateWorkflowContent_eq_ok_iff.mp hvalid
    refine ⟨fun operator hoperator hdraft => ?_, ?_, hfit⟩
    · rw [heq] at hoperator
      obtain ⟨other, hother, rfl⟩ := List.mem_map.mp hoperator
      exact hstate (hdrafts other hother hdraft)
    · rw [heq]
      exact filterUnnamedOperatorInputsAndOutputs_idem accepted
  · cases h

/-- Marking an operator of a workflow which loads do not change. -/
theorem LoadsAsStored.markDisabled {row : TransformationRevision V W} (hloads : LoadsAsStored row)
    {content : WorkflowContent V} (hcontent : row.content = .workflow content)
    (hdrafts : ∀ operator ∈ content.operators, operator.state ≠ .draft) (operatorId : UUID) :
    LoadsAsStored { row with content := .workflow (content.markDisabled operatorId) } := by
  intro marked hmarked uuid4 content' hvalid
  obtain rfl := Content.workflow.inj hmarked
  obtain ⟨original, horiginal, rfl⟩ := validateWorkflowContent_markDisabled hvalid hdrafts
  obtain ⟨rfl, hfit⟩ := hloads content hcontent uuid4 original horiginal
  exact ⟨rfl, hfit⟩

end Loads

/-! ## What a put writes -/

section Conditions

variable [UnicodeData] {V D : Type} [DecidableEq V]

/-- Of the revisions which are not drafts a put loads those that loads do not change, and updates
the code of those with both marker lines. -/
def KeepsReleasedContents (db : Database V D) : Request V D → Prop
  | .put _ options payload =>
    (∀ row ∈ db.find payload.id, row.state ≠ .draft → LoadsAsStored row ∧
      (options.updateComponentCode = true →
        ∀ text, row.content = .code text → (outsideMarkers text).isSome)) ∧
    (payload.state = .disabled → ∀ nesting ∈ db.findAllNestings payload.id,
      ∀ row ∈ db.find nesting.workflowId, row.state ≠ .draft → LoadsAsStored row)
  | _ => False

/-- A request is a put which neither overwrites released revisions nor expands code. -/
def Request.PutsWithoutExpansion : Request V D → Prop
  | .put _ options _ =>
    options.allowOverwriteReleased = false ∧ options.expandComponentCode = false
  | _ => False

/-- The names of the ios which a request sends are identifiers. -/
def Request.NamesIdentifiers (request : Request V D) : Prop :=
  ∀ revision ∈ request.payload, revision.ioInterface.NamesIdentifiers

/-- The names of the ios of components are identifiers. -/
def ComponentsNamed (db : Database V D) : Prop :=
  ∀ row ∈ db.revisions, ∀ text, row.content = .code text → row.ioInterface.NamesIdentifiers

end Conditions

section Write

variable [UnicodeData] {V D : Type} [DecidableEq V] {db db' mid : Database V D}
  {tools : CodeTools V D} {surroundings : Surroundings} {options : PutOptions}

/-- Nothing is pulled into operators which are there already. -/
theorem pullDeprecation_of_existing {content : WorkflowContent V} {operators : List (Operator V)}
    (h : content.operators.mapM (pullDeprecation surroundings db
      (content.operators.map fun operator => operator.id)) = .ok operators) :
    operators = content.operators := by
  have hsame : content.operators.mapM (pullDeprecation surroundings db
      (content.operators.map fun operator => operator.id)) = .ok content.operators := by
    refine mapM_eq_ok.mpr (List.forall₂_same.mpr fun operator hoperator => ?_)
    unfold pullDeprecation
    rw [if_neg fun hnew => hnew.2 (List.mem_map_of_mem hoperator)]
    rfl
  exact Except.ok.inj (h.symm.trans hsame)

/-- The update of a content which is stored already keeps it. -/
theorem updateContent_keeps (hkeeps : KeepsMarkers tools) {existing updated written : Revision V D}
    (h : updateContent tools surroundings db options (some existing) updated = .ok written)
    (hcontent : updated.content = existing.content)
    (hexpand : options.expandComponentCode = false) (hstrings : updated.stringsValid = true)
    (hnames : ∀ text, updated.content = .code text → updated.ioInterface.NamesIdentifiers)
    (hmarkers : options.updateComponentCode = true →
      ∀ text, existing.content = .code text → (outsideMarkers text).isSome) :
    ∃ content', written = { updated with content := content' } ∧
      KeptContent existing.content content' ∧
        (∀ content, existing.content = .workflow content → content' = .workflow content) := by
  unfold updateContent at h
  split at h
  · rename_i text htext
    have hexisting : existing.content = .code text := hcontent.symm.trans htext
    split at h
    · rename_i hupdate
      obtain ⟨code, hcode, h⟩ := bind_eq_ok.mp h
      obtain rfl := return_eq_ok.mp h
      obtain ⟨code', hcode', hfinal⟩ := bind_eq_ok.mp (mapError_eq_ok.mp hcode)
      rw [hexpand, if_neg Bool.false_ne_true] at hfinal
      obtain rfl := return_eq_ok.mp hfinal
      refine ⟨.code code', rfl, ?_, fun content hworkflow => ?_⟩
      · rw [hexisting]
        exact .code (hkeeps.updateCode hstrings (hnames text htext)
          (hmarkers hupdate text hexisting) hcode')
      · cases hexisting.symm.trans hworkflow
    · obtain rfl := return_eq_ok.mp h
      exact ⟨updated.content, rfl, hcontent ▸ .refl _, fun _ hworkflow =>
        hcontent.trans hworkflow⟩
  · rename_i hnone
    cases hnone
  · rename_i content existing' hworkflow hsome
    obtain rfl := Option.some.inj hsome
    obtain ⟨operators, hoperators, h⟩ := bind_eq_ok.mp h
    obtain rfl := return_eq_ok.mp h
    have hexisting : existing.content = .workflow content := hcontent.symm.trans hworkflow
    have hids : existing.operators = content.operators := by
      rw [TransformationRevision.operators, hexisting]
    rw [hids] at hoperators
    obtain rfl := pullDeprecation_of_existing hoperators
    refine ⟨.workflow content, rfl, hexisting ▸ .refl _, fun _ h => h ▸ hexisting.symm⟩

/-- What is written instead of a revision which is not a draft differs from it in timestamps,
documentation, wirings and state only. -/
theorem ifApplicableReleaseOrDeprecate_keeps [DecidableEq D]
    {row existing payload updated : Revision V D} {uuid4 : ℕ → UUID} (hloads : LoadsAsStored row) (hstate : row.state ≠ .draft)
    (hselect : row.validate uuid4 = .ok existing)
    (hmodifiable : isModifiable existing payload false = true)
    (h : ifApplicableReleaseOrDeprecate surroundings existing payload = .ok updated) :
    KeptRelease row updated ∧ updated.content = row.content ∧ updated.stringsValid = true := by
  obtain ⟨hexisting, hstrings⟩ := hloads.eq_of_validate hselect
  obtain ⟨-, hcases⟩ := isModifiable_eq_true hmodifiable
  have hstateExisting : existing.state = row.state := by rw [hexisting]
  unfold ifApplicableReleaseOrDeprecate at h
  split at h
  · rename_i hdraft _
    exact absurd (hstateExisting.symm.trans hdraft) hstate
  · rename_i hreleased hdisabled
    obtain ⟨copied, hcopied, h⟩ := bind_eq_ok.mp h
    obtain ⟨deprecated, hdeprecated, h⟩ := bind_eq_ok.mp h
    have hloads' : LoadsAsStored existing := by
      refine hloads.congr hstate ?_ ?_ ?_
      · rw [hexisting]
        exact hstate
      · rw [hexisting]
      · rw [hexisting]
    obtain ⟨hcopiedEq, -⟩ := hloads'.eq_of_validate (mapError_eq_ok.mp hcopied)
    obtain ⟨-, hdeprecated⟩ := require_bind_eq_ok.mp (mapError_eq_ok.mp hdeprecated)
    obtain ⟨_, -, hdeprecated⟩ := bind_eq_ok.mp hdeprecated
    obtain rfl := return_eq_ok.mp hdeprecated
    replace h := mapError_eq_ok.mp h
    have hcontent : existing.content = row.content := by rw [hexisting]
    have hupdated : updated =
        { copied with disabledTimestamp := some surroundings.now, state := .disabled } := by
      unfold assignContent at h
      split at h
      · rename_i text _ htext
        rw [← return_eq_ok.mp h, hcopiedEq, htext]
      · rename_i content _ hworkflow
        obtain ⟨-, hfiltered, hfit⟩ := hloads.content_of_validate hstate hselect
          (hcontent.symm.trans hworkflow)
        obtain ⟨_, -, h⟩ := bind_eq_ok.mp h
        rw [← return_eq_ok.mp h, hcopiedEq, hexisting, hfiltered, hfit, hworkflow.symm.trans hcontent]
      · cases h
    rw [hupdated, hcopiedEq, hexisting]
    exact ⟨⟨hstate, rfl, rfl, rfl, rfl, rfl, rfl, rfl,
      Or.inr ⟨hstateExisting.symm.trans hreleased, rfl⟩, .refl _⟩, rfl, hstrings⟩
  · rename_i hother
    obtain rfl := return_eq_ok.mp h
    have hsame : trSameExceptForWiringAndDocu existing payload = true := by
      rcases hcases with hsame | hallow | ⟨hactive, hdeprecates⟩
      · exact hsame
      · cases hallow
      · have hreleased : existing.state = .released := by
          cases hcase : existing.state with
          | draft => exact absurd (hstateExisting.symm.trans hcase) hstate
          | released => rfl
          | disabled => exact absurd hcase hactive
        exact absurd (hdeprecates hreleased) (hother hreleased)
    have heq := of_decide_eq_true hsame
    rw [← heq, hexisting]
    exact ⟨⟨hstate, rfl, rfl, rfl, rfl, rfl, rfl, rfl, Or.inl rfl, .refl _⟩, rfl, hstrings⟩

/-- Of the revisions which are not drafts a write keeps each, and loads change none of them unless
they did so before. -/
theorem writeRevision_keeps [DecidableEq D] (hkeeps : KeepsMarkers tools)
    (hnames : ComponentsNamed db) {payload written : Revision V D}
    (h : writeRevision tools surroundings db options payload = .ok (mid, written))
    (hoverwrite : options.allowOverwriteReleased = false)
    (hexpand : options.expandComponentCode = false)
    (hloads : ∀ row ∈ db.find payload.id, row.state ≠ .draft → LoadsAsStored row ∧
      (options.updateComponentCode = true →
        ∀ text, row.content = .code text → (outsideMarkers text).isSome))
    {id : UUID} {row : Revision V D} (hrow : db.find id = some row) (hstate : row.state ≠ .draft) :
    ∃ row', mid.find id = some row' ∧ KeptRelease row row' ∧
      (LoadsAsStored row → LoadsAsStored row') := by
  rcases writeRevision_eq_ok h with ⟨hnew, hcontent, hadd⟩ |
    ⟨existing, updated, hselect, hmodifiable, hupdated, hcontent, hupdate⟩
  · obtain ⟨hidWritten, -⟩ := updateContent_shape hcontent
    obtain ⟨-, -, hfind⟩ := addTr_eq_ok hadd
    have hne : id ≠ written.id := by
      rintro rfl
      rw [hidWritten, hnew] at hrow
      cases hrow
    exact ⟨row, (hfind id).trans ((if_neg hne).trans hrow), .refl hstate, fun h => h⟩
  · obtain ⟨-, hfind⟩ := updateTr_eq_ok hupdate
    obtain ⟨stored, hstored, hvalid⟩ := selectTrById_eq_ok.mp hselect
    obtain ⟨hidWritten, -⟩ := writeRevision_shape h
    by_cases hid : id = payload.id
    · obtain rfl : row = stored := Option.some.inj (hrow.symm.trans ((congrArg _ hid).trans hstored))
      obtain ⟨hrowLoads, hmarkers⟩ := hloads row hstored hstate
      rw [hoverwrite] at hmodifiable
      obtain ⟨hkept, hsame, hstrings⟩ :=
        ifApplicableReleaseOrDeprecate_keeps hrowLoads hstate hvalid hmodifiable hupdated
      obtain ⟨hexisting, -⟩ := hrowLoads.eq_of_validate hvalid
      have hexistingContent : existing.content = row.content := by rw [hexisting]
      obtain ⟨content', rfl, hkeptContent, hworkflow⟩ := updateContent_keeps hkeeps hcontent
        (hsame.trans hexistingContent.symm) hexpand hstrings
        (fun text htext => hkept.ioInterface ▸
          hnames row (find_eq_some hrow).1 text (hsame.symm.trans htext))
        (fun hupdateCode text htext =>
          hmarkers hupdateCode text (hexistingContent.symm.trans htext))
      refine ⟨{ updated with content := content' }, ?_, ⟨hstate, hkept.id, hkept.revisionGroupId, hkept.type,
          hkept.name, hkept.category, hkept.versionTag, hkept.ioInterface, hkept.state,
          hexistingContent ▸ hkeptContent⟩, fun _ => ?_⟩
      · rw [hfind, if_pos (hid.trans hidWritten.symm), hrow, Option.map_some]
      · cases hcase : row.content with
        | code text =>
          rw [hexistingContent, hcase] at hkeptContent
          cases hkeptContent
          intro content hwritten
          cases hwritten
        | workflow original =>
          have hcontent' := hworkflow original (hexistingContent.trans hcase)
          exact hrowLoads.congr hstate hkept.state_ne_draft' (hcontent'.trans hcase.symm)
            hkept.ioInterface
    · exact ⟨row, (hfind id).trans ((if_neg fun heq => hid (heq.trans hidWritten)).trans hrow),
        .refl hstate, fun h => h⟩

/-! ## What a put passes on -/

/-- Passing on along a nesting loads a workflow and stores it with a mark. -/
theorem passOnAlong_find {nesting : Nesting × ℕ}
    (h : passOnAlong surroundings db nesting = .ok db') :
    ∃ row revision content, db.find nesting.1.workflowId = some row ∧
      row.validate (surroundings.uuid4 (.container nesting.2)) = .ok revision ∧
      revision.content = .workflow content ∧ ∀ id, db'.find id =
        if id = nesting.1.workflowId then some { revision with
          content := .workflow (content.markDisabled nesting.1.viaOperatorId) }
        else db.find id := by
  unfold passOnAlong at h
  obtain ⟨revision, hselect, h⟩ := bind_eq_ok.mp h
  obtain ⟨row, hrow, hvalid⟩ := selectTrById_eq_ok.mp hselect
  obtain ⟨hid, -⟩ := Database.shape_of_select hselect
  split at h
  · cases h
  · rename_i content hcontent
    refine ⟨row, revision, content, hrow, hvalid, hcontent, fun id => ?_⟩
    rw [(updateTr_eq_ok h).2 id]
    by_cases heq : id = nesting.1.workflowId
    · rw [if_pos (heq.trans hid.symm), if_pos heq, heq, hrow, Option.map_some]
      rfl
    · rw [if_neg (fun hne => heq (hne.trans hid)), if_neg heq]

/-- A mark keeps a workflow which loads do not change. -/
theorem LoadsAsStored.marked {row revision : Revision V D} {uuid4 : ℕ → UUID}
    (hloads : LoadsAsStored row) (hstate : row.state ≠ .draft)
    (hvalid : row.validate uuid4 = .ok revision) {content : WorkflowContent V}
    (hcontent : revision.content = .workflow content) (operatorId : UUID) :
    KeptRelease row
        { revision with content := .workflow (content.markDisabled operatorId) } ∧
      LoadsAsStored { revision with content := .workflow (content.markDisabled operatorId) } := by
  obtain ⟨hrevision, -⟩ := hloads.eq_of_validate hvalid
  have hrow : row.content = .workflow content := by
    rw [hrevision] at hcontent
    exact hcontent
  obtain ⟨hdrafts, -⟩ := hloads.content_of_validate hstate hvalid hrow
  constructor
  · rw [hrevision]
    refine ⟨hstate, rfl, rfl, rfl, rfl, rfl, rfl, rfl, Or.inl rfl, ?_⟩
    rw [hrow]
    refine .workflow (List.forall₂_map_right_iff.mpr
      (List.forall₂_same.mpr fun operator _ => ?_))
    unfold HetidaDesigner.markDisabled
    split
    · exact Or.inr rfl
    · exact Or.inl rfl
  · have hmarked := hloads.markDisabled hrow hdrafts operatorId
    refine hmarked.congr hstate ?_ rfl ?_
    · rw [hrevision]
      exact hstate
    · rw [hrevision]

/-- Passing on along nestings keeps a revision which is not a draft, if loads do not change it
where it is loaded. -/
theorem passOnAlong_keeps (nestings : List (Nesting × ℕ)) {id : UUID} {row : Revision V D}
    (hrow : db.find id = some row) (hstate : row.state ≠ .draft)
    (hloads : (∃ nesting ∈ nestings, nesting.1.workflowId = id) → LoadsAsStored row)
    (h : nestings.foldlM (passOnAlong surroundings) db = .ok db') :
    ∃ row', db'.find id = some row' ∧ KeptRelease row row' := by
  induction nestings generalizing db row with
  | nil =>
    obtain rfl := return_eq_ok.mp h
    exact ⟨row, hrow, .refl hstate⟩
  | cons nesting rest ih =>
    rw [List.foldlM_cons] at h
    obtain ⟨next, hnext, h⟩ := bind_eq_ok.mp h
    obtain ⟨stored, revision, content, hstored, hvalid, hcontent, hfind⟩ := passOnAlong_find hnext
    by_cases hid : id = nesting.1.workflowId
    · obtain rfl : row = stored := Option.some.inj (hrow.symm.trans ((congrArg _ hid).trans hstored))
      have hrowLoads := hloads ⟨nesting, List.mem_cons_self .., hid.symm⟩
      obtain ⟨hkept, hmarked⟩ := hrowLoads.marked hstate hvalid hcontent nesting.1.viaOperatorId
      obtain ⟨row', hrow', hkept'⟩ :=
        ih ((hfind id).trans (if_pos hid)) hkept.state_ne_draft' (fun _ => hmarked) h
      exact ⟨row', hrow', hkept.trans hkept'⟩
    · exact ih ((hfind id).trans ((if_neg hid).trans hrow)) hstate
        (fun ⟨other, hother, heq⟩ => hloads ⟨other, List.mem_cons_of_mem _ hother, heq⟩) h

/-- What follows a write keeps a revision which is not a draft, if loads do not change it where
it is loaded. -/
theorem propagate_keeps {written : Revision V D} {id : UUID} {row : Revision V D}
    (hrow : db.find id = some row) (hstate : row.state ≠ .draft)
    (hloads : written.state = .disabled → (∃ nesting ∈ db.findAllNestings written.id,
      nesting.workflowId = id) → LoadsAsStored row)
    (h : propagate surroundings db written = .ok db') :
    ∃ row', db'.find id = some row' ∧ KeptRelease row row' := by
  unfold propagate at h
  split at h
  · rename_i hdisabled
    refine passOnAlong_keeps _ hrow hstate (fun ⟨nesting, hnesting, hid⟩ => ?_) h
    have hmem := List.mem_map_of_mem (f := Prod.fst) hnesting
    rw [List.zipIdx_map_fst] at hmem
    exact hloads hdisabled ⟨nesting.1, hmem, hid⟩
  · obtain rfl := return_eq_ok.mp h
    exact ⟨row, hrow, .refl hstate⟩
  · cases h
  · obtain ⟨hrevisions, -⟩ := rebuilt_of_updateNesting h
    refine ⟨row, ?_, .refl hstate⟩
    rw [Database.find, hrevisions]
    exact hrow

end Write

/-! ## Names of component ios -/

section Names

variable [UnicodeData] {V D : Type} [DecidableEq V] {db db' mid : Database V D}
  {tools : CodeTools V D} {surroundings : Surroundings} {options : PutOptions}

/-- A load keeps the interface of components. -/
theorem ioInterface_of_validate {row loaded : Revision V D} {uuid4 : ℕ → UUID}
    (h : row.validate uuid4 = .ok loaded) {text : PyStr} (hcode : row.content = .code text) :
    loaded.ioInterface = row.ioInterface ∧ loaded.content = .code text := by
  unfold TransformationRevision.validate TransformationRevision.validateWith at h
  simp only [require_bind_eq_ok] at h
  obtain ⟨-, -, -, -, -, h⟩ := h
  split at h
  · obtain rfl := return_eq_ok.mp h
    exact ⟨rfl, hcode⟩
  · rename_i hworkflow
    cases hworkflow.symm.trans hcode
  · cases h

omit [UnicodeData] [DecidableEq V] in
/-- Content with code is the code of a component. -/
theorem Content.eq_code_of_code? {content : Content V} {text : PyStr}
    (h : content.code? = some text) : content = .code text := by
  cases content with
  | code text' => rw [Option.some.inj h]
  | workflow content => cases h

/-- The interface of a component which is written is the one sent or the one stored. -/
theorem ifApplicableReleaseOrDeprecate_ioInterface {row existing payload updated : Revision V D}
    {uuid4 : ℕ → UUID} (hvalid : row.validate uuid4 = .ok existing)
    (h : ifApplicableReleaseOrDeprecate surroundings existing payload = .ok updated)
    {text : PyStr} (hcode : updated.content = .code text) :
    updated.ioInterface = payload.ioInterface ∨
      updated.ioInterface = row.ioInterface ∧ row.content = .code text := by
  have hrowCode (htext : existing.content = .code text) : row.content = .code text := by
    obtain ⟨-, hshape⟩ := TransformationRevision.validate_shape hvalid
    have hsame := congrArg Shape.code hshape
    refine Content.eq_code_of_code? (hsame.symm.trans ?_)
    rw [TransformationRevision.shape, htext]
    rfl
  unfold ifApplicableReleaseOrDeprecate at h
  split at h
  · obtain ⟨released, hreleased, h⟩ := bind_eq_ok.mp h
    obtain ⟨-, hreleased⟩ := require_bind_eq_ok.mp (mapError_eq_ok.mp hreleased)
    obtain ⟨_, -, hreleased⟩ := bind_eq_ok.mp hreleased
    obtain rfl := return_eq_ok.mp hreleased
    have hassign := mapError_eq_ok.mp h
    unfold assignContent at hassign
    split at hassign
    · rw [← return_eq_ok.mp hassign]
      exact Or.inl rfl
    · obtain ⟨_, -, hassign⟩ := bind_eq_ok.mp hassign
      rw [← return_eq_ok.mp hassign] at hcode
      cases hcode
    · cases hassign
  · obtain ⟨copied, hcopied, h⟩ := bind_eq_ok.mp h
    obtain ⟨deprecated, hdeprecated, h⟩ := bind_eq_ok.mp h
    obtain ⟨-, hdeprecated⟩ := require_bind_eq_ok.mp (mapError_eq_ok.mp hdeprecated)
    obtain ⟨_, -, hdeprecated⟩ := bind_eq_ok.mp hdeprecated
    obtain rfl := return_eq_ok.mp hdeprecated
    have hassign := mapError_eq_ok.mp h
    unfold assignContent at hassign
    split at hassign
    · rename_i htext
      rw [← return_eq_ok.mp hassign] at hcode ⊢
      obtain rfl := Content.code.inj hcode
      have hrow := hrowCode htext
      obtain ⟨hexisting, -⟩ := ioInterface_of_validate hvalid hrow
      obtain ⟨hcopiedInterface, -⟩ := ioInterface_of_validate (mapError_eq_ok.mp hcopied) htext
      exact Or.inr ⟨hcopiedInterface.trans hexisting, hrow⟩
    · obtain ⟨_, -, hassign⟩ := bind_eq_ok.mp hassign
      rw [← return_eq_ok.mp hassign] at hcode
      cases hcode
    · cases hassign
  · rw [← return_eq_ok.mp h]
    exact Or.inl rfl

/-- The update of a content keeps the interface, and code remains code. -/
theorem updateContent_ioInterface {existing : Option (Revision V D)}
    {updated written : Revision V D}
    (h : updateContent tools surroundings db options existing updated = .ok written) :
    written.ioInterface = updated.ioInterface ∧
      ∀ text, written.content = .code text → ∃ text', updated.content = .code text' := by
  unfold updateContent at h
  split at h
  · rename_i text htext
    split at h
    · obtain ⟨code, -, h⟩ := bind_eq_ok.mp h
      rw [← return_eq_ok.mp h]
      exact ⟨rfl, fun _ _ => ⟨text, htext⟩⟩
    · rw [← return_eq_ok.mp h]
      exact ⟨rfl, fun _ _ => ⟨text, htext⟩⟩
  · rw [← return_eq_ok.mp h]
    exact ⟨rfl, fun text htext => ⟨text, htext⟩⟩
  · obtain ⟨operators, -, h⟩ := bind_eq_ok.mp h
    rw [← return_eq_ok.mp h]
    refine ⟨rfl, fun text htext => ?_⟩
    cases htext

/-- A write keeps the names of component ios, if those sent are identifiers. -/
theorem ComponentsNamed.writeRevision [DecidableEq D] (hnames : ComponentsNamed db)
    {payload written : Revision V D} (hpayload : payload.ioInterface.NamesIdentifiers)
    (h : writeRevision tools surroundings db options payload = .ok (mid, written)) :
    ComponentsNamed mid := by
  have hwritten : ∀ text, written.content = .code text → written.ioInterface.NamesIdentifiers := by
    intro text htext
    rcases writeRevision_eq_ok h with ⟨-, hcontent, -⟩ |
      ⟨existing, updated, hselect, -, hupdated, hcontent, -⟩
    · rw [(updateContent_ioInterface hcontent).1]
      exact hpayload
    · obtain ⟨hinterface, hcode⟩ := updateContent_ioInterface hcontent
      obtain ⟨text', htext'⟩ := hcode text htext
      obtain ⟨row, hrow, hvalid⟩ := selectTrById_eq_ok.mp hselect
      rw [hinterface]
      rcases ifApplicableReleaseOrDeprecate_ioInterface hvalid hupdated htext' with
        hsent | ⟨hstored, hrowCode⟩
      · exact hsent ▸ hpayload
      · exact hstored ▸ hnames row (find_eq_some hrow).1 text' hrowCode
  intro row hrow text htext
  have hfind := find_of_mem hrow
  have hcases : row = written ∨ db.find row.id = some row := by
    rcases writeRevision_eq_ok h with ⟨-, -, hadd⟩ | ⟨_, _, -, -, -, -, hupdate⟩
    · rw [(addTr_eq_ok hadd).2.2] at hfind
      split at hfind
      · exact Or.inl (Option.some.inj hfind).symm
      · exact Or.inr hfind
    · rw [(updateTr_eq_ok hupdate).2] at hfind
      split at hfind
      · obtain ⟨_, -, heq⟩ := Option.map_eq_some_iff.mp hfind
        exact Or.inl heq.symm
      · exact Or.inr hfind
  rcases hcases with rfl | hold
  · exact hwritten text htext
  · exact hnames row (find_eq_some hold).1 text htext

/-- What follows a write keeps the names of component ios. -/
theorem ComponentsNamed.propagate (hnames : ComponentsNamed db) {written : Revision V D}
    (h : propagate surroundings db written = .ok db') : ComponentsNamed db' := by
  have hloop (nestings : List (Nesting × ℕ)) (db : Database V D) (hnames : ComponentsNamed db)
      (h : nestings.foldlM (passOnAlong surroundings) db = .ok db') : ComponentsNamed db' := by
    induction nestings generalizing db with
    | nil =>
      obtain rfl := return_eq_ok.mp h
      exact hnames
    | cons nesting rest ih =>
      rw [List.foldlM_cons] at h
      obtain ⟨next, hnext, h⟩ := bind_eq_ok.mp h
      obtain ⟨-, revision, content, -, -, -, hfind⟩ := passOnAlong_find hnext
      refine ih next (fun row hrow text htext => ?_) h
      have hrow' := find_of_mem hrow
      rw [hfind] at hrow'
      split at hrow'
      · rw [← Option.some.inj hrow'] at htext
        cases htext
      · exact hnames row (find_eq_some hrow').1 text htext
  unfold HetidaDesigner.propagate at h
  split at h
  · exact hloop _ db hnames h
  · exact return_eq_ok.mp h ▸ hnames
  · cases h
  · obtain ⟨hrevisions, -⟩ := rebuilt_of_updateNesting h
    intro row hrow
    exact hnames row (hrevisions ▸ hrow)

end Names

/-! ## Runs -/

section Runs

variable [UnicodeData] {V D : Type} [DecidableEq V] [DecidableEq D] {db db' : Database V D}
  {tools : CodeTools V D}

omit [UnicodeData] [DecidableEq V] [DecidableEq D] in
/-- Nothing has to be kept if nothing happens. -/
theorem KeepsReleases.refl (db : Database V D) : KeepsReleases db db :=
  fun row hrow hstate => ⟨row, hrow, .refl hstate⟩

omit [UnicodeData] [DecidableEq V] [DecidableEq D] in
/-- Keeping released revisions twice. -/
theorem KeepsReleases.trans {a b c : Database V D} (h : KeepsReleases a b)
    (h' : KeepsReleases b c) : KeepsReleases a c := by
  intro row hrow hstate
  obtain ⟨row', hrow', hkept⟩ := h row hrow hstate
  obtain ⟨row'', hrow'', hkept'⟩ := h' row' hrow' hkept.state_ne_draft'
  exact ⟨row'', hrow'', hkept.trans hkept'⟩

/-- A put keeps the names of component ios, if those sent are identifiers. -/
theorem ComponentsNamed.put (hnames : ComponentsNamed db) {surroundings : Surroundings}
    {options : PutOptions} {payload : Revision V D}
    (hpayload : payload.ioInterface.NamesIdentifiers)
    (h : handle tools db (.put surroundings options payload) = .ok db') : ComponentsNamed db' := by
  obtain ⟨-, mid, written, -, hwrite, hpropagate, -⟩ := handle_put_eq_ok h
  have hsent : (payload.stripWirings options.strip).ioInterface.NamesIdentifiers := hpayload
  exact (hnames.writeRevision hsent hwrite).propagate hpropagate

/-- A put under the condition keeps released revisions. -/
theorem keepsReleases_of_put (hkeeps : KeepsMarkers tools) (hnames : ComponentsNamed db)
    {surroundings : Surroundings} {options : PutOptions} {payload : Revision V D}
    (hfair : (Request.put surroundings options payload).PutsWithoutExpansion)
    (hloads : KeepsReleasedContents db (.put surroundings options payload))
    (h : handle tools db (.put surroundings options payload) = .ok db') : KeepsReleases db db' := by
  obtain ⟨-, mid, written, -, hwrite, hpropagate, -⟩ := handle_put_eq_ok h
  obtain ⟨hid, hsaved, hnestings, -⟩ := writeRevision_shape hwrite
  have hstateWritten : written.state = payload.state := hsaved.state
  intro row hrow hstate
  obtain ⟨row', hrow', hkept, hloads'⟩ := writeRevision_keeps hkeeps hnames hwrite hfair.1 hfair.2
    hloads.1 (find_of_mem hrow) hstate
  obtain ⟨row'', hrow'', hkept'⟩ := propagate_keeps hrow' hkept.state_ne_draft'
    (fun hdisabled ⟨nesting, hnesting, hcontainer⟩ => by
      rw [findAllNestings, hnestings, hid] at hnesting
      refine hloads' (hloads.2 (hstateWritten.symm.trans hdisabled) nesting hnesting row ?_ hstate)
      rw [hcontainer]
      exact find_of_mem hrow) hpropagate
  exact ⟨row'', (find_eq_some hrow'').1, hkept.trans hkept'⟩

end Runs

/-! ## Code without markers -/

/-- The text of an import at the end of which a blank line is missing. -/
def importOfHeader : PyStr := "# noqa: E402, F401\n\n".toList

/-- A formatter for generated headers: it adds the missing blank line, and rejects everything but
a header with a body. -/
def formatHeader (code : PyStr) : Option PyStr :=
  match SplitFirst.splitFirst importOfHeader code with
  | none => none
  | some (before, after) =>
    let formatted := before ++ importOfHeader ++ '\n' :: after
    if outsideMarkers formatted = some ([], functionBodyTemplate) then some formatted else none

/-- Tools which write the headers of component 1. -/
def headerTools : CodeTools ℤ Unit :=
  { plainTools with
    black := formatHeader
    isoformat := fun t => "1970-01-01T00:00:0".toList ++ Nat.toDigits 10 t.toNat ++ "+00:00".toList
    uuidStr := fun _ => "00000000-0000-0000-0000-000000000001".toList }

/-- The formatter for headers keeps the marker lines. -/
theorem keepsMarkers_headerTools [UnicodeData] : KeepsMarkers headerTools := by
  intro component isCoroutine definition formatted _ _ _ hblack
  have hformat : formatHeader (doNotEditBelow ++ definition ++ doNotEditAbove ++
    functionBodyTemplate) = some formatted := hblack
  unfold formatHeader at hformat
  split at hformat
  · cases hformat
  · dsimp only at hformat
    split at hformat
    · rename_i houtside
      rw [Option.some.inj hformat] at houtside
      unfold outsideMarkers at houtside
      split at houtside
      · cases houtside
      · rename_i start remaining hbelow
        obtain ⟨⟨middle, rest⟩, habove, heq⟩ := Option.map_eq_some_iff.mp houtside
        obtain ⟨rfl, rfl⟩ := Prod.mk.inj heq
        have hremaining := SplitFirst.splitFirst_eq_some habove
        refine ⟨middle, ?_, ?_⟩
        · rw [SplitFirst.splitFirst_eq_some hbelow, hremaining]
          simp only [List.nil_append, List.append_assoc]
        · rw [hremaining] at habove
          have hexchanged := SplitFirst.splitFirst_exchange habove []
          rwa [List.append_nil] at hexchanged
    · cases hformat

/-- Code without marker lines. -/
def passCode : PyStr := "pass\n".toList

instance : DecidablePred (Request.PutsWithoutExpansion (V := ℤ) (D := Unit)) := fun request =>
  match request with
  | .put _ options _ => inferInstanceAs (Decidable
    (options.allowOverwriteReleased = false ∧ options.expandComponentCode = false))
  | .store _ | .delete .. => .isFalse id

/-- A component without ios has no names which could be wrong. -/
theorem namesIdentifiers_of_plainComponent {request : Request ℤ Unit} {id : UUID} {state : State}
    {text : PyStr} (h : request.payload = some (plainComponent id state text)) :
    request.NamesIdentifiers := by
  intro revision hrevision
  obtain rfl := Option.some.inj (h.symm.trans hrevision)
  exact ⟨fun _ h => absurd h List.not_mem_nil, fun _ h => absurd h List.not_mem_nil⟩

/-- What becomes of code which is kept. -/
theorem KeptContent.exists_code {text : PyStr} {content : Content ℤ}
    (h : KeptContent (.code text) content) : ∃ text', content = .code text' ∧ KeptCode text text' := by
  cases h with
  | code hcode => exact ⟨_, rfl, hcode⟩

/-- Code with marker lines. -/
def markedCode : PyStr :=
  "LIMIT = 1\n\n".toList ++ doNotEditBelow ++ '\n' :: doNotEditAbove ++ "    return \x7b\x7d\n".toList

/-- A put of a component which is new or has code with marker lines, without nestings. -/
def PutsMarkedCode (db : Database ℤ Unit) (request : Request ℤ Unit) : Prop :=
  request.PutsWithoutExpansion ∧ db.nestings = [] ∧ ∀ revision ∈ request.payload,
    ∀ row ∈ db.find revision.id, ∃ text ∈ row.content.code?, (outsideMarkers text).isSome

instance (db : Database ℤ Unit) (request : Request ℤ Unit) :
    Decidable (PutsMarkedCode db request) := inferInstanceAs (Decidable (_ ∧ _))

/-- Components are loaded without changes. -/
theorem keepsReleasedContents_of_markedCode [UnicodeData] {db : Database ℤ Unit}
    {request : Request ℤ Unit} (h : PutsMarkedCode db request) :
    KeepsReleasedContents db request := by
  obtain ⟨hfair, hnestings, hcode⟩ := h
  cases request with
  | put surroundings options payload =>
    constructor
    · intro row hrow _
      obtain ⟨text, htext, hmarkers⟩ := hcode payload rfl row hrow
      have hcontent := Content.eq_code_of_code? htext
      refine ⟨fun content hworkflow => ?_, fun _ text' htext' => ?_⟩
      · cases hcontent.symm.trans hworkflow
      · obtain rfl := Content.code.inj (hcontent.symm.trans htext')
        exact hmarkers
    · intro _ nesting hnesting
      rw [findAllNestings, hnestings] at hnesting
      exact absurd hnesting List.not_mem_nil
  | store revision | delete surroundings id type ignoreState => exact hfair.elim

end HetidaDesigner
