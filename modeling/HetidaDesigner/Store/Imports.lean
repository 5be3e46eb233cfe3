import HetidaDesigner.Store.Drafts

/-!
# Imports of released components

Released components should import released components only. The check of imports reads the code
sent, whereas a release keeps the code stored before, and the code is updated after the check.
-/

namespace HetidaDesigner

open Checks Database Runs

/-- The ids which some code imports; statements which are not proper imports are left out. -/
def importedIds {V D : Type} (tools : CodeTools V D) (text : PyStr) : List UUID :=
  ((tools.parse text).getD []).filterMap fun statement =>
    (componentImport tools.numerals statement).toOption.join.map fun found => found.id

section Conditions

variable {V D : Type}

/-- The revision is a stored component and not a draft. -/
def Database.IsReleasedComponent (db : Database V D) (id : UUID) : Prop :=
  ∃ shape ∈ db.shape id, shape.type = .component ∧ shape.state ≠ .draft

instance (db : Database V D) (id : UUID) : Decidable (db.IsReleasedComponent id) :=
  inferInstanceAs (Decidable (∃ _ ∈ db.shape id, _))

/-- The code of components which are not drafts imports stored components which are not drafts. -/
def ReleasedImportNoDrafts (tools : CodeTools V D) (db : Database V D) : Prop :=
  ∀ row ∈ db.revisions, row.type = .component → row.state ≠ .draft →
    ∀ text ∈ row.content.code?, ∀ id ∈ importedIds tools text,
      ∃ other ∈ db.revisions, other.id = id ∧ other.type = .component ∧ other.state ≠ .draft

instance (tools : CodeTools V D) (db : Database V D) : Decidable (ReleasedImportNoDrafts tools db) :=
  inferInstanceAs (Decidable (∀ _ ∈ db.revisions, _))

/-- The component whose code a put updates. A release takes over what is sent but for the content,
a deprecation takes over nothing but the state. -/
def componentToUpdate (surroundings : Surroundings) (row : Option (Revision V D))
    (payload : Revision V D) : Revision V D :=
  match row with
  | none => payload
  | some row =>
    match row.state, payload.state with
    | .draft, .released => { payload with
        releasedTimestamp := some surroundings.now
        releaseWiring := some payload.testWiring
        content := row.content }
    | .released, .disabled => { row with
        releasedTimestamp := row.releasedTimestampOrDisabled
        disabledTimestamp := some surroundings.now
        state := .disabled }
    | _, _ => payload

variable [UnicodeData]

/-- The code which is stored for a component: its code after the update, if updates are asked
for. -/
def codeToStore (tools : CodeTools V D) (options : PutOptions) (component : Revision V D)
    (text : PyStr) : Except CodeError PyStr :=
  if options.updateComponentCode then
    updatedCode tools options.expandComponentCode component text
  else .ok text

/-- If a component is sent which is not a draft, then what the update makes of the code that is
kept imports what the code sent imports, the component itself or released components. -/
def KeepsImports (tools : CodeTools V D) (db : Database V D) : Request V D → Prop
  | .put surroundings options payload => payload.state ≠ .draft →
    ∀ text ∈ (componentToUpdate surroundings (db.find payload.id)
        (payload.stripWirings options.strip)).content.code?,
      ∀ text' ∈ (codeToStore tools options (componentToUpdate surroundings (db.find payload.id)
          (payload.stripWirings options.strip)) text).toOption,
        ∀ id ∈ importedIds tools text',
          (∃ sent ∈ payload.content.code?, id ∈ importedIds tools sent) ∨ id = payload.id ∨
            db.IsReleasedComponent id
  | _ => False

instance (tools : CodeTools V D) (db : Database V D) (request : Request V D) :
    Decidable (KeepsImports tools db request) :=
  match request with
  | .put .. => inferInstanceAs (Decidable (_ → ∀ _ ∈ Content.code? _, _))
  | .store _ | .delete .. => .isFalse id

end Conditions

/-! ## What the check guarantees -/

section Check

variable {V D : Type} {db : Database V D} {tools : CodeTools V D}

/-- The ids of the imports which are found are the imported ids. -/
theorem importedIds_of_getGlobalComponentImports {text : PyStr} {imports : List ImportedText}
    (h : getGlobalComponentImports tools text = .ok imports) :
    importedIds tools text = imports.map fun found => found.id := by
  have hstatements (statements : List Statement) (imports : List ImportedText)
      (h : componentImports tools.numerals statements = .ok imports) :
      (statements.filterMap fun statement =>
        (componentImport tools.numerals statement).toOption.join.map fun found => found.id) =
          imports.map fun found => found.id := by
    induction statements generalizing imports with
    | nil =>
      obtain rfl := Except.ok.inj h
      rfl
    | cons statement rest ih =>
      rw [componentImports] at h
      obtain ⟨found, hfound, h⟩ := bind_eq_ok.mp h
      obtain ⟨others, hothers, h⟩ := bind_eq_ok.mp h
      obtain rfl := return_eq_ok.mp h
      rw [List.filterMap_cons, hfound, ih others hothers]
      cases found <;> rfl
  unfold getGlobalComponentImports at h
  unfold importedIds
  cases hparse : tools.parse text with
  | none =>
    rw [hparse] at h
    obtain rfl := Except.ok.inj h
    rfl
  | some statements =>
    rw [hparse] at h
    exact hstatements statements imports h

variable [UnicodeData] [DecidableEq V] {surroundings : Surroundings}

/-- The imports of a checked component which is not a draft are released components. -/
theorem isReleasedComponent_of_check {component : Revision V D}
    (h : checkDirectComponentImports tools surroundings db component = .ok ())
    (htype : component.type = .component) (hstate : component.state ≠ .draft) {text : PyStr}
    (hcode : component.content = .code text) {id : UUID} (hid : id ∈ importedIds tools text) :
    db.IsReleasedComponent id := by
  unfold checkDirectComponentImports at h
  rw [htype, hcode] at h
  split at h
  · rename_i hworkflow
    cases hworkflow
  · rename_i hdraft
    exact absurd hdraft hstate
  · rename_i hcontent _
    cases hcontent
  · rename_i text' _ hcontent _
    obtain rfl := Content.code.inj hcontent
    obtain ⟨imports, himports, h⟩ := bind_eq_ok.mp h
    obtain ⟨trafos, htrafos, h⟩ := bind_eq_ok.mp h
    rw [importedIds_of_getGlobalComponentImports (mapError_eq_ok.mp himports)] at hid
    obtain ⟨found, hfound, rfl⟩ := List.mem_map.mp hid
    obtain ⟨trafo, htrafo, hselect⟩ := exists_of_mapM htrafos hfound
    obtain ⟨htrafoType, hchecks⟩ := require_bind_eq_ok.mp (forM_eq_ok.mp h trafo htrafo)
    obtain ⟨-, hshape⟩ := Database.shape_of_select (mapError_eq_ok.mp hselect)
    exact ⟨trafo.shape, hshape, of_decide_eq_true htrafoType,
      of_decide_eq_true (require_eq_ok.mp hchecks)⟩

end Check

/-! ## The code which gets stored -/

section Write

variable [UnicodeData] {V D : Type} [DecidableEq V] [DecidableEq D] {db mid : Database V D}
  {tools : CodeTools V D} {surroundings : Surroundings} {options : PutOptions}

omit [DecidableEq D] in
/-- A validated component is what was validated, with the timestamp of its release. -/
theorem eq_of_validate_code {W : Type} {uuid4 : ℕ → UUID} {data revision : TransformationRevision V W}
    (h : data.validate uuid4 = .ok revision) {text : PyStr} (hcode : revision.content = .code text) :
    data.content = .code text ∧
      revision = { data with releasedTimestamp := data.releasedTimestampOrDisabled } := by
  unfold TransformationRevision.validate TransformationRevision.validateWith at h
  simp only [require_bind_eq_ok] at h
  obtain ⟨-, -, -, -, -, h⟩ := h
  split at h
  · obtain rfl := return_eq_ok.mp h
    exact ⟨hcode, rfl⟩
  · obtain ⟨content, -, h⟩ := bind_eq_ok.mp h
    obtain rfl := return_eq_ok.mp h
    cases hcode
  · cases h

omit [UnicodeData] [DecidableEq D] in
/-- Code is assigned to components, and nothing else is changed. -/
theorem eq_of_assignContent_code {W : Type} {revision assigned : TransformationRevision V W}
    {content : Content V} (h : revision.assignContent content = .ok assigned) {text : PyStr}
    (hcode : assigned.content = .code text) :
    revision.type = .component ∧ content = .code text ∧
      assigned = { revision with content := .code text } := by
  unfold TransformationRevision.assignContent at h
  split at h
  · rename_i htype
    obtain rfl := return_eq_ok.mp h
    obtain rfl := Content.code.inj hcode
    exact ⟨htype, rfl, rfl⟩
  · obtain ⟨-, -, h⟩ := bind_eq_ok.mp h
    obtain rfl := return_eq_ok.mp h
    cases hcode
  · cases h

omit [DecidableEq D] in
/-- What a deprecation makes of a stored component. -/
theorem eq_of_deprecation {uuid4 : Draw → ℕ → UUID} {now : Timestamp}
    {row existing copied deprecated : Revision V D} {text : PyStr}
    (hvalid : row.validate (uuid4 .existing) = .ok existing)
    (hcopied : existing.validate (uuid4 .copied) = .ok copied)
    (hdeprecated : copied.deprecateRevision (uuid4 .checked) now = .ok deprecated)
    (hcode : existing.content = .code text) :
    { deprecated with content := .code text } = { row with
      releasedTimestamp := row.releasedTimestampOrDisabled
      disabledTimestamp := some now
      state := .disabled } := by
  obtain ⟨hrow, rfl⟩ := eq_of_validate_code hvalid hcode
  have hcontent : copied.content = .code text := by
    have hkept := congrArg Shape.code (TransformationRevision.validate_shape hcopied).2
    cases hcopy : copied.content with
    | code other =>
      simp only [TransformationRevision.shape, hcopy, hrow, Content.code?, Option.some_inj] at hkept
      rw [hkept]
    | workflow content =>
      simp only [TransformationRevision.shape, hcopy, hrow, Content.code?] at hkept
      cases hkept
  obtain ⟨-, rfl⟩ := eq_of_validate_code hcopied hcontent
  unfold TransformationRevision.deprecateRevision at hdeprecated
  obtain ⟨-, hdeprecated⟩ := require_bind_eq_ok.mp hdeprecated
  obtain ⟨-, -, hdeprecated⟩ := bind_eq_ok.mp hdeprecated
  obtain rfl := return_eq_ok.mp hdeprecated
  have htimestamps : (row.releasedTimestamp.or row.disabledTimestamp).or row.disabledTimestamp =
      row.releasedTimestamp.or row.disabledTimestamp := by
    rw [Option.or_assoc, Option.or_self]
  simp only [TransformationRevision.releasedTimestampOrDisabled, htimestamps, hrow]

omit [DecidableEq D] in
/-- The component whose code is updated is known from the row and the payload. -/
theorem eq_componentToUpdate {row existing payload updated : Revision V D}
    (hvalid : row.validate (surroundings.uuid4 .existing) = .ok existing)
    (h : ifApplicableReleaseOrDeprecate surroundings existing payload = .ok updated) {text : PyStr}
    (hcode : updated.content = .code text) :
    updated = componentToUpdate surroundings (some row) payload := by
  have hstate : existing.state = row.state :=
    congrArg Shape.state (TransformationRevision.validate_shape hvalid).2
  unfold ifApplicableReleaseOrDeprecate at h
  rw [hstate] at h
  split at h
  · rename_i hrow hpayload
    obtain ⟨released, hreleased, h⟩ := bind_eq_ok.mp h
    obtain ⟨-, hcontent, rfl⟩ := eq_of_assignContent_code (mapError_eq_ok.mp h) hcode
    obtain ⟨hkept, -⟩ := eq_of_validate_code hvalid hcontent
    replace hreleased := mapError_eq_ok.mp hreleased
    unfold TransformationRevision.release at hreleased
    obtain ⟨-, hreleased⟩ := require_bind_eq_ok.mp hreleased
    obtain ⟨-, -, hreleased⟩ := bind_eq_ok.mp hreleased
    obtain rfl := return_eq_ok.mp hreleased
    simp only [componentToUpdate, hrow, hpayload, hkept]
  · rename_i hrow hpayload
    obtain ⟨copied, hcopied, h⟩ := bind_eq_ok.mp h
    obtain ⟨deprecated, hdeprecated, h⟩ := bind_eq_ok.mp h
    obtain ⟨-, hcontent, rfl⟩ := eq_of_assignContent_code (mapError_eq_ok.mp h) hcode
    rw [eq_of_deprecation hvalid (mapError_eq_ok.mp hcopied) (mapError_eq_ok.mp hdeprecated)
      hcontent]
    simp only [componentToUpdate, hrow, hpayload]
  · rename_i hreleases hdeprecates
    obtain rfl := return_eq_ok.mp h
    simp only [componentToUpdate]

omit [DecidableEq D] in
/-- Updating the content of a component updates its code. -/
theorem updateContent_code {existing : Option (Revision V D)} {updated written : Revision V D}
    (h : updateContent tools surroundings db options existing updated = .ok written) {text' : PyStr}
    (hcode : written.content.code? = some text') :
    ∃ text, updated.content = .code text ∧ codeToStore tools options updated text = .ok text' := by
  unfold updateContent at h
  split at h
  · rename_i text hcontent
    refine ⟨text, hcontent, ?_⟩
    unfold codeToStore
    split at h
    · rename_i hupdate
      obtain ⟨code, hcodeUpdated, h⟩ := bind_eq_ok.mp h
      obtain rfl := return_eq_ok.mp h
      obtain rfl := Option.some.inj hcode
      rw [if_pos hupdate]
      exact mapError_eq_ok.mp hcodeUpdated
    · rename_i hupdate
      obtain rfl := return_eq_ok.mp h
      rw [hcontent] at hcode
      rw [if_neg hupdate]
      exact congrArg Except.ok (Option.some.inj hcode)
  · rename_i hcontent
    obtain rfl := return_eq_ok.mp h
    rw [hcontent] at hcode
    cases hcode
  · obtain ⟨operators, -, h⟩ := bind_eq_ok.mp h
    obtain rfl := return_eq_ok.mp h
    cases hcode

/-- The code which is written is that of the component to be updated, after the update. -/
theorem writeRevision_code {payload written : Revision V D}
    (h : writeRevision tools surroundings db options payload = .ok (mid, written)) {text' : PyStr}
    (hcode : written.content.code? = some text') :
    ∃ text ∈ (componentToUpdate surroundings (db.find payload.id) payload).content.code?,
      codeToStore tools options (componentToUpdate surroundings (db.find payload.id) payload)
        text = .ok text' := by
  rcases writeRevision_eq_ok h with ⟨hnew, hcontent, -⟩ |
    ⟨existing, updated, hselect, -, hupdated, hcontent, -⟩
  · obtain ⟨text, htext, hstore⟩ := updateContent_code hcontent hcode
    rw [hnew]
    exact ⟨text, by rw [componentToUpdate, htext]; rfl, hstore⟩
  · obtain ⟨row, hrow, hvalid⟩ := selectTrById_eq_ok.mp hselect
    obtain ⟨text, htext, hstore⟩ := updateContent_code hcontent hcode
    obtain rfl := eq_componentToUpdate hvalid hupdated htext
    rw [hrow]
    exact ⟨text, by rw [htext]; rfl, hstore⟩

end Write

/-! ## Steps and runs -/

section Steps

variable {V D : Type} {db db' : Database V D} {tools : CodeTools V D}

/-- Released components have rows. -/
theorem Database.isReleasedComponent_iff {id : UUID} : db.IsReleasedComponent id ↔
    ∃ row ∈ db.revisions, row.id = id ∧ row.type = .component ∧ row.state ≠ .draft := by
  constructor
  · rintro ⟨shape, hshape, hcomponent⟩
    obtain ⟨row, hrow, rfl⟩ := Option.map_eq_some_iff.mp hshape
    obtain ⟨hmem, hid⟩ := find_eq_some hrow
    exact ⟨row, hmem, hid, hcomponent⟩
  · rintro ⟨row, hmem, rfl, hcomponent⟩
    exact ⟨row.shape, Option.map_eq_some_iff.mpr ⟨row, find_of_mem hmem, rfl⟩, hcomponent⟩

/-- The property in terms of shapes. -/
theorem releasedImportNoDrafts_iff : ReleasedImportNoDrafts tools db ↔
    ∀ id, ∀ shape ∈ db.shape id, shape.type = .component → shape.state ≠ .draft →
      ∀ text ∈ shape.code, ∀ imported ∈ importedIds tools text,
        db.IsReleasedComponent imported := by
  constructor
  · intro h id shape hshape htype hstate text htext imported himported
    obtain ⟨row, hrow, rfl⟩ := Option.map_eq_some_iff.mp hshape
    obtain ⟨hmem, -⟩ := find_eq_some hrow
    exact Database.isReleasedComponent_iff.mpr
      (h row hmem htype hstate text htext imported himported)
  · intro h row hrow htype hstate text htext imported himported
    refine Database.isReleasedComponent_iff.mp
      (h row.id row.shape ?_ htype hstate text htext imported himported)
    exact Option.map_eq_some_iff.mpr ⟨row, find_of_mem hrow, rfl⟩

/-- Released components stay released components. -/
theorem Saves.isReleasedComponent {request : Request V D} {revision : Revision V D}
    (h : Saves db db' request revision) (hfair : request.allowsOverwrite = false) {id : UUID}
    (hid : db.IsReleasedComponent id) : db'.IsReleasedComponent id := by
  obtain ⟨shape, hshape, htype, hstate⟩ := hid
  obtain ⟨saved, hsaved, -, hpropagated⟩ := h
  rw [hfair] at hsaved
  by_cases hself : id = revision.id
  · subst hself
    obtain ⟨shape', hshape', htype', hstate', -⟩ := hpropagated.exists_shape' (if_pos rfl)
    refine ⟨shape', hshape', ?_, ?_⟩
    · rw [htype', hsaved.type, ← hsaved.type_eq shape hshape, htype]
    · rw [hstate', hsaved.state]
      exact hsaved.state_ne_draft ⟨shape, hshape, hstate⟩
  · obtain ⟨shape', hshape', htype', hstate', -⟩ :=
      hpropagated.exists_shape' ((if_neg hself).trans hshape)
    exact ⟨shape', hshape', htype' ▸ htype, hstate' ▸ hstate⟩

end Steps

section Runs

variable [UnicodeData] {V D : Type} [DecidableEq V] [DecidableEq D] {db db' : Database V D}
  {tools : CodeTools V D}

/-- A put which keeps imports keeps the property. -/
theorem ReleasedImportNoDrafts.put (h : ReleasedImportNoDrafts tools db)
    {surroundings : Surroundings} {options : PutOptions} {payload : Revision V D}
    (hok : handle tools db (.put surroundings options payload) = .ok db')
    (hfair : options.allowOverwriteReleased = false)
    (hkeeps : KeepsImports tools db (.put surroundings options payload)) :
    ReleasedImportNoDrafts tools db' := by
  have hsaves := saves_of_put hok
  obtain ⟨hcheck, mid, written, hwrite, hsaved, -, hpropagated⟩ := written_of_put hok
  rw [releasedImportNoDrafts_iff] at h ⊢
  intro id shape' hshape' htype hstate text' htext' imported himported
  obtain ⟨shape, hshape, htypeEq, hstateEq, hcodeEq, -⟩ := hpropagated.exists_shape hshape'
  rw [htypeEq] at htype
  rw [hstateEq] at hstate
  rw [hcodeEq] at htext'
  split at hshape
  · rename_i hself
    obtain rfl := Option.some.inj hshape
    obtain ⟨text, htext, hstore⟩ := writeRevision_code hwrite htext'
    have hpayloadState : payload.state ≠ .draft := fun hdraft => hstate (hsaved.state.trans hdraft)
    rcases hkeeps hpayloadState text htext text' (congrArg Except.toOption hstore)
        imported
        himported with ⟨sent, hsent, hin⟩ | rfl | hreleased
    · have hcontent : payload.content = .code sent := by
        cases hpayload : payload.content with
        | code text =>
          rw [hpayload] at hsent
          rw [Option.some.inj hsent]
        | workflow content =>
          rw [hpayload] at hsent
          cases hsent
      have hpayloadType : payload.type = .component := hsaved.type.symm.trans htype
      exact hsaves.isReleasedComponent hfair
        (isReleasedComponent_of_check hcheck hpayloadType hpayloadState hcontent hin)
    · rw [hself] at hshape'
      exact ⟨shape', hshape', htypeEq.trans htype, hstateEq ▸ hstate⟩
    · exact hsaves.isReleasedComponent hfair hreleased
  · exact hsaves.isReleasedComponent hfair
      (h id shape hshape htype hstate text' htext' imported himported)

/-- In every run of puts that keep imports, released and deprecated components import released
and deprecated components only. -/
theorem releasedImportNoDrafts_of_run
    (h : Reaches (handle tools) (fun db request => request.WellTyped ∧
      request.allowsOverwrite = false ∧ KeepsImports tools db request) .empty db) :
    ReleasedImportNoDrafts tools db := by
  refine h.invariant (fun row hrow => absurd hrow List.not_mem_nil) ?_
  rintro s request s' hs ⟨-, hfair, hkeeps⟩ hok
  cases request with
  | put surroundings options payload => exact hs.put hok hfair hkeeps
  | store revision | delete surroundings id type ignoreState => exact hkeeps.elim

end Runs

/-! ## A release with other code than the stored one -/

/-- Code which imports component 2. -/
def importCode : PyStr := "k = import_comp(\"00000000-0000-0000-0000-000000000002\")\n".toList

/-- Tools with a parser that knows the import at the start of some code. -/
def importTools : CodeTools ℤ Unit :=
  { plainTools with
    parse := fun text =>
      if importCode.isPrefixOf text then
        some [.assign 1 (.call (some "import_comp".toList) [.literal (some (uuidStr 2))])]
      else some [] }

/-- A request is a put without overwriting released revisions. -/
def Request.PutsFairly {V D : Type} : Request V D → Prop
  | .put _ options _ => options.allowOverwriteReleased = false
  | _ => False

instance {V D : Type} (request : Request V D) : Decidable request.PutsFairly :=
  match request with
  | .put _ options _ => inferInstanceAs (Decidable (options.allowOverwriteReleased = false))
  | .store _ | .delete .. => .isFalse id

/-- A draft, a draft which imports it, and a release of the latter with code sent that imports
nothing. -/
def otherCodeReleased : List (Request ℤ Unit) := [
  plainPut (plainComponent 2 .draft "pass\n".toList),
  plainPut (plainComponent 1 .draft importCode),
  plainPut (plainComponent 1 .released "pass\n".toList)]

/-- The released component imports a draft. -/
theorem otherCodeReleased_importsDraft :
    ¬ ∀ db, Reaches (@handle asciiOnly ℤ Unit _ _ importTools)
      (fun _ request => PlainWellTyped request ∧ request.PutsFairly) .empty db →
        ReleasedImportNoDrafts importTools db := by
  intro h
  obtain ⟨db, hdb, hnot⟩ := exists_of_run (@handle asciiOnly ℤ Unit _ _ importTools)
    (fun _ request => request.PutsFairly) otherCodeReleased .empty
    (fun db => ¬ ReleasedImportNoDrafts importTools db) (by decide +kernel)
  refine hnot (h db (Reaches.of_run ?_ hdb))
  simp only [otherCodeReleased, List.forall_mem_cons, List.not_mem_nil, false_imp_iff,
    implies_true, and_true]
  exact ⟨plainPut_wellTyped (by decide), plainPut_wellTyped (by decide),
    plainPut_wellTyped (by decide)⟩

/-- A released component, and another one which imports it and is released afterwards. -/
def releasedImports : List (Request ℤ Unit) := [
  plainPut (plainComponent 2 .released "pass\n".toList),
  plainPut (plainComponent 1 .draft importCode),
  plainPut (plainComponent 1 .released importCode)]

/-- The importing component is released with its import, which is that of a released one. -/
theorem releasedImports_importNoDraft :
    ∃ db, Reaches (@handle asciiOnly ℤ Unit _ _ importTools)
        (fun _ request => PlainWellTyped request) .empty db ∧
      (∃ row ∈ db.find 1, row.state = .released ∧
        ∃ text ∈ row.content.code?, 2 ∈ importedIds importTools text) ∧
      ReleasedImportNoDrafts importTools db := by
  obtain ⟨db, hdb, hrow⟩ := exists_of_run (@handle asciiOnly ℤ Unit _ _ importTools)
    (fun db request => request.PutsFairly ∧ @KeepsImports ℤ Unit asciiOnly importTools db request)
    releasedImports .empty (fun db => ∃ row ∈ db.find 1, row.state = .released ∧
      ∃ text ∈ row.content.code?, 2 ∈ importedIds importTools text) (by decide +kernel)
  have hvalid : ∀ request ∈ releasedImports, PlainWellTyped request := by
    simp only [releasedImports, List.forall_mem_cons, List.not_mem_nil, false_imp_iff,
      implies_true, and_true]
    exact ⟨plainPut_wellTyped (by decide), plainPut_wellTyped (by decide),
      plainPut_wellTyped (by decide)⟩
  have hreaches := Reaches.of_run hvalid hdb
  refine ⟨db, hreaches.mono fun _ _ h => h.1, hrow, ?_⟩
  refine @releasedImportNoDrafts_of_run asciiOnly _ _ _ _ _ _ (hreaches.mono ?_)
  rintro db request ⟨hwellTyped, hfair, hkeeps⟩
  cases request with
  | put surroundings options payload => exact ⟨hwellTyped, hfair, hkeeps⟩
  | store revision | delete surroundings id type ignoreState => exact hfair.elim

end HetidaDesigner
