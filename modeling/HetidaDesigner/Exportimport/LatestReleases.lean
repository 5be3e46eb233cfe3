import HetidaDesigner.Store.Imports
import HetidaDesigner.Store.Selection
import Mathlib.Data.List.MinMax

/-!
# Deprecating all but the latest release

`deprecate_all_but_latest_in_group` of `exportimport/utils.py`, run directly in the database: the
released revisions of a group are put into a dictionary by their release timestamps, and those with
another timestamp than the latest are deprecated, each by an update of its own. An update that
comes upon a row which does not pass its validation is given up, which is only logged.
-/

namespace HetidaDesigner

open Checks KeyedList Database

section Functions

variable [UnicodeData] {V D : Type} [DecidableEq V] [DecidableEq D]

/-- Errors which `update_or_create_transformation_revision` only logs. Invalid rows are integrity
errors. -/
def StoreError.isLogged : StoreError → Bool
  | .notFound _ => true
  | .integrity => true
  | .invalidRow _ => true
  | _ => false

/-- The default options of `update_or_create_transformation_revision`. -/
def PutOptions.overwriting : PutOptions := ⟨true, true, false, .none⟩

/-- `update_or_create_transformation_revision` with its default options. -/
def updateOrCreateTransformationRevision (tools : CodeTools V D) (surroundings : Surroundings)
    (db : Database V D) (tr : Revision V D) : Except StoreError (Database V D) :=
  match updateOrCreateSingleTransformationRevision tools surroundings db .overwriting tr with
  | .ok (db', _) => .ok db'
  | .error error => if error.isLogged then .ok db else .error error

/-- The parameters which select the released revisions of a group. -/
def releasedInGroup (revisionGroupId : UUID) : FilterParams where
  type := none
  state := some .released
  categories := none
  categoryPrefix := none
  revisionGroupId := some revisionGroupId
  ids := none
  names := none
  includeDeprecated := true
  includeDependencies := false

/-- The revisions in a dictionary by their release timestamps, without the latest one. -/
def outdatedReleases (trList : List (Revision V D)) : List (Revision V D) :=
  let byReleaseTimestamp := insertAll (fun tr : Revision V D => tr.releasedTimestamp) [] trList
  let latestTimestamp := (byReleaseTimestamp.filterMap fun tr => tr.releasedTimestamp).max?
  byReleaseTimestamp.filter fun tr => tr.releasedTimestamp ≠ latestTimestamp

/-- Deprecate a loaded revision and update it. -/
def deprecateOutdated (tools : CodeTools V D) (uuid4 : UUID → ℕ → UUID)
    (surroundings : UUID → Surroundings) (db : Database V D) (tr : Revision V D) :
    Except StoreError (Database V D) := do
  let deprecated ← (tr.deprecateRevision (uuid4 tr.id) (surroundings tr.id).now).mapError .validation
  updateOrCreateTransformationRevision tools (surroundings tr.id) db deprecated

/-- `deprecate_all_but_latest_in_group` -/
def deprecateAllButLatestInGroup (tools : CodeTools V D) (uuid4 : UUID → ℕ → UUID)
    (surroundings : UUID → Surroundings) (db : Database V D) (revisionGroupId : UUID) :
    Except StoreError (Database V D) := do
  let trList ← selectMultipleTransformationRevisions uuid4 db (releasedInGroup revisionGroupId)
  require (trList.all fun tr => tr.releasedTimestamp.isSome) .assertion
  (outdatedReleases trList).foldlM (deprecateOutdated tools uuid4 surroundings) db

end Functions

/-! ## The rows which are loaded -/

section Loads

variable [UnicodeData] {V D : Type} [DecidableEq V]

/-- The row of a revision passes its validation, if there is one. -/
def Database.RowLoads (db : Database V D) (uuid4 : ℕ → UUID) (id : UUID) : Prop :=
  ∀ row ∈ db.find id, (row.validate uuid4).isOk = true

instance (db : Database V D) (uuid4 : ℕ → UUID) (id : UUID) : Decidable (db.RowLoads uuid4 id) :=
  inferInstanceAs (Decidable (∀ _ ∈ db.find id, _))

/-- The rows of the workflows to which a deprecation is passed on pass their validation, each with
the marks that it has got until then. -/
def ContainersLoad (surroundings : Surroundings) : List (Nesting × ℕ) → Database V D → Prop
  | [], _ => True
  | nesting :: rest, db =>
    db.RowLoads (surroundings.uuid4 (.container nesting.2)) nesting.1.workflowId ∧
      ∀ next ∈ (passOnAlong surroundings db nesting).toOption,
        ContainersLoad surroundings rest next

/-- Whether containers load can be decided nesting by nesting. -/
def decidableContainersLoad (surroundings : Surroundings) :
    ∀ (nestings : List (Nesting × ℕ)) (db : Database V D),
      Decidable (ContainersLoad surroundings nestings db)
  | [], _ => .isTrue trivial
  | nesting :: rest, _ =>
    have := fun next => decidableContainersLoad surroundings rest (next : Database V D)
    inferInstanceAs (Decidable (Database.RowLoads _ _ nesting.1.workflowId ∧
      ∀ _ ∈ Except.toOption _, _))

instance (surroundings : Surroundings) (nestings : List (Nesting × ℕ)) (db : Database V D) :
    Decidable (ContainersLoad surroundings nestings db) :=
  decidableContainersLoad surroundings nestings db

variable [DecidableEq D]

/-- The rows which the update of a deprecated revision loads pass their validation: those of
imported components, its own, those of the workflows which contain it, and again its own after the
change. -/
structure UpdateLoads (tools : CodeTools V D) (surroundings : Surroundings) (db : Database V D)
    (options : PutOptions) (payload : Revision V D) : Prop where
  imported : payload.type = .component → ∀ text ∈ payload.content.code?,
    ∀ id ∈ importedIds tools text, db.RowLoads (surroundings.uuid4 (.imported id)) id
  existing : db.RowLoads (surroundings.uuid4 .existing) payload.id
  containers : ∀ change ∈ (writeRevision tools surroundings db options payload).toOption,
    ContainersLoad surroundings (change.1.findAllNestings payload.id).zipIdx change.1
  changed : ∀ change ∈ (writeRevision tools surroundings db options payload).toOption,
    ∀ next ∈ (passOnDeprecation surroundings change.1 payload.id).toOption,
      next.RowLoads (surroundings.uuid4 .stored) payload.id

instance (tools : CodeTools V D) (surroundings : Surroundings) (db : Database V D)
    (options : PutOptions) (payload : Revision V D) :
    Decidable (UpdateLoads tools surroundings db options payload) :=
  decidable_of_iff
    ((payload.type = .component → ∀ text ∈ payload.content.code?, ∀ id ∈ importedIds tools text,
        db.RowLoads (surroundings.uuid4 (.imported id)) id) ∧
      db.RowLoads (surroundings.uuid4 .existing) payload.id ∧
      (∀ change ∈ (writeRevision tools surroundings db options payload).toOption,
        ContainersLoad surroundings (change.1.findAllNestings payload.id).zipIdx change.1) ∧
      ∀ change ∈ (writeRevision tools surroundings db options payload).toOption,
        ∀ next ∈ (passOnDeprecation surroundings change.1 payload.id).toOption,
          next.RowLoads (surroundings.uuid4 .stored) payload.id)
    ⟨fun h => ⟨h.1, h.2.1, h.2.2.1, h.2.2.2⟩,
      fun h => ⟨h.imported, h.existing, h.containers, h.changed⟩⟩

/-- In each round of the loop the rows which its update loads pass their validation. -/
def RoundsLoad (tools : CodeTools V D) (uuid4 : UUID → ℕ → UUID)
    (surroundings : UUID → Surroundings) : List (Revision V D) → Database V D → Prop
  | [], _ => True
  | tr :: rest, db =>
    (∀ deprecated ∈ (tr.deprecateRevision (uuid4 tr.id) (surroundings tr.id).now).toOption,
      UpdateLoads tools (surroundings tr.id) db .overwriting
        (deprecated.stripWirings PutOptions.overwriting.strip)) ∧
      ∀ next ∈ (deprecateOutdated tools uuid4 surroundings db tr).toOption,
        RoundsLoad tools uuid4 surroundings rest next

/-- Whether the rows load can be decided round by round. -/
def decidableRoundsLoad (tools : CodeTools V D) (uuid4 : UUID → ℕ → UUID)
    (surroundings : UUID → Surroundings) : ∀ (trs : List (Revision V D)) (db : Database V D),
      Decidable (RoundsLoad tools uuid4 surroundings trs db)
  | [], _ => .isTrue trivial
  | tr :: rest, _ =>
    have := fun next => decidableRoundsLoad tools uuid4 surroundings rest (next : Database V D)
    inferInstanceAs (Decidable ((∀ _ ∈ Except.toOption (tr.deprecateRevision _ _), _) ∧
      ∀ _ ∈ Except.toOption _, _))

instance (tools : CodeTools V D) (uuid4 : UUID → ℕ → UUID) (surroundings : UUID → Surroundings)
    (trs : List (Revision V D)) (db : Database V D) :
    Decidable (RoundsLoad tools uuid4 surroundings trs db) :=
  decidableRoundsLoad tools uuid4 surroundings trs db

/-- The rows which the deprecations in a group load pass their validation. -/
def DeprecationsLoad (tools : CodeTools V D) (uuid4 : UUID → ℕ → UUID)
    (surroundings : UUID → Surroundings) (db : Database V D) (revisionGroupId : UUID) : Prop :=
  ∀ trList ∈ (selectMultipleTransformationRevisions uuid4 db
      (releasedInGroup revisionGroupId)).toOption,
    RoundsLoad tools uuid4 surroundings (outdatedReleases trList) db

instance (tools : CodeTools V D) (uuid4 : UUID → ℕ → UUID) (surroundings : UUID → Surroundings)
    (db : Database V D) (revisionGroupId : UUID) :
    Decidable (DeprecationsLoad tools uuid4 surroundings db revisionGroupId) :=
  inferInstanceAs (Decidable (∀ _ ∈ Except.toOption _, _))

end Loads

/-! ## What a deprecation changes -/

/-- The revision has become deprecated, and all others have the same data. -/
structure DeprecatesOnly {V D : Type} (db db' : Database V D) (id : UUID) : Prop where
  others : ∀ other, other ≠ id → db'.releaseData other = db.releaseData other
  self : ∃ data ∈ db.releaseData id, ∃ timestamp, db'.releaseData id =
    some { data with state := .disabled, disabledTimestamp := some timestamp }

section Data

variable [UnicodeData] {V D : Type} [DecidableEq V] {db db' mid : Database V D}
  {tools : CodeTools V D} {surroundings : Surroundings} {options : PutOptions}

omit [UnicodeData] [DecidableEq V] in
/-- The data after an update. -/
theorem releaseData_updateTr {revision : Revision V D} (h : db.updateTr revision = .ok db')
    (id : UUID) : db'.releaseData id =
      if id = revision.id then (db.releaseData id).map fun _ => revision.releaseData
      else db.releaseData id := by
  rw [Database.releaseData, (updateTr_eq_ok h).2 id]
  split
  · rw [Database.releaseData, Option.map_map, Option.map_map]
    rfl
  · rfl

/-- Passing on a deprecation keeps the data of all revisions. -/
theorem releaseData_passOnAlong {nesting : Nesting × ℕ}
    (h : passOnAlong surroundings db nesting = .ok db') : db'.releaseData = db.releaseData := by
  unfold passOnAlong at h
  obtain ⟨revision, hselect, h⟩ := bind_eq_ok.mp h
  obtain ⟨row, hrow, hvalid⟩ := selectTrById_eq_ok.mp hselect
  obtain ⟨hid, hdata, -, -⟩ := TransformationRevision.validate_releaseData hvalid
  split at h
  · cases h
  · funext id
    rw [releaseData_updateTr h]
    split
    · rename_i heq
      have hrow' : db.releaseData id = some row.releaseData := by
        have hid' : id = row.id := heq.trans hid
        rw [Database.releaseData, hid', (find_eq_some hrow).2, hrow]
        rfl
      rw [hrow', Option.map_some, ← hdata]
      rfl
    · rfl

/-- Passing on a deprecation keeps the data of all revisions. -/
theorem releaseData_passOnDeprecation {id : UUID}
    (h : passOnDeprecation surroundings db id = .ok db') : db'.releaseData = db.releaseData := by
  unfold passOnDeprecation at h
  generalize (db.findAllNestings id).zipIdx = nestings at h
  induction nestings generalizing db with
  | nil =>
    obtain rfl := return_eq_ok.mp h
    rfl
  | cons nesting rest ih =>
    rw [List.foldlM_cons] at h
    obtain ⟨next, hnext, h⟩ := bind_eq_ok.mp h
    rw [ih h, releaseData_passOnAlong hnext]

/-- Updating the content keeps the data. -/
theorem releaseData_updateContent {existing : Option (Revision V D)}
    {updated written : Revision V D}
    (h : updateContent tools surroundings db options existing updated = .ok written) :
    written.id = updated.id ∧ written.releaseData = updated.releaseData := by
  unfold updateContent at h
  split at h
  · split at h
    · obtain ⟨code, -, h⟩ := bind_eq_ok.mp h
      obtain rfl := return_eq_ok.mp h
      exact ⟨rfl, rfl⟩
    · obtain rfl := return_eq_ok.mp h
      exact ⟨rfl, rfl⟩
  · obtain rfl := return_eq_ok.mp h
    exact ⟨rfl, rfl⟩
  · obtain ⟨operators, -, h⟩ := bind_eq_ok.mp h
    obtain rfl := return_eq_ok.mp h
    exact ⟨rfl, rfl⟩

/-- A released revision which is sent as deprecated keeps its data up to the deprecation. -/
theorem releaseData_ifApplicableReleaseOrDeprecate {existing payload updated : Revision V D}
    (hexisting : existing.state = .released) (hpayload : payload.state = .disabled)
    (h : ifApplicableReleaseOrDeprecate surroundings existing payload = .ok updated) :
    updated.id = existing.id ∧ ∃ timestamp, updated.releaseData = { existing.releaseData with
      state := .disabled, disabledTimestamp := some timestamp } := by
  unfold ifApplicableReleaseOrDeprecate at h
  rw [hexisting, hpayload] at h
  dsimp only at h
  obtain ⟨copied, hcopied, h⟩ := bind_eq_ok.mp h
  obtain ⟨deprecated, hdeprecated, h⟩ := bind_eq_ok.mp h
  obtain ⟨hidCopied, hdataCopied, -, hfit⟩ :=
    TransformationRevision.validate_releaseData (mapError_eq_ok.mp hcopied)
  have hstate : copied.state = .released :=
    (congrArg ReleaseData.state hdataCopied).trans hexisting
  obtain ⟨hidDeprecated, hdataDeprecated⟩ :=
    TransformationRevision.deprecateRevision_releaseData hstate hfit (mapError_eq_ok.mp hdeprecated)
  obtain ⟨hid, hdata⟩ := TransformationRevision.assignContent_releaseData (mapError_eq_ok.mp h)
  refine ⟨hid.trans (hidDeprecated.trans hidCopied), surroundings.now, ?_⟩
  rw [hdata, hdataDeprecated, hdataCopied]

variable [DecidableEq D]

/-- The write of a revision which is stored as released and sent as deprecated. -/
theorem deprecatesOnly_of_writeRevision {payload written : Revision V D} {data : ReleaseData}
    (hdata : db.releaseData payload.id = some data) (hreleased : data.state = .released)
    (hpayload : payload.state = .disabled)
    (h : writeRevision tools surroundings db options payload = .ok (mid, written)) :
    written.id = payload.id ∧ written.state = .disabled ∧ DeprecatesOnly db mid payload.id := by
  obtain ⟨row, hrow, rfl⟩ := Option.map_eq_some_iff.mp hdata
  rcases writeRevision_eq_ok h with ⟨hnone, -⟩ |
    ⟨existing, updated, hselect, -, hupdated, hcontent, hupdate⟩
  · cases hrow.symm.trans hnone
  · obtain ⟨row', hrow', hvalid⟩ := selectTrById_eq_ok.mp hselect
    obtain rfl := Option.some.inj (hrow.symm.trans hrow')
    obtain ⟨hidExisting, hdataExisting, -, -⟩ :=
      TransformationRevision.validate_releaseData hvalid
    obtain ⟨hidUpdated, now, hdataUpdated⟩ := releaseData_ifApplicableReleaseOrDeprecate
      ((congrArg ReleaseData.state hdataExisting).trans hreleased) hpayload hupdated
    obtain ⟨hidWritten, hdataWritten⟩ := releaseData_updateContent hcontent
    have hid : written.id = payload.id := hidWritten.trans
      (hidUpdated.trans (hidExisting.trans (find_eq_some hrow).2))
    rw [hdataUpdated, hdataExisting] at hdataWritten
    refine ⟨hid, congrArg ReleaseData.state hdataWritten, ?_, ?_⟩
    · intro other hother
      rw [releaseData_updateTr hupdate, if_neg (hid.symm ▸ hother)]
    · refine ⟨_, hdata, now, ?_⟩
      rw [releaseData_updateTr hupdate, if_pos hid.symm, hdata, Option.map_some, hdataWritten]

/-- An update which deprecates a released revision changes nothing else of this kind. -/
theorem deprecatesOnly_of_update {payload stored : Revision V D} {data : ReleaseData}
    (hdata : db.releaseData payload.id = some data) (hreleased : data.state = .released)
    (hpayload : payload.state = .disabled)
    (h : updateOrCreateSingleTransformationRevision tools surroundings db options payload =
      .ok (db', stored)) :
    DeprecatesOnly db db' payload.id := by
  have hhandle : handle tools db (.put surroundings options payload) = .ok db' :=
    map_eq_ok.mpr ⟨_, h, rfl⟩
  obtain ⟨-, mid, written, -, hwrite, hpropagate, -⟩ := handle_put_eq_ok hhandle
  have hdata' : db.releaseData (payload.stripWirings options.strip).id = some data := hdata
  obtain ⟨hid, hstate, hothers, hself⟩ :=
    deprecatesOnly_of_writeRevision hdata' hreleased hpayload hwrite
  unfold propagate at hpropagate
  rw [hstate] at hpropagate
  have hsame := releaseData_passOnDeprecation hpropagate
  exact ⟨fun other hother => hsame ▸ hothers other hother, hsame ▸ hself⟩

end Data

/-! ## Errors which are only logged -/

/-- A computation does not fail with an error that is only logged. -/
def NeverLogs {α : Type} (x : Except StoreError α) : Prop :=
  ∀ error, x = .error error → error.isLogged = false

section Logged

variable {α β : Type}

/-- A value is no error. -/
theorem NeverLogs.of_ok (a : α) : NeverLogs (.ok a) := by
  intro error h
  cases h

/-- An error of another kind. -/
theorem NeverLogs.of_error {error : StoreError} (h : error.isLogged = false) :
    NeverLogs (.error error : Except StoreError α) := by
  rintro error' ⟨⟩
  exact h

/-- One computation after the other. -/
theorem NeverLogs.bind {x : Except StoreError α} {f : α → Except StoreError β} (hx : NeverLogs x)
    (hf : ∀ a, x = .ok a → NeverLogs (f a)) : NeverLogs (x >>= f) := by
  intro error h
  rcases bind_eq_error.mp h with h | ⟨a, ha, h⟩
  · exact hx error h
  · exact hf a ha error h

/-- Errors which are turned into ones of another kind. -/
theorem NeverLogs.mapError {ε : Type} {x : Except ε α} {f : ε → StoreError}
    (h : ∀ error, x = .error error → (f error).isLogged = false) : NeverLogs (x.mapError f) := by
  intro error herror
  cases x with
  | ok a => cases herror
  | error error' =>
    obtain rfl := Except.error.inj herror
    exact h error' rfl

/-- Validation errors are not only logged. -/
theorem NeverLogs.validation (x : Except ValidationError α) :
    NeverLogs (x.mapError StoreError.validation) :=
  .mapError fun _ _ => rfl

/-- Checks with other errors. -/
theorem NeverLogs.require {condition : Bool} {error : StoreError} (h : error.isLogged = false) :
    NeverLogs (Checks.require condition error) := by
  unfold Checks.require
  split
  · exact .of_ok ()
  · exact .of_error h

/-- A loop of checks. -/
theorem NeverLogs.forM {f : α → Except StoreError PUnit} {as : List α}
    (h : ∀ a ∈ as, NeverLogs (f a)) : NeverLogs (as.forM f) := by
  induction as with
  | nil => exact .of_ok _
  | cons a rest ih =>
    exact (h a List.mem_cons_self).bind fun _ _ =>
      ih fun b hb => h b (List.mem_cons_of_mem _ hb)

/-- A list of computations. -/
theorem NeverLogs.mapM {f : α → Except StoreError β} {as : List α}
    (h : ∀ a ∈ as, NeverLogs (f a)) : NeverLogs (as.mapM f) := by
  intro error herror
  obtain ⟨a, ha, herror⟩ := exists_of_mapM_error herror
  exact h a ha error herror

end Logged

/-- Revisions of one group have different version tags, as a constraint of the table demands. -/
def Database.TagsUnique {V D : Type} (db : Database V D) : Prop :=
  ∀ id data id' data', db.releaseData id = some data → db.releaseData id' = some data' →
    data.revisionGroupId = data'.revisionGroupId → data.versionTag = data'.versionTag → id = id'

section NeverLogged

variable [UnicodeData] {V D : Type} [DecidableEq V] {db db' mid : Database V D}
  {tools : CodeTools V D} {surroundings : Surroundings} {options : PutOptions}

omit [UnicodeData] [DecidableEq V] in
/-- The revision that is sent as deprecated is updated without violating a constraint. -/
theorem neverLogs_updateTr (htags : db.TagsUnique) {revision : Revision V D} {data : ReleaseData}
    (hdata : db.releaseData revision.id = some data)
    (hgroup : revision.revisionGroupId = data.revisionGroupId)
    (htag : revision.versionTag = data.versionTag) : NeverLogs (db.updateTr revision) := by
  have hfree : db.tagFree revision = true := by
    rw [Database.tagFree, List.all_eq_true]
    intro row hrow
    rw [decide_eq_true_eq]
    by_contra hne
    push Not at hne
    obtain ⟨hid, hgroup', htag'⟩ := hne
    have hrow' : db.releaseData row.id = some row.releaseData := by
      rw [Database.releaseData, find_of_mem hrow]
      rfl
    exact hid (htags _ _ _ _ hrow' hdata (hgroup'.trans hgroup) (htag'.trans htag))
  unfold Database.updateTr
  rw [if_pos hfree]
  exact .of_ok _

/-- A revision is loaded exactly if it has a row that passes its validation. -/
theorem exists_selectTrById_iff {uuid4 : ℕ → UUID} {id : UUID} :
    (∃ revision, db.selectTrById uuid4 id = .ok revision) ↔
      (db.find id).isSome ∧ db.RowLoads uuid4 id := by
  constructor
  · rintro ⟨revision, h⟩
    obtain ⟨row, hrow, hvalid⟩ := selectTrById_eq_ok.mp h
    refine ⟨by rw [hrow]; rfl, fun row' hrow' => ?_⟩
    obtain rfl := Option.some.inj (hrow.symm.trans hrow')
    rw [hvalid]
    rfl
  · rintro ⟨hsome, hloads⟩
    obtain ⟨row, hrow⟩ := Option.isSome_iff_exists.mp hsome
    have hok := hloads row hrow
    cases hvalid : row.validate uuid4 with
    | ok revision => exact ⟨revision, selectTrById_eq_ok.mpr ⟨row, hrow, hvalid⟩⟩
    | error error =>
      rw [hvalid] at hok
      cases hok

/-- A load without an error which is only logged: there is a row, and it is valid. -/
theorem neverLogs_selectTrById {uuid4 : ℕ → UUID} {id : UUID}
    (h : ∃ data, db.releaseData id = some data) (hloads : db.RowLoads uuid4 id) :
    NeverLogs (db.selectTrById uuid4 id) := by
  obtain ⟨data, hdata⟩ := h
  obtain ⟨row, hrow, -⟩ := Option.map_eq_some_iff.mp hdata
  obtain ⟨revision, hselect⟩ := exists_selectTrById_iff.mpr ⟨by rw [hrow]; rfl, hloads⟩
  rw [hselect]
  exact .of_ok revision

/-- The check of imports turns missing components into another error. -/
theorem neverLogs_checkDirectComponentImports {component : Revision V D}
    (hloads : component.type = .component → ∀ text ∈ component.content.code?,
      ∀ id ∈ importedIds tools text, db.RowLoads (surroundings.uuid4 (.imported id)) id) :
    NeverLogs (checkDirectComponentImports tools surroundings db component) := by
  unfold checkDirectComponentImports
  split
  · exact .of_ok ()
  · exact .of_ok ()
  · exact .of_error rfl
  · rename_i text htype hcontent _
    refine NeverLogs.bind (.mapError fun _ _ => rfl) fun imports himports => ?_
    refine NeverLogs.bind (.mapM fun found hfound => .mapError fun error herror => ?_)
      fun trafos _ => ?_
    · have hid : found.id ∈ importedIds tools text := by
        rw [importedIds_of_getGlobalComponentImports (mapError_eq_ok.mp himports)]
        exact List.mem_map_of_mem hfound
      have hrow := hloads htype text (by rw [hcontent]; rfl) _ hid
      cases hfind : db.find found.id with
      | none =>
        rw [Database.selectTrById, hfind] at herror
        cases herror
        rfl
      | some row =>
        obtain ⟨revision, hselect⟩ := exists_selectTrById_iff.mpr ⟨by rw [hfind]; rfl, hrow⟩
        rw [hselect] at herror
        cases herror
    · exact .forM fun trafo _ => NeverLogs.bind (.require rfl) fun _ _ => .require rfl

/-- Releasing and deprecating fail with validation errors only. -/
theorem neverLogs_ifApplicableReleaseOrDeprecate {existing payload : Revision V D} :
    NeverLogs (ifApplicableReleaseOrDeprecate surroundings existing payload) := by
  unfold ifApplicableReleaseOrDeprecate
  split
  · exact NeverLogs.bind (.validation _) fun _ _ => .validation _
  · exact NeverLogs.bind (.validation _) fun _ _ =>
      NeverLogs.bind (.validation _) fun _ _ => .validation _
  · exact .of_ok _

/-- Nothing is looked up for a content with the operators which are there already. -/
theorem neverLogs_updateContent {existing updated : Revision V D}
    (huses : updated.shape.uses = existing.shape.uses) :
    NeverLogs (updateContent tools surroundings db options (some existing) updated) := by
  unfold updateContent
  split
  · split
    · exact NeverLogs.bind (.mapError fun _ _ => rfl) fun _ _ => .of_ok _
    · exact .of_ok _
  · exact .of_ok _
  · rename_i content existing' hcontent hsome
    obtain rfl := Option.some.inj hsome
    refine NeverLogs.bind (.mapM fun operator hoperator => ?_) fun _ _ => .of_ok _
    have hmem : operator.id ∈ existing.operators.map fun operator => operator.id := by
      have huse : operator.use ∈ updated.shape.uses := by
        rw [TransformationRevision.shape, hcontent]
        exact List.mem_map_of_mem hoperator
      rw [huses, ← operators_map_use] at huse
      obtain ⟨other, hother, heq⟩ := List.mem_map.mp huse
      exact List.mem_map.mpr ⟨other, hother, congrArg OperatorUse.operatorId heq⟩
    unfold pullDeprecation
    rw [if_neg fun hnew => hnew.2 hmem]
    exact .of_ok _

/-- Passing on along a nesting finds the workflow. -/
theorem neverLogs_passOnAlong (htags : db.TagsUnique) {nesting : Nesting × ℕ}
    (hrow : ∃ data, db.releaseData nesting.1.workflowId = some data)
    (hloads : db.RowLoads (surroundings.uuid4 (.container nesting.2)) nesting.1.workflowId) :
    NeverLogs (passOnAlong surroundings db nesting) := by
  unfold passOnAlong
  refine (neverLogs_selectTrById hrow hloads).bind fun revision hselect => ?_
  obtain ⟨row, hrow, hvalid⟩ := selectTrById_eq_ok.mp hselect
  obtain ⟨hid, hdata, -, -⟩ := TransformationRevision.validate_releaseData hvalid
  split
  · exact .of_error rfl
  · have hid' : revision.id = nesting.1.workflowId := hid.trans (find_eq_some hrow).2
    have hrow' : db.releaseData revision.id = some row.releaseData := by
      rw [Database.releaseData, hid', hrow]
      rfl
    exact neverLogs_updateTr htags hrow' (congrArg ReleaseData.revisionGroupId hdata)
      (congrArg ReleaseData.versionTag hdata)

/-- Passing on a deprecation finds all workflows. -/
theorem neverLogs_passOnDeprecation (htags : db.TagsUnique) {id : UUID}
    (hloads : ContainersLoad surroundings (db.findAllNestings id).zipIdx db) :
    NeverLogs (passOnDeprecation surroundings db id) := by
  have hrows : ∀ nesting ∈ (db.findAllNestings id).zipIdx,
      ∃ data, db.releaseData nesting.1.workflowId = some data := by
    intro nesting hnesting
    have hmem := List.mem_map_of_mem (f := Prod.fst) hnesting
    rw [List.zipIdx_map_fst] at hmem
    obtain ⟨row, hrow⟩ := exists_find_of_reference (mem_findAllNestings.mp hmem).1
      (show nesting.1.workflowId ∈ nesting.1.references from List.mem_cons_self ..)
    exact ⟨row.releaseData, by rw [Database.releaseData, hrow]; rfl⟩
  unfold passOnDeprecation
  generalize (db.findAllNestings id).zipIdx = nestings at hrows hloads ⊢
  induction nestings generalizing db with
  | nil => exact .of_ok db
  | cons nesting rest ih =>
    rw [List.foldlM_cons]
    refine (neverLogs_passOnAlong htags (hrows nesting List.mem_cons_self) hloads.1).bind
      fun next hnext => ?_
    have hsame := releaseData_passOnAlong hnext
    refine ih ?_ (fun other hother => ?_) (hloads.2 next (congrArg Except.toOption hnext))
    · unfold Database.TagsUnique
      rwa [hsame]
    · rw [hsame]
      exact hrows other (List.mem_cons_of_mem _ hother)

omit [UnicodeData] [DecidableEq V] in
/-- A deprecation which keeps groups and tags keeps the constraint. -/
theorem DeprecatesOnly.tagsUnique {id : UUID} (h : DeprecatesOnly db db' id)
    (htags : db.TagsUnique) : db'.TagsUnique := by
  have hkeeps (other : UUID) (data' : ReleaseData) (hdata' : db'.releaseData other = some data') :
      ∃ data, db.releaseData other = some data ∧ data.revisionGroupId = data'.revisionGroupId ∧
        data.versionTag = data'.versionTag := by
    by_cases heq : other = id
    · obtain ⟨data, hdata, now, hself⟩ := h.self
      rw [heq] at hdata' ⊢
      obtain rfl := Option.some.inj (hself.symm.trans hdata')
      exact ⟨data, hdata, rfl, rfl⟩
    · exact ⟨data', (h.others other heq).symm.trans hdata', rfl, rfl⟩
  intro a dataA b dataB ha hb hgroup htag
  obtain ⟨dataA', ha', hgroupA, htagA⟩ := hkeeps a dataA ha
  obtain ⟨dataB', hb', hgroupB, htagB⟩ := hkeeps b dataB hb
  exact htags a dataA' b dataB' ha' hb' (hgroupA.trans (hgroup.trans hgroupB.symm))
    (htagA.trans (htag.trans htagB.symm))

variable [DecidableEq D]

/-- The write of a revision which is stored as released and sent as deprecated. -/
theorem neverLogs_writeRevision (htags : db.TagsUnique) {payload : Revision V D}
    {data : ReleaseData} (hdata : db.releaseData payload.id = some data)
    (hreleased : data.state = .released) (hpayload : payload.state = .disabled)
    (hloads : db.RowLoads (surroundings.uuid4 .existing) payload.id) :
    NeverLogs (writeRevision tools surroundings db options payload) := by
  have hselect : NeverLogs (db.selectTrById (surroundings.uuid4 .existing) payload.id) :=
    neverLogs_selectTrById ⟨data, hdata⟩ hloads
  unfold writeRevision
  split
  · rename_i herror
    exact Bool.noConfusion (hselect _ herror)
  · rename_i herror
    exact .of_error (hselect _ herror)
  · rename_i existing hexisting
    obtain ⟨row, hrow, hvalid⟩ := selectTrById_eq_ok.mp hexisting
    obtain ⟨hid, hdataExisting, -, -⟩ := TransformationRevision.validate_releaseData hvalid
    have hdata' : data = row.releaseData := by
      rw [Database.releaseData, hrow] at hdata
      exact (Option.some.inj hdata).symm
    have hstate : existing.state = .released := by
      have hrowState : row.releaseData.state = .released := hdata' ▸ hreleased
      exact (congrArg ReleaseData.state hdataExisting).trans hrowState
    have hidExisting : existing.id = payload.id := hid.trans (find_eq_some hrow).2
    refine NeverLogs.bind (.require rfl) fun _ hmodifiable => ?_
    obtain ⟨htype, -⟩ := isModifiable_eq_true (require_eq_ok.mp hmodifiable)
    refine neverLogs_ifApplicableReleaseOrDeprecate.bind fun updated hupdated => ?_
    obtain ⟨hidUpdated, hshape⟩ :=
      ifApplicableReleaseOrDeprecate_shape hupdated hidExisting htype
    have huses : updated.shape.uses = existing.shape.uses := by
      have hchanges : changesState existing.shape payload.shape := Or.inr ⟨hstate, hpayload⟩
      rw [hshape, contentSource, if_pos hchanges]
    obtain ⟨-, now, hdataUpdated⟩ :=
      releaseData_ifApplicableReleaseOrDeprecate hstate hpayload hupdated
    refine (neverLogs_updateContent huses).bind fun written hwritten => ?_
    obtain ⟨hidWritten, hdataWritten⟩ := releaseData_updateContent hwritten
    rw [hdataUpdated, hdataExisting, ← hdata'] at hdataWritten
    have hdataAt : db.releaseData written.id = some data := by
      rw [hidWritten, hidUpdated, hdata]
    refine NeverLogs.bind (neverLogs_updateTr htags hdataAt ?_ ?_) fun _ _ => .of_ok _
    · exact congrArg ReleaseData.revisionGroupId hdataWritten
    · exact congrArg ReleaseData.versionTag hdataWritten

/-- An update which deprecates a released revision does not fail with a logged error if the rows
load. -/
theorem neverLogs_update (htags : db.TagsUnique) {payload : Revision V D}
    {data : ReleaseData} (hdata : db.releaseData payload.id = some data)
    (hreleased : data.state = .released) (hpayload : payload.state = .disabled)
    (hloads : UpdateLoads tools surroundings db options (payload.stripWirings options.strip)) :
    NeverLogs (updateOrCreateSingleTransformationRevision tools surroundings db options payload) := by
  have hdata' : db.releaseData (payload.stripWirings options.strip).id = some data := hdata
  have hpayload' : (payload.stripWirings options.strip).state = .disabled := hpayload
  unfold updateOrCreateSingleTransformationRevision
  refine (neverLogs_checkDirectComponentImports hloads.imported).bind fun _ _ => ?_
  refine (neverLogs_writeRevision htags hdata' hreleased hpayload' hloads.existing).bind
    fun pair hwrite => ?_
  obtain ⟨mid, written⟩ := pair
  obtain ⟨hid, hstate, honly⟩ := deprecatesOnly_of_writeRevision hdata' hreleased hpayload' hwrite
  have hpass : propagate surroundings mid written = passOnDeprecation surroundings mid written.id := by
    unfold propagate
    rw [hstate]
  have hchange := congrArg Except.toOption hwrite
  dsimp only
  rw [hpass, hid]
  refine (neverLogs_passOnDeprecation (honly.tagsUnique htags)
    (hloads.containers _ hchange)).bind fun after hafter => ?_
  obtain ⟨data', -, now, hself⟩ := honly.self
  have hwritten : ∃ data, after.releaseData (payload.stripWirings options.strip).id = some data := by
    rw [releaseData_passOnDeprecation hafter, hself]
    exact ⟨_, rfl⟩
  exact (neverLogs_selectTrById hwritten
    (hloads.changed _ hchange after (congrArg Except.toOption hafter))).bind fun _ _ => .of_ok _

omit [DecidableEq D] in
/-- The check of imports has loaded what is imported. -/
theorem rowLoads_of_checkDirectComponentImports {component : Revision V D}
    (h : checkDirectComponentImports tools surroundings db component = .ok ())
    (htype : component.type = .component) (hstate : component.state ≠ .draft) {text : PyStr}
    (htext : text ∈ component.content.code?) {id : UUID} (hid : id ∈ importedIds tools text) :
    db.RowLoads (surroundings.uuid4 (.imported id)) id := by
  unfold checkDirectComponentImports at h
  split at h
  · rename_i hworkflow
    cases htype.symm.trans hworkflow
  · rename_i hdraft
    exact absurd hdraft hstate
  · cases h
  · rename_i text' _ hcontent _
    rw [hcontent] at htext
    obtain rfl := Option.some.inj htext
    obtain ⟨imports, himports, h⟩ := bind_eq_ok.mp h
    obtain ⟨trafos, htrafos, h⟩ := bind_eq_ok.mp h
    rw [importedIds_of_getGlobalComponentImports (mapError_eq_ok.mp himports)] at hid
    obtain ⟨found, hfound, rfl⟩ := List.mem_map.mp hid
    obtain ⟨trafo, -, hselect⟩ := exists_of_mapM htrafos hfound
    exact (exists_selectTrById_iff.mp ⟨trafo, mapError_eq_ok.mp hselect⟩).2

omit [DecidableEq D] in
/-- A deprecation which has been passed on has loaded the containers. -/
theorem containersLoad_of_foldlM {nestings : List (Nesting × ℕ)}
    (h : nestings.foldlM (passOnAlong surroundings) db = .ok db') :
    ContainersLoad surroundings nestings db := by
  induction nestings generalizing db with
  | nil => exact trivial
  | cons nesting rest ih =>
    rw [List.foldlM_cons] at h
    obtain ⟨next, hnext, h⟩ := bind_eq_ok.mp h
    refine ⟨?_, fun next' hnext' => ?_⟩
    · obtain ⟨revision, hselect, -⟩ := bind_eq_ok.mp hnext
      exact (exists_selectTrById_iff.mp ⟨revision, hselect⟩).2
    · rw [hnext] at hnext'
      obtain rfl := Option.some.inj hnext'
      exact ih h

/-- An update which has deprecated a released revision has loaded the rows. -/
theorem updateLoads_of_update {payload stored : Revision V D} {data : ReleaseData}
    (hdata : db.releaseData payload.id = some data) (hreleased : data.state = .released)
    (hpayload : payload.state = .disabled)
    (h : updateOrCreateSingleTransformationRevision tools surroundings db options payload =
      .ok (db', stored)) :
    UpdateLoads tools surroundings db options (payload.stripWirings options.strip) := by
  obtain ⟨hcheck, mid, written, stored', hwrite, hpropagate, hselect⟩ :=
    handle_put_eq_ok (map_eq_ok.mpr ⟨_, h, rfl⟩ :
      handle tools db (.put surroundings options payload) = .ok db')
  have hdata' : db.releaseData (payload.stripWirings options.strip).id = some data := hdata
  obtain ⟨hid, hstate, -⟩ := deprecatesOnly_of_writeRevision hdata' hreleased hpayload hwrite
  have hpass : passOnDeprecation surroundings mid (payload.stripWirings options.strip).id =
      .ok db' := by
    unfold propagate at hpropagate
    rwa [hstate, hid] at hpropagate
  rw [hid] at hselect
  refine ⟨fun htype text htext id hid => ?_, ?_, fun change hchange => ?_,
    fun change hchange next hnext => ?_⟩
  · refine rowLoads_of_checkDirectComponentImports hcheck htype (fun hdraft => ?_) htext hid
    exact State.noConfusion (hpayload.symm.trans hdraft)
  · rcases writeRevision_eq_ok hwrite with ⟨hnone, -⟩ | ⟨existing, -, hexisting, -⟩
    · intro row hrow
      cases hnone.symm.trans hrow
    · exact (exists_selectTrById_iff.mp ⟨existing, hexisting⟩).2
  · rw [hwrite] at hchange
    obtain rfl := Option.some.inj hchange
    exact containersLoad_of_foldlM hpass
  · rw [hwrite] at hchange
    obtain rfl := Option.some.inj hchange
    rw [hpass] at hnext
    obtain rfl := Option.some.inj hnext
    exact (exists_selectTrById_iff.mp ⟨stored', hselect⟩).2

end NeverLogged

/-! ## The loop over outdated releases -/

/-- Some revisions have become deprecated, and all others have the same data. -/
structure DeprecatesThese {V D : Type} (db db' : Database V D) (ids : List UUID) : Prop where
  others : ∀ other, other ∉ ids → db'.releaseData other = db.releaseData other
  these : ∀ id ∈ ids, ∃ data, db'.releaseData id = some data ∧ data.state = .disabled

section Loop

variable [UnicodeData] {V D : Type} [DecidableEq V] [DecidableEq D] {db db' : Database V D}
  {tools : CodeTools V D} {uuid4 : UUID → ℕ → UUID} {surroundings : UUID → Surroundings}

/-- One round of the loop deprecates a released revision, if the rows load, or changes nothing. -/
theorem deprecatesOnly_or_eq_of_deprecateOutdated (htags : db.TagsUnique) {tr : Revision V D}
    {data : ReleaseData} (hdata : db.releaseData tr.id = some data)
    (hreleased : data.state = .released)
    (h : deprecateOutdated tools uuid4 surroundings db tr = .ok db') :
    let loads := ∀ deprecated ∈
        (tr.deprecateRevision (uuid4 tr.id) (surroundings tr.id).now).toOption,
      UpdateLoads tools (surroundings tr.id) db .overwriting
        (deprecated.stripWirings PutOptions.overwriting.strip)
    loads ∧ DeprecatesOnly db db' tr.id ∨ ¬loads ∧ db' = db := by
  intro loads
  obtain ⟨deprecated, hdeprecated, h⟩ := bind_eq_ok.mp h
  replace hdeprecated := mapError_eq_ok.mp hdeprecated
  have hloads : loads ↔ UpdateLoads tools (surroundings tr.id) db .overwriting
      (deprecated.stripWirings PutOptions.overwriting.strip) := by
    simp only [loads, hdeprecated, Except.toOption, Option.mem_def, Option.some_inj,
      forall_eq']
  obtain ⟨hid, hshape⟩ := TransformationRevision.deprecateRevision_shape hdeprecated
  have hstate : deprecated.state = .disabled := congrArg Shape.state hshape
  rw [← hid] at hdata ⊢
  unfold updateOrCreateTransformationRevision at h
  split at h
  · rename_i after stored hupdate
    obtain rfl := Except.ok.inj h
    exact Or.inl ⟨hloads.mpr (updateLoads_of_update hdata hreleased hstate hupdate),
      deprecatesOnly_of_update hdata hreleased hstate hupdate⟩
  · rename_i error herror
    split at h
    · rename_i hlogged
      obtain rfl := Except.ok.inj h
      refine Or.inr ⟨fun hall => ?_, rfl⟩
      have hnever := neverLogs_update htags hdata hreleased hstate (hloads.mp hall) error herror
      exact Bool.noConfusion (hlogged.symm.trans hnever)
    · cases h

/-- The loop changes the given released revisions only, and deprecates all of them exactly if in
each round the rows load. -/
theorem rounds_of_foldlM (htags : db.TagsUnique) {trs : List (Revision V D)}
    (hids : (trs.map fun tr => tr.id).Nodup)
    (hreleased : ∀ tr ∈ trs, ∃ data, db.releaseData tr.id = some data ∧ data.state = .released)
    (h : trs.foldlM (deprecateOutdated tools uuid4 surroundings) db = .ok db') :
    (∀ other, other ∉ trs.map (fun tr => tr.id) → db'.releaseData other = db.releaseData other) ∧
      ((∀ id ∈ trs.map fun tr => tr.id,
          ∃ data, db'.releaseData id = some data ∧ data.state = .disabled) ↔
        RoundsLoad tools uuid4 surroundings trs db) := by
  induction trs generalizing db with
  | nil =>
    obtain rfl := return_eq_ok.mp h
    exact ⟨fun _ _ => rfl, ⟨fun _ => trivial, fun _ _ hid => absurd hid List.not_mem_nil⟩⟩
  | cons tr rest ih =>
    rw [List.foldlM_cons] at h
    obtain ⟨next, hnext, h⟩ := bind_eq_ok.mp h
    rw [List.map_cons, List.nodup_cons] at hids
    obtain ⟨data, hdata, hstate⟩ := hreleased tr List.mem_cons_self
    have hround := deprecatesOnly_or_eq_of_deprecateOutdated htags hdata hstate hnext
    have hkept (other : UUID) (hne : other ≠ tr.id) :
        next.releaseData other = db.releaseData other := by
      rcases hround with ⟨-, honly⟩ | ⟨-, rfl⟩
      · exact honly.others other hne
      · rfl
    have htagsNext : next.TagsUnique := by
      rcases hround with ⟨-, honly⟩ | ⟨-, rfl⟩
      · exact honly.tagsUnique htags
      · exact htags
    have hrest : ∀ other ∈ rest, ∃ data, next.releaseData other.id = some data ∧
        data.state = .released := by
      intro other hother
      rw [hkept _ fun heq => hids.1 (List.mem_map.mpr ⟨other, hother, heq⟩)]
      exact hreleased other (List.mem_cons_of_mem _ hother)
    obtain ⟨hothers, hiff⟩ := ih htagsNext hids.2 hrest h
    refine ⟨fun other hother => ?_, fun hall => ?_, fun hloads => ?_⟩
    · rw [List.map_cons, List.mem_cons, not_or] at hother
      rw [hothers other hother.2, hkept other hother.1]
    · rw [List.map_cons, List.forall_mem_cons] at hall
      rcases hround with ⟨hloads, -⟩ | ⟨-, rfl⟩
      · refine ⟨hloads, fun next' hnext' => ?_⟩
        obtain rfl := Option.some.inj ((congrArg Except.toOption hnext).symm.trans hnext')
        exact hiff.mp hall.2
      · -- A revision whose update has been given up is still released.
        obtain ⟨data', hdata', hdisabled⟩ := hall.1
        rw [hothers _ hids.1] at hdata'
        obtain rfl := Option.some.inj (hdata.symm.trans hdata')
        exact State.noConfusion (hstate.symm.trans hdisabled)
    · have honly : DeprecatesOnly db next tr.id :=
        hround.elim (fun h => h.2) fun h => absurd hloads.1 h.1
      rw [List.map_cons, List.forall_mem_cons]
      refine ⟨?_, hiff.mpr (hloads.2 next (congrArg Except.toOption hnext))⟩
      obtain ⟨data', -, now, hself⟩ := honly.self
      exact ⟨_, (hothers _ hids.1).trans hself, rfl⟩

end Loop

/-! ## Which releases are outdated -/

section Outdated

variable {V D : Type} {trList : List (Revision V D)}

/-- Outdated releases are among the given ones. -/
theorem mem_of_mem_outdatedReleases {tr : Revision V D} (h : tr ∈ outdatedReleases trList) :
    tr ∈ trList :=
  mem_of_mem_insertAll_nil (List.mem_of_mem_filter h)

/-- Outdated releases have different timestamps. -/
theorem outdatedReleases_nodup :
    ((outdatedReleases trList).map fun tr => tr.releasedTimestamp).Nodup :=
  filter_nodup (insertAll_nil_nodup trList) _

/-- The latest timestamp, and a release with every other one which is outdated. -/
theorem exists_latestTimestamp (hne : trList ≠ [])
    (hsome : ∀ tr ∈ trList, tr.releasedTimestamp.isSome) :
    ∃ latest : Timestamp, (∃ tr ∈ trList, tr.releasedTimestamp = some latest) ∧
      (∀ tr ∈ trList, ∃ timestamp, tr.releasedTimestamp = some timestamp ∧ timestamp ≤ latest) ∧
      (∀ tr ∈ outdatedReleases trList, tr.releasedTimestamp ≠ some latest) ∧
      ∀ tr ∈ trList, tr.releasedTimestamp ≠ some latest →
        ∃ other ∈ outdatedReleases trList, other.releasedTimestamp = tr.releasedTimestamp := by
  set dict := insertAll (fun tr : Revision V D => tr.releasedTimestamp) [] trList with hdict
  have hexists (tr : Revision V D) (htr : tr ∈ trList) :
      ∃ other ∈ dict, other.releasedTimestamp = tr.releasedTimestamp :=
    exists_mem_insertAll htr []
  have hmem (timestamp : Timestamp) : timestamp ∈ dict.filterMap (fun tr => tr.releasedTimestamp) ↔
      ∃ tr ∈ trList, tr.releasedTimestamp = some timestamp := by
    rw [List.mem_filterMap]
    constructor
    · rintro ⟨tr, htr, heq⟩
      exact ⟨tr, mem_of_mem_insertAll_nil htr, heq⟩
    · rintro ⟨tr, htr, heq⟩
      obtain ⟨other, hother, hsame⟩ := hexists tr htr
      exact ⟨other, hother, hsame.trans heq⟩
  obtain ⟨first, hfirst⟩ := List.exists_mem_of_ne_nil trList hne
  obtain ⟨timestamp, htimestamp⟩ := Option.isSome_iff_exists.mp (hsome first hfirst)
  cases hmax : (dict.filterMap fun tr => tr.releasedTimestamp).max? with
  | none =>
    rw [List.max?_eq_none_iff] at hmax
    exact absurd ((hmem timestamp).mpr ⟨first, hfirst, htimestamp⟩) (hmax ▸ List.not_mem_nil)
  | some latest =>
    obtain ⟨hlatest, hle⟩ := List.max?_eq_some_iff.mp hmax
    have hfilter : outdatedReleases trList =
        dict.filter fun tr => tr.releasedTimestamp ≠ some latest := by
      rw [outdatedReleases, ← hdict, hmax]
    refine ⟨latest, (hmem latest).mp hlatest, ?_, ?_, ?_⟩
    · intro tr htr
      obtain ⟨timestamp, htimestamp⟩ := Option.isSome_iff_exists.mp (hsome tr htr)
      exact ⟨timestamp, htimestamp, hle timestamp ((hmem timestamp).mpr ⟨tr, htr, htimestamp⟩)⟩
    · intro tr htr
      rw [hfilter] at htr
      exact of_decide_eq_true (List.mem_filter.mp htr).2
    · intro tr htr hother
      obtain ⟨other, hmemOther, hsame⟩ := hexists tr htr
      refine ⟨other, ?_, hsame⟩
      rw [hfilter, List.mem_filter]
      exact ⟨hmemOther, decide_eq_true (hsame ▸ hother)⟩

end Outdated

/-! ## A run in a group -/

/-- A revision of a group is released, with these data. -/
def Database.Release {V D : Type} (db : Database V D) (revisionGroupId id : UUID)
    (data : ReleaseData) : Prop :=
  db.releaseData id = some data ∧ data.revisionGroupId = revisionGroupId ∧ data.state = .released

/-- Of the releases of a group, those with the given ids have become deprecated: one for each
release timestamp other than the latest. -/
structure DeprecatesOutdated {V D : Type} (db db' : Database V D) (revisionGroupId : UUID)
    (latest : Timestamp) (ids : List UUID) : Prop where
  these : DeprecatesThese db db' ids
  attained : ∃ id data, db.Release revisionGroupId id data ∧ data.releasedTimestamp = some latest
  le_latest : ∀ id data, db.Release revisionGroupId id data →
    ∃ timestamp, data.releasedTimestamp = some timestamp ∧ timestamp ≤ latest
  outdated : ∀ id ∈ ids, ∃ data, db.Release revisionGroupId id data ∧
    data.releasedTimestamp ≠ some latest
  different : ∀ id ∈ ids, ∀ id' ∈ ids, ∀ data data', db.Release revisionGroupId id data →
    db.Release revisionGroupId id' data' → data.releasedTimestamp = data'.releasedTimestamp →
      id = id'
  complete : ∀ id data, db.Release revisionGroupId id data → data.releasedTimestamp ≠ some latest →
    ∃ id' ∈ ids, ∃ data', db.Release revisionGroupId id' data' ∧
      data'.releasedTimestamp = data.releasedTimestamp

section Group

variable [UnicodeData] {V D : Type} [DecidableEq V] {db db' : Database V D}
  {uuid4 : UUID → ℕ → UUID} {revisionGroupId : UUID} {trList : List (Revision V D)}

omit [UnicodeData] [DecidableEq V] in
/-- The rows which the parameters select. -/
theorem allows_releasedInGroup {row : Revision V D} :
    (releasedInGroup revisionGroupId).allows row = true ↔
      row.revisionGroupId = revisionGroupId ∧ row.state = .released := by
  simp only [FilterParams.allows, releasedInGroup, Option.all_none, Option.all_some, Bool.true_and,
    Bool.and_true, Bool.true_or, Bool.and_eq_true, decide_eq_true_eq]
  exact And.comm

/-- Each selected revision is a release of the group, and has its timestamp. -/
theorem release_of_mem_select
    (h : selectMultipleTransformationRevisions uuid4 db (releasedInGroup revisionGroupId) =
      .ok trList) {tr : Revision V D} (htr : tr ∈ trList) :
    tr.releasedTimestamp.isSome ∧ ∃ data, db.Release revisionGroupId tr.id data ∧
      data.releasedTimestamp = tr.releasedTimestamp := by
  obtain ⟨row, hrow, hvalid⟩ := exists_argument_of_mapM h htr
  rw [List.mem_filter, allows_releasedInGroup] at hrow
  obtain ⟨hmem, hgroup, hstate⟩ := hrow
  obtain ⟨hid, hdata, hreleased, hfit⟩ :=
    TransformationRevision.validate_releaseData (mapError_eq_ok.mp hvalid)
  have hstate' : tr.state = .released := (congrArg ReleaseData.state hdata).trans hstate
  obtain ⟨⟨timestamp, htimestamp⟩, -⟩ := TransformationRevision.released_of_fit hstate' hfit
  refine ⟨Option.isSome_iff_exists.mpr ⟨timestamp, htimestamp⟩, row.releaseData,
    ⟨?_, hgroup, hstate⟩, hreleased.symm⟩
  rw [Database.releaseData, hid, find_of_mem hmem]
  rfl

/-- Each release of the group is selected. -/
theorem mem_select_of_release
    (h : selectMultipleTransformationRevisions uuid4 db (releasedInGroup revisionGroupId) =
      .ok trList) {id : UUID} {data : ReleaseData} (hrelease : db.Release revisionGroupId id data) :
    ∃ tr ∈ trList, tr.id = id := by
  obtain ⟨hdata, hgroup, hstate⟩ := hrelease
  obtain ⟨row, hrow, rfl⟩ := Option.map_eq_some_iff.mp hdata
  obtain ⟨hmem, hid⟩ := find_eq_some hrow
  obtain ⟨tr, htr, hvalid⟩ := exists_of_mapM h
    (List.mem_filter.mpr ⟨hmem, allows_releasedInGroup.mpr ⟨hgroup, hstate⟩⟩)
  obtain ⟨hidTr, -⟩ := TransformationRevision.validate_releaseData (mapError_eq_ok.mp hvalid)
  exact ⟨tr, htr, hidTr.trans hid⟩

variable [DecidableEq D] {tools : CodeTools V D} {surroundings : UUID → Surroundings}

omit [DecidableEq D] in
/-- The timestamp of a release as it has been selected. -/
theorem releasedTimestamp_of_select
    (h : selectMultipleTransformationRevisions uuid4 db (releasedInGroup revisionGroupId) =
      .ok trList) {tr : Revision V D} (htr : tr ∈ trList) {data : ReleaseData}
    (hdata : db.Release revisionGroupId tr.id data) :
    data.releasedTimestamp = tr.releasedTimestamp := by
  obtain ⟨-, data', hdata', htimestamp⟩ := release_of_mem_select h htr
  obtain rfl := Option.some.inj (hdata.1.symm.trans hdata'.1)
  exact htimestamp

omit [DecidableEq D] in
/-- Outdated releases with one id have one timestamp, so they are the same. -/
theorem nodup_ids_outdatedReleases
    (h : selectMultipleTransformationRevisions uuid4 db (releasedInGroup revisionGroupId) =
      .ok trList) : ((outdatedReleases trList).map fun tr => tr.id).Nodup := by
  refine List.Nodup.map_on (fun tr htr tr' htr' hid => ?_)
    (List.Nodup.of_map _ outdatedReleases_nodup)
  refine List.inj_on_of_nodup_map outdatedReleases_nodup htr htr' ?_
  obtain ⟨-, data, hdata, htimestamp⟩ := release_of_mem_select h (mem_of_mem_outdatedReleases htr)
  rw [← htimestamp]
  exact releasedTimestamp_of_select h (mem_of_mem_outdatedReleases htr') (hid ▸ hdata)

/-- The rounds of a successful run. -/
theorem rounds_of_run (htags : db.TagsUnique)
    (hselect : selectMultipleTransformationRevisions uuid4 db (releasedInGroup revisionGroupId) =
      .ok trList)
    (hrun : (outdatedReleases trList).foldlM (deprecateOutdated tools uuid4 surroundings) db =
      .ok db') :
    (∀ other, other ∉ (outdatedReleases trList).map (fun tr => tr.id) →
        db'.releaseData other = db.releaseData other) ∧
      ((∀ id ∈ (outdatedReleases trList).map fun tr => tr.id,
          ∃ data, db'.releaseData id = some data ∧ data.state = .disabled) ↔
        RoundsLoad tools uuid4 surroundings (outdatedReleases trList) db) := by
  refine rounds_of_foldlM htags (nodup_ids_outdatedReleases hselect) (fun tr htr => ?_) hrun
  obtain ⟨-, data, hdata, -⟩ := release_of_mem_select hselect (mem_of_mem_outdatedReleases htr)
  exact ⟨data, hdata.1, hdata.2.2⟩

/-- What a successful run in a group with a release does if the rows load. -/
theorem deprecatesOutdated_of_run (htags : db.TagsUnique)
    (hrelease : ∃ id data, db.Release revisionGroupId id data)
    (hloads : DeprecationsLoad tools uuid4 surroundings db revisionGroupId)
    (h : deprecateAllButLatestInGroup tools uuid4 surroundings db revisionGroupId = .ok db') :
    ∃ latest ids, DeprecatesOutdated db db' revisionGroupId latest ids := by
  obtain ⟨trList, hselect, h⟩ := bind_eq_ok.mp h
  obtain ⟨-, hrun⟩ := require_bind_eq_ok.mp h
  have hsome (tr : Revision V D) (htr : tr ∈ trList) : tr.releasedTimestamp.isSome :=
    (release_of_mem_select hselect htr).1
  obtain ⟨id₀, data₀, hrelease₀⟩ := hrelease
  obtain ⟨tr₀, htr₀, -⟩ := mem_select_of_release hselect hrelease₀
  obtain ⟨latest, ⟨trLatest, htrLatest, hlatest⟩, hle, hother, hcomplete⟩ :=
    exists_latestTimestamp (List.ne_nil_of_mem htr₀) hsome
  have hsame {tr : Revision V D} (htr : tr ∈ trList) {data : ReleaseData}
      (hdata : db.Release revisionGroupId tr.id data) :
      data.releasedTimestamp = tr.releasedTimestamp := releasedTimestamp_of_select hselect htr hdata
  obtain ⟨hothers, hiff⟩ := rounds_of_run htags hselect hrun
  refine ⟨latest, (outdatedReleases trList).map fun tr => tr.id, ⟨hothers, hiff.mpr ?_⟩, ?_, ?_,
    ?_, ?_, ?_⟩
  · exact hloads trList (congrArg Except.toOption hselect)
  · obtain ⟨-, data, hdata, htimestamp⟩ := release_of_mem_select hselect htrLatest
    exact ⟨_, data, hdata, htimestamp.trans hlatest⟩
  · intro id data hdata
    obtain ⟨tr, htr, rfl⟩ := mem_select_of_release hselect hdata
    rw [hsame htr hdata]
    exact hle tr htr
  · intro id hid
    obtain ⟨tr, htr, rfl⟩ := List.mem_map.mp hid
    obtain ⟨-, data, hdata, htimestamp⟩ :=
      release_of_mem_select hselect (mem_of_mem_outdatedReleases htr)
    exact ⟨data, hdata, htimestamp ▸ hother tr htr⟩
  · intro id hid id' hid' data data' hdata hdata' heq
    obtain ⟨tr, htr, rfl⟩ := List.mem_map.mp hid
    obtain ⟨tr', htr', rfl⟩ := List.mem_map.mp hid'
    rw [hsame (mem_of_mem_outdatedReleases htr) hdata,
      hsame (mem_of_mem_outdatedReleases htr') hdata'] at heq
    rw [List.inj_on_of_nodup_map outdatedReleases_nodup htr htr' heq]
  · intro id data hdata hne
    obtain ⟨tr, htr, rfl⟩ := mem_select_of_release hselect hdata
    rw [hsame htr hdata] at hne ⊢
    obtain ⟨other, hotherMem, heq⟩ := hcomplete tr htr hne
    obtain ⟨-, data', hdata', htimestamp⟩ :=
      release_of_mem_select hselect (mem_of_mem_outdatedReleases hotherMem)
    exact ⟨other.id, List.mem_map.mpr ⟨other, hotherMem, rfl⟩, data', hdata',
      htimestamp.trans heq⟩

end Group

/-! ## What is left -/

/-- Of the releases of a group only the latest is left: the others are deprecated, and all other
revisions have the same data. -/
structure LeavesOnly {V D : Type} (db db' : Database V D) (revisionGroupId id : UUID) : Prop where
  latest : ∃ data timestamp, db.Release revisionGroupId id data ∧
    data.releasedTimestamp = some timestamp ∧ ∀ other data',
      db.Release revisionGroupId other data' →
        ∃ timestamp', data'.releasedTimestamp = some timestamp' ∧ timestamp' ≤ timestamp
  released : ∀ other, (∃ data, db'.Release revisionGroupId other data) ↔ other = id
  disabled : ∀ other data, db.Release revisionGroupId other data → other ≠ id →
    ∃ data', db'.releaseData other = some data' ∧ data'.state = .disabled
  kept : ∀ other, (¬∃ data, db.Release revisionGroupId other data) ∨ other = id →
    db'.releaseData other = db.releaseData other

/-- The releases of a group have different timestamps. -/
def Database.ReleaseTimestampsDiffer {V D : Type} (db : Database V D) (revisionGroupId : UUID) :
    Prop :=
  ∀ id data id' data', db.Release revisionGroupId id data →
    db.Release revisionGroupId id' data' → data.releasedTimestamp = data'.releasedTimestamp →
      id = id'

section Left

variable {V D : Type} {db db' : Database V D} {revisionGroupId : UUID} {latest : Timestamp}
  {ids : List UUID}

/-- The latest release does not become deprecated. -/
theorem DeprecatesOutdated.notMem (h : DeprecatesOutdated db db' revisionGroupId latest ids)
    {id : UUID} {data : ReleaseData} (hdata : db.Release revisionGroupId id data)
    (hlatest : data.releasedTimestamp = some latest) : id ∉ ids := by
  intro hid
  obtain ⟨data', hdata', hne⟩ := h.outdated id hid
  obtain rfl := Option.some.inj (hdata.1.symm.trans hdata'.1)
  exact hne hlatest

/-- With different timestamps only the latest release is left. -/
theorem DeprecatesOutdated.leavesOnly (h : DeprecatesOutdated db db' revisionGroupId latest ids)
    (hdiffer : db.ReleaseTimestampsDiffer revisionGroupId) :
    ∃ id, LeavesOnly db db' revisionGroupId id := by
  obtain ⟨id, data, hdata, hlatest⟩ := h.attained
  have hmem (other : UUID) (data' : ReleaseData) (hdata' : db.Release revisionGroupId other data')
      (hne : other ≠ id) : other ∈ ids := by
    have hne' : data'.releasedTimestamp ≠ some latest := fun heq =>
      hne (hdiffer _ _ _ _ hdata' hdata (heq.trans hlatest.symm))
    obtain ⟨id', hid', data'', hdata'', heq⟩ := h.complete other data' hdata' hne'
    exact hdiffer _ _ _ _ hdata' hdata'' heq.symm ▸ hid'
  have hsame := h.these.others id (h.notMem hdata hlatest)
  refine ⟨id, ⟨data, latest, hdata, hlatest, h.le_latest⟩, ?_, ?_, ?_⟩
  · intro other
    constructor
    · rintro ⟨data', hdata', hgroup, hstate⟩
      by_contra hne
      by_cases hother : other ∈ ids
      · obtain ⟨data'', hdata'', hdisabled⟩ := h.these.these other hother
        obtain rfl := Option.some.inj (hdata'.symm.trans hdata'')
        exact State.noConfusion (hstate.symm.trans hdisabled)
      · rw [h.these.others other hother] at hdata'
        exact hother (hmem other data' ⟨hdata', hgroup, hstate⟩ hne)
    · rintro rfl
      exact ⟨data, hsame.trans hdata.1, hdata.2⟩
  · intro other data' hdata' hne
    exact h.these.these other (hmem other data' hdata' hne)
  · rintro other (hnone | rfl)
    · refine h.these.others other fun hother => hnone ?_
      obtain ⟨data', hdata', -⟩ := h.outdated other hother
      exact ⟨data', hdata'⟩
    · exact hsame

/-- If only one release is left, the timestamps were different. -/
theorem DeprecatesOutdated.timestampsDiffer
    (h : DeprecatesOutdated db db' revisionGroupId latest ids) {id : UUID}
    (honly : LeavesOnly db db' revisionGroupId id) :
    db.ReleaseTimestampsDiffer revisionGroupId := by
  have heq (other : UUID) (data : ReleaseData) (hdata : db.Release revisionGroupId other data)
      (hother : other ∉ ids) : other = id :=
    (honly.released other).mp ⟨data, (h.these.others other hother).trans hdata.1, hdata.2⟩
  obtain ⟨idLatest, dataLatest, hdataLatest, hlatest⟩ := h.attained
  have hidLatest : idLatest = id := heq _ _ hdataLatest (h.notMem hdataLatest hlatest)
  -- A release which is left is the latest one, and the others are deprecated.
  have hleft {a b : UUID} {dataA dataB : ReleaseData} (ha : db.Release revisionGroupId a dataA)
      (hb : db.Release revisionGroupId b dataB)
      (htimestamp : dataA.releasedTimestamp = dataB.releasedTimestamp) (hnot : a ∉ ids) : a = b := by
    have hidA : a = idLatest := (heq a dataA ha hnot).trans hidLatest.symm
    subst hidA
    obtain rfl := Option.some.inj (ha.1.symm.trans hdataLatest.1)
    have hnotB : b ∉ ids := h.notMem hb (htimestamp.symm.trans hlatest)
    exact hidLatest.trans (heq b dataB hb hnotB).symm
  intro a dataA b dataB ha hb htimestamp
  by_cases hA : a ∈ ids
  · by_cases hB : b ∈ ids
    · exact h.different a hA b hB dataA dataB ha hb htimestamp
    · exact (hleft hb ha htimestamp.symm hB).symm
  · exact hleft ha hb htimestamp hA

end Left

section Exactly

variable [UnicodeData] {V D : Type} [DecidableEq V] [DecidableEq D] {db db' : Database V D}
  {tools : CodeTools V D} {uuid4 : UUID → ℕ → UUID} {surroundings : UUID → Surroundings}
  {revisionGroupId : UUID}

/-- If only the latest release is left, the deprecations have loaded their rows. -/
theorem LeavesOnly.deprecationsLoad {id : UUID} (honly : LeavesOnly db db' revisionGroupId id)
    (htags : db.TagsUnique)
    (h : deprecateAllButLatestInGroup tools uuid4 surroundings db revisionGroupId = .ok db') :
    DeprecationsLoad tools uuid4 surroundings db revisionGroupId := by
  obtain ⟨trList, hselect, h⟩ := bind_eq_ok.mp h
  obtain ⟨-, hrun⟩ := require_bind_eq_ok.mp h
  intro trList' htrList'
  obtain rfl := Option.some.inj ((congrArg Except.toOption hselect).symm.trans htrList')
  refine (rounds_of_run htags hselect hrun).2.mp fun other hother => ?_
  obtain ⟨tr, htr, rfl⟩ := List.mem_map.mp hother
  have hmem := mem_of_mem_outdatedReleases htr
  obtain ⟨-, data, hdata, htimestamp⟩ := release_of_mem_select hselect hmem
  refine honly.disabled tr.id data hdata fun heq => ?_
  -- The release which is left has the latest timestamp, and an outdated one has not.
  obtain ⟨latest, ⟨trLatest, htrLatest, hlatest⟩, hle, houtdated, -⟩ := exists_latestTimestamp
    (List.ne_nil_of_mem hmem) fun tr htr => (release_of_mem_select hselect htr).1
  obtain ⟨dataLeft, timestamp, hdataLeft, htimestampLeft, hmax⟩ := honly.latest
  obtain ⟨-, dataLatest, hdataLatest, htimestampLatest⟩ := release_of_mem_select hselect htrLatest
  obtain ⟨timestamp', htimestamp', hle'⟩ := hmax _ _ hdataLatest
  have hlatestLe : latest ≤ timestamp := by
    rw [htimestampLatest, hlatest] at htimestamp'
    exact Option.some.inj htimestamp' ▸ hle'
  rw [← heq] at hdataLeft
  rw [releasedTimestamp_of_select hselect hmem hdataLeft] at htimestampLeft
  obtain ⟨timestamp'', htimestamp'', hle''⟩ := hle tr hmem
  obtain rfl := Option.some.inj (htimestampLeft.symm.trans htimestamp'')
  exact houtdated tr htr (htimestampLeft.trans (congrArg some (le_antisymm hle'' hlatestLe)))

end Exactly

/-- A released workflow of a group of two. -/
def release (id : UUID) (versionTag : Char) (timestamp : Timestamp) : Revision ℤ Unit :=
  { plainWorkflow id .released [] with
    revisionGroupId := 1, versionTag := [versionTag], releasedTimestamp := some timestamp }

/-- The tables with two releases. -/
def twoReleases (earlier later : Timestamp) : Database ℤ Unit where
  revisions := [release 1 '1' earlier, release 2 '2' later]
  nestings := []
  ids_unique := show [1, 2].Nodup by decide
  nesting_keys_unique := Nesting.nil_keys_nodup
  references_exist := fun _ h => absurd h List.not_mem_nil

/-- A run in the group, at a fixed time. -/
abbrev deprecatePlainly (db : Database ℤ Unit) : Except StoreError (Database ℤ Unit) :=
  @deprecateAllButLatestInGroup asciiOnly ℤ Unit _ _ plainTools (fun _ _ => 0)
    (fun _ => ⟨fun _ _ => 0, 10⟩) db 1

/-- The constraint on tags, row by row. -/
theorem tagsUnique_of_rows {V D : Type} {db : Database V D}
    (h : ∀ row ∈ db.revisions, ∀ row' ∈ db.revisions,
      row.revisionGroupId = row'.revisionGroupId → row.versionTag = row'.versionTag →
        row.id = row'.id) : db.TagsUnique := by
  intro id data id' data' hdata hdata' hgroup htag
  obtain ⟨row, hrow, rfl⟩ := Option.map_eq_some_iff.mp hdata
  obtain ⟨row', hrow', rfl⟩ := Option.map_eq_some_iff.mp hdata'
  obtain ⟨hmem, rfl⟩ := find_eq_some hrow
  obtain ⟨hmem', rfl⟩ := find_eq_some hrow'
  exact h row hmem row' hmem' hgroup htag

/-- The timestamps of releases, row by row. -/
theorem releaseTimestampsDiffer_of_rows {V D : Type} {db : Database V D} {revisionGroupId : UUID}
    (h : ∀ row ∈ db.revisions, ∀ row' ∈ db.revisions, row.revisionGroupId = revisionGroupId →
      row'.revisionGroupId = revisionGroupId → row.state = .released → row'.state = .released →
        row.releasedTimestampOrDisabled = row'.releasedTimestampOrDisabled → row.id = row'.id) :
    db.ReleaseTimestampsDiffer revisionGroupId := by
  intro id data id' data' hdata hdata' htimestamp
  obtain ⟨hdata, hgroup, hstate⟩ := hdata
  obtain ⟨hdata', hgroup', hstate'⟩ := hdata'
  obtain ⟨row, hrow, rfl⟩ := Option.map_eq_some_iff.mp hdata
  obtain ⟨row', hrow', rfl⟩ := Option.map_eq_some_iff.mp hdata'
  obtain ⟨hmem, rfl⟩ := find_eq_some hrow
  obtain ⟨hmem', rfl⟩ := find_eq_some hrow'
  exact h row hmem row' hmem' hgroup hgroup' hstate hstate' htimestamp

/-- The tables with two releases and a draft which contains the earlier one. -/
def containedRelease (versionTag : PyStr) : Database ℤ Unit where
  revisions := [release 1 '1' 3, release 2 '2' 4,
    { plainWorkflow 5 .draft [workflowOperator 51 1 .released] with versionTag := versionTag }]
  nestings := [⟨5, 1, 51, 1, 1, 51⟩]
  ids_unique := show [1, 2, 5].Nodup by decide
  nesting_keys_unique := List.nodup_singleton _
  references_exist := by
    intro nesting hnesting id hid
    obtain rfl := List.mem_singleton.mp hnesting
    simp only [Nesting.references, List.mem_cons, List.not_mem_nil, or_false] at hid
    rcases hid with rfl | rfl | rfl
    · exact ⟨_, List.mem_cons_of_mem _ (List.mem_cons_of_mem _ List.mem_cons_self), rfl⟩
    · exact ⟨_, List.mem_cons_self, rfl⟩
    · exact ⟨_, List.mem_cons_self, rfl⟩

/-- If the draft cannot be loaded, here because of its tag, the earlier release is left, too. -/
example : (deprecatePlainly (containedRelease "latest".toList)).toOption.any (fun db' =>
    decide (db'.releaseData 1 = some (release 1 '1' 3).releaseData)) = true := by
  decide +kernel

end HetidaDesigner
