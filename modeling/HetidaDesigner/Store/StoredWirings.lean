import HetidaDesigner.Store.Selection

/-!
# Stored wirings

Which wirings are stored for a revision is decided by the call which creates it. Later calls for
other revisions leave them, although they may rewrite the row, and so does a deprecation.
-/

namespace HetidaDesigner

open Checks Database

/-- The wirings of a revision. -/
def TransformationRevision.wirings {V W : Type} (revision : TransformationRevision V W) :
    W × Option W :=
  (revision.testWiring, revision.releaseWiring)

/-- The wirings of a stored revision. -/
def Database.wirings {V D : Type} (db : Database V D) (id : UUID) :
    Option (WorkflowWiring D × Option (WorkflowWiring D)) :=
  (db.find id).map TransformationRevision.wirings

/-! ## Steps which keep wirings -/

section Steps

variable [UnicodeData] {V D W : Type} [DecidableEq V] {db db' mid : Database V D}
  {tools : CodeTools V D} {surroundings : Surroundings} {options : PutOptions}

/-- Validation keeps id and wirings. -/
theorem TransformationRevision.validate_wirings {uuid4 : ℕ → UUID}
    {data revision : TransformationRevision V W} (h : data.validate uuid4 = .ok revision) :
    revision.id = data.id ∧ revision.wirings = data.wirings := by
  unfold validate validateWith at h
  simp only [require_bind_eq_ok] at h
  obtain ⟨-, -, -, -, -, h⟩ := h
  split at h
  · obtain rfl := return_eq_ok.mp h
    exact ⟨rfl, rfl⟩
  · obtain ⟨content, -, h⟩ := bind_eq_ok.mp h
    obtain rfl := return_eq_ok.mp h
    exact ⟨rfl, rfl⟩
  · cases h

/-- A deprecation keeps id and wirings. -/
theorem TransformationRevision.deprecateRevision_wirings {uuid4 : ℕ → UUID} {now : Timestamp}
    {revision deprecated : TransformationRevision V W}
    (h : revision.deprecateRevision uuid4 now = .ok deprecated) :
    deprecated.id = revision.id ∧ deprecated.wirings = revision.wirings ∧
      deprecated.state = .disabled := by
  unfold deprecateRevision at h
  obtain ⟨-, h⟩ := require_bind_eq_ok.mp h
  obtain ⟨-, -, h⟩ := bind_eq_ok.mp h
  obtain rfl := return_eq_ok.mp h
  exact ⟨rfl, rfl, rfl⟩

omit [UnicodeData] in
/-- Assigning a content keeps id and wirings. -/
theorem TransformationRevision.assignContent_wirings {content : Content V}
    {revision assigned : TransformationRevision V W}
    (h : revision.assignContent content = .ok assigned) :
    assigned.id = revision.id ∧ assigned.wirings = revision.wirings := by
  unfold assignContent at h
  split at h
  · obtain rfl := return_eq_ok.mp h
    exact ⟨rfl, rfl⟩
  · obtain ⟨-, -, h⟩ := bind_eq_ok.mp h
    obtain rfl := return_eq_ok.mp h
    exact ⟨rfl, rfl⟩
  · cases h

omit [UnicodeData] [DecidableEq V] in
/-- The wirings after an insertion. -/
theorem wirings_addTr {revision : Revision V D} (h : db.addTr revision = .ok db') (id : UUID) :
    db'.wirings id = if id = revision.id then some revision.wirings else db.wirings id := by
  rw [Database.wirings, (addTr_eq_ok h).2.2 id]
  split <;> rfl

omit [UnicodeData] [DecidableEq V] in
/-- The wirings after an update. -/
theorem wirings_updateTr {revision : Revision V D} (h : db.updateTr revision = .ok db')
    (id : UUID) : db'.wirings id =
      if id = revision.id then (db.wirings id).map fun _ => revision.wirings
      else db.wirings id := by
  rw [Database.wirings, (updateTr_eq_ok h).2 id]
  split
  · rw [Database.wirings, Option.map_map, Option.map_map]
    rfl
  · rfl

omit [UnicodeData] [DecidableEq V] in
/-- An update with the wirings which are stored changes none. -/
theorem wirings_updateTr_of_same {revision : Revision V D} (h : db.updateTr revision = .ok db')
    (hsame : db.wirings revision.id = some revision.wirings) : db'.wirings = db.wirings := by
  funext id
  rw [wirings_updateTr h]
  split
  · rename_i hid
    rw [hid, hsame, Option.map_some]
  · rfl

/-- Marking operators of a workflow keeps all wirings. -/
theorem wirings_passOnAlong {nesting : Nesting × ℕ}
    (h : passOnAlong surroundings db nesting = .ok db') : db'.wirings = db.wirings := by
  unfold passOnAlong at h
  obtain ⟨revision, hselect, h⟩ := bind_eq_ok.mp h
  obtain ⟨row, hrow, hvalid⟩ := selectTrById_eq_ok.mp hselect
  obtain ⟨hid, hwirings⟩ := TransformationRevision.validate_wirings hvalid
  split at h
  · cases h
  · refine wirings_updateTr_of_same h ?_
    have hstored : db.wirings row.id = some row.wirings := by
      rw [Database.wirings, (find_eq_some hrow).2, hrow]
      rfl
    rw [hid.trans rfl, hstored, ← hwirings]
    rfl

/-- Passing on a deprecation keeps all wirings. -/
theorem wirings_passOnDeprecation {id : UUID}
    (h : passOnDeprecation surroundings db id = .ok db') : db'.wirings = db.wirings := by
  unfold passOnDeprecation at h
  generalize (db.findAllNestings id).zipIdx = nestings at h
  induction nestings generalizing db with
  | nil =>
    obtain rfl := return_eq_ok.mp h
    rfl
  | cons nesting rest ih =>
    rw [List.foldlM_cons] at h
    obtain ⟨next, hnext, h⟩ := bind_eq_ok.mp h
    rw [ih h, wirings_passOnAlong hnext]

/-- What follows a write keeps all wirings. -/
theorem wirings_propagate {written : Revision V D}
    (h : propagate surroundings db written = .ok db') : db'.wirings = db.wirings := by
  unfold propagate at h
  split at h
  · exact wirings_passOnDeprecation h
  · obtain rfl := return_eq_ok.mp h
    rfl
  · cases h
  · funext id
    rw [Database.wirings, Database.find, (rebuilt_of_updateNesting h).1]
    rfl

/-- Updating the content keeps id and wirings. -/
theorem wirings_updateContent {existing : Option (Revision V D)} {updated written : Revision V D}
    (h : updateContent tools surroundings db options existing updated = .ok written) :
    written.id = updated.id ∧ written.wirings = updated.wirings := by
  unfold updateContent at h
  split at h
  · split at h
    · obtain ⟨code, -, h⟩ := bind_eq_ok.mp h
      obtain rfl := return_eq_ok.mp h
      exact ⟨rfl, rfl⟩
    · obtain rfl := return_eq_ok.mp h
      exact ⟨rfl, rfl⟩
  · obtain rfl := return_eq_ok.mp h
    exact ⟨rfl, rfl⟩
  · obtain ⟨operators, -, h⟩ := bind_eq_ok.mp h
    obtain rfl := return_eq_ok.mp h
    exact ⟨rfl, rfl⟩

/-- A deprecation keeps wirings on which the stored and the sent revision agree. -/
theorem wirings_ifApplicableReleaseOrDeprecate {existing payload updated : Revision V D}
    (hid : existing.id = payload.id) (hpayload : payload.state = .disabled)
    (hwirings : existing.wirings = payload.wirings)
    (h : ifApplicableReleaseOrDeprecate surroundings existing payload = .ok updated) :
    updated.id = payload.id ∧ updated.wirings = payload.wirings := by
  unfold ifApplicableReleaseOrDeprecate at h
  split at h
  · rename_i hreleased
    rw [hpayload] at hreleased
    cases hreleased
  · obtain ⟨copied, hcopied, h⟩ := bind_eq_ok.mp h
    obtain ⟨deprecated, hdeprecated, h⟩ := bind_eq_ok.mp h
    obtain ⟨hidCopied, hcopied⟩ := TransformationRevision.validate_wirings (mapError_eq_ok.mp hcopied)
    obtain ⟨hidDeprecated, hdeprecated, -⟩ :=
      TransformationRevision.deprecateRevision_wirings (mapError_eq_ok.mp hdeprecated)
    obtain ⟨hidAssigned, hassigned⟩ :=
      TransformationRevision.assignContent_wirings (mapError_eq_ok.mp h)
    exact ⟨hidAssigned.trans (hidDeprecated.trans (hidCopied.trans hid)),
      hassigned.trans (hdeprecated.trans (hcopied.trans hwirings))⟩
  · obtain rfl := return_eq_ok.mp h
    exact ⟨rfl, rfl⟩

end Steps

/-! ## Updates -/

section Updates

variable [UnicodeData] {V D : Type} [DecidableEq V] [DecidableEq D] {db db' mid : Database V D}
  {tools : CodeTools V D} {surroundings : Surroundings} {options : PutOptions}

/-- The stages of a successful update. -/
theorem stages_of_update {payload stored : Revision V D}
    (h : updateOrCreateSingleTransformationRevision tools surroundings db options payload =
      .ok (db', stored)) :
    ∃ mid written, writeRevision tools surroundings db options
        (payload.stripWirings options.strip) = .ok (mid, written) ∧ db'.wirings = mid.wirings := by
  have hhandle : handle tools db (.put surroundings options payload) = .ok db' :=
    map_eq_ok.mpr ⟨_, h, rfl⟩
  obtain ⟨-, mid, written, -, hwrite, hpropagate, -⟩ := handle_put_eq_ok hhandle
  exact ⟨mid, written, hwrite, wirings_propagate hpropagate⟩

/-- An update keeps the wirings of other revisions. -/
theorem wirings_update_of_ne {payload stored : Revision V D}
    (h : updateOrCreateSingleTransformationRevision tools surroundings db options payload =
      .ok (db', stored)) {id : UUID} (hid : id ≠ payload.id) :
    db'.wirings id = db.wirings id := by
  obtain ⟨mid, written, hwrite, hkept⟩ := stages_of_update h
  have hwritten : written.id = payload.id := (writeRevision_shape hwrite).1
  rw [hkept]
  rcases writeRevision_eq_ok hwrite with ⟨-, -, hadd⟩ | ⟨existing, updated, -, -, -, -, hupdate⟩
  · rw [wirings_addTr hadd, hwritten, if_neg hid]
  · rw [wirings_updateTr hupdate, hwritten, if_neg hid]

/-- A revision which did not exist is stored with what stripping leaves of its wirings. -/
theorem wirings_update_of_new {payload stored : Revision V D}
    (h : updateOrCreateSingleTransformationRevision tools surroundings db options payload =
      .ok (db', stored)) (hnew : db.wirings payload.id = none) :
    db'.wirings payload.id = some (payload.stripWirings options.strip).wirings := by
  obtain ⟨mid, written, hwrite, hkept⟩ := stages_of_update h
  have hwritten : written.id = payload.id := (writeRevision_shape hwrite).1
  rw [hkept]
  rcases writeRevision_eq_ok hwrite with ⟨-, hcontent, hadd⟩ | ⟨existing, updated, hselect, -⟩
  · rw [wirings_addTr hadd, hwritten, if_pos rfl, (wirings_updateContent hcontent).2]
  · obtain ⟨row, hrow, -⟩ := selectTrById_eq_ok.mp hselect
    have hrow' : db.find payload.id = some row := hrow
    rw [Database.wirings, hrow'] at hnew
    cases hnew

/-- An update which deprecates a stored revision and strips nothing keeps all wirings. -/
theorem wirings_update_of_disabled {payload stored : Revision V D}
    (h : updateOrCreateSingleTransformationRevision tools surroundings db options payload =
      .ok (db', stored)) (hstrip : payload.stripWirings options.strip = payload)
    (hstate : payload.state = .disabled) (hstored : db.wirings payload.id = some payload.wirings) :
    db'.wirings = db.wirings := by
  obtain ⟨mid, written, hwrite, hkept⟩ := stages_of_update h
  rw [hstrip] at hwrite
  rw [hkept]
  rcases writeRevision_eq_ok hwrite with ⟨hnone, -⟩ |
    ⟨existing, updated, hselect, -, hupdated, hcontent, hupdate⟩
  · rw [Database.wirings, hnone] at hstored
    cases hstored
  · obtain ⟨row, hrow, hvalid⟩ := selectTrById_eq_ok.mp hselect
    obtain ⟨hidExisting, hexisting⟩ := TransformationRevision.validate_wirings hvalid
    rw [Database.wirings, hrow] at hstored
    have hsame : existing.wirings = payload.wirings :=
      hexisting.trans (Option.some.inj hstored)
    obtain ⟨hidUpdated, hupdated⟩ := wirings_ifApplicableReleaseOrDeprecate
      (hidExisting.trans (find_eq_some hrow).2) hstate hsame hupdated
    obtain ⟨hidWritten, hwritten⟩ := wirings_updateContent hcontent
    refine wirings_updateTr_of_same hupdate ?_
    rw [hidWritten, hidUpdated, hwritten, hupdated, Database.wirings, hrow]
    exact hstored

end Updates

end HetidaDesigner
