import HetidaDesigner.Store.Requests
import HetidaDesigner.Trafoutils.Filter

/-!
# Selecting revisions

`select_multiple_transformation_revisions` of `persistence/dbservice/revision.py` and the part of a
revision which its release and its deprecation are about. That part survives every load: a missing
release timestamp is replaced by the one of the deprecation, and nothing else changes.
-/

namespace HetidaDesigner

open Checks KeyedList

section Select

variable [UnicodeData] {V D : Type} [DecidableEq V]

/-- `select_multiple_transformation_revisions`; each row is validated. -/
def selectMultipleTransformationRevisions (uuid4 : UUID → ℕ → UUID) (db : Database V D)
    (params : FilterParams) : Except StoreError (List (Revision V D)) :=
  (db.revisions.filter params.allows).mapM fun row =>
    (row.validate (uuid4 row.id)).mapError .invalidRow

end Select

/-! ## What a release is about -/

/-- Group, tag, timestamps and state of a revision. -/
structure ReleaseData where
  revisionGroupId : UUID
  versionTag : PyStr
  releasedTimestamp : Option Timestamp
  disabledTimestamp : Option Timestamp
  state : State
  deriving DecidableEq

/-- The data with the release timestamp that a load returns. -/
def TransformationRevision.releaseData {V W : Type} (revision : TransformationRevision V W) :
    ReleaseData :=
  ⟨revision.revisionGroupId, revision.versionTag, revision.releasedTimestampOrDisabled,
    revision.disabledTimestamp, revision.state⟩

/-- The data of a stored revision. -/
def Database.releaseData {V D : Type} (db : Database V D) (id : UUID) : Option ReleaseData :=
  (db.find id).map TransformationRevision.releaseData

section Data

variable {V W : Type} [DecidableEq V]

omit [DecidableEq V] in
/-- Whether timestamps fit depends on the data. -/
theorem TransformationRevision.timestampsFitState_congr {a b : TransformationRevision V W}
    (hstate : a.state = b.state)
    (hreleased : a.releasedTimestampOrDisabled = b.releasedTimestampOrDisabled)
    (hdisabled : a.disabledTimestamp = b.disabledTimestamp) :
    a.timestampsFitState = b.timestampsFitState := by
  unfold timestampsFitState
  rw [hstate, hreleased, hdisabled]

/-- Validation keeps the data; the release timestamp is the one in the data. -/
theorem TransformationRevision.validate_releaseData [UnicodeData] {uuid4 : ℕ → UUID}
    {data revision : TransformationRevision V W} (h : data.validate uuid4 = .ok revision) :
    revision.id = data.id ∧ revision.releaseData = data.releaseData ∧
      revision.releasedTimestamp = data.releasedTimestampOrDisabled ∧
      revision.timestampsFitState = true := by
  unfold validate validateWith at h
  simp only [require_bind_eq_ok] at h
  obtain ⟨-, -, hfit, -, -, h⟩ := h
  have hsame : (data.releasedTimestampOrDisabled).or data.disabledTimestamp =
      data.releasedTimestampOrDisabled := by
    rw [releasedTimestampOrDisabled]
    cases data.releasedTimestamp <;> cases data.disabledTimestamp <;> rfl
  have hcases : ∃ content ioInterface, revision = { data with
      releasedTimestamp := data.releasedTimestampOrDisabled
      content := content
      ioInterface := ioInterface } := by
    split at h
    · obtain rfl := return_eq_ok.mp h
      exact ⟨_, _, rfl⟩
    · obtain ⟨content, -, h⟩ := bind_eq_ok.mp h
      obtain rfl := return_eq_ok.mp h
      exact ⟨_, _, rfl⟩
    · cases h
  obtain ⟨content, ioInterface, rfl⟩ := hcases
  refine ⟨rfl, ?_, rfl, ?_⟩
  · exact congrArg (fun released => ReleaseData.mk data.revisionGroupId data.versionTag released
      data.disabledTimestamp data.state) hsame
  · refine Eq.trans (timestampsFitState_congr ?_ ?_ ?_) hfit
    · rfl
    · exact hsame
    · rfl

omit [DecidableEq V] in
/-- A valid released revision has a release timestamp and none of a deprecation. -/
theorem TransformationRevision.released_of_fit {revision : TransformationRevision V W}
    (hstate : revision.state = .released) (hfit : revision.timestampsFitState = true) :
    (∃ timestamp, revision.releasedTimestamp = some timestamp) ∧
      revision.disabledTimestamp = none := by
  unfold timestampsFitState at hfit
  rw [hstate] at hfit
  obtain ⟨hreleased, hdisabled⟩ := of_decide_eq_true hfit
  rw [releasedTimestampOrDisabled, hdisabled, Option.or_none] at hreleased
  exact ⟨Option.ne_none_iff_exists'.mp hreleased, hdisabled⟩

/-- Deprecating a valid released revision sets its state and the timestamp of the deprecation. -/
theorem TransformationRevision.deprecateRevision_releaseData [UnicodeData] {uuid4 : ℕ → UUID}
    {now : Timestamp} {revision deprecated : TransformationRevision V W}
    (hstate : revision.state = .released) (hfit : revision.timestampsFitState = true)
    (h : revision.deprecateRevision uuid4 now = .ok deprecated) :
    deprecated.id = revision.id ∧ deprecated.releaseData =
      { revision.releaseData with state := .disabled, disabledTimestamp := some now } := by
  unfold deprecateRevision at h
  obtain ⟨-, h⟩ := require_bind_eq_ok.mp h
  obtain ⟨-, -, h⟩ := bind_eq_ok.mp h
  obtain rfl := return_eq_ok.mp h
  obtain ⟨⟨timestamp, hreleased⟩, hdisabled⟩ := released_of_fit hstate hfit
  refine ⟨rfl, ?_⟩
  simp only [releaseData, releasedTimestampOrDisabled, hreleased, Option.some_or]

/-- Assigning a content keeps the data. -/
theorem TransformationRevision.assignContent_releaseData {content : Content V}
    {revision assigned : TransformationRevision V W}
    (h : revision.assignContent content = .ok assigned) :
    assigned.id = revision.id ∧ assigned.releaseData = revision.releaseData := by
  unfold assignContent at h
  split at h
  · obtain rfl := return_eq_ok.mp h
    exact ⟨rfl, rfl⟩
  · obtain ⟨-, -, h⟩ := bind_eq_ok.mp h
    obtain rfl := return_eq_ok.mp h
    exact ⟨rfl, rfl⟩
  · cases h

end Data

end HetidaDesigner
