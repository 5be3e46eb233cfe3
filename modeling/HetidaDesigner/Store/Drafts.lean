import HetidaDesigner.Store.Containment

/-!
# Drafts in released workflows

Released and deprecated workflows should refer to released or deprecated revisions. The states
which validation looks at are those written in the operators sent, whereas the revisions referred
to have states of their own, and a release keeps the operators stored before.
-/

namespace HetidaDesigner

open Runs

section States

variable {V D : Type} {db db' : Database V D}

/-- The revision is stored and not a draft. -/
def Database.IsReleased (db : Database V D) (id : UUID) : Prop :=
  ∃ shape ∈ db.shape id, shape.state ≠ .draft

instance (db : Database V D) (id : UUID) : Decidable (db.IsReleased id) :=
  inferInstanceAs (Decidable (∃ _ ∈ db.shape id, _))

/-- The operators of revisions which are not drafts refer to stored revisions which are not
drafts. -/
def ReleasedContainNoDrafts (db : Database V D) : Prop :=
  ∀ row ∈ db.revisions, row.state ≠ .draft → ∀ operator ∈ row.operators,
    ∃ other ∈ db.revisions, other.id = operator.transformationId ∧ other.state ≠ .draft

instance (db : Database V D) : Decidable (ReleasedContainNoDrafts db) :=
  inferInstanceAs (Decidable (∀ _ ∈ db.revisions, _))

/-- The request saves a revision and does not overwrite released ones at will. -/
def Request.SavesFairly (request : Request V D) : Prop :=
  request.payload.isSome ∧ request.allowsOverwrite = false

instance (request : Request V D) : Decidable request.SavesFairly :=
  inferInstanceAs (Decidable (_ ∧ _))

/-- If the revision sent is not a draft, the operators which get stored refer to it or to stored
revisions which are not drafts. -/
def SavesNoDrafts (db : Database V D) (request : Request V D) : Prop :=
  ∀ revision ∈ request.payload, revision.state ≠ .draft → ∀ use ∈ savedUses db revision,
    use.transformationId = revision.id ∨ db.IsReleased use.transformationId

instance (db : Database V D) (request : Request V D) : Decidable (SavesNoDrafts db request) :=
  inferInstanceAs (Decidable (∀ _ ∈ request.payload, _))

/-- A stored revision which is not a draft has a row. -/
theorem Database.isReleased_iff {id : UUID} : db.IsReleased id ↔
    ∃ row ∈ db.revisions, row.id = id ∧ row.state ≠ .draft := by
  constructor
  · rintro ⟨shape, hshape, hstate⟩
    obtain ⟨row, hrow, rfl⟩ := Option.map_eq_some_iff.mp hshape
    obtain ⟨hmem, hid⟩ := find_eq_some hrow
    exact ⟨row, hmem, hid, hstate⟩
  · rintro ⟨row, hmem, rfl, hstate⟩
    exact ⟨row.shape, Option.map_eq_some_iff.mpr ⟨row, find_of_mem hmem, rfl⟩, hstate⟩

/-- The operators of a row. -/
theorem Database.refs_of_mem {row : Revision V D} (hrow : row ∈ db.revisions) :
    db.refs row.id = row.operators.map fun operator => ⟨operator.id, operator.transformationId⟩ := by
  rw [refs, uses, shape, find_of_mem hrow, Option.map_some, Option.map_some, Option.getD_some,
    ← operators_map_use, List.map_map]
  rfl

/-- The property in terms of states and containment. -/
theorem releasedContainNoDrafts_iff : ReleasedContainNoDrafts db ↔
    ∀ id, db.IsReleased id → ∀ ref ∈ db.refs id, db.IsReleased ref.transformationId := by
  constructor
  · intro h id hid ref href
    obtain ⟨row, hrow, rfl, hstate⟩ := Database.isReleased_iff.mp hid
    rw [Database.refs_of_mem hrow] at href
    obtain ⟨operator, hoperator, rfl⟩ := List.mem_map.mp href
    exact Database.isReleased_iff.mpr (h row hrow hstate operator hoperator)
  · intro h row hrow hstate operator hoperator
    refine Database.isReleased_iff.mp (h row.id ?_ ⟨operator.id, operator.transformationId⟩ ?_)
    · exact Database.isReleased_iff.mpr ⟨row, hrow, rfl, hstate⟩
    · rw [Database.refs_of_mem hrow]
      exact List.mem_map.mpr ⟨operator, hoperator, rfl⟩

/-! ## Steps and runs -/

/-- What is sent for a released or deprecated revision is not a draft. -/
theorem SavedAs.state_ne_draft {id : UUID} {payload saved : Shape}
    (h : SavedAs db.shape false id payload saved) (hid : db.IsReleased id) :
    payload.state ≠ .draft := by
  obtain ⟨existing, hexisting, hstate⟩ := hid
  rcases h.frozen rfl existing hexisting with rfl | ⟨hactive, hreleased⟩
  · exact hstate
  · cases hexistingState : existing.state with
    | draft => exact absurd hexistingState hstate
    | disabled => exact absurd hexistingState hactive
    | released =>
      rw [hreleased hexistingState]
      decide

/-- Released and deprecated revisions are exactly those from before and the saved one, if it is
not a draft. -/
theorem Saves.isReleased_iff {request : Request V D} {revision : Revision V D}
    (h : Saves db db' request revision) (hfair : request.allowsOverwrite = false) {id : UUID} :
    db'.IsReleased id ↔ db.IsReleased id ∨ (id = revision.id ∧ revision.state ≠ .draft) := by
  obtain ⟨saved, hsaved, -, hpropagated⟩ := h
  rw [hfair] at hsaved
  have hstate : saved.state = revision.state := hsaved.state
  have hafter : db'.IsReleased id ↔
      ∃ shape, (if id = revision.id then some saved else db.shape id) = some shape ∧
        shape.state ≠ .draft := by
    constructor
    · rintro ⟨shape', hshape', hdraft⟩
      obtain ⟨shape, hshape, -, heq, -⟩ := hpropagated.exists_shape hshape'
      exact ⟨shape, hshape, heq ▸ hdraft⟩
    · rintro ⟨shape, hshape, hdraft⟩
      obtain ⟨shape', hshape', -, heq, -⟩ := hpropagated.exists_shape' hshape
      exact ⟨shape', hshape', heq ▸ hdraft⟩
  rw [hafter]
  by_cases hid : id = revision.id
  · rw [if_pos hid, ← hstate]
    constructor
    · rintro ⟨shape, hshape, hdraft⟩
      obtain rfl := Option.some.inj hshape
      exact Or.inr ⟨hid, hdraft⟩
    · rintro (hold | ⟨-, hdraft⟩)
      · exact ⟨saved, rfl, hstate ▸ hsaved.state_ne_draft (hid ▸ hold)⟩
      · exact ⟨saved, rfl, hdraft⟩
  · rw [if_neg hid]
    exact ⟨fun hold => Or.inl hold, fun h => h.resolve_right fun hnew => hid hnew.1⟩

/-- A save after which the property holds has saved no drafts. -/
theorem Saves.savesNoDrafts {request : Request V D} {revision : Revision V D}
    (hpayload : revision ∈ request.payload) (hsaves : Saves db db' request revision)
    (hfair : request.allowsOverwrite = false) (h : ReleasedContainNoDrafts db') :
    SavesNoDrafts db request := by
  intro revision' hrevision' hstate use huse
  obtain rfl : revision = revision' := Option.mem_unique hpayload hrevision'
  rw [releasedContainNoDrafts_iff] at h
  have href : use.ref ∈ db'.refs revision.id := by
    rw [hsaves.refs, if_pos rfl]
    exact List.mem_map_of_mem huse
  have hreleased := h revision.id ((hsaves.isReleased_iff hfair).mpr (Or.inr ⟨rfl, hstate⟩)) _ href
  rcases (hsaves.isReleased_iff hfair).mp hreleased with hold | ⟨hself, -⟩
  · exact Or.inr hold
  · exact Or.inl hself

/-- A save of no drafts keeps the property. -/
theorem ReleasedContainNoDrafts.save (h : ReleasedContainNoDrafts db) {request : Request V D}
    {revision : Revision V D} (hpayload : revision ∈ request.payload)
    (hsaves : Saves db db' request revision) (hfair : request.allowsOverwrite = false)
    (hcondition : SavesNoDrafts db request) : ReleasedContainNoDrafts db' := by
  rw [releasedContainNoDrafts_iff] at h ⊢
  intro id hid ref href
  rw [hsaves.isReleased_iff hfair] at hid ⊢
  rw [hsaves.refs] at href
  split at href
  · rename_i hself
    obtain ⟨use, huse, rfl⟩ := List.mem_map.mp href
    have hstate : revision.state ≠ .draft := by
      rcases hid with hold | ⟨-, hstate⟩
      · obtain ⟨saved, hsaved, -⟩ := hsaves
        rw [hfair] at hsaved
        exact hsaved.state_ne_draft (hself ▸ hold)
      · exact hstate
    rcases hcondition revision hpayload hstate use huse with hself | hreleased
    · exact Or.inr ⟨hself, hstate⟩
    · exact Or.inl hreleased
  · rename_i hother
    rcases hid with hold | ⟨hself, -⟩
    · exact Or.inl (h id hold ref href)
    · exact absurd hself hother

/-- The empty store has no released revisions. -/
theorem ReleasedContainNoDrafts.empty : ReleasedContainNoDrafts (.empty : Database V D) := by
  intro row hrow
  exact absurd hrow List.not_mem_nil

end States

section Runs

variable [UnicodeData] {V D : Type} [DecidableEq V] [DecidableEq D] {db : Database V D}
  {tools : CodeTools V D}

/-- In every run of saves in which what gets released refers to no drafts, released and
deprecated workflows contain no drafts; and a further save keeps that only under this
condition. -/
theorem releasedContainNoDrafts_of_run
    (h : Reaches (handle tools) (fun db request => request.WellTyped ∧ request.SavesFairly ∧
      SavesNoDrafts db request) .empty db) :
    ReleasedContainNoDrafts db ∧ ∀ request db', request.WellTyped → request.SavesFairly →
      handle tools db request = .ok db' →
        (ReleasedContainNoDrafts db' ↔ SavesNoDrafts db request) := by
  have hkept : ReleasedContainNoDrafts db := by
    refine h.invariant .empty fun s request s' hs hallowed hok => ?_
    obtain ⟨hvalid, ⟨hpayload, hfair⟩, hcondition⟩ := hallowed
    obtain ⟨revision, hrevision, hsaves⟩ := saves_of_payload hvalid hpayload hok
    exact hs.save hrevision hsaves hfair hcondition
  refine ⟨hkept, fun request db' hvalid ⟨hpayload, hfair⟩ hok => ?_⟩
  obtain ⟨revision, hrevision, hsaves⟩ := saves_of_payload hvalid hpayload hok
  exact ⟨hsaves.savesNoDrafts hrevision hfair, hkept.save hrevision hsaves hfair⟩

end Runs

/-! ## A draft which is passed off as released -/

/-- A draft, and a released workflow with an operator that refers to it but claims that it is
released. -/
def falseClaim : List (Request ℤ Unit) := [
  plainPut (plainWorkflow 2 .draft []),
  plainPut (plainWorkflow 1 .released [workflowOperator 11 2 .released])]

/-- The released workflow contains a draft. -/
theorem falseClaim_containsDraft :
    ¬ ∀ db, Reaches plainHandle (fun _ request => PlainWellTyped request ∧ request.SavesFairly)
      .empty db → ReleasedContainNoDrafts db := by
  intro h
  obtain ⟨db, hdb, hnot⟩ := exists_of_run plainHandle (fun _ request => request.SavesFairly)
    falseClaim .empty (fun db => ¬ ReleasedContainNoDrafts db) (by decide +kernel)
  refine hnot (h db (Reaches.of_run ?_ hdb))
  simp only [falseClaim, List.forall_mem_cons, List.not_mem_nil, false_imp_iff, implies_true,
    and_true]
  exact ⟨plainPut_wellTyped (by decide), plainPut_wellTyped (by decide)⟩

/-- The draft is released first. -/
def releasedFirst : List (Request ℤ Unit) := [
  plainPut (plainWorkflow 2 .draft []),
  plainPut (plainWorkflow 2 .released []),
  plainPut (plainWorkflow 1 .released [workflowOperator 11 2 .released])]

/-- In this order the released workflow contains no draft, and it stays so with every further
save under the condition. -/
theorem releasedFirst_containsNoDraft :
    ∃ db, run plainHandle (fun db request => request.SavesFairly ∧ SavesNoDrafts db request)
        releasedFirst .empty = some db ∧ db.revisions.length = 2 ∧ ReleasedContainNoDrafts db ∧
      ∀ request db', PlainWellTyped request → request.SavesFairly →
        plainHandle db request = .ok db' →
          (ReleasedContainNoDrafts db' ↔ SavesNoDrafts db request) := by
  obtain ⟨db, hdb, hlength⟩ := exists_of_run plainHandle
    (fun db request => request.SavesFairly ∧ SavesNoDrafts db request) releasedFirst .empty
    (fun db => db.revisions.length = 2) (by decide +kernel)
  have hwellTyped : ∀ request ∈ releasedFirst, PlainWellTyped request := by
    simp only [releasedFirst, List.forall_mem_cons, List.not_mem_nil, false_imp_iff, implies_true,
      and_true]
    exact ⟨plainPut_wellTyped (by decide), plainPut_wellTyped (by decide),
      plainPut_wellTyped (by decide)⟩
  exact ⟨db, hdb, hlength,
    @releasedContainNoDrafts_of_run asciiOnly _ _ _ _ _ _ (Reaches.of_run hwellTyped hdb)⟩

end HetidaDesigner
