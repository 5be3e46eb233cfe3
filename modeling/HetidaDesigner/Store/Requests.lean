import HetidaDesigner.Library.Runs
import HetidaDesigner.Store.Propagation

/-!
# Requests

The calls which change the database as requests to one handler, with their whole effect on
shapes and nestings. Payloads have been validated, as the web service does before a call.
-/

namespace HetidaDesigner

open Checks Database

/-- A call which changes the database. -/
inductive Request (V D : Type)
  | store (revision : Revision V D)
  | put (surroundings : Surroundings) (options : PutOptions) (payload : Revision V D)
  | delete (surroundings : Surroundings) (id : UUID) (type : Option TrafoType)
      (ignoreState : Bool)

/-- A payload is the result of a validation of data, in which some keys may be missing. -/
def TransformationRevision.IsValidated [UnicodeData] {V W : Type} [DecidableEq V]
    (revision : TransformationRevision V W) : Prop :=
  ∃ keys uuid4, ∃ data : TransformationRevision V W, data.validateWith keys uuid4 = .ok revision

/-- The revision which a request sends. -/
def Request.payload {V D : Type} : Request V D → Option (Revision V D)
  | .store revision => some revision
  | .put _ _ payload => some payload
  | .delete .. => none

/-- Whether a request may overwrite released revisions. -/
def Request.allowsOverwrite {V D : Type} : Request V D → Bool
  | .put _ options _ => options.allowOverwriteReleased
  | _ => false

/-- A request deprecates what it sends, and passes that on. -/
def Request.Deprecates {V D : Type} : Request V D → Prop
  | .put _ _ payload => payload.state = .disabled
  | _ => False

instance {V D : Type} (request : Request V D) : Decidable request.Deprecates :=
  match request with
  | .put _ _ payload => inferInstanceAs (Decidable (payload.state = .disabled))
  | .store _ | .delete .. => .isFalse id

/-- The revision which is sent, if any, has been validated. -/
def Request.WellTyped [UnicodeData] {V D : Type} [DecidableEq V] (request : Request V D) : Prop :=
  ∀ revision ∈ request.payload, revision.IsValidated

section Handle

variable [UnicodeData] {V D : Type} [DecidableEq V] [DecidableEq D]

/-- The database after a request. -/
def handle (tools : CodeTools V D) (db : Database V D) :
    Request V D → Except StoreError (Database V D)
  | .store revision => storeSingleTransformationRevision db revision
  | .put surroundings options payload =>
    (updateOrCreateSingleTransformationRevision tools surroundings db options payload).map Prod.fst
  | .delete surroundings id type ignoreState =>
    deleteSingleTransformationRevision surroundings db id type ignoreState

end Handle

/-! ## The effect of a request -/

/-- What follows the write of a shape under an id; a deprecation is passed on instead of a change
of nestings. -/
inductive Propagated {V D : Type} (db db' : Database V D) (deprecates : Prop) (id : UUID)
    (saved : Shape) : Prop
  | marked (passedOn : deprecates) (nestings : db'.nestings = db.nestings)
      (shapes : ∀ other, db'.shape other =
        (if other = id then some saved else db.shape other).map
          (markedShape (db.findAllNestings id) other))
  | rebuilt (active : ¬deprecates) (nestings : Rebuilt db.nestings db'.nestings id saved.uses)
      (shapes : ∀ other, db'.shape other = if other = id then some saved else db.shape other)
  | kept (active : ¬deprecates) (component : saved.type = .component)
      (nestings : db'.nestings = db.nestings)
      (shapes : ∀ other, db'.shape other = if other = id then some saved else db.shape other)

/-- A request saves a revision. -/
def Saves {V D : Type} (db db' : Database V D) (request : Request V D) (revision : Revision V D) :
    Prop :=
  ∃ saved, SavedAs db.shape request.allowsOverwrite revision.id revision.shape saved ∧
    (saved.type = .component → saved.uses = []) ∧
    Propagated db db' request.Deprecates revision.id saved

/-- A revision to which no other workflow refers is deleted with its nestings. -/
structure Deletes {V D : Type} (db db' : Database V D) (id : UUID) : Prop where
  unused : ∀ nesting ∈ db.nestings, nesting.workflowId ≠ id → id ∉ nesting.references
  nestings : ∀ nesting : Nesting,
    nesting ∈ db'.nestings ↔ nesting ∈ db.nestings ∧ nesting.workflowId ≠ id
  shapes : ∀ other, db'.shape other = if other = id then none else db.shape other

section Effect

variable [UnicodeData] {V D : Type} [DecidableEq V] {db db' mid : Database V D}

/-- Validated components have no operators. -/
theorem uses_eq_nil_of_validate {W : Type} {keys : IoKeys} {uuid4 : ℕ → UUID}
    {data revision : TransformationRevision V W} (h : data.validateWith keys uuid4 = .ok revision)
    (htype : revision.shape.type = .component) : revision.shape.uses = [] := by
  unfold TransformationRevision.validateWith at h
  simp only [require_bind_eq_ok] at h
  obtain ⟨-, -, -, -, -, h⟩ := h
  split at h
  · rename_i hcontent
    obtain rfl := return_eq_ok.mp h
    simp only [TransformationRevision.shape, Content.uses, hcontent]
  · rename_i hworkflow _
    obtain ⟨content, -, h⟩ := bind_eq_ok.mp h
    obtain rfl := return_eq_ok.mp h
    exact absurd (htype.symm.trans hworkflow) (by decide)
  · cases h

variable {surroundings : Surroundings}

/-- The effect of `propagate`. -/
theorem propagated_of_propagate {written : Revision V D}
    (h : propagate surroundings mid written = .ok db')
    (hnestings : mid.nestings = db.nestings)
    (hshapes : ∀ other, mid.shape other =
      if other = written.id then some written.shape else db.shape other) :
    Propagated db db' (written.state = .disabled) written.id written.shape := by
  unfold propagate at h
  split at h
  · rename_i hdisabled
    obtain ⟨hnestings', hshapes'⟩ := passOnDeprecation_shape h
    refine .marked hdisabled (hnestings'.trans hnestings) fun other => ?_
    rw [hshapes', hshapes, findAllNestings, hnestings, findAllNestings]
  · rename_i htype hactive
    obtain rfl := return_eq_ok.mp h
    exact .kept hactive htype hnestings hshapes
  · cases h
  · rename_i content _ hcontent hactive
    obtain ⟨hrevisions, hrebuilt⟩ := rebuilt_of_updateNesting h
    have huses : written.shape.uses = content.operators.map Operator.use := by
      rw [TransformationRevision.shape, hcontent]
      rfl
    rw [hnestings, ← huses] at hrebuilt
    refine .rebuilt hactive hrebuilt fun other => ?_
    rw [Database.shape_congr hrevisions, hshapes]

/-- A shape which is read back after it has been saved has operators for workflows only. -/
theorem Propagated.uses_eq_nil {deprecates : Prop} {id : UUID} {saved : Shape}
    (h : Propagated db db' deprecates id saved) {uuid4 : ℕ → UUID} {stored : Revision V D}
    (hselect : db'.selectTrById uuid4 id = .ok stored)
    (htype : saved.type = .component) : saved.uses = [] := by
  obtain ⟨row, -, hvalid⟩ := selectTrById_eq_ok.mp hselect
  obtain ⟨-, hstored⟩ := Database.shape_of_select hselect
  cases h with
  | marked _ _ hshapes =>
    rw [hshapes, if_pos rfl, Option.map_some, Option.some_inj] at hstored
    have huses := uses_eq_nil_of_validate hvalid ((congrArg Shape.type hstored).symm.trans htype)
    rw [← hstored] at huses
    exact List.map_eq_nil_iff.mp huses
  | rebuilt _ _ hshapes =>
    rw [hshapes, if_pos rfl, Option.some_inj] at hstored
    rw [hstored] at htype ⊢
    exact uses_eq_nil_of_validate hvalid htype
  | kept _ _ _ hshapes =>
    rw [hshapes, if_pos rfl, Option.some_inj] at hstored
    rw [hstored] at htype ⊢
    exact uses_eq_nil_of_validate hvalid htype

variable [DecidableEq D]

/-- The stages of a successful put. -/
theorem handle_put_eq_ok {tools : CodeTools V D} {options : PutOptions} {payload : Revision V D}
    (h : handle tools db (.put surroundings options payload) = .ok db') :
    checkDirectComponentImports tools surroundings db (payload.stripWirings options.strip) = .ok () ∧
      ∃ mid written stored, writeRevision tools surroundings db options
          (payload.stripWirings options.strip) = .ok (mid, written) ∧
        propagate surroundings mid written = .ok db' ∧
        db'.selectTrById (surroundings.uuid4 .stored) written.id = .ok stored := by
  obtain ⟨⟨after, stored⟩, hput, rfl⟩ := map_eq_ok.mp h
  obtain ⟨_, himports, hput⟩ := bind_eq_ok.mp hput
  obtain ⟨⟨mid, written⟩, hwrite, hput⟩ := bind_eq_ok.mp hput
  obtain ⟨after', hpropagate, hput⟩ := bind_eq_ok.mp hput
  obtain ⟨stored', hselect, hput⟩ := bind_eq_ok.mp hput
  obtain ⟨rfl, rfl⟩ := Prod.mk.inj (return_eq_ok.mp hput)
  exact ⟨himports, mid, written, stored', hwrite, hpropagate, hselect⟩

/-- A put checks the payload, writes a revision and propagates what follows from that. -/
theorem written_of_put {tools : CodeTools V D} {options : PutOptions} {payload : Revision V D}
    (h : handle tools db (.put surroundings options payload) = .ok db') :
    checkDirectComponentImports tools surroundings db (payload.stripWirings options.strip) = .ok () ∧
      ∃ mid written, writeRevision tools surroundings db options
          (payload.stripWirings options.strip) = .ok (mid, written) ∧
        SavedAs db.shape options.allowOverwriteReleased payload.id payload.shape written.shape ∧
        (written.shape.type = .component → written.shape.uses = []) ∧
        Propagated db db' (payload.state = .disabled) payload.id written.shape := by
  obtain ⟨himports, mid, written, stored, hwrite, hpropagate, hselect⟩ := handle_put_eq_ok h
  obtain ⟨hid, hsaved, hnestings, hshapes⟩ := writeRevision_shape hwrite
  replace hid : written.id = payload.id := hid
  replace hshapes : ∀ other, mid.shape other =
      if other = written.id then some written.shape else db.shape other := by
    rw [hid]
    exact hshapes
  have hpropagated := propagated_of_propagate hpropagate hnestings hshapes
  have hstate : written.state = payload.state := hsaved.state
  rw [hid, hstate] at hpropagated
  rw [hid] at hselect
  exact ⟨himports, mid, written, hwrite, hsaved, hpropagated.uses_eq_nil hselect, hpropagated⟩

/-- A put saves the payload. -/
theorem saves_of_put {tools : CodeTools V D} {options : PutOptions} {payload : Revision V D}
    (h : handle tools db (.put surroundings options payload) = .ok db') :
    Saves db db' (.put surroundings options payload) payload := by
  obtain ⟨-, -, written, -, hsaved, hcomponent, hpropagated⟩ := written_of_put h
  exact ⟨written.shape, hsaved, hcomponent, hpropagated⟩

omit [UnicodeData] [DecidableEq V] [DecidableEq D] in
/-- A new revision is saved as it is. -/
theorem savedAs_of_new {revision : Revision V D} {allow : Bool} (h : db.find revision.id = none) :
    SavedAs db.shape allow revision.id revision.shape revision.shape := by
  have hnone : db.shape revision.id = none := by rw [Database.shape, h, Option.map_none]
  refine ⟨rfl, rfl, ?_, by simp [hnone], by simp [hnone]⟩
  rw [hnone]
  refine (List.map_id _).symm.trans (List.map_congr_left fun use _ => ?_)
  refine (OperatorUse.mark_of_not ?_).symm
  rintro ⟨-, -, shape, hshape, -⟩
  cases hshape

/-- Storing a revision saves it. -/
theorem saves_of_store {tools : CodeTools V D} {revision : Revision V D}
    (hvalid : revision.IsValidated) (h : handle tools db (.store revision) = .ok db') :
    Saves db db' (.store revision) revision := by
  simp only [handle, storeSingleTransformationRevision] at h
  obtain ⟨mid, hadd, h⟩ := bind_eq_ok.mp h
  obtain ⟨hnew, hnestings, -⟩ := addTr_eq_ok hadd
  have hsaved : SavedAs db.shape false revision.id revision.shape revision.shape :=
    savedAs_of_new hnew
  have hcomponent : revision.shape.type = .component → revision.shape.uses = [] := by
    obtain ⟨keys, uuid4, data, hdata⟩ := hvalid
    exact uses_eq_nil_of_validate hdata
  refine ⟨revision.shape, hsaved, hcomponent, ?_⟩
  split at h
  · rename_i htype
    obtain rfl := return_eq_ok.mp h
    exact .kept not_false htype hnestings (Database.shape_addTr hadd)
  · cases h
  · rename_i content htype hcontent
    obtain ⟨hrevisions, hrebuilt⟩ := rebuilt_of_updateNesting h
    have huses : revision.shape.uses = content.operators.map Operator.use := by
      rw [TransformationRevision.shape, hcontent]
      rfl
    rw [hnestings, ← huses] at hrebuilt
    refine .rebuilt not_false hrebuilt fun other => ?_
    rw [Database.shape_congr hrevisions, Database.shape_addTr hadd]

/-- A deletion removes a revision. -/
theorem deletes_of_delete {tools : CodeTools V D} {id : UUID} {type : Option TrafoType}
    {ignoreState : Bool}
    (h : handle tools db (.delete surroundings id type ignoreState) = .ok db') :
    Deletes db db' id := by
  simp only [handle, deleteSingleTransformationRevision] at h
  obtain ⟨revision, hselect, hchecks⟩ := bind_eq_ok.mp h
  obtain ⟨-, hchecks⟩ := require_bind_eq_ok.mp hchecks
  obtain ⟨-, hdelete⟩ := require_bind_eq_ok.mp hchecks
  obtain ⟨rfl, -⟩ := Database.shape_of_select hselect
  obtain ⟨hfree, hnestings, -⟩ := deleteTr_eq_ok hdelete
  refine ⟨fun nesting hmem hworkflow => ?_, fun nesting => ?_, fun other => ?_⟩
  · exact hfree nesting (mem_deleteOwnNestings.mpr ⟨hmem, hworkflow⟩)
  · rw [hnestings, mem_deleteOwnNestings]
  · rw [Database.shape_deleteTr hdelete]
    rfl

/-- A successful request saves what it sends. -/
theorem saves_of_payload {tools : CodeTools V D} {request : Request V D}
    (hvalid : request.WellTyped) (hpayload : request.payload.isSome)
    (h : handle tools db request = .ok db') :
    ∃ revision ∈ request.payload, Saves db db' request revision := by
  cases request with
  | store revision => exact ⟨revision, rfl, saves_of_store (hvalid revision rfl) h⟩
  | put surroundings options payload => exact ⟨payload, rfl, saves_of_put h⟩
  | delete surroundings id type ignoreState => cases hpayload

/-- Every successful request saves what it sends or deletes a revision. -/
theorem saves_or_deletes {tools : CodeTools V D} {request : Request V D}
    (hvalid : request.WellTyped) (h : handle tools db request = .ok db') :
    (∃ revision ∈ request.payload, Saves db db' request revision) ∨ ∃ id, Deletes db db' id := by
  cases request with
  | store revision | put surroundings options payload => exact Or.inl (saves_of_payload hvalid rfl h)
  | delete surroundings id type ignoreState => exact Or.inr ⟨id, deletes_of_delete h⟩

end Effect

end HetidaDesigner
