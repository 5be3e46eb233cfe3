import HetidaDesigner.Store.Revision
import HetidaDesigner.Validation.Revalidation

/-!
# What the store knows about a revision

Of a revision the nestings, the imports and the passing on of deprecations depend on its type,
its state, its code and the operators with what they refer to: its shape. Loading a revision
never changes its shape, although it may change names and ios.
-/

namespace HetidaDesigner

open Checks

/-- An operator as the store looks at it. -/
structure OperatorUse where
  operatorId : UUID
  transformationId : UUID
  type : TrafoType
  state : State
  deriving DecidableEq, Repr

/-- What an operator refers to, with its state. -/
def Operator.use {V : Type} (operator : Operator V) : OperatorUse :=
  ⟨operator.id, operator.transformationId, operator.type, operator.state⟩

/-- The code of a component. -/
def Content.code? {V : Type} : Content V → Option PyStr
  | .code text => some text
  | .workflow _ => none

/-- The uses of a content. -/
def Content.uses {V : Type} : Content V → List OperatorUse
  | .code _ => []
  | .workflow content => content.operators.map Operator.use

/-- A revision as the store looks at it. -/
structure Shape where
  type : TrafoType
  state : State
  uses : List OperatorUse
  code : Option PyStr
  deriving DecidableEq

/-- The shape of a revision. -/
def TransformationRevision.shape {V W : Type} (revision : TransformationRevision V W) : Shape where
  type := revision.type
  state := revision.state
  uses := revision.content.uses
  code := revision.content.code?

/-- The shape of the row of a revision. -/
def Database.shape {V D : Type} (db : Database V D) (id : UUID) : Option Shape :=
  (db.find id).map TransformationRevision.shape

/-! ## Validation keeps shapes -/

section Validation

variable {V W : Type}

/-- The uses of a workflow are those of its operators. -/
theorem operators_map_use (revision : TransformationRevision V W) :
    revision.operators.map Operator.use = revision.shape.uses := by
  unfold TransformationRevision.operators TransformationRevision.shape Content.uses
  cases revision.content <;> rfl

/-- Filtering the ios of operators keeps the uses. -/
theorem map_use_filterUnnamed (content : WorkflowContent V) :
    content.filterUnnamedOperatorInputsAndOutputs.operators.map Operator.use =
      content.operators.map Operator.use := by
  rw [WorkflowContent.filterUnnamedOperatorInputsAndOutputs, List.map_map]
  rfl

variable [UnicodeData] [DecidableEq V]

omit [DecidableEq V] in
/-- Validation of a workflow content keeps the uses. -/
theorem validateWorkflowContent_uses {uuid4 : ℕ → UUID} {state : State}
    {data content : WorkflowContent V}
    (h : validateWorkflowContent uuid4 state data = .ok content) :
    content.operators.map Operator.use = data.operators.map Operator.use := by
  obtain ⟨accepted, haccepted, -, rfl⟩ :=
    TransformationRevision.validateWorkflowContent_eq_ok_iff.mp h
  rw [map_use_filterUnnamed, (WorkflowContent.accepted_of_validate haccepted).operators]
  exact renameOperators_map Operator.use (fun _ _ => rfl) data.operators

/-- Validation keeps the id and the shape. -/
theorem TransformationRevision.validate_shape {uuid4 : ℕ → UUID}
    {data revision : TransformationRevision V W} (h : data.validate uuid4 = .ok revision) :
    revision.id = data.id ∧ revision.shape = data.shape := by
  unfold validate validateWith at h
  simp only [require_bind_eq_ok] at h
  obtain ⟨-, -, -, -, -, h⟩ := h
  split at h
  · obtain rfl := return_eq_ok.mp h
    exact ⟨rfl, rfl⟩
  · rename_i contentData _ hcontent
    obtain ⟨content, hvalid, h⟩ := bind_eq_ok.mp h
    obtain rfl := return_eq_ok.mp h
    refine ⟨rfl, ?_⟩
    simp only [shape, Content.uses, Content.code?]
    rw [validateWorkflowContent_uses hvalid, hcontent]
  · cases h

omit [UnicodeData] in
/-- Assigning a content takes the uses and the code from it. -/
theorem TransformationRevision.assignContent_shape {content : Content V}
    {revision assigned : TransformationRevision V W}
    (h : revision.assignContent content = .ok assigned) :
    assigned.id = revision.id ∧
      assigned.shape = ⟨revision.type, revision.state, content.uses, content.code?⟩ := by
  unfold assignContent at h
  split at h
  · obtain rfl := return_eq_ok.mp h
    exact ⟨rfl, rfl⟩
  · obtain ⟨-, -, h⟩ := bind_eq_ok.mp h
    obtain rfl := return_eq_ok.mp h
    refine ⟨rfl, ?_⟩
    simp only [shape, Content.uses, Content.code?, map_use_filterUnnamed]
  · cases h

/-- Releasing sets the state. -/
theorem TransformationRevision.release_shape {uuid4 : ℕ → UUID} {now : Timestamp}
    {revision released : TransformationRevision V W}
    (h : revision.release uuid4 now = .ok released) :
    released.id = revision.id ∧ released.shape = { revision.shape with state := .released } := by
  unfold release at h
  obtain ⟨-, h⟩ := require_bind_eq_ok.mp h
  obtain ⟨-, -, h⟩ := bind_eq_ok.mp h
  obtain rfl := return_eq_ok.mp h
  exact ⟨rfl, rfl⟩

/-- Deprecating sets the state. -/
theorem TransformationRevision.deprecateRevision_shape {uuid4 : ℕ → UUID} {now : Timestamp}
    {revision deprecated : TransformationRevision V W}
    (h : revision.deprecateRevision uuid4 now = .ok deprecated) :
    deprecated.id = revision.id ∧
      deprecated.shape = { revision.shape with state := .disabled } := by
  unfold deprecateRevision at h
  obtain ⟨-, h⟩ := require_bind_eq_ok.mp h
  obtain ⟨-, -, h⟩ := bind_eq_ok.mp h
  obtain rfl := return_eq_ok.mp h
  exact ⟨rfl, rfl⟩

end Validation

section Store

variable [UnicodeData] {V D : Type} [DecidableEq V] {db db' : Database V D}

/-- A revision which is read has the shape of its row. -/
theorem Database.shape_of_select {uuid4 : ℕ → UUID} {id : UUID} {revision : Revision V D}
    (h : db.selectTrById uuid4 id = .ok revision) :
    revision.id = id ∧ db.shape id = some revision.shape := by
  obtain ⟨row, hrow, hvalid⟩ := selectTrById_eq_ok.mp h
  obtain ⟨hid, hshape⟩ := TransformationRevision.validate_shape hvalid
  refine ⟨hid.trans (find_eq_some hrow).2, ?_⟩
  rw [shape, hrow, Option.map_some, hshape]

omit [UnicodeData] [DecidableEq V] in
/-- The shapes after an insertion. -/
theorem Database.shape_addTr {revision : Revision V D} (h : db.addTr revision = .ok db') (id : UUID) :
    db'.shape id = if id = revision.id then some revision.shape else db.shape id := by
  rw [shape, (addTr_eq_ok h).2.2 id]
  split <;> rfl

omit [UnicodeData] [DecidableEq V] in
/-- The shapes after an update. -/
theorem Database.shape_updateTr {revision : Revision V D} (h : db.updateTr revision = .ok db')
    (id : UUID) :
    db'.shape id =
      if id = revision.id then (db.shape id).map fun _ => revision.shape else db.shape id := by
  rw [shape, (updateTr_eq_ok h).2 id]
  split
  · rw [shape, Option.map_map, Option.map_map]
    rfl
  · rfl

omit [UnicodeData] [DecidableEq V] in
/-- The shapes after a deletion. -/
theorem Database.shape_deleteTr {trId : UUID} (h : db.deleteTr trId = .ok db') (id : UUID) :
    db'.shape id = if id = trId then none else db.shape id := by
  rw [shape, (deleteTr_eq_ok h).2.2 id]
  split <;> rfl

omit [UnicodeData] [DecidableEq V] in
/-- Equal rows have equal shapes. -/
theorem Database.shape_congr (h : db'.revisions = db.revisions) : db'.shape = db.shape := by
  funext id
  rw [shape, find, h, shape, find]

end Store

end HetidaDesigner
