import HetidaDesigner.Store.Requests
import HetidaDesigner.Validation.Sources

/-!
# What stored workflows contain

The stored contents form a graph: workflows contain operators, which refer to revisions. A save
exchanges the operators of one revision, a deletion removes them, and everything else which
follows a request leaves this graph alone.
-/

namespace HetidaDesigner

/-- An operator with what it refers to. -/
@[ext] structure OperatorRef where
  operatorId : UUID
  transformationId : UUID
  deriving DecidableEq, Repr

/-- A use without type and state. -/
def OperatorUse.ref (use : OperatorUse) : OperatorRef := ⟨use.operatorId, use.transformationId⟩

namespace Database

variable {V D : Type}

/-- The uses in the stored content of a revision. -/
def uses (db : Database V D) (id : UUID) : List OperatorUse :=
  ((db.shape id).map Shape.uses).getD []

/-- The operators in the stored content of a revision. -/
def refs (db : Database V D) (id : UUID) : List OperatorRef := (db.uses id).map OperatorUse.ref

/-- A stored revision has an operator which refers to another one. -/
def Contains (db : Database V D) (id id' : UUID) : Prop :=
  ∃ ref ∈ db.refs id, ref.transformationId = id'

end Database

section Saved

variable {V D : Type}

/-- The uses which a request saves for a revision, up to marks. -/
def savedUses (db : Database V D) (revision : Revision V D) : List OperatorUse :=
  (contentSource (db.shape revision.id) revision.shape).uses

/-- The ids of the saved operators are distinct and do not occur in other workflows. -/
def SavesUniqueOperatorIds (db : Database V D) (request : Request V D) : Prop :=
  ∀ revision ∈ request.payload,
    ((savedUses db revision).map OperatorUse.operatorId).Nodup ∧
      ∀ row ∈ db.revisions, row.id ≠ revision.id → ∀ ref ∈ db.refs row.id,
        ∀ use ∈ savedUses db revision, use.operatorId ≠ ref.operatorId

/-- Some other stored workflow has an operator which refers to the revision. -/
def UsedElsewhere (db : Database V D) (id : UUID) : Prop :=
  ∃ row ∈ db.revisions, row.id ≠ id ∧ ∃ ref ∈ db.refs row.id, ref.transformationId = id

instance (db : Database V D) (request : Request V D) :
    Decidable (SavesUniqueOperatorIds db request) :=
  inferInstanceAs (Decidable (∀ _ ∈ request.payload, _))

instance (db : Database V D) (id : UUID) : Decidable (UsedElsewhere db id) :=
  inferInstanceAs (Decidable (∃ _ ∈ db.revisions, _))

end Saved

/-! ## The graph after a request -/

section Graph

variable {V D : Type} {db db' : Database V D} {id : UUID}

/-- Marks do not change what an operator refers to. -/
@[simp] theorem OperatorUse.mark_ref (use : OperatorUse) (p : Prop) :
    (use.mark p).ref = use.ref := by
  rw [ref, mark_operatorId, mark_transformationId, ref]

/-- A revision which contains operators has a row. -/
theorem Database.exists_row_of_mem_refs {ref : OperatorRef} (h : ref ∈ db.refs id) :
    ∃ row ∈ db.revisions, row.id = id := by
  unfold refs uses shape at h
  cases hrow : db.find id with
  | none => simp [hrow] at h
  | some row => exact ⟨row, find_eq_some hrow⟩

/-- The uses of a revision are those of its shape. -/
theorem Database.uses_of_shape {shape : Shape} (h : db.shape id = some shape) :
    db.uses id = shape.uses := by
  rw [uses, h]
  rfl

/-- What is saved refers to the same as what is meant to be saved. -/
theorem SavedAs.map_ref {revision : Revision V D} {allow : Bool} {saved : Shape}
    (h : SavedAs db.shape allow revision.id revision.shape saved) :
    saved.uses.map OperatorUse.ref = (savedUses db revision).map OperatorUse.ref := by
  rw [h.uses, List.map_map, savedUses]
  exact List.map_congr_left fun use _ => OperatorUse.mark_ref use _

/-- The empty store has no revisions. -/
@[simp] theorem Database.shape_empty (id : UUID) : (Database.empty : Database V D).shape id = none :=
  rfl

/-- The empty store has no operators. -/
@[simp] theorem Database.refs_empty (id : UUID) : (Database.empty : Database V D).refs id = [] :=
  rfl

/-- After a save the shapes are the old ones and the saved one, up to marks. -/
theorem Propagated.exists_shape {deprecates : Prop} {saved : Shape}
    (h : Propagated db db' deprecates id saved) {other : UUID} {shape' : Shape}
    (hshape : db'.shape other = some shape') :
    ∃ shape, (if other = id then some saved else db.shape other) = some shape ∧
      shape'.type = shape.type ∧ shape'.state = shape.state ∧ shape'.code = shape.code ∧
      shape'.uses.map OperatorUse.ref = shape.uses.map OperatorUse.ref := by
  cases h with
  | marked _ _ hshapes =>
    rw [hshapes] at hshape
    obtain ⟨shape, hsome, rfl⟩ := Option.map_eq_some_iff.mp hshape
    refine ⟨shape, hsome, rfl, rfl, rfl, ?_⟩
    rw [markedShape, List.map_map]
    exact List.map_congr_left fun use _ => OperatorUse.mark_ref use _
  | rebuilt _ _ hshapes | kept _ _ _ hshapes =>
    rw [hshapes] at hshape
    exact ⟨shape', hshape, rfl, rfl, rfl, rfl⟩

/-- After a save every shape is still there, up to marks. -/
theorem Propagated.exists_shape' {deprecates : Prop} {saved : Shape}
    (h : Propagated db db' deprecates id saved) {other : UUID} {shape : Shape}
    (hshape : (if other = id then some saved else db.shape other) = some shape) :
    ∃ shape', db'.shape other = some shape' ∧
      shape'.type = shape.type ∧ shape'.state = shape.state ∧ shape'.code = shape.code := by
  cases h with
  | marked _ _ hshapes =>
    refine ⟨markedShape (db.findAllNestings id) other shape, ?_, rfl, rfl, rfl⟩
    rw [hshapes, hshape, Option.map_some]
  | rebuilt _ _ hshapes | kept _ _ _ hshapes =>
    exact ⟨shape, (hshapes other).trans hshape, rfl, rfl, rfl⟩

/-- After a save the operators of one revision are the saved ones. -/
theorem Propagated.refs {deprecates : Prop} {saved : Shape}
    (h : Propagated db db' deprecates id saved) (other : UUID) :
    db'.refs other = if other = id then saved.uses.map OperatorUse.ref else db.refs other := by
  have hsome (shape' : Shape) (hshape : db'.shape other = some shape') :
      db'.refs other = if other = id then saved.uses.map OperatorUse.ref else db.refs other := by
    obtain ⟨shape, hshape', -, -, -, hrefs⟩ := h.exists_shape hshape
    rw [Database.refs, Database.uses_of_shape hshape, hrefs]
    split at hshape'
    · rw [if_pos (by assumption), ← Option.some.inj hshape']
    · rw [if_neg (by assumption), Database.refs, Database.uses_of_shape hshape']
  cases hshape : db'.shape other with
  | some shape' => exact hsome shape' hshape
  | none =>
    cases hold : (if other = id then some saved else db.shape other) with
    | some shape =>
      obtain ⟨shape', hshape', -⟩ := h.exists_shape' hold
      exact absurd (hshape.symm.trans hshape') (by simp)
    | none =>
      split at hold
      · cases hold
      · rw [if_neg (by assumption), Database.refs, Database.refs, Database.uses, Database.uses,
          hshape, hold]

/-- After a save the operators of one revision are those meant to be saved. -/
theorem Saves.refs {request : Request V D} {revision : Revision V D}
    (h : Saves db db' request revision) (other : UUID) :
    db'.refs other =
      if other = revision.id then (savedUses db revision).map OperatorUse.ref
      else db.refs other := by
  obtain ⟨saved, hsaved, -, hpropagated⟩ := h
  rw [hpropagated.refs, hsaved.map_ref]

/-- The operators of one revision are exchanged for those meant to be saved. -/
def ExchangesRefs (db db' : Database V D) (revision : Revision V D) : Prop :=
  ∀ other, db'.refs other =
    if other = revision.id then (savedUses db revision).map OperatorUse.ref else db.refs other

/-- Containment elsewhere does not change. -/
theorem ExchangesRefs.contains_iff {revision : Revision V D} (h : ExchangesRefs db db' revision)
    (id id' : UUID) (hid : id ≠ revision.id) : db'.Contains id id' ↔ db.Contains id id' := by
  unfold Database.Contains
  rw [h id, if_neg hid]

/-- What the revision contains are the saved operators. -/
theorem ExchangesRefs.contains_self {revision : Revision V D} (h : ExchangesRefs db db' revision)
    {id : UUID} :
    db'.Contains revision.id id ↔ ∃ use ∈ savedUses db revision, use.transformationId = id := by
  unfold Database.Contains
  rw [h revision.id, if_pos rfl]
  constructor
  · rintro ⟨ref, href, hid⟩
    obtain ⟨use, huse, rfl⟩ := List.mem_map.mp href
    exact ⟨use, huse, hid⟩
  · rintro ⟨use, huse, hid⟩
    exact ⟨use.ref, List.mem_map_of_mem huse, hid⟩

/-- Containment elsewhere does not change with a save. -/
theorem Saves.contains_iff {request : Request V D} {revision : Revision V D}
    (h : Saves db db' request revision) (id id' : UUID)
    (hid : id ≠ revision.id) : db'.Contains id id' ↔ db.Contains id id' :=
  ExchangesRefs.contains_iff h.refs id id' hid

/-- What the saved revision contains are the saved operators. -/
theorem Saves.contains_self {request : Request V D} {revision : Revision V D}
    (h : Saves db db' request revision) {id : UUID} :
    db'.Contains revision.id id ↔ ∃ use ∈ savedUses db revision, use.transformationId = id :=
  ExchangesRefs.contains_self h.refs

/-- After a deletion the operators of one revision are gone. -/
theorem Deletes.refs (h : Deletes db db' id) (other : UUID) :
    db'.refs other = if other = id then [] else db.refs other := by
  unfold Database.refs Database.uses
  rw [h.shapes]
  split <;> rfl

/-- Stored components have no operators. -/
def ComponentsPlain (db : Database V D) : Prop :=
  ∀ id shape, db.shape id = some shape → shape.type = .component → shape.uses = []

/-- Saved components have no operators. -/
theorem ComponentsPlain.save {request : Request V D} {revision : Revision V D}
    (h : ComponentsPlain db) (hsaves : Saves db db' request revision) : ComponentsPlain db' := by
  obtain ⟨saved, -, hcomponent, hpropagated⟩ := hsaves
  intro other shape' hshape' htype
  obtain ⟨shape, hshape, htype', -, -, hrefs⟩ := hpropagated.exists_shape hshape'
  rw [htype'] at htype
  have hnil : shape.uses = [] := by
    split at hshape
    · obtain rfl := Option.some.inj hshape
      exact hcomponent htype
    · exact h other shape hshape htype
  rw [hnil] at hrefs
  exact List.map_eq_nil_iff.mp hrefs

/-- A deletion adds no operators. -/
theorem ComponentsPlain.delete (h : ComponentsPlain db) (hdeletes : Deletes db db' id) :
    ComponentsPlain db' := by
  intro other shape hshape
  rw [hdeletes.shapes] at hshape
  split at hshape
  · cases hshape
  · exact h other shape hshape

/-- Two operators with the same id are the same, in the same workflow. -/
def OperatorIdsUnique (db : Database V D) : Prop :=
  ∀ id id' ref ref', ref ∈ db.refs id → ref' ∈ db.refs id' → ref.operatorId = ref'.operatorId →
    id = id' ∧ ref = ref'

/-- Operator ids stay unique if the saved ones are. -/
theorem OperatorIdsUnique.save {revision : Revision V D} {request : Request V D}
    (h : OperatorIdsUnique db) (hpayload : revision ∈ request.payload)
    (hrequest : SavesUniqueOperatorIds db request) (hsaves : Saves db db' request revision) :
    OperatorIdsUnique db' := by
  obtain ⟨hnodup, hnew⟩ := hrequest revision hpayload
  have hfresh : ∀ other ref use, other ≠ revision.id → ref ∈ db.refs other →
      use ∈ savedUses db revision → use.operatorId ≠ ref.operatorId := by
    intro other ref use hother href huse
    obtain ⟨row, hrow, rfl⟩ := Database.exists_row_of_mem_refs href
    exact hnew row hrow hother ref href use huse
  intro id id' ref ref' href href' heq
  rw [hsaves.refs] at href href'
  split at href <;> split at href'
  · rename_i hid hid'
    obtain ⟨use, huse, rfl⟩ := List.mem_map.mp href
    obtain ⟨use', huse', rfl⟩ := List.mem_map.mp href'
    exact ⟨hid.trans hid'.symm, congrArg _ (List.inj_on_of_nodup_map hnodup huse huse' heq)⟩
  · rename_i hid'
    obtain ⟨use, huse, rfl⟩ := List.mem_map.mp href
    exact absurd heq (hfresh id' ref' use hid' href' huse)
  · rename_i hid _
    obtain ⟨use, huse, rfl⟩ := List.mem_map.mp href'
    exact absurd heq.symm (hfresh id ref use hid href huse)
  · exact h id id' ref ref' href href' heq

/-- Operator ids stay unique after a deletion. -/
theorem OperatorIdsUnique.delete (h : OperatorIdsUnique db) (hdeletes : Deletes db db' id) :
    OperatorIdsUnique db' := by
  have hsub : ∀ other ref, ref ∈ db'.refs other → ref ∈ db.refs other := by
    intro other ref href
    rw [hdeletes.refs] at href
    split at href
    · simp at href
    · exact href
  intro other other' ref ref' href href' heq
  exact h other other' ref ref' (hsub _ _ href) (hsub _ _ href') heq

end Graph

/-! ## Plain requests -/

/-- Tools for runs in which no code is looked at. -/
def plainTools : CodeTools ℤ Unit where
  parse := fun _ => some []
  numerals := ⟨fun _ => none, fun _ => false⟩
  black := some
  updateModuleLevelVariable := fun code _ _ => some code
  componentInfoDefaultValue := fun _ => .ok []
  functionSignatureDefaultValue := fun _ => .ok []
  isoformat := fun _ => []
  uuidStr := fun _ => []

/-- The handler with plain tools, and with word characters in ASCII only. -/
abbrev plainHandle : Database ℤ Unit → Request ℤ Unit → Except StoreError (Database ℤ Unit) :=
  @handle asciiOnly ℤ Unit _ _ plainTools

/-- A request whose payload is valid where only ASCII characters are word characters. -/
abbrev PlainWellTyped : Request ℤ Unit → Prop := @Request.WellTyped asciiOnly ℤ Unit _

/-- A workflow without ios of its own. -/
def plainWorkflow (id : UUID) (state : State) (operators : List (Operator ℤ)) :
    Revision ℤ Unit where
  id := id
  revisionGroupId := id
  name := ['W']
  description := []
  category := ['C']
  versionTag := ['1']
  disabledTimestamp := if state = .disabled then some 2 else none
  releasedTimestamp := if state = .draft then none else some 1
  state := state
  type := .workflow
  ioInterface := ⟨[], []⟩
  documentation := []
  content := .workflow ⟨operators, [], [], [], []⟩
  testWiring := .empty
  releaseWiring := none

/-- A component without ios. -/
def plainComponent (id : UUID) (state : State) (text : PyStr) : Revision ℤ Unit :=
  { plainWorkflow id state [] with type := .component, content := .code text }

/-- A workflow operator without ios. -/
def workflowOperator (id transformationId : UUID) (state : State) : Operator ℤ :=
  { plainOperator id 'A' [] [] with
    name := if state = .draft then draftPrefix ++ ['A'] else ['A']
    type := .workflow
    state := state
    transformationId := transformationId }

/-- A put with default options. -/
def plainPut (payload : Revision ℤ Unit) : Request ℤ Unit :=
  .put ⟨fun _ => uuid4Above 1000, 3⟩ .default payload

/-- A put which stores code as it is sent. -/
def putAsSent (payload : Revision ℤ Unit) : Request ℤ Unit :=
  .put ⟨fun _ => uuid4Above 1000, 3⟩ ⟨false, false, false, .none⟩ payload

/-- A payload which validation returns unchanged makes a put well typed. -/
theorem plainPut_wellTyped {payload : Revision ℤ Unit}
    (h : @TransformationRevision.validate ℤ (WorkflowWiring Unit) asciiOnly _ (uuid4Above 1000)
      payload = .ok payload) : PlainWellTyped (plainPut payload) := by
  intro revision hrevision
  obtain rfl := Option.some.inj hrevision
  exact ⟨.all, _, _, h⟩

end HetidaDesigner
