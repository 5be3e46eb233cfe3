import HetidaDesigner.Store.Effects

/-!
# What follows a write

After a revision has been written, either the operators which contain it are marked as
deprecated or its nestings are generated again. Both are described in terms of shapes and
nestings, and with that the whole of each operation.
-/

namespace HetidaDesigner

open Checks Database

/-! ## Marks -/

/-- One of the nestings is in the workflow via the operator. -/
def Marked (nestings : List Nesting) (workflowId : UUID) (use : OperatorUse) : Prop :=
  ∃ nesting ∈ nestings, nesting.workflowId = workflowId ∧ nesting.viaOperatorId = use.operatorId

/-- The shape of a workflow after passing on along nestings. -/
noncomputable def markedShape (nestings : List Nesting) (workflowId : UUID) (shape : Shape) :
    Shape :=
  { shape with uses := shape.uses.map fun use => use.mark (Marked nestings workflowId use) }

/-- Whether an operator gets marked does not depend on its marks. -/
theorem marked_mark (nestings : List Nesting) (workflowId : UUID) (use : OperatorUse) (p : Prop) :
    Marked nestings workflowId (use.mark p) ↔ Marked nestings workflowId use := by
  simp only [Marked, OperatorUse.mark_operatorId]

/-- Without nestings in a workflow nothing is marked in it. -/
theorem markedShape_eq_self {nestings : List Nesting} {workflowId : UUID}
    (h : ∀ nesting ∈ nestings, nesting.workflowId ≠ workflowId) (shape : Shape) :
    markedShape nestings workflowId shape = shape := by
  have huses : (shape.uses.map fun use => use.mark (Marked nestings workflowId use)) =
      shape.uses := by
    refine (List.map_congr_left fun use _ => ?_).trans (List.map_id _)
    refine OperatorUse.mark_of_not ?_
    rintro ⟨nesting, hmem, hworkflow, -⟩
    exact h nesting hmem hworkflow
  rw [markedShape, huses]

/-- Marks along several nestings add up. -/
theorem markedShape_cons (nesting : Nesting) (rest : List Nesting) (workflowId : UUID)
    (shape : Shape) :
    markedShape rest workflowId (markedShape [nesting] workflowId shape) =
      markedShape (nesting :: rest) workflowId shape := by
  simp only [markedShape, List.map_map]
  congr 1
  refine List.map_congr_left fun use _ => ?_
  simp only [Function.comp_apply, marked_mark, OperatorUse.mark_mark]
  congr 1
  simp [Marked]

section Pass

variable [UnicodeData] {V D : Type} [DecidableEq V] {db db' : Database V D}
  {surroundings : Surroundings}

omit [UnicodeData] [DecidableEq V] in
/-- Marking an operator of a workflow marks its use. -/
theorem markDisabled_use (operatorId : UUID) (operator : Operator V) :
    (markDisabled operatorId operator).use = operator.use.mark (operator.id = operatorId) := by
  unfold markDisabled OperatorUse.mark
  split <;> rfl

/-- Passing on along one nesting marks in its workflow only. -/
theorem passOnAlong_shape {nesting : Nesting × ℕ}
    (h : passOnAlong surroundings db nesting = .ok db') :
    db'.nestings = db.nestings ∧
      ∀ id, db'.shape id = (db.shape id).map (markedShape [nesting.1] id) := by
  unfold passOnAlong at h
  obtain ⟨revision, hselect, h⟩ := bind_eq_ok.mp h
  obtain ⟨hid, hsome⟩ := Database.shape_of_select hselect
  split at h
  · cases h
  · rename_i content hcontent
    refine ⟨(updateTr_eq_ok h).1, fun id => ?_⟩
    rw [Database.shape_updateTr h]
    simp only
    split
    · rename_i hsame
      obtain rfl := hsame.trans hid
      rw [hsome, Option.map_some, Option.map_some, Option.some_inj]
      have huses : revision.shape.uses = content.operators.map Operator.use := by
        rw [TransformationRevision.shape, hcontent]
        rfl
      have hcode : revision.shape.code = none := by
        rw [TransformationRevision.shape, hcontent]
        rfl
      rw [markedShape, hcode, huses]
      simp only [TransformationRevision.shape, Content.uses, Content.code?, List.map_map]
      congr 1
      refine List.map_congr_left fun operator _ => ?_
      rw [Function.comp_apply, Function.comp_apply, markDisabled_use]
      congr 1
      simp [Marked, Operator.use, eq_comm]
    · rename_i hother
      have hne : nesting.1.workflowId ≠ id := fun heq => hother (heq.symm.trans hid.symm)
      cases db.shape id with
      | none => rfl
      | some shape => rw [Option.map_some, markedShape_eq_self (by simpa using hne)]

/-- Passing on a deprecation marks the operators via which a workflow contains the revision. -/
theorem passOnDeprecation_shape {id : UUID} (h : passOnDeprecation surroundings db id = .ok db') :
    db'.nestings = db.nestings ∧
      ∀ other, db'.shape other =
        (db.shape other).map (markedShape (db.findAllNestings id) other) := by
  have hloop (nestings : List (Nesting × ℕ)) (db : Database V D)
      (h : nestings.foldlM (passOnAlong surroundings) db = .ok db') :
      db'.nestings = db.nestings ∧ ∀ other, db'.shape other =
        (db.shape other).map (markedShape (nestings.map Prod.fst) other) := by
    induction nestings generalizing db with
    | nil =>
      obtain rfl := Except.ok.inj h
      refine ⟨rfl, fun other => ?_⟩
      cases db.shape other with
      | none => rfl
      | some shape => rw [Option.map_some, markedShape_eq_self (by simp)]
    | cons nesting rest ih =>
      rw [List.foldlM_cons, bind_eq_ok] at h
      obtain ⟨mid, hmid, hrest⟩ := h
      obtain ⟨hnestings, hshapes⟩ := passOnAlong_shape hmid
      obtain ⟨hnestings', hshapes'⟩ := ih mid hrest
      refine ⟨hnestings'.trans hnestings, fun other => ?_⟩
      rw [hshapes', hshapes, Option.map_map, List.map_cons]
      congr 1
      funext shape
      exact markedShape_cons nesting.1 (rest.map Prod.fst) other shape
  have hall := hloop _ db h
  rwa [List.zipIdx_map_fst] at hall

end Pass

/-! ## Nestings -/

/-- The nesting of a use in its workflow. -/
def OperatorUse.directNesting (workflowId : UUID) (use : OperatorUse) : Nesting where
  workflowId := workflowId
  viaTransformationId := use.transformationId
  viaOperatorId := use.operatorId
  depth := 1
  nestedTransformationId := use.transformationId
  nestedOperatorId := use.operatorId

/-- The nesting which a use contributes for a nesting in the workflow it refers to. -/
def OperatorUse.deepNesting (workflowId : UUID) (use : OperatorUse) (descendant : Nesting) :
    Nesting where
  workflowId := workflowId
  viaTransformationId := use.transformationId
  viaOperatorId := use.operatorId
  depth := 1 + descendant.depth
  nestedTransformationId := descendant.nestedTransformationId
  nestedOperatorId := descendant.nestedOperatorId

/-- A nesting in the workflow which a use refers to, if it is looked at as one. -/
def OperatorUse.Descendant (nestings : List Nesting) (use : OperatorUse) (nesting : Nesting) :
    Prop :=
  use.type = .workflow ∧ nesting ∈ nestings ∧ nesting.workflowId = use.transformationId

/-- A nesting which is generated for a workflow with some uses. -/
def Generated (nestings : List Nesting) (workflowId : UUID) (uses : List OperatorUse)
    (nesting : Nesting) : Prop :=
  ∃ use ∈ uses, nesting = use.directNesting workflowId ∨
    ∃ descendant, use.Descendant nestings descendant ∧
      nesting = use.deepNesting workflowId descendant

/-- The nestings of a workflow have been generated again from its uses. -/
structure Rebuilt (before after : List Nesting) (workflowId : UUID) (uses : List OperatorUse) :
    Prop where
  no_self : ∀ use ∈ uses, use.transformationId ≠ workflowId
  others : ∀ nesting : Nesting, nesting.workflowId ≠ workflowId →
    (nesting ∈ after ↔ nesting ∈ before)
  generated : ∀ nesting ∈ after, nesting.workflowId = workflowId →
    Generated before workflowId uses nesting
  keys : ∀ nesting, Generated before workflowId uses nesting →
    ∃ other ∈ after, other.key = nesting.key
  no_cycle : ∀ ancestor ∈ after, ancestor.nestedTransformationId = workflowId →
    ancestor.workflowId ≠ workflowId ∧ ∀ use ∈ uses, ∀ descendant,
      use.Descendant before descendant → descendant.nestedTransformationId ≠ ancestor.workflowId

section Rebuild

variable {V D : Type} {db db' : Database V D}

/-- The nestings below an operator in terms of its use. -/
theorem mem_descendants {child : Operator V} {nesting : Nesting} :
    nesting ∈ db.descendants child ↔ child.use.Descendant db.nestings nesting := by
  have htype : child.use.type = child.type := rfl
  unfold descendants OperatorUse.Descendant
  rw [htype]
  cases child.type with
  | component => simp
  | workflow =>
    rw [mem_findAllNestedTransformationRevisions]
    simp [Operator.use]

/-- The generated nestings in terms of the uses. -/
theorem mem_generatedNestings {workflowId : UUID} {operators : List (Operator V)}
    {nesting : Nesting} : nesting ∈ db.generatedNestings workflowId operators ↔
      Generated db.nestings workflowId (operators.map Operator.use) nesting := by
  simp only [generatedNestings, List.mem_flatMap, childNestings, List.mem_cons, List.mem_map,
    mem_descendants]
  constructor
  · rintro ⟨child, hchild, rfl | ⟨descendant, hdesc, rfl⟩⟩
    · exact ⟨child.use, List.mem_map_of_mem hchild, Or.inl rfl⟩
    · exact ⟨child.use, List.mem_map_of_mem hchild, Or.inr ⟨descendant, hdesc, rfl⟩⟩
  · rintro ⟨use, huse, hnesting⟩
    obtain ⟨child, hchild, rfl⟩ := List.mem_map.mp huse
    refine ⟨child, hchild, hnesting.imp id ?_⟩
    rintro ⟨descendant, hdesc, rfl⟩
    exact ⟨descendant, hdesc, rfl⟩

/-- A successful update of nestings in terms of the uses. -/
theorem rebuilt_of_updateNesting {workflowId : UUID} {operators : List (Operator V)}
    (h : db.updateNesting workflowId operators = .ok db') :
    db'.revisions = db.revisions ∧
      Rebuilt db.nestings db'.nestings workflowId (operators.map Operator.use) := by
  have hupdated := updateNesting_eq_ok h
  refine ⟨hupdated.revisions, ?_, hupdated.others, fun nesting hmem hworkflow => ?_,
    fun nesting hgenerated => ?_, fun ancestor hmem hnested => ?_⟩
  · intro use huse
    obtain ⟨child, hchild, rfl⟩ := List.mem_map.mp huse
    exact hupdated.no_self child hchild
  · exact mem_generatedNestings.mp (hupdated.generated nesting hmem hworkflow)
  · exact hupdated.keys nesting (mem_generatedNestings.mpr hgenerated)
  · have hnot := hupdated.no_cycle ancestor hmem hnested
    refine ⟨fun heq => hnot (heq ▸ List.mem_cons_self ..), fun use huse descendant hdesc heq => ?_⟩
    obtain ⟨child, hchild, rfl⟩ := List.mem_map.mp huse
    refine hnot (List.mem_cons_of_mem _ (List.mem_flatMap.mpr ⟨child, hchild, ?_⟩))
    exact List.mem_map.mpr ⟨descendant, mem_descendants.mpr hdesc, heq⟩

end Rebuild

end HetidaDesigner
