import HetidaDesigner.Backend.Execution
import HetidaDesigner.Store.Cycles

/-!
# Nested workflows without end

Without cycles of stored workflows the recursion which collects the nodes of a workflow ends. In
runs whose requests detect the cycles they would close there are no cycles. There are requests
that do not: four drafts, each of which is put into the one before.
-/

namespace HetidaDesigner

open Checks Database LastEntry Relation Runs

namespace Database

variable [UnicodeData] {V D : Type} [DecidableEq V]

/-- For every stored workflow the recursion through nested workflows ends, if it is given enough
levels: with a result or an error of the source. -/
def TraversalsEnd (text : TextTools V) (db : Database V D) : Prop :=
  ∀ uuid4 uuid4' id workflow trafos, db.selectTrById uuid4 id = .ok workflow →
    getAllNestedTransformationRevisions uuid4' db id = .ok trafos →
    ∃ enough, ∀ levels, enough ≤ levels →
      Ends (nestedNodes text (trafoById trafos) levels workflow)

end Database

section Traversal

variable [UnicodeData] {V D : Type} [DecidableEq V] {text : TextTools V} {db : Database V D}

/-- What a loaded content refers to is contained in the stored revision. -/
theorem contains_of_select {uuid4 : ℕ → UUID} {id : UUID} {revision : Revision V D}
    (h : db.selectTrById uuid4 id = .ok revision) {content : WorkflowContent V}
    (hcontent : requireWorkflow revision = .ok content) {operator : Operator V}
    (hoperator : operator ∈ content.operators) : db.Contains id operator.transformationId := by
  obtain ⟨-, hshape⟩ := Database.shape_of_select h
  have huses : revision.shape.uses = content.operators.map Operator.use := by
    unfold requireWorkflow at hcontent
    split at hcontent
    · cases hcontent
    · cases hcontent
    · rename_i hworkflow
      obtain rfl := Except.ok.inj hcontent
      rw [TransformationRevision.shape, hworkflow]
      rfl
  refine ⟨operator.use.ref, ?_, rfl⟩
  rw [Database.refs, Database.uses_of_shape hshape, huses, List.map_map]
  exact List.mem_map.mpr ⟨operator, hoperator, rfl⟩

/-- What is found among the nested revisions has been loaded under its id. -/
theorem select_of_trafoById {uuid4 : UUID → ℕ → UUID} {id : UUID} {trafos : List (Revision V D)}
    (h : getAllNestedTransformationRevisions uuid4 db id = .ok trafos) {nestedId : UUID}
    {revision : Revision V D} (hfound : trafoById trafos nestedId = some revision) :
    ∃ draws, db.selectTrById draws nestedId = .ok revision := by
  obtain ⟨hmem, rfl⟩ := mem_of_lastEntry hfound
  obtain ⟨descendant, -, hselect⟩ := exists_argument_of_mapM h hmem
  obtain ⟨hid, -⟩ := Database.shape_of_select hselect
  rw [← hid] at hselect
  exact ⟨_, hselect⟩

/-- The recursion ends on all contents whose operators refer to what a revision contains. -/
def EndsBelow (text : TextTools V) (db : Database V D) (nested : UUID → Option (Revision V D))
    (id : UUID) (enough : ℕ) : Prop :=
  ∀ levels, enough ≤ levels → ∀ content : WorkflowContent V,
    (∀ operator ∈ content.operators, db.Contains id operator.transformationId) →
    ∀ children, getDirectChildTrafosByOperatorId nested content = .ok children →
      Ends (collectChildNodes text nested levels content children)

omit [UnicodeData] [DecidableEq V] in
/-- Below finitely many revisions a common number of levels suffices. -/
theorem exists_common_levels {nested : UUID → Option (Revision V D)} {ids : List UUID}
    (h : ∀ id ∈ ids, ∃ enough, EndsBelow text db nested id enough) :
    ∃ enough, ∀ id ∈ ids, EndsBelow text db nested id enough := by
  induction ids with
  | nil => exact ⟨0, fun id hid => absurd hid List.not_mem_nil⟩
  | cons id rest ih =>
    rw [List.forall_mem_cons] at h
    obtain ⟨first, hfirst⟩ := h.1
    obtain ⟨second, hsecond⟩ := ih h.2
    refine ⟨max first second, List.forall_mem_cons.mpr ⟨?_, fun id' hid' => ?_⟩⟩
    · intro levels hlevels
      exact hfirst levels (by omega)
    · intro levels hlevels
      exact hsecond id' hid' levels (by omega)

omit [UnicodeData] [DecidableEq V] in
/-- The child under the id of an operator is loaded and contained in the revision. -/
theorem exists_child {nested : UUID → Option (Revision V D)} {content : WorkflowContent V}
    {children : List (UUID × Revision V D)}
    (h : getDirectChildTrafosByOperatorId nested content = .ok children)
    {operatorId : UUID} {child : UUID × Revision V D}
    (hchild : lastEntry Prod.fst children operatorId = some child) :
    ∃ operator ∈ content.operators, nested operator.transformationId = some child.2 := by
  obtain ⟨hmem, -⟩ := mem_of_lastEntry hchild
  obtain ⟨operator, hoperator, hok⟩ := exists_argument_of_mapM h hmem
  refine ⟨operator, hoperator, ?_⟩
  split at hok
  · rename_i revision hrevision
    rw [hrevision, ← Except.ok.inj hok]
  · cases hok

/-- Below every revision the recursion ends, by induction on containment. -/
theorem exists_endsBelow (hacyclic : db.Acyclic) {nested : UUID → Option (Revision V D)}
    (hnested : ∀ id revision, nested id = some revision →
      ∃ draws, db.selectTrById draws id = .ok revision) (id : UUID) :
    ∃ enough, EndsBelow text db nested id enough := by
  induction id using hacyclic.wellFounded.induction with
  | h id ih =>
    obtain ⟨enough, henough⟩ : ∃ enough, ∀ id' ∈ (db.refs id).map OperatorRef.transformationId,
        EndsBelow text db nested id' enough := by
      apply exists_common_levels
      intro id' hid'
      obtain ⟨ref, href, rfl⟩ := List.mem_map.mp hid'
      exact ih ref.transformationId ⟨ref, href, rfl⟩
    refine ⟨enough + 1, fun levels hlevels content hcontains children hchildren => ?_⟩
    obtain ⟨levels, rfl⟩ : ∃ fewer, levels = fewer + 1 := ⟨levels - 1, by omega⟩
    unfold collectChildNodes
    apply ends_mapM
    intro operator hoperator
    apply ends_bind (ends_liftM _)
    intro child hchild
    have hfound : ∃ entry, lastEntry Prod.fst children operator.id = some entry ∧
        entry.2 = child := by
      cases hentry : lastEntry Prod.fst children operator.id with
      | none =>
        rw [hentry] at hchild
        cases hchild
      | some entry =>
        rw [hentry] at hchild
        exact ⟨entry, rfl, Except.ok.inj (Option.some.inj hchild)⟩
    obtain ⟨entry, hentry, rfl⟩ := hfound
    obtain ⟨source, hsource, hchildNested⟩ := exists_child hchildren hentry
    cases operator.type with
    | component => exact ends_liftM _
    | workflow =>
      apply ends_bind (ends_liftM _)
      intro childContent hchildContent
      apply ends_bind (ends_liftM _)
      intro grandchildren hgrandchildren
      apply ends_bind (ends_liftM _)
      intro nestedRevision _
      refine ends_bind ?_ fun _ _ => ends_liftM _
      obtain ⟨draws, hselect⟩ := hnested _ _ hchildNested
      have hmem : source.transformationId ∈ (db.refs id).map OperatorRef.transformationId := by
        obtain ⟨ref, href, heq⟩ := hcontains source hsource
        exact List.mem_map.mpr ⟨ref, href, heq⟩
      apply henough _ hmem levels (by omega)
      · intro next hnext
        exact contains_of_select hselect (eq_ok_of_run_liftM hchildContent) hnext
      · exact eq_ok_of_run_liftM hgrandchildren

/-- Without cycles the recursion ends for every stored workflow. -/
theorem Database.Acyclic.traversalsEnd (hacyclic : db.Acyclic) : db.TraversalsEnd text := by
  intro uuid4 uuid4' id workflow trafos hworkflow htrafos
  obtain ⟨enough, henough⟩ : ∃ enough, EndsBelow text db (trafoById trafos) id enough :=
    exists_endsBelow hacyclic (fun id revision hfound => select_of_trafoById htrafos hfound) id
  refine ⟨enough, fun levels hlevels => ?_⟩
  unfold nestedNodes
  apply ends_bind (ends_liftM _)
  intro content hcontent
  apply ends_bind (ends_liftM _)
  intro children hchildren
  apply henough levels hlevels
  · intro operator hoperator
    exact contains_of_select hworkflow (eq_ok_of_run_liftM hcontent) hoperator
  · exact eq_ok_of_run_liftM hchildren

end Traversal

/-! ## Runs -/

section Runs

variable [UnicodeData] {V D : Type} [DecidableEq V] [DecidableEq D] {db db' : Database V D}
  {tools : CodeTools V D}

/-- What is kept along runs: there are no cycles, components have no operators, and nestings lead
to something else. -/
structure AcyclicInvariant (db : Database V D) : Prop where
  acyclic : db.Acyclic
  components : ComponentsPlain db
  nestings : NestingsSound db.nestings

omit [UnicodeData] [DecidableEq V] [DecidableEq D] in
/-- The empty store has nothing in it. -/
theorem AcyclicInvariant.empty : AcyclicInvariant (.empty : Database V D) where
  acyclic := acyclic_empty
  components id shape hshape := by cases hshape
  nestings nesting hmem := absurd hmem List.not_mem_nil

/-- A successful request which detects cycles keeps the invariant. -/
theorem AcyclicInvariant.step (h : AcyclicInvariant db) {request : Request V D}
    (hvalid : request.WellTyped) (hdetects : DetectsCycles db request)
    (hok : handle tools db request = .ok db') : AcyclicInvariant db' := by
  rcases saves_or_deletes hvalid hok with ⟨revision, hpayload, hsaves⟩ | ⟨id, hdeletes⟩
  · constructor
    · exact ExchangesRefs.acyclic hsaves.refs h.acyclic
        (hsaves.not_closesCycle hpayload hdetects)
    · exact h.components.save hsaves
    · exact h.nestings.save hsaves
  · exact ⟨hdeletes.acyclic h.acyclic, h.components.delete hdeletes, h.nestings.delete hdeletes⟩

/-- In every run whose requests detect the cycles they would close, no workflow contains itself
and the recursion through nested workflows ends. A further request which detects cycles and whose
write leaves one is rejected with the error for cycles, and one that succeeds leaves no cycle
only if it detects cycles. -/
theorem acyclic_of_run (text : TextTools V)
    (h : Reaches (handle tools) (fun db request => request.WellTyped ∧ DetectsCycles db request)
      .empty db) :
    db.Acyclic ∧ db.TraversalsEnd text ∧
      (∀ request mid written, request.WellTyped → DetectsCycles db request →
        request.write tools db = .ok (mid, written) →
        (∀ operator ∈ written.operators, ∃ row ∈ mid.revisions,
          row.id = operator.transformationId) →
        ¬ mid.Acyclic → handle tools db request = .error .nestingCycleDetected) ∧
      ∀ request db', request.WellTyped → handle tools db request = .ok db' →
        (db'.Acyclic ↔ DetectsCycles db request) := by
  have hinvariant : AcyclicInvariant db := by
    refine h.invariant .empty fun s request s' hs hallowed hok => ?_
    exact hs.step hallowed.1 hallowed.2 hok
  refine ⟨hinvariant.acyclic, hinvariant.acyclic.traversalsEnd, ?_, ?_⟩
  · intro request mid written hvalid hdetects hwrite hstored hcycle
    exact rejected_of_write hvalid hdetects hinvariant.acyclic hinvariant.components
      hinvariant.nestings hwrite hstored hcycle
  · intro request db' hvalid hok
    constructor
    · intro hacyclic revision hrevision hcloses
      obtain ⟨revision', hrevision', hsaves⟩ := saves_of_payload hvalid
        (Option.isSome_iff_exists.mpr ⟨revision, hrevision⟩) hok
      obtain rfl := Option.mem_unique hrevision hrevision'
      exact absurd hacyclic (ExchangesRefs.not_acyclic hsaves.refs hcloses)
    · intro hdetects
      exact (hinvariant.step hvalid hdetects hok).acyclic

end Runs

/-! ## A cycle of four drafts -/

/-- Four empty draft workflows, each of which is then put into the one before, and the first one
into the last. -/
def fourDrafts : List (Request ℤ Unit) := [
  plainPut (plainWorkflow 1 .draft []),
  plainPut (plainWorkflow 2 .draft []),
  plainPut (plainWorkflow 3 .draft []),
  plainPut (plainWorkflow 4 .draft []),
  plainPut (plainWorkflow 1 .draft [workflowOperator 11 2 .draft]),
  plainPut (plainWorkflow 2 .draft [workflowOperator 21 3 .draft]),
  plainPut (plainWorkflow 3 .draft [workflowOperator 31 4 .draft]),
  plainPut (plainWorkflow 4 .draft [workflowOperator 41 1 .draft])]

/-- All payloads are valid. -/
theorem fourDrafts_wellTyped : ∀ request ∈ fourDrafts, PlainWellTyped request := by
  simp only [fourDrafts, List.forall_mem_cons, List.not_mem_nil, false_imp_iff, implies_true,
    and_true]
  exact ⟨plainPut_wellTyped (by decide), plainPut_wellTyped (by decide),
    plainPut_wellTyped (by decide), plainPut_wellTyped (by decide),
    plainPut_wellTyped (by decide), plainPut_wellTyped (by decide),
    plainPut_wellTyped (by decide), plainPut_wellTyped (by decide)⟩

/-- All requests succeed, and the first workflow contains itself. -/
theorem fourDrafts_not_acyclic :
    ¬ ∀ db, Reaches plainHandle (fun _ request => PlainWellTyped request ∧
      request.payload.isSome) .empty db → db.Acyclic := by
  intro h
  obtain ⟨db, hdb, hfirst, hsecond, hthird, hfourth⟩ := exists_of_run plainHandle
    (fun _ request => request.payload.isSome) fourDrafts .empty
    (fun db => ⟨11, 2⟩ ∈ db.refs 1 ∧ ⟨21, 3⟩ ∈ db.refs 2 ∧ ⟨31, 4⟩ ∈ db.refs 3 ∧
      ⟨41, 1⟩ ∈ db.refs 4) (by decide +kernel)
  apply h db (Reaches.of_run fourDrafts_wellTyped hdb) 1
  calc TransGen db.Contains 1 2 := .single ⟨_, hfirst, rfl⟩
    TransGen db.Contains 2 3 := .single ⟨_, hsecond, rfl⟩
    TransGen db.Contains 3 4 := .single ⟨_, hthird, rfl⟩
    TransGen db.Contains 4 1 := .single ⟨_, hfourth, rfl⟩

/-- Workflows contain others with greater ids only. -/
def OrderedById (db : Database ℤ Unit) (request : Request ℤ Unit) : Prop :=
  (∀ row ∈ db.revisions, ∀ ref ∈ db.refs row.id, row.id < ref.transformationId) ∧
    ∀ revision ∈ request.payload, ∀ use ∈ savedUses db revision,
      revision.id < use.transformationId

instance (db : Database ℤ Unit) (request : Request ℤ Unit) : Decidable (OrderedById db request) :=
  inferInstanceAs (Decidable ((∀ _ ∈ db.revisions, _) ∧ ∀ _ ∈ request.payload, _))

/-- Then no cycle gets closed. -/
theorem OrderedById.detectsCycles {db : Database ℤ Unit} {request : Request ℤ Unit}
    (h : OrderedById db request) : DetectsCycles db request := by
  intro revision hrevision hcloses
  obtain ⟨use, huse, hreach⟩ := hcloses
  have hgrows (id id' : UUID) (hwalk : ReflTransGen db.Contains id id') : id ≤ id' := by
    induction hwalk with
    | refl => exact le_refl id
    | tail _ hlast ih =>
      obtain ⟨ref, href, rfl⟩ := hlast
      obtain ⟨row, hrow, rfl⟩ := exists_row_of_mem_refs href
      exact ih.trans (h.1 row hrow ref href).le
  have hless := h.2 revision hrevision use huse
  exact absurd (hgrows _ _ hreach) (not_le_of_gt hless)

/-- Three draft workflows, each but the last with the next one in it. -/
def threeDrafts : List (Request ℤ Unit) := [
  plainPut (plainWorkflow 3 .draft []),
  plainPut (plainWorkflow 2 .draft [workflowOperator 21 3 .draft]),
  plainPut (plainWorkflow 1 .draft [workflowOperator 11 2 .draft])]

/-- The last workflow with the first one in it. -/
def closingDraft : Revision ℤ Unit := plainWorkflow 3 .draft [workflowOperator 31 1 .draft]

/-- The three workflows are no cycle, and the put that would make them one is rejected. -/
theorem threeDrafts_acyclic :
    ∃ db, run plainHandle OrderedById threeDrafts .empty = some db ∧ db.Acyclic ∧
      plainHandle db (plainPut closingDraft) = .error .nestingCycleDetected := by
  obtain ⟨db, hdb, hnested, hancestor, huses, hwrite⟩ := exists_of_run plainHandle OrderedById
    threeDrafts .empty (fun db =>
      (⟨1, 2, 11, 1, 2, 11⟩ : Nesting) ∈ db.nestings ∧
      (⟨2, 3, 21, 1, 3, 21⟩ : Nesting) ∈ db.nestings ∧
      savedUses db closingDraft = [⟨31, 1, .workflow, .draft⟩] ∧
      ((@Request.write asciiOnly _ _ _ _ plainTools db (plainPut closingDraft)).toOption.any
        fun (mid, written) => decide ((∀ operator ∈ written.operators, ∃ row ∈ mid.revisions,
          row.id = operator.transformationId) ∧ ⟨11, 2⟩ ∈ mid.refs 1 ∧ ⟨21, 3⟩ ∈ mid.refs 2 ∧
          ⟨31, 1⟩ ∈ mid.refs 3)) = true) (by decide +kernel)
  have hwellTyped : ∀ request ∈ threeDrafts, PlainWellTyped request := by
    simp only [threeDrafts, List.forall_mem_cons, List.not_mem_nil, false_imp_iff, implies_true,
      and_true]
    exact ⟨plainPut_wellTyped (by decide), plainPut_wellTyped (by decide),
      plainPut_wellTyped (by decide)⟩
  have hreaches := (Reaches.of_run hwellTyped hdb).mono fun db request hallowed =>
    And.intro hallowed.1 hallowed.2.detectsCycles
  have hrun := @acyclic_of_run asciiOnly ℤ Unit _ _ db plainTools ⟨fun _ => [], fun _ => 0⟩ hreaches
  have hdetects : DetectsCycles db (plainPut closingDraft) := by
    intro revision hrevision _
    obtain rfl := Option.some.inj hrevision
    rw [huses]
    refine ⟨by decide, Or.inr (Or.inl ⟨_, List.mem_singleton_self _, _, hnested, ?_⟩)⟩
    exact ⟨⟨rfl, hnested, rfl⟩, _, hancestor, rfl, by decide, rfl⟩
  refine ⟨db, hdb, hrun.1, ?_⟩
  cases hmid : @Request.write asciiOnly _ _ _ _ plainTools db (plainPut closingDraft) with
  | error error =>
    rw [hmid] at hwrite
    cases hwrite
  | ok result =>
    obtain ⟨mid, written⟩ := result
    rw [hmid] at hwrite
    obtain ⟨hstored, hfirst, hsecond, hthird⟩ := of_decide_eq_true hwrite
    refine hrun.2.2.1 (plainPut closingDraft) mid written (plainPut_wellTyped (by decide)) hdetects
      hmid hstored fun hacyclic => ?_
    apply hacyclic 1
    calc TransGen mid.Contains 1 2 := .single ⟨_, hfirst, rfl⟩
      TransGen mid.Contains 2 3 := .single ⟨_, hsecond, rfl⟩
      TransGen mid.Contains 3 1 := .single ⟨_, hthird, rfl⟩

end HetidaDesigner
