import HetidaDesigner.Library.EdgeList
import HetidaDesigner.Library.NestedPaths
import HetidaDesigner.Store.Containment

/-!
# Cycles of workflows

No stored workflow should contain itself, on any level. The update of nestings looks for cycles
in the table of nestings; a cycle that closes over nestings which have gone stale, or with a save
that deprecates, is not seen. What is seen makes the request fail.
-/

namespace HetidaDesigner

open Checks Database NestedPaths Relation Runs

namespace Database

variable {V D : Type}

/-- No revision contains itself, on any level. -/
def Acyclic (db : Database V D) : Prop := ∀ id, ¬ TransGen db.Contains id id

/-- The edges of the containment graph, from what is contained to what contains it. -/
def containedIn (db : Database V D) : List (UUID × UUID) :=
  db.revisions.flatMap fun row => (db.refs row.id).map fun ref => (ref.transformationId, row.id)

/-- The edges are those of the containment. -/
theorem adj_containedIn (db : Database V D) (id id' : UUID) :
    EdgeList.Adj db.containedIn id' id ↔ db.Contains id id' := by
  unfold EdgeList.Adj containedIn Contains
  rw [List.mem_flatMap]
  constructor
  · rintro ⟨row, -, hedge⟩
    obtain ⟨ref, href, heq⟩ := List.mem_map.mp hedge
    obtain ⟨rfl, rfl⟩ := Prod.mk.inj heq
    exact ⟨ref, href, rfl⟩
  · rintro ⟨ref, href, rfl⟩
    obtain ⟨row, hrow, rfl⟩ := exists_row_of_mem_refs href
    exact ⟨row, hrow, List.mem_map_of_mem href⟩

/-- Without cycles one can go on to what is contained only finitely often. -/
theorem Acyclic.wellFounded {db : Database V D} (h : db.Acyclic) :
    WellFounded fun id' id => db.Contains id id' := by
  have hadj : EdgeList.Adj db.containedIn = fun id' id => db.Contains id id' := by
    funext id' id
    exact propext (db.adj_containedIn id id')
  have hacyclic : EdgeList.Acyclic db.containedIn := by
    intro id hcycle
    rw [hadj] at hcycle
    exact h id (transGen_swap.mp hcycle)
  have hwell := hacyclic.wellFounded
  rw [hadj] at hwell
  have hsingle : Subrelation (fun id' id => db.Contains id id')
      (TransGen fun id' id => db.Contains id id') := fun hstep => .single hstep
  exact hsingle.wf hwell

end Database

section Conditions

variable {V D : Type}

/-- The save makes the revision contain something that contains it, on any level. -/
def ClosesCycle (db : Database V D) (revision : Revision V D) : Prop :=
  ∃ use ∈ savedUses db revision, ReflTransGen db.Contains use.transformationId revision.id

/-- The nestings show that a workflow with some uses contains itself: one of the uses refers to
it, something nested in a use contains it, or its own nestings will lead back to it. -/
def CycleDetectable (nestings : List Nesting) (workflowId : UUID) (uses : List OperatorUse) :
    Prop :=
  (∃ use ∈ uses, use.transformationId = workflowId) ∨
    (∃ use ∈ uses, ∃ descendant ∈ nestings, use.Descendant nestings descendant ∧
      ∃ ancestor ∈ nestings, ancestor.nestedTransformationId = workflowId ∧
        ancestor.workflowId ≠ workflowId ∧
        descendant.nestedTransformationId = ancestor.workflowId) ∨
    ∃ nesting, Generated nestings workflowId uses nesting ∧
      ∀ other, Generated nestings workflowId uses other → other.key = nesting.key →
        other.nestedTransformationId = workflowId

/-- If a save closes a cycle, it does not deprecate, and the nestings show the cycle. -/
def DetectsCycles (db : Database V D) (request : Request V D) : Prop :=
  ∀ revision ∈ request.payload, ClosesCycle db revision →
    ¬request.Deprecates ∧ CycleDetectable db.nestings revision.id (savedUses db revision)

end Conditions

/-! ## Uses with marks -/

section Marks

variable {nestings : List Nesting} {workflowId : UUID} {uses : List OperatorUse}

/-- Marks do not matter for what is generated. -/
theorem generated_map_mark (p : OperatorUse → Prop) {nesting : Nesting} :
    Generated nestings workflowId (uses.map fun use => use.mark (p use)) nesting ↔
      Generated nestings workflowId uses nesting := by
  have hdirect (use : OperatorUse) : (use.mark (p use)).directNesting workflowId =
      use.directNesting workflowId := by
    simp [OperatorUse.directNesting]
  have hdeep (use : OperatorUse) (descendant : Nesting) :
      (use.mark (p use)).deepNesting workflowId descendant =
        use.deepNesting workflowId descendant := by
    simp [OperatorUse.deepNesting]
  unfold Generated OperatorUse.Descendant
  constructor
  · rintro ⟨use', huse', hnesting⟩
    obtain ⟨use, huse, rfl⟩ := List.mem_map.mp huse'
    rw [hdirect, OperatorUse.mark_type, OperatorUse.mark_transformationId] at hnesting
    simp only [hdeep] at hnesting
    exact ⟨use, huse, hnesting⟩
  · rintro ⟨use, huse, hnesting⟩
    refine ⟨use.mark (p use), List.mem_map_of_mem huse, ?_⟩
    rw [hdirect, OperatorUse.mark_type, OperatorUse.mark_transformationId]
    simp only [hdeep]
    exact hnesting

/-- Marks do not matter for what the nestings show. -/
theorem CycleDetectable.map_mark (h : CycleDetectable nestings workflowId uses)
    (p : OperatorUse → Prop) :
    CycleDetectable nestings workflowId (uses.map fun use => use.mark (p use)) := by
  rcases h with ⟨use, huse, hself⟩ | ⟨use, huse, hancestor⟩ | ⟨nesting, hgenerated, hkeys⟩
  · apply Or.inl
    exact ⟨use.mark (p use), List.mem_map_of_mem huse, by rwa [OperatorUse.mark_transformationId]⟩
  · apply Or.inr
    apply Or.inl
    refine ⟨use.mark (p use), List.mem_map_of_mem huse, ?_⟩
    unfold OperatorUse.Descendant at *
    rwa [OperatorUse.mark_type, OperatorUse.mark_transformationId]
  · apply Or.inr
    apply Or.inr
    refine ⟨nesting, (generated_map_mark p).mpr hgenerated, fun other hother => ?_⟩
    exact hkeys other ((generated_map_mark p).mp hother)

/-- What the nestings show does not pass the check. -/
theorem Rebuilt.not_cycleDetectable {after : List Nesting}
    (h : Rebuilt nestings after workflowId uses) : ¬ CycleDetectable nestings workflowId uses := by
  rintro (⟨use, huse, hself⟩ | ⟨use, huse, descendant, -, hdescendant, ancestor, hancestor,
    hnested, hother, heq⟩ | ⟨nesting, hgenerated, hkeys⟩)
  · exact h.no_self use huse hself
  · have hafter := (h.others ancestor hother).mpr hancestor
    exact (h.no_cycle ancestor hafter hnested).2 use huse descendant hdescendant heq
  · obtain ⟨other, hafter, hkey⟩ := h.keys nesting hgenerated
    have hworkflow : other.workflowId = workflowId := by
      have hself : nesting.workflowId = workflowId := by
        obtain ⟨use, -, rfl | ⟨descendant, -, rfl⟩⟩ := hgenerated <;> rfl
      exact (congrArg Prod.fst hkey).trans hself
    have hnested := hkeys other (h.generated other hafter hworkflow) hkey
    exact (h.no_cycle other hafter hnested).1 hworkflow

end Marks

/-! ## Acyclicity after a request -/

section Steps

variable {V D : Type} {db db' : Database V D} {request : Request V D} {revision : Revision V D}

/-- The empty store has no cycles. -/
theorem acyclic_empty : (Database.empty : Database V D).Acyclic := by
  intro id hcycle
  obtain ⟨id', ⟨ref, href, -⟩, -⟩ := TransGen.head'_iff.mp hcycle
  exact absurd href List.not_mem_nil

/-- A cycle after an exchange of operators has been there before or has been closed by it. -/
theorem ExchangesRefs.acyclic (h : ExchangesRefs db db' revision) (hacyclic : db.Acyclic)
    (hcloses : ¬ ClosesCycle db revision) : db'.Acyclic := by
  intro id hcycle
  rcases transGen_self_cases h.contains_iff hcycle with hold | ⟨next, hnext, hreach⟩
  · exact hacyclic id hold
  · obtain ⟨use, huse, rfl⟩ := h.contains_self.mp hnext
    exact hcloses ⟨use, huse, hreach⟩

/-- An exchange that closes a cycle leaves a cycle. -/
theorem ExchangesRefs.not_acyclic (h : ExchangesRefs db db' revision)
    (hcloses : ClosesCycle db revision) : ¬ db'.Acyclic := by
  obtain ⟨use, huse, hreach⟩ := hcloses
  intro hacyclic
  have hfirst := h.contains_self.mpr ⟨use, huse, rfl⟩
  rcases reflTransGen_or_reaches (fun id id' hid => (h.contains_iff id id' hid).symm) hreach with
    hback | hback
  all_goals exact hacyclic revision.id (TransGen.head' hfirst hback)

/-- What the nestings show is not saved. -/
theorem Saves.not_closesCycle (h : Saves db db' request revision)
    (hpayload : revision ∈ request.payload) (hdetects : DetectsCycles db request) :
    ¬ ClosesCycle db revision := by
  intro hcloses
  obtain ⟨hactive, hdetectable⟩ := hdetects revision hpayload hcloses
  obtain ⟨saved, hsaved, hcomponent, hpropagated⟩ := h
  cases hpropagated with
  | marked hdeprecates _ _ => exact hactive hdeprecates
  | rebuilt _ hrebuilt _ =>
    apply hrebuilt.not_cycleDetectable
    rw [hsaved.uses]
    exact hdetectable.map_mark _
  | kept _ htype _ _ =>
    obtain ⟨use, huse, -⟩ := hcloses
    have hnone := hcomponent htype
    rw [hsaved.uses, List.map_eq_nil_iff] at hnone
    rw [savedUses, hnone] at huse
    exact absurd huse List.not_mem_nil

/-- Deletions close no cycles. -/
theorem Deletes.acyclic {id : UUID} (h : Deletes db db' id) (hacyclic : db.Acyclic) :
    db'.Acyclic := by
  intro other hcycle
  refine hacyclic other (TransGen.mono (fun x y hxy => ?_) _ _ hcycle)
  obtain ⟨ref, href, hy⟩ := hxy
  rw [h.refs] at href
  split at href
  · exact absurd href List.not_mem_nil
  · exact ⟨ref, href, hy⟩

end Steps

/-! ## Nestings of workflows in others -/

/-- Nestings have a depth and lead from a workflow to something else. -/
def NestingsSound (nestings : List Nesting) : Prop :=
  ∀ nesting ∈ nestings, 0 < nesting.depth ∧ nesting.workflowId ≠ nesting.nestedTransformationId

section Sound

variable {V D : Type} {db db' : Database V D}

/-- Nestings stay sound if those of a workflow are generated again. -/
theorem NestingsSound.rebuild {before after : List Nesting} {workflowId : UUID}
    {uses : List OperatorUse} (h : NestingsSound before)
    (hrebuilt : Rebuilt before after workflowId uses) : NestingsSound after := by
  intro nesting hmem
  by_cases hworkflow : nesting.workflowId = workflowId
  · constructor
    · obtain ⟨use, -, rfl | ⟨descendant, -, rfl⟩⟩ := hrebuilt.generated nesting hmem hworkflow
      · exact Nat.one_pos
      · simp only [OperatorUse.deepNesting]
        omega
    · intro hself
      exact (hrebuilt.no_cycle nesting hmem (hself.symm.trans hworkflow)).1 hworkflow
  · exact h nesting ((hrebuilt.others nesting hworkflow).mp hmem)

/-- Nestings stay sound with a save. -/
theorem NestingsSound.save {request : Request V D} {revision : Revision V D}
    (h : NestingsSound db.nestings) (hsaves : Saves db db' request revision) :
    NestingsSound db'.nestings := by
  obtain ⟨saved, -, -, hpropagated⟩ := hsaves
  cases hpropagated with
  | marked _ hnestings _ | kept _ _ hnestings _ => rwa [hnestings]
  | rebuilt _ hrebuilt _ => exact h.rebuild hrebuilt

/-- Nestings stay sound with a deletion. -/
theorem NestingsSound.delete {id : UUID} (h : NestingsSound db.nestings)
    (hdeletes : Deletes db db' id) : NestingsSound db'.nestings :=
  fun nesting hmem => h nesting ((hdeletes.nestings nesting).mp hmem).1

/-- Nestings in other workflows have a depth and lead to something else. -/
def SoundElsewhere (db : Database V D) (workflowId : UUID) : Prop :=
  ∀ nesting ∈ db.nestings, nesting.workflowId ≠ workflowId →
    0 < nesting.depth ∧ nesting.workflowId ≠ nesting.nestedTransformationId

/-- A round of the loop of `update_nesting` fails on direct cycles only. -/
theorem addChildNestings_eq_error {workflowId : UUID} {disallowed : List UUID}
    {child : Operator V} {error : StoreError} (hsound : SoundElsewhere db workflowId)
    (hself : ∃ row ∈ db.revisions, row.id = workflowId)
    (hchild : ∃ row ∈ db.revisions, row.id = child.transformationId)
    (h : addChildNestings workflowId (db, disallowed) child = .error error) :
    error = .nestingCycleDetected := by
  have hdirect : ∃ mid, db.addSingleNesting (directNesting workflowId child) = .ok mid := by
    refine exists_addSingleNesting ⟨?_, ?_⟩
    · intro id hid
      simp only [Nesting.references, directNesting, List.mem_cons, List.not_mem_nil,
        or_false] at hid
      rcases hid with rfl | rfl | rfl
      · exact hself
      · exact hchild
      · exact hchild
    · simp [Nesting.checkConstraints, directNesting]
  obtain ⟨mid, hmid⟩ := hdirect
  have hadded : Added workflowId db mid [directNesting workflowId child] := Added.single hmid
  unfold addChildNestings at h
  rw [bind_eq_error] at h
  rcases h with h | ⟨mid', hmid', h⟩
  · exact absurd (hmid.symm.trans h) (by simp)
  obtain rfl := Except.ok.inj (hmid.symm.trans hmid')
  by_cases hcycle : child.transformationId = workflowId
  · rw [require_bind_of_not (by simpa using hcycle)] at h
    exact (Except.error.inj h).symm
  rw [require_bind_of (by simpa using hcycle), bind_eq_error] at h
  have hdescendants : ∃ after,
      mid.addNestings ((mid.descendants child).map (deepNesting workflowId child)) = .ok after := by
    apply exists_addNestings
    unfold Addable
    rw [hadded.descendants_eq hcycle, hadded.revisions]
    intro nesting hnesting
    obtain ⟨descendant, hdescendant, rfl⟩ := List.mem_map.mp hnesting
    obtain ⟨-, hmem, hworkflow⟩ := mem_descendants.mp hdescendant
    obtain ⟨hdepth, hother⟩ := hsound descendant hmem (by rw [hworkflow]; exact hcycle)
    constructor
    · intro id hid
      simp only [Nesting.references, deepNesting, List.mem_cons, List.not_mem_nil,
        or_false] at hid
      rcases hid with rfl | rfl | rfl
      · exact hself
      · exact hchild
      · exact db.references_exist descendant hmem _ (by simp [Nesting.references])
    · have hvia : child.transformationId ≠ descendant.nestedTransformationId := by
        rw [hworkflow] at hother
        exact hother
      simp [Nesting.checkConstraints, deepNesting, hvia, hdepth]
  obtain ⟨after, hafter⟩ := hdescendants
  rcases h with h | ⟨after', hafter', h⟩
  · exact absurd (hafter.symm.trans h) (by simp)
  · cases h

/-- If all revisions have rows, the update of nestings fails on cycles only. -/
theorem updateNesting_eq_error {workflowId : UUID} {operators : List (Operator V)}
    {error : StoreError} (hsound : NestingsSound db.nestings)
    (hself : ∃ row ∈ db.revisions, row.id = workflowId)
    (hoperators : ∀ child ∈ operators, ∃ row ∈ db.revisions, row.id = child.transformationId)
    (h : db.updateNesting workflowId operators = .error error) :
    error = .nestingCycleDetected := by
  have hloop (operators : List (Operator V)) (db : Database V D) (disallowed : List UUID)
      (hsound : SoundElsewhere db workflowId)
      (hself : ∃ row ∈ db.revisions, row.id = workflowId)
      (hoperators : ∀ child ∈ operators, ∃ row ∈ db.revisions, row.id = child.transformationId)
      (h : operators.foldlM (addChildNestings workflowId) (db, disallowed) = .error error) :
      error = .nestingCycleDetected := by
    induction operators generalizing db disallowed with
    | nil => cases h
    | cons child rest ih =>
      rw [List.forall_mem_cons] at hoperators
      rw [List.foldlM_cons, bind_eq_error] at h
      rcases h with h | ⟨⟨mid, disallowed'⟩, hmid, h⟩
      · exact addChildNestings_eq_error hsound hself hoperators.1 h
      · obtain ⟨-, hadded, -⟩ := addChildNestings_eq_ok hmid
        apply ih mid disallowed' _ _ _ h
        · intro nesting hmem hother
          have hold := mem_findAllNestedTransformationRevisions.mpr ⟨hmem, rfl⟩
          rw [hadded.others _ hother] at hold
          exact hsound nesting (mem_findAllNestedTransformationRevisions.mp hold).1 hother
        · rw [hadded.revisions]
          exact hself
        · rw [hadded.revisions]
          exact hoperators.2
  unfold updateNesting at h
  rw [bind_eq_error] at h
  rcases h with h | ⟨⟨after, disallowed⟩, -, h⟩
  · apply hloop operators (db.deleteOwnNestings workflowId) [workflowId] _ hself hoperators h
    intro nesting hmem _
    exact hsound nesting (mem_deleteOwnNestings.mp hmem).1
  · rw [bind_eq_error] at h
    rcases h with h | ⟨_, _, h⟩
    · unfold require at h
      split at h
      · cases h
      · exact (Except.error.inj h).symm
    · cases h

end Sound

/-! ## Requests whose cycles are detected -/

section Requests

variable [UnicodeData] {V D : Type} [DecidableEq V] [DecidableEq D] {db db' mid : Database V D}
  {tools : CodeTools V D} {request : Request V D} {revision written : Revision V D}

/-- The part of a request up to the write of the revision: the database after it, and what has
been written. -/
def Request.write (tools : CodeTools V D) (db : Database V D) :
    Request V D → Except StoreError (Database V D × Revision V D)
  | .store revision => do
    let db ← db.addTr revision
    return (db, revision)
  | .put surroundings options payload => do
    let payload := payload.stripWirings options.strip
    checkDirectComponentImports tools surroundings db payload
    writeRevision tools surroundings db options payload
  | .delete .. => throw .assertion

/-- Writing exchanges the operators of the revision and leaves the nestings. -/
structure WrittenAs (db mid : Database V D) (request : Request V D)
    (revision written : Revision V D) : Prop where
  id : written.id = revision.id
  saved : SavedAs db.shape request.allowsOverwrite revision.id revision.shape written.shape
  nestings : mid.nestings = db.nestings
  shapes : ∀ other, mid.shape other =
    if other = revision.id then some written.shape else db.shape other

/-- A revision that gets written is the one that is sent. -/
theorem writtenAs_of_write (h : request.write tools db = .ok (mid, written)) :
    ∃ revision ∈ request.payload, WrittenAs db mid request revision written := by
  cases request with
  | store revision =>
    obtain ⟨after, hadd, h⟩ := bind_eq_ok.mp h
    obtain ⟨rfl, rfl⟩ := Prod.mk.inj (return_eq_ok.mp h)
    obtain ⟨hnew, hnestings, -⟩ := addTr_eq_ok hadd
    exact ⟨revision, rfl, rfl, savedAs_of_new hnew, hnestings, Database.shape_addTr hadd⟩
  | put surroundings options payload =>
    obtain ⟨_, -, h⟩ := bind_eq_ok.mp h
    obtain ⟨hid, hsaved, hnestings, hshapes⟩ := writeRevision_shape h
    exact ⟨payload, rfl, hid, hsaved, hnestings, hshapes⟩
  | delete surroundings id type ignoreState => cases h

omit [UnicodeData] [DecidableEq V] [DecidableEq D] in
/-- The operators after a write. -/
theorem WrittenAs.exchanges (h : WrittenAs db mid request revision written) :
    ExchangesRefs db mid revision := by
  intro other
  unfold Database.refs Database.uses
  rw [h.shapes other]
  split
  · rw [← h.saved.map_ref]
    rfl
  · rfl

omit [DecidableEq D] in
/-- A write that leaves a cycle of workflows is one of a workflow. -/
theorem WrittenAs.exists_workflow (h : WrittenAs db mid request revision written)
    (hvalid : revision.IsValidated) (hplain : ComponentsPlain db)
    (hcloses : ClosesCycle db revision) :
    written.type = .workflow ∧ ∃ content, written.content = .workflow content := by
  obtain ⟨use, huse, -⟩ := hcloses
  have hcomponent (shape : Shape) (hshape : shape = revision.shape ∨
      db.shape revision.id = some shape) (htype : shape.type = .component) : shape.uses = [] := by
    rcases hshape with rfl | hstored
    · obtain ⟨keys, uuid4, data, hdata⟩ := hvalid
      exact uses_eq_nil_of_validate hdata htype
    · exact hplain _ shape hstored htype
  have hsource : contentSource (db.shape revision.id) revision.shape = revision.shape ∨
      db.shape revision.id = some (contentSource (db.shape revision.id) revision.shape) := by
    unfold contentSource
    cases db.shape revision.id with
    | none => exact Or.inl rfl
    | some existing =>
      by_cases hchanges : changesState existing revision.shape
      · exact Or.inr (congrArg some (if_pos hchanges).symm)
      · exact Or.inl (if_neg hchanges)
  have htypeSource : (contentSource (db.shape revision.id) revision.shape).type =
      written.type := by
    have hwritten : written.type = revision.shape.type := h.saved.type
    rw [hwritten]
    rcases hsource with heq | hstored
    · rw [heq]
    · exact h.saved.type_eq _ hstored
  constructor
  · cases htype : written.type with
    | workflow => rfl
    | component =>
      have hnil := hcomponent _ hsource (htypeSource.trans htype)
      rw [savedUses, hnil] at huse
      exact absurd huse List.not_mem_nil
  · cases hcontent : written.content with
    | workflow content => exact ⟨content, rfl⟩
    | code text =>
      have hnil : written.shape.uses = [] := by
        rw [TransformationRevision.shape, hcontent]
        rfl
      rw [h.saved.uses, List.map_eq_nil_iff] at hnil
      rw [savedUses, hnil] at huse
      exact absurd huse List.not_mem_nil

omit [UnicodeData] [DecidableEq V] [DecidableEq D] in
/-- Storing a workflow writes its row and then its nestings. -/
theorem storeSingleTransformationRevision_workflow {after : Database V D}
    {revision : Revision V D} {content : WorkflowContent V} (hadd : db.addTr revision = .ok after)
    (htype : revision.type = .workflow) (hcontent : revision.content = .workflow content) :
    storeSingleTransformationRevision db revision =
      after.updateNesting revision.id content.operators := by
  rw [storeSingleTransformationRevision, hadd, htype, hcontent]
  rfl

/-- A write that leaves a cycle which the nestings show makes the request fail with the error
for cycles, if everything the workflow refers to is stored. -/
theorem rejected_of_write (hvalid : request.WellTyped) (hdetects : DetectsCycles db request)
    (hacyclic : db.Acyclic) (hplain : ComponentsPlain db) (hsound : NestingsSound db.nestings)
    (hwrite : request.write tools db = .ok (mid, written))
    (hstored : ∀ operator ∈ written.operators, ∃ row ∈ mid.revisions,
      row.id = operator.transformationId)
    (hcycle : ¬ mid.Acyclic) : handle tools db request = .error .nestingCycleDetected := by
  obtain ⟨revision, hpayload, hwritten⟩ := writtenAs_of_write hwrite
  have hcloses : ClosesCycle db revision := by
    by_contra hnot
    exact hcycle (hwritten.exchanges.acyclic hacyclic hnot)
  obtain ⟨hactive, hdetectable⟩ := hdetects revision hpayload hcloses
  obtain ⟨htype, content, hcontent⟩ :=
    hwritten.exists_workflow (hvalid revision hpayload) hplain hcloses
  have hoperators : written.operators = content.operators := by
    rw [TransformationRevision.operators, hcontent]
  have huses : content.operators.map Operator.use = written.shape.uses := by
    rw [← hoperators, operators_map_use]
  rw [hoperators] at hstored
  have hself : ∃ row ∈ mid.revisions, row.id = written.id := by
    have hshape := hwritten.shapes written.id
    rw [if_pos hwritten.id] at hshape
    obtain ⟨row, hrow, -⟩ := Option.map_eq_some_iff.mp hshape
    exact ⟨row, find_eq_some hrow⟩
  have hnesting : mid.updateNesting written.id content.operators =
      .error .nestingCycleDetected := by
    cases hupdate : mid.updateNesting written.id content.operators with
    | error error =>
      rw [← hwritten.nestings] at hsound
      rw [updateNesting_eq_error hsound hself hstored hupdate]
    | ok after =>
      have hrebuilt := (rebuilt_of_updateNesting hupdate).2
      rw [hwritten.nestings, huses, hwritten.id, hwritten.saved.uses] at hrebuilt
      exact absurd (hdetectable.map_mark _) hrebuilt.not_cycleDetectable
  cases request with
  | store sent =>
    obtain ⟨after, hadd, h⟩ := bind_eq_ok.mp hwrite
    obtain ⟨rfl, rfl⟩ := Prod.mk.inj (return_eq_ok.mp h)
    rw [handle, storeSingleTransformationRevision_workflow hadd htype hcontent]
    exact hnesting
  | put surroundings options payload =>
    obtain ⟨_, himports, h⟩ := bind_eq_ok.mp hwrite
    obtain rfl := Option.some.inj hpayload
    have hstate : written.state ≠ .disabled := by
      have hwrittenState : written.state = payload.state := hwritten.saved.state
      rw [hwrittenState]
      exact hactive
    have hpropagate : propagate surroundings mid written = .error .nestingCycleDetected := by
      cases hsaved : written.state with
      | disabled => exact absurd hsaved hstate
      | draft | released =>
        simp only [propagate, hsaved, htype, hcontent]
        exact hnesting
    simp only [handle, updateOrCreateSingleTransformationRevision]
    rw [himports]
    change (writeRevision tools surroundings db options _ >>= _).map Prod.fst = _
    rw [h]
    change (propagate surroundings mid written >>= _).map Prod.fst = _
    rw [hpropagate]
    rfl
  | delete surroundings id type ignoreState => cases hpayload

end Requests

end HetidaDesigner
