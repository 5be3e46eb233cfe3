import HetidaDesigner.Library.LastEntry
import HetidaDesigner.Store.Cycles

/-!
# What the rows of a workflow name

The rows of a workflow should name the revisions which it contains on any level. An update copies
the rows of what the operators refer to, and of rows of one operator with the same depth and the
same last operator only the last one stays. Operator ids may be the same in different workflows, so
a revision gets lost if all rows which name it are overwritten.
-/

namespace HetidaDesigner

open Checks KeyedList LastEntry Relation

variable {V D : Type}

namespace Database

/-- A row of a workflow names a revision. -/
def Named (db : Database V D) (workflowId id : UUID) : Prop :=
  ∃ nesting ∈ db.nestings, nesting.workflowId = workflowId ∧ nesting.nestedTransformationId = id

/-- The rows of what the operators refer to name exactly what this contains. -/
def NamesContained (db : Database V D) (operators : List (Operator V)) : Prop :=
  ∀ child ∈ operators, ∀ id, db.Named child.transformationId id ↔
    TransGen db.Contains child.transformationId id

/-- A revision is reached from an operator. -/
def ReachableFrom (db : Database V D) (operators : List (Operator V)) (id : UUID) : Prop :=
  ∃ child ∈ operators, ReflTransGen db.Contains child.transformationId id

/-- No later row below an operator has the depth and the last operator of this one. -/
def StaysLast (db : Database V D) (child : Operator V) (descendant : Nesting) : Prop :=
  lastEntry (fun row => (row.depth, row.nestedOperatorId)) (db.descendants child)
    (descendant.depth, descendant.nestedOperatorId) = some descendant

/-- What is below operators is also what an operator refers to or is named by a row which is not
overwritten. -/
def NoneLost (db : Database V D) (operators : List (Operator V)) : Prop :=
  ∀ child ∈ operators, ∀ id, TransGen db.Contains child.transformationId id →
    ∃ other ∈ operators, id = other.transformationId ∨
      ∃ descendant, db.StaysLast other descendant ∧ descendant.nestedTransformationId = id

/-- Nothing prevents an update: the workflow and what its operators refer to are stored, the rows
satisfy the constraints of the table, the content closes no cycle, and rows of other workflows
which name this one are right. -/
structure Updatable (db : Database V D) (workflowId : UUID) (operators : List (Operator V)) :
    Prop where
  stored : ∃ row ∈ db.revisions, row.id = workflowId
  operators_stored : ∀ child ∈ operators, ∃ row ∈ db.revisions, row.id = child.transformationId
  constraints : ∀ nesting ∈ db.nestings, nesting.checkConstraints = true
  no_cycle : ¬ db.ReachableFrom operators workflowId
  no_inner_cycle : ∀ child ∈ operators,
    ¬ TransGen db.Contains child.transformationId child.transformationId
  containing : ∀ nesting ∈ db.nestings, nesting.nestedTransformationId = workflowId →
    nesting.workflowId ≠ workflowId → TransGen db.Contains nesting.workflowId workflowId

/-! ## The rows after an update -/

section Rows

variable {db db' : Database V D} {workflowId : UUID} {operators : List (Operator V)}

/-- A nesting which has been added satisfies the constraints. -/
theorem checkConstraints_of_addSingleNesting {nesting : Nesting}
    (h : db.addSingleNesting nesting = .ok db') : nesting.checkConstraints = true := by
  unfold addSingleNesting at h
  split at h
  · split at h
    · assumption
    · cases h
  · cases h

/-- Adding nestings enters them one after the other, and all of them satisfy the constraints. -/
theorem addNestings_eq_ok {nestings : List Nesting} (h : db.addNestings nestings = .ok db') :
    db'.nestings = insertAll Nesting.key db.nestings nestings ∧
      ∀ nesting ∈ nestings, nesting.checkConstraints = true := by
  unfold addNestings at h
  induction nestings generalizing db with
  | nil =>
    obtain rfl := Except.ok.inj h
    exact ⟨rfl, by simp⟩
  | cons nesting rest ih =>
    rw [List.foldlM_cons, bind_eq_ok] at h
    obtain ⟨mid, hmid, hrest⟩ := h
    obtain ⟨hnestings, hchecks⟩ := ih hrest
    rw [(addSingleNesting_eq_ok hmid).2] at hnestings
    have hcheck := checkConstraints_of_addSingleNesting hmid
    exact ⟨hnestings, List.forall_mem_cons.mpr ⟨hcheck, hchecks⟩⟩

/-- A round of the loop enters the nestings of an operator. -/
theorem addChildNestings_nestings {disallowed disallowed' : List UUID} {child : Operator V}
    (h : addChildNestings workflowId (db, disallowed) child = .ok (db', disallowed')) :
    db'.nestings = insertAll Nesting.key db.nestings (db.childNestings workflowId child) ∧
      ∀ nesting ∈ db.childNestings workflowId child, nesting.checkConstraints = true := by
  unfold addChildNestings at h
  obtain ⟨mid, hmid, h⟩ := bind_eq_ok.mp h
  obtain ⟨hself, h⟩ := require_bind_eq_ok.mp h
  replace hself : child.transformationId ≠ workflowId := by simpa using hself
  obtain ⟨after, hafter, h⟩ := bind_eq_ok.mp h
  obtain ⟨rfl, -⟩ := Prod.mk.inj (return_eq_ok.mp h)
  have hdirect : Added workflowId db mid [directNesting workflowId child] := Added.single hmid
  rw [hdirect.descendants_eq hself] at hafter
  obtain ⟨hnestings, hchecks⟩ := addNestings_eq_ok hafter
  rw [(addSingleNesting_eq_ok hmid).2] at hnestings
  have hcheck := checkConstraints_of_addSingleNesting hmid
  exact ⟨hnestings, List.forall_mem_cons.mpr ⟨hcheck, hchecks⟩⟩

/-- The loop enters the nestings of all operators. -/
theorem foldlM_addChildNestings_nestings {disallowed disallowed' : List UUID}
    (h : operators.foldlM (addChildNestings workflowId) (db, disallowed) = .ok (db', disallowed')) :
    db'.nestings =
        insertAll Nesting.key db.nestings (db.generatedNestings workflowId operators) ∧
      ∀ nesting ∈ db.generatedNestings workflowId operators, nesting.checkConstraints = true := by
  induction operators generalizing db disallowed with
  | nil =>
    obtain ⟨rfl, -⟩ := Prod.mk.inj (Except.ok.inj h)
    exact ⟨rfl, fun nesting hnesting => absurd hnesting List.not_mem_nil⟩
  | cons child rest ih =>
    rw [List.foldlM_cons, bind_eq_ok] at h
    obtain ⟨⟨mid, disallowedMid⟩, hmid, hrest⟩ := h
    obtain ⟨-, hadded, -⟩ := addChildNestings_eq_ok hmid
    obtain ⟨hselfs, -, -⟩ := foldlM_addChildNestings_eq_ok hrest
    obtain ⟨hfirst, hfirstChecks⟩ := addChildNestings_nestings hmid
    obtain ⟨hothers, hothersChecks⟩ := ih hrest
    rw [hadded.generatedNestings_eq hselfs] at hothers hothersChecks
    rw [generatedNestings, List.flatMap_cons]
    constructor
    · rw [hothers, hfirst, insertAll, insertAll, insertAll, List.foldl_append]
      rfl
    · intro nesting hnesting
      rcases List.mem_append.mp hnesting with hnesting | hnesting
      · exact hfirstChecks nesting hnesting
      · exact hothersChecks nesting hnesting

/-- After an update the rows of the workflow are the last generated ones with their keys. -/
theorem mem_updateNesting_iff (h : db.updateNesting workflowId operators = .ok db')
    {nesting : Nesting} (hworkflow : nesting.workflowId = workflowId) :
    nesting ∈ db'.nestings ↔ lastEntry Nesting.key (db.generatedNestings workflowId operators)
      nesting.key = some nesting := by
  unfold updateNesting at h
  obtain ⟨⟨after, disallowed⟩, hloop, h⟩ := bind_eq_ok.mp h
  obtain ⟨-, h⟩ := require_bind_eq_ok.mp h
  obtain rfl := return_eq_ok.mp h
  obtain ⟨hself, -, -⟩ := foldlM_addChildNestings_eq_ok hloop
  obtain ⟨hnestings, -⟩ := foldlM_addChildNestings_nestings hloop
  rw [generatedNestings_deleteOwnNestings hself] at hnestings
  rw [hnestings, mem_insertAll_iff, mem_insertAll_nil_iff]
  refine or_iff_left fun hold => ?_
  exact (mem_deleteOwnNestings.mp hold.1).2 hworkflow

/-- The generated rows satisfy the constraints. -/
theorem checkConstraints_of_updateNesting (h : db.updateNesting workflowId operators = .ok db')
    {nesting : Nesting} (hnesting : nesting ∈ db.generatedNestings workflowId operators) :
    nesting.checkConstraints = true := by
  unfold updateNesting at h
  obtain ⟨⟨after, disallowed⟩, hloop, -⟩ := bind_eq_ok.mp h
  obtain ⟨hself, -, -⟩ := foldlM_addChildNestings_eq_ok hloop
  obtain ⟨-, hchecks⟩ := foldlM_addChildNestings_nestings hloop
  rw [generatedNestings_deleteOwnNestings hself] at hchecks
  exact hchecks nesting hnesting

/-- A row which an operator contributes starts with it. -/
theorem via_of_mem_childNestings {child : Operator V} {nesting : Nesting}
    (h : nesting ∈ db.childNestings workflowId child) :
    nesting.viaOperatorId = child.id ∧ nesting.viaTransformationId = child.transformationId := by
  rcases List.mem_cons.mp h with rfl | h
  · exact ⟨rfl, rfl⟩
  · obtain ⟨descendant, -, rfl⟩ := List.mem_map.mp h
    exact ⟨rfl, rfl⟩

/-- If operator ids are unique, a row which starts with an operator is contributed by it. -/
theorem lastEntry_generatedNestings (hids : (operators.map fun child => child.id).Nodup)
    {child : Operator V} (hchild : child ∈ operators) (rest : ℕ × UUID) :
    lastEntry Nesting.key (db.generatedNestings workflowId operators) (workflowId, child.id, rest) =
      lastEntry Nesting.key (db.childNestings workflowId child) (workflowId, child.id, rest) := by
  apply lastEntry_flatMap hids.of_map hchild
  intro other hother hne nesting hnesting hkey
  have hvia : nesting.viaOperatorId = child.id := congrArg (fun key => key.2.1) hkey
  rw [(via_of_mem_childNestings hnesting).1] at hvia
  exact hne (List.inj_on_of_nodup_map hids hother hchild hvia)

/-- Of the rows which an operator contributes, a deep one is found under a key of such. -/
theorem lastEntry_childNestings {child : Operator V} {descendant : Nesting}
    (hlast : db.StaysLast child descendant) :
    lastEntry Nesting.key (db.childNestings workflowId child)
      (deepNesting workflowId child descendant).key =
        some (deepNesting workflowId child descendant) := by
  have hinjective : Function.Injective fun rest : ℕ × UUID =>
      (workflowId, child.id, 1 + rest.1, rest.2) := by
    intro rest rest' h
    simp only [Prod.mk.injEq, true_and] at h
    exact Prod.ext (Nat.add_left_cancel h.1) h.2
  have hdeep : lastEntry Nesting.key
      ((db.descendants child).map (deepNesting workflowId child))
      (deepNesting workflowId child descendant).key =
        some (deepNesting workflowId child descendant) := by
    rw [lastEntry_map Nesting.key (fun _ => rfl)]
    have hfound := lastEntry_of_injective hinjective
      (fun row : Nesting => (row.depth, row.nestedOperatorId)) (db.descendants child)
      (descendant.depth, descendant.nestedOperatorId)
    rw [hlast] at hfound
    exact congrArg (Option.map (deepNesting workflowId child)) hfound
  rw [childNestings, lastEntry_cons, hdeep]
  rfl

/-- After an update the rows of the workflow name what the operators refer to, and what is named by
rows below them which are not overwritten. -/
theorem named_updateNesting_iff (hids : (operators.map fun child => child.id).Nodup)
    (h : db.updateNesting workflowId operators = .ok db') (id : UUID) :
    db'.Named workflowId id ↔ ∃ child ∈ operators, id = child.transformationId ∨
      ∃ descendant, db.StaysLast child descendant ∧ descendant.nestedTransformationId = id := by
  constructor
  · rintro ⟨nesting, hnesting, hworkflow, hid⟩
    have hlast := (mem_updateNesting_iff h hworkflow).mp hnesting
    obtain ⟨child, hchild, hmem⟩ := List.mem_flatMap.mp (mem_of_lastEntry hlast).1
    refine ⟨child, hchild, ?_⟩
    rcases List.mem_cons.mp hmem with rfl | hmem
    · exact Or.inl hid.symm
    · obtain ⟨descendant, hdescendant, rfl⟩ := List.mem_map.mp hmem
      obtain ⟨last, hfound⟩ := exists_lastEntry
        (fun row : Nesting => (row.depth, row.nestedOperatorId)) hdescendant
      have hsame := (mem_of_lastEntry hfound).2
      have hstays : db.StaysLast child last := by
        rw [StaysLast, hsame]
        exact hfound
      have hkey : (deepNesting workflowId child descendant).key =
          (deepNesting workflowId child last).key := by
        obtain ⟨hdepth, hoperator⟩ := Prod.mk.inj hsame
        simp [Nesting.key, deepNesting, hdepth, hoperator]
      have hlast' : lastEntry Nesting.key (db.generatedNestings workflowId operators)
          (deepNesting workflowId child last).key = some (deepNesting workflowId child last) := by
        exact (lastEntry_generatedNestings hids hchild _).trans (lastEntry_childNestings hstays)
      rw [hkey, hlast'] at hlast
      rw [← Option.some.inj hlast] at hid
      exact Or.inr ⟨last, hstays, hid⟩
  · rintro ⟨child, hchild, hcases⟩
    rcases hcases with rfl | ⟨descendant, hstays, hid⟩
    · have hdirect : directNesting workflowId child ∈ db.generatedNestings workflowId operators :=
        List.mem_flatMap.mpr ⟨child, hchild, List.mem_cons_self⟩
      obtain ⟨row, hrow⟩ := exists_lastEntry Nesting.key hdirect
      obtain ⟨hmem, hkey⟩ := mem_of_lastEntry hrow
      have hworkflow : row.workflowId = workflowId := congrArg Prod.fst hkey
      have hdepth : row.depth = 1 := congrArg (fun key => key.2.2.1) hkey
      have hvia : row.viaOperatorId = child.id := congrArg (fun key => key.2.1) hkey
      refine ⟨row, (mem_updateNesting_iff h hworkflow).mpr (hkey ▸ hrow), hworkflow, ?_⟩
      -- a direct row is its own last operator, by the check constraint
      have hcheck := checkConstraints_of_updateNesting h hmem
      simp only [Nesting.checkConstraints, hdepth, lt_irrefl, false_iff, not_not,
        decide_eq_true_eq] at hcheck
      obtain ⟨other, hother, hmem⟩ := List.mem_flatMap.mp hmem
      obtain ⟨hviaOther, hviaTransformation⟩ := via_of_mem_childNestings hmem
      rw [← List.inj_on_of_nodup_map hids hother hchild (hviaOther.symm.trans hvia),
        ← hviaTransformation]
      exact hcheck.2.1.symm
    · have hlast : lastEntry Nesting.key (db.generatedNestings workflowId operators)
          (deepNesting workflowId child descendant).key =
            some (deepNesting workflowId child descendant) :=
        (lastEntry_generatedNestings hids hchild _).trans (lastEntry_childNestings hstays)
      exact ⟨_, (mem_updateNesting_iff h rfl).mpr hlast, rfl, hid⟩

end Rows

/-! ## Updates which succeed -/

section Success

variable {db : Database V D} {workflowId : UUID} {operators : List (Operator V)}

/-- A round of the loop succeeds if the nestings can be added. -/
theorem exists_addChildNestings {child : Operator V} (hself : child.transformationId ≠ workflowId)
    (h : ∀ nesting ∈ db.childNestings workflowId child, db.Addable nesting)
    (disallowed : List UUID) :
    ∃ result, addChildNestings workflowId (db, disallowed) child = .ok result := by
  rw [childNestings, List.forall_mem_cons] at h
  obtain ⟨mid, hmid⟩ := exists_addSingleNesting h.1
  have hdirect : Added workflowId db mid [directNesting workflowId child] := Added.single hmid
  have hdeep : ∀ nesting ∈ (mid.descendants child).map (deepNesting workflowId child),
      mid.Addable nesting := by
    intro nesting hnesting
    rw [hdirect.descendants_eq hself] at hnesting
    have haddable := h.2 nesting hnesting
    rwa [Addable, ← hdirect.revisions] at haddable
  obtain ⟨after, hafter⟩ := exists_addNestings hdeep
  refine ⟨(after, disallowed ++ (mid.descendants child).map fun descendant =>
    descendant.nestedTransformationId), ?_⟩
  unfold addChildNestings
  refine bind_eq_ok.mpr ⟨mid, hmid, ?_⟩
  rw [require_bind_of (by simpa using hself)]
  exact bind_eq_ok.mpr ⟨after, hafter, rfl⟩

/-- The loop succeeds if all nestings can be added. -/
theorem exists_foldlM_addChildNestings
    (hselfs : ∀ child ∈ operators, child.transformationId ≠ workflowId)
    (h : ∀ nesting ∈ db.generatedNestings workflowId operators, db.Addable nesting)
    (disallowed : List UUID) :
    ∃ result, operators.foldlM (addChildNestings workflowId) (db, disallowed) = .ok result := by
  induction operators generalizing db disallowed with
  | nil => exact ⟨_, rfl⟩
  | cons child rest ih =>
    rw [List.forall_mem_cons] at hselfs
    rw [generatedNestings, List.flatMap_cons, ← generatedNestings] at h
    obtain ⟨⟨mid, disallowedMid⟩, hmid⟩ := exists_addChildNestings hselfs.1
      (fun nesting hnesting => h nesting (List.mem_append_left _ hnesting)) disallowed
    obtain ⟨-, hadded, -⟩ := addChildNestings_eq_ok hmid
    rw [List.foldlM_cons, hmid]
    apply ih hselfs.2
    intro nesting hnesting
    rw [hadded.generatedNestings_eq hselfs.2] at hnesting
    have haddable := h nesting (List.mem_append_right _ hnesting)
    rwa [Addable, ← hadded.revisions] at haddable

/-- What is named below an operator is contained in what it refers to. -/
theorem NamesContained.transGen (h : db.NamesContained operators) {child : Operator V}
    (hchild : child ∈ operators) {descendant : Nesting}
    (hdescendant : descendant ∈ db.descendants child) :
    descendant ∈ db.nestings ∧
      TransGen db.Contains child.transformationId descendant.nestedTransformationId := by
  unfold descendants at hdescendant
  cases htype : child.type with
  | component =>
    rw [htype] at hdescendant
    exact absurd hdescendant List.not_mem_nil
  | workflow =>
    rw [htype] at hdescendant
    obtain ⟨hmem, hworkflow⟩ := mem_findAllNestedTransformationRevisions.mp hdescendant
    exact ⟨hmem, (h child hchild _).mp ⟨descendant, hmem, hworkflow, rfl⟩⟩

/-- The nestings to be generated can be added. -/
theorem Updatable.addable (h : db.Updatable workflowId operators)
    (hnames : db.NamesContained operators) {nesting : Nesting}
    (hnesting : nesting ∈ db.generatedNestings workflowId operators) : db.Addable nesting := by
  obtain ⟨child, hchild, hmem⟩ := List.mem_flatMap.mp hnesting
  have hstored := h.stored
  have hchildStored := h.operators_stored child hchild
  rcases List.mem_cons.mp hmem with rfl | hmem
  · constructor
    · simp only [Nesting.references, directNesting, List.mem_cons, List.not_mem_nil, or_false]
      rintro id (rfl | rfl | rfl)
      · exact hstored
      · exact hchildStored
      · exact hchildStored
    · simp [Nesting.checkConstraints, directNesting]
  · obtain ⟨descendant, hdescendant, rfl⟩ := List.mem_map.mp hmem
    obtain ⟨hrow, hcontains⟩ := hnames.transGen hchild hdescendant
    constructor
    · simp only [Nesting.references, deepNesting, List.mem_cons, List.not_mem_nil, or_false]
      rintro id (rfl | rfl | rfl)
      · exact hstored
      · exact hchildStored
      · exact db.references_exist descendant hrow _ (by simp [Nesting.references])
    · have hcheck := h.constraints descendant hrow
      have hdepth : 0 < descendant.depth := by
        simp only [Nesting.checkConstraints, decide_eq_true_eq] at hcheck
        exact hcheck.1
      have hne : child.transformationId ≠ descendant.nestedTransformationId := by
        intro heq
        rw [← heq] at hcontains
        exact h.no_inner_cycle child hchild hcontains
      simp [Nesting.checkConstraints, deepNesting, hne, hdepth]

/-- An update succeeds if nothing prevents it. -/
theorem Updatable.exists_updateNesting (h : db.Updatable workflowId operators)
    (hnames : db.NamesContained operators) :
    ∃ db', db.updateNesting workflowId operators = .ok db' := by
  have hselfs : ∀ child ∈ operators, child.transformationId ≠ workflowId := by
    intro child hchild hself
    exact h.no_cycle ⟨child, hchild, hself ▸ .refl⟩
  have haddable : ∀ nesting ∈
      (db.deleteOwnNestings workflowId).generatedNestings workflowId operators,
        (db.deleteOwnNestings workflowId).Addable nesting := by
    rw [generatedNestings_deleteOwnNestings hselfs]
    exact fun nesting hnesting => h.addable hnames hnesting
  obtain ⟨⟨after, disallowed⟩, hloop⟩ :=
    exists_foldlM_addChildNestings hselfs haddable [workflowId]
  obtain ⟨-, hadded, hdisallowed⟩ := foldlM_addChildNestings_eq_ok hloop
  rw [generatedNestings_deleteOwnNestings hselfs] at hadded
  have hcheck : ((after.findAllNestings workflowId).all fun ancestor =>
      ancestor.workflowId ∉ disallowed) = true := by
    rw [List.all_eq_true]
    intro ancestor hancestor
    obtain ⟨hmem, hnested⟩ := mem_findAllNestings.mp hancestor
    rw [decide_eq_true_eq]
    intro hforbidden
    rcases hadded.mem ancestor hmem with hnew | ⟨hold, -⟩
    · -- a generated row would name the workflow itself
      obtain ⟨child, hchild, hmem⟩ := List.mem_flatMap.mp hnew
      rcases List.mem_cons.mp hmem with rfl | hmem
      · exact hselfs child hchild hnested
      · obtain ⟨descendant, hdescendant, rfl⟩ := List.mem_map.mp hmem
        have hcontains := (hnames.transGen hchild hdescendant).2
        have hnested : descendant.nestedTransformationId = workflowId := hnested
        rw [hnested] at hcontains
        exact h.no_cycle ⟨child, hchild, hcontains.to_reflTransGen⟩
    · obtain ⟨hrow, hother⟩ := mem_deleteOwnNestings.mp hold
      have hback := h.containing ancestor hrow hnested hother
      rw [hdisallowed, List.singleton_append, List.mem_cons] at hforbidden
      obtain ⟨child, hchild, hbelow⟩ := List.mem_flatMap.mp (hforbidden.resolve_left hother)
      rw [descendants_deleteOwnNestings (hselfs child hchild)] at hbelow
      obtain ⟨descendant, hdescendant, hid⟩ := List.mem_map.mp hbelow
      have hcontains := (hnames.transGen hchild hdescendant).2
      rw [hid] at hcontains
      exact h.no_cycle ⟨child, hchild, (hcontains.trans hback).to_reflTransGen⟩
  refine ⟨after, ?_⟩
  unfold updateNesting
  refine bind_eq_ok.mpr ⟨(after, disallowed), hloop, ?_⟩
  exact require_bind_eq_ok.mpr ⟨hcheck, rfl⟩

end Success

end Database

/-! ## What is recorded -/

open Database

/-- With unique operator ids and right rows for what the operators refer to, an update succeeds
unless something prevents it, and afterwards the rows of the workflow name exactly what is reached
from its operators if and only if nothing is lost. -/
theorem updateNesting_names_iff {db : Database V D} {workflowId : UUID}
    {operators : List (Operator V)} (hids : (operators.map fun child => child.id).Nodup)
    (hnames : db.NamesContained operators) :
    (db.Updatable workflowId operators →
        ∃ db', db.updateNesting workflowId operators = .ok db') ∧
      ∀ db', db.updateNesting workflowId operators = .ok db' →
        ((∀ id, db'.Named workflowId id ↔ db.ReachableFrom operators id) ↔
          db.NoneLost operators) := by
  refine ⟨fun h => h.exists_updateNesting hnames, fun db' hdb' => ?_⟩
  have hcontained {child : Operator V} (hchild : child ∈ operators) {descendant : Nesting}
      (hstays : db.StaysLast child descendant) :
      TransGen db.Contains child.transformationId descendant.nestedTransformationId :=
    (hnames.transGen hchild (mem_of_lastEntry hstays).1).2
  constructor
  · intro h child hchild id hbelow
    have hnamed := (h id).mpr ⟨child, hchild, hbelow.to_reflTransGen⟩
    exact (named_updateNesting_iff hids hdb' id).mp hnamed
  · intro h id
    rw [named_updateNesting_iff hids hdb']
    constructor
    · intro ⟨child, hchild, hcases⟩
      rcases hcases with rfl | ⟨descendant, hstays, rfl⟩
      · exact ⟨child, hchild, .refl⟩
      · exact ⟨child, hchild, (hcontained hchild hstays).to_reflTransGen⟩
    · intro ⟨child, hchild, hreach⟩
      rcases (reflTransGen_iff_eq_or_transGen.mp hreach) with heq | hbelow
      · exact ⟨child, hchild, Or.inl heq⟩
      · exact h child hchild id hbelow

/-- Nothing is lost if operators of components have nothing below them, and rows below an operator
with the same depth and the same last operator name the same. -/
theorem noneLost_of_sameNames {db : Database V D} {operators : List (Operator V)}
    (hnames : db.NamesContained operators)
    (htypes : ∀ child ∈ operators, child.type = .component →
      ∀ id, ¬ db.Contains child.transformationId id)
    (hsame : ∀ child ∈ operators, ∀ row ∈ db.descendants child, ∀ row' ∈ db.descendants child,
      row.depth = row'.depth → row.nestedOperatorId = row'.nestedOperatorId →
        row.nestedTransformationId = row'.nestedTransformationId) :
    db.NoneLost operators := by
  intro child hchild id hbelow
  refine ⟨child, hchild, Or.inr ?_⟩
  obtain ⟨row, hrow, hworkflow, rfl⟩ := (hnames child hchild id).mpr hbelow
  have hdescendant : row ∈ db.descendants child := by
    unfold descendants
    cases htype : child.type with
    | component =>
      obtain ⟨next, hnext, -⟩ := TransGen.head'_iff.mp hbelow
      exact absurd hnext (htypes child hchild htype next)
    | workflow => exact mem_findAllNestedTransformationRevisions.mpr ⟨hrow, hworkflow⟩
  obtain ⟨last, hlast⟩ := exists_lastEntry
    (fun row : Nesting => (row.depth, row.nestedOperatorId)) hdescendant
  obtain ⟨hmem, hkey⟩ := mem_of_lastEntry hlast
  obtain ⟨hdepth, hoperator⟩ := Prod.mk.inj hkey
  refine ⟨last, ?_, hsame child hchild last hmem row hdescendant hdepth hoperator⟩
  rw [StaysLast, hdepth, hoperator]
  exact hlast

/-! ## A copied workflow -/

/-- A workflow 2 with two workflows, 3 and a copy 4 of it whose operator, with the same id, refers
to something else. -/
def copiedWorkflowDb : Database ℤ Unit where
  revisions := [plainWorkflow 1 .draft [], plainWorkflow 2 .draft
      [workflowOperator 21 3 .draft, workflowOperator 22 4 .draft],
    plainWorkflow 3 .draft [workflowOperator 31 5 .draft],
    plainWorkflow 4 .draft [workflowOperator 31 6 .draft],
    plainWorkflow 5 .draft [], plainWorkflow 6 .draft []]
  nestings := [⟨4, 6, 31, 1, 6, 31⟩, ⟨3, 5, 31, 1, 5, 31⟩, ⟨2, 3, 21, 1, 3, 21⟩,
    ⟨2, 3, 21, 2, 5, 31⟩, ⟨2, 4, 22, 1, 4, 22⟩, ⟨2, 4, 22, 2, 6, 31⟩]
  ids_unique := by decide
  nesting_keys_unique := by decide
  references_exist := by simp [Nesting.references, plainWorkflow]

/-- What contains what. -/
theorem contains_copiedWorkflowDb_iff {id id' : UUID} : copiedWorkflowDb.Contains id id' ↔
    (id, id') ∈ [(2, 3), (2, 4), (3, 5), (4, 6)] := by
  constructor
  · intro ⟨ref, href, hid⟩
    obtain ⟨row, hrow, rfl⟩ := exists_row_of_mem_refs href
    subst hid
    have hall : ∀ row ∈ copiedWorkflowDb.revisions, ∀ ref ∈ copiedWorkflowDb.refs row.id,
        (row.id, ref.transformationId) ∈ [(2, 3), (2, 4), (3, 5), (4, 6)] := by
      decide +kernel
    exact hall row hrow ref href
  · intro hedge
    have hall : ∀ edge ∈ [(2, 3), (2, 4), (3, 5), (4, 6)], ∃ ref ∈ copiedWorkflowDb.refs edge.1,
        ref.transformationId = edge.2 := by
      decide +kernel
    exact hall (id, id') hedge

/-- What is contained on any level. -/
theorem transGen_copiedWorkflowDb_iff {id id' : UUID} :
    TransGen copiedWorkflowDb.Contains id id' ↔
      (id, id') ∈ [(2, 3), (2, 4), (3, 5), (4, 6), (2, 5), (2, 6)] := by
  constructor
  · intro h
    induction h with
    | single hfirst =>
      have hedge := contains_copiedWorkflowDb_iff.mp hfirst
      simp only [List.mem_cons, Prod.mk.injEq, List.not_mem_nil, or_false] at hedge ⊢
      tauto
    | tail _ hlast ih =>
      have hedge := contains_copiedWorkflowDb_iff.mp hlast
      simp only [List.mem_cons, Prod.mk.injEq, List.not_mem_nil, or_false] at hedge ih ⊢
      grind
  · intro h
    have hstep {a b : UUID} (hedge : (a, b) ∈ [(2, 3), (2, 4), (3, 5), (4, 6)]) :
        copiedWorkflowDb.Contains a b := contains_copiedWorkflowDb_iff.mpr hedge
    simp only [List.mem_cons, Prod.mk.injEq, List.not_mem_nil, or_false] at h
    rcases h with ⟨rfl, rfl⟩ | ⟨rfl, rfl⟩ | ⟨rfl, rfl⟩ | ⟨rfl, rfl⟩ | ⟨rfl, rfl⟩ | ⟨rfl, rfl⟩
    · exact .single (hstep (by decide))
    · exact .single (hstep (by decide))
    · exact .single (hstep (by decide))
    · exact .single (hstep (by decide))
    · exact .tail (.single (hstep (by decide : (2, 3) ∈ _))) (hstep (by decide))
    · exact .tail (.single (hstep (by decide : (2, 4) ∈ _))) (hstep (by decide))

/-- The rows name what is contained. -/
theorem named_copiedWorkflowDb_iff {id id' : UUID} :
    copiedWorkflowDb.Named id id' ↔ TransGen copiedWorkflowDb.Contains id id' := by
  rw [transGen_copiedWorkflowDb_iff]
  simp only [Named, copiedWorkflowDb, List.mem_cons, List.not_mem_nil, or_false,
    exists_eq_or_imp, exists_eq_left, Prod.mk.injEq]
  grind

/-- Nothing prevents an update of a workflow with operators for stored workflows which contain
something. -/
theorem updatable_copiedWorkflowDb {operators : List (Operator ℤ)}
    (h : ∀ child ∈ operators, child.transformationId ∈ [2, 3, 4]) :
    copiedWorkflowDb.Updatable 1 operators := by
  have hedges : ∀ edge ∈ [(2, 3), (2, 4), (3, 5), (4, 6), (2, 5), (2, 6)],
      edge.2 ≠ 1 ∧ edge.1 ≠ edge.2 := by decide
  refine ⟨by decide, fun child hchild => ?_, by decide, fun ⟨child, hchild, hreach⟩ => ?_,
    fun child hchild hcycle => ?_, fun nesting hmem hnested => ?_⟩
  · have hstored : ∀ id ∈ [2, 3, 4], ∃ row ∈ copiedWorkflowDb.revisions, row.id = id := by decide
    exact hstored _ (h child hchild)
  · rcases reflTransGen_iff_eq_or_transGen.mp hreach with heq | hbelow
    · have hother : ∀ id ∈ [2, 3, 4], 1 ≠ id := by decide
      exact hother _ (h child hchild) heq
    · exact (hedges _ (transGen_copiedWorkflowDb_iff.mp hbelow)).1 rfl
  · exact (hedges _ (transGen_copiedWorkflowDb_iff.mp hcycle)).2 rfl
  · have hnone : ∀ nesting ∈ copiedWorkflowDb.nestings, nesting.nestedTransformationId ≠ 1 := by
      decide
    exact absurd hnested (hnone nesting hmem)

/-- A content with the workflow closes no cycle, and the rows are right before the update, but after
it one of the revisions below is not named. -/
theorem copiedWorkflow_lost :
    copiedWorkflowDb.NamesContained [workflowOperator 11 2 .draft] ∧
      copiedWorkflowDb.Updatable 1 [workflowOperator 11 2 .draft] ∧
      ∃ db', copiedWorkflowDb.updateNesting 1 [workflowOperator 11 2 .draft] = .ok db' ∧
        copiedWorkflowDb.ReachableFrom [workflowOperator 11 2 .draft] 5 ∧ ¬ db'.Named 1 5 := by
  have hnames : copiedWorkflowDb.NamesContained [workflowOperator 11 2 .draft] :=
    fun _ _ _ => named_copiedWorkflowDb_iff
  have hupdatable : copiedWorkflowDb.Updatable 1 [workflowOperator 11 2 .draft] :=
    updatable_copiedWorkflowDb (by decide)
  obtain ⟨db', hdb'⟩ := hupdatable.exists_updateNesting hnames
  refine ⟨hnames, hupdatable, db', hdb', ⟨_, List.mem_singleton_self _, ?_⟩, ?_⟩
  · exact (transGen_copiedWorkflowDb_iff.mpr (by decide : (2, 5) ∈ _)).to_reflTransGen
  · have hrows : (copiedWorkflowDb.updateNesting 1 [workflowOperator 11 2 .draft]).map (fun db' =>
        db'.nestings.all fun nesting => nesting.workflowId ≠ 1 ∨
          nesting.nestedTransformationId ≠ 5) = .ok true := by
      decide +kernel
    rw [hdb'] at hrows
    intro ⟨nesting, hnesting, hworkflow, hnested⟩
    have hrow := List.all_eq_true.mp (Except.ok.inj hrows) nesting hnesting
    simp [hworkflow, hnested] at hrow

/-- Operators for both of the inner workflows. -/
def innerOperators : List (Operator ℤ) :=
  [workflowOperator 11 3 .draft, workflowOperator 12 4 .draft]

/-- A content with the inner workflows side by side closes no cycle, the rows are right before the
update, and nothing is lost, so after it exactly these and what is below them is named. -/
theorem innerWorkflows_named :
    copiedWorkflowDb.NamesContained innerOperators ∧
      copiedWorkflowDb.Updatable 1 innerOperators ∧ copiedWorkflowDb.NoneLost innerOperators ∧
      ∃ db', copiedWorkflowDb.updateNesting 1 innerOperators = .ok db' ∧
        (∀ id, db'.Named 1 id ↔ copiedWorkflowDb.ReachableFrom innerOperators id) ∧
        db'.Named 1 5 ∧ db'.Named 1 6 := by
  have hnames : copiedWorkflowDb.NamesContained innerOperators :=
    fun _ _ _ => named_copiedWorkflowDb_iff
  have hnoneLost : copiedWorkflowDb.NoneLost innerOperators := by
    refine noneLost_of_sameNames hnames (fun child hchild hcomponent => ?_) (by decide)
    have hworkflows : ∀ child ∈ innerOperators, child.type = .workflow := by decide
    exact absurd ((hworkflows child hchild).symm.trans hcomponent) (by decide)
  have hupdatable : copiedWorkflowDb.Updatable 1 innerOperators :=
    updatable_copiedWorkflowDb (by decide)
  obtain ⟨db', hdb'⟩ := (updateNesting_names_iff (by decide) hnames).1 hupdatable
  have hnamed := ((updateNesting_names_iff (by decide) hnames).2 db' hdb').mpr hnoneLost
  refine ⟨hnames, hupdatable, hnoneLost, db', hdb', hnamed, (hnamed 5).mpr ?_, (hnamed 6).mpr ?_⟩
  · exact ⟨_, List.mem_cons_self,
      (transGen_copiedWorkflowDb_iff.mpr (by decide : (3, 5) ∈ _)).to_reflTransGen⟩
  · exact ⟨_, List.mem_cons_of_mem _ (List.mem_singleton_self _),
      (transGen_copiedWorkflowDb_iff.mpr (by decide : (4, 6) ∈ _)).to_reflTransGen⟩

end HetidaDesigner
