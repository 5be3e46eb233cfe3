import HetidaDesigner.Store.Database

/-!
# Rewriting the nestings of a workflow

`update_nesting` of `persistence/dbservice/nesting.py` deletes the nestings of a workflow and
generates them again from its operators and the nestings of the workflows these refer to.
-/

namespace HetidaDesigner

open Checks KeyedList

variable {V D : Type}

/-- The nesting of an operator in its workflow. -/
def directNesting (workflowId : UUID) (child : Operator V) : Nesting where
  workflowId := workflowId
  viaTransformationId := child.transformationId
  viaOperatorId := child.id
  depth := 1
  nestedTransformationId := child.transformationId
  nestedOperatorId := child.id

/-- The nesting which an operator contributes for a descendant of the workflow it refers to. -/
def deepNesting (workflowId : UUID) (child : Operator V) (descendant : Nesting) : Nesting where
  workflowId := workflowId
  viaTransformationId := child.transformationId
  viaOperatorId := child.id
  depth := 1 + descendant.depth
  nestedTransformationId := descendant.nestedTransformationId
  nestedOperatorId := descendant.nestedOperatorId

namespace Database

/-- Add several nestings. -/
def addNestings (db : Database V D) (nestings : List Nesting) : Except StoreError (Database V D) :=
  nestings.foldlM addSingleNesting db

/-- Several such nestings can be added. -/
theorem exists_addNestings {db : Database V D} {nestings : List Nesting}
    (h : ∀ nesting ∈ nestings, db.Addable nesting) : ∃ db', db.addNestings nestings = .ok db' := by
  unfold addNestings
  induction nestings generalizing db with
  | nil => exact ⟨db, rfl⟩
  | cons nesting rest ih =>
    rw [List.forall_mem_cons] at h
    obtain ⟨mid, hmid⟩ := exists_addSingleNesting h.1
    have hrest : ∀ nesting ∈ rest, mid.Addable nesting := by
      intro nesting hnesting
      have haddable := h.2 nesting hnesting
      rwa [Addable, ← (addSingleNesting_eq_ok hmid).1] at haddable
    obtain ⟨db', hdb'⟩ := ih hrest
    rw [List.foldlM_cons, hmid]
    exact ⟨db', hdb'⟩

/-- The nestings below an operator: those of the workflow it refers to. -/
def descendants (db : Database V D) (child : Operator V) : List Nesting :=
  match child.type with
  | .component => []
  | .workflow => db.findAllNestedTransformationRevisions child.transformationId

/-- One round of the loop of `update_nesting`: the nestings of an operator are added and its
descendants become disallowed ancestors. -/
def addChildNestings (workflowId : UUID) (state : Database V D × List UUID)
    (child : Operator V) : Except StoreError (Database V D × List UUID) := do
  let db ← state.1.addSingleNesting (directNesting workflowId child)
  require (child.transformationId ≠ workflowId) .nestingCycleDetected
  let descendants := db.descendants child
  let db ← db.addNestings (descendants.map (deepNesting workflowId child))
  return (db, state.2 ++ descendants.map fun descendant => descendant.nestedTransformationId)

/-- Replace the nestings of a workflow according to its operators. -/
def updateNesting (db : Database V D) (workflowId : UUID) (operators : List (Operator V)) :
    Except StoreError (Database V D) := do
  let (db, disallowedAncestors) ← operators.foldlM (addChildNestings workflowId)
    (db.deleteOwnNestings workflowId, [workflowId])
  require ((db.findAllNestings workflowId).all fun ancestor =>
    ancestor.workflowId ∉ disallowedAncestors) .nestingCycleDetected
  return db

/-- The nestings which an operator contributes to its workflow. -/
def childNestings (db : Database V D) (workflowId : UUID) (child : Operator V) : List Nesting :=
  directNesting workflowId child :: (db.descendants child).map (deepNesting workflowId child)

/-- The nestings which are generated for a workflow. -/
def generatedNestings (db : Database V D) (workflowId : UUID) (operators : List (Operator V)) :
    List Nesting :=
  operators.flatMap (db.childNestings workflowId)

/-- The revisions which must not contain the workflow. -/
def disallowedAncestors (db : Database V D) (workflowId : UUID) (operators : List (Operator V)) :
    List UUID :=
  workflowId :: operators.flatMap fun child =>
    (db.descendants child).map fun descendant => descendant.nestedTransformationId

/-! ## Adding nestings -/

variable {db db' : Database V D} {workflowId : UUID}

/-- A generated nesting belongs to the workflow. -/
theorem workflowId_of_mem_childNestings {child : Operator V} {nesting : Nesting}
    (h : nesting ∈ db.childNestings workflowId child) : nesting.workflowId = workflowId := by
  rcases List.mem_cons.mp h with rfl | h
  · rfl
  · obtain ⟨descendant, -, rfl⟩ := List.mem_map.mp h
    rfl

/-- The database after adding nestings to a workflow: a nesting is there if it is an added one
or one from before whose key is not among the added ones. An added nesting may be overwritten by
a later one with its key. -/
structure Added (workflowId : UUID) (db db' : Database V D) (added : List Nesting) : Prop where
  revisions : db'.revisions = db.revisions
  others : ∀ id, id ≠ workflowId → db'.findAllNestedTransformationRevisions id =
    db.findAllNestedTransformationRevisions id
  old : ∀ nesting ∈ db.nestings, (∀ a ∈ added, a.key ≠ nesting.key) → nesting ∈ db'.nestings
  mem : ∀ nesting ∈ db'.nestings,
    nesting ∈ added ∨ (nesting ∈ db.nestings ∧ ∀ a ∈ added, a.key ≠ nesting.key)
  keys : ∀ a ∈ added, ∃ nesting ∈ db'.nestings, nesting.key = a.key

/-- Adding nothing. -/
theorem Added.refl (db : Database V D) : Added workflowId db db [] where
  revisions := rfl
  others := fun _ _ => rfl
  old := fun _ h _ => h
  mem := fun _ h => Or.inr ⟨h, by simp⟩
  keys := by simp

/-- Adding one nesting. -/
theorem Added.single {nesting : Nesting} (h : db.addSingleNesting nesting = .ok db') :
    Added nesting.workflowId db db' [nesting] := by
  obtain ⟨hrevisions, hnestings⟩ := addSingleNesting_eq_ok h
  have hmem (other : Nesting) : other ∈ db'.nestings ↔
      other = nesting ∨ (other ∈ db.nestings ∧ other.key ≠ nesting.key) := by
    rw [hnestings, mem_insertEntry_iff]
  refine ⟨hrevisions, fun id hid => ?_, fun other hother hkey => ?_, fun other hother => ?_, ?_⟩
  · rw [findAllNestedTransformationRevisions, hnestings]
    refine filter_insertEntry fun other hkey => ?_
    have hworkflow : other.workflowId = nesting.workflowId := congrArg Prod.fst hkey
    simpa [hworkflow] using hid.symm
  · exact (hmem other).mpr (Or.inr ⟨hother, (hkey nesting (by simp)).symm⟩)
  · rcases (hmem other).mp hother with rfl | ⟨hold, hkey⟩
    · exact Or.inl (by simp)
    · exact Or.inr ⟨hold, by simpa using hkey.symm⟩
  · simpa using ⟨nesting, (hmem nesting).mpr (Or.inl rfl), rfl⟩

/-- Adding in two steps. -/
theorem Added.trans {mid : Database V D} {first second : List Nesting}
    (h : Added workflowId db mid first) (h' : Added workflowId mid db' second) :
    Added workflowId db db' (first ++ second) := by
  refine ⟨h'.revisions.trans h.revisions, fun id hid => (h'.others id hid).trans (h.others id hid),
    fun other hother hkey => ?_, fun other hother => ?_, fun a ha => ?_⟩
  · refine h'.old other (h.old other hother fun a ha => ?_) fun a ha => ?_
    · exact hkey a (List.mem_append_left _ ha)
    · exact hkey a (List.mem_append_right _ ha)
  · rcases h'.mem other hother with hnew | ⟨hmid, hkey⟩
    · exact Or.inl (List.mem_append_right _ hnew)
    · rcases h.mem other hmid with hnew | ⟨hold, hkey'⟩
      · exact Or.inl (List.mem_append_left _ hnew)
      · refine Or.inr ⟨hold, fun a ha => ?_⟩
        exact (List.mem_append.mp ha).elim (hkey' a) (hkey a)
  · rcases List.mem_append.mp ha with ha | ha
    · by_cases hlater : ∃ b ∈ second, b.key = a.key
      · obtain ⟨b, hb, hba⟩ := hlater
        obtain ⟨nesting, hmem, hkey⟩ := h'.keys b hb
        exact ⟨nesting, hmem, hkey.trans hba⟩
      · obtain ⟨nesting, hmem, hkey⟩ := h.keys a ha
        refine ⟨nesting, h'.old nesting hmem fun b hb heq => hlater ⟨b, hb, ?_⟩, hkey⟩
        exact heq.trans hkey
    · exact h'.keys a ha

/-- Adding several nestings. -/
theorem Added.of_addNestings {nestings : List Nesting}
    (hworkflow : ∀ nesting ∈ nestings, nesting.workflowId = workflowId)
    (h : db.addNestings nestings = .ok db') : Added workflowId db db' nestings := by
  unfold addNestings at h
  induction nestings generalizing db with
  | nil =>
    obtain rfl := Except.ok.inj h
    exact .refl db
  | cons nesting rest ih =>
    rw [List.foldlM_cons, bind_eq_ok] at h
    obtain ⟨mid, hmid, hrest⟩ := h
    rw [List.forall_mem_cons] at hworkflow
    obtain ⟨rfl, hworkflow⟩ := hworkflow
    exact (Added.single hmid).trans (ih hworkflow hrest)

/-- Adding nestings to a workflow leaves the descendants of operators which do not refer to it. -/
theorem Added.descendants_eq {added : List Nesting} (h : Added workflowId db db' added)
    {child : Operator V} (hchild : child.transformationId ≠ workflowId) :
    db'.descendants child = db.descendants child := by
  unfold descendants
  cases child.type with
  | component => rfl
  | workflow => exact h.others child.transformationId hchild

/-- The same nestings are generated for such operators. -/
theorem Added.generatedNestings_eq {added : List Nesting} (h : Added workflowId db db' added)
    {operators : List (Operator V)}
    (hselfs : ∀ child ∈ operators, child.transformationId ≠ workflowId) :
    db'.generatedNestings workflowId operators = db.generatedNestings workflowId operators := by
  refine List.flatMap_congr fun child hchild => ?_
  rw [childNestings, childNestings, h.descendants_eq (hselfs child hchild)]

/-! ## The nestings after an update -/

/-- A round of the loop adds the nestings of an operator, which does not refer to the workflow. -/
theorem addChildNestings_eq_ok {disallowed disallowed' : List UUID} {child : Operator V}
    (h : addChildNestings workflowId (db, disallowed) child = .ok (db', disallowed')) :
    child.transformationId ≠ workflowId ∧
      Added workflowId db db' (db.childNestings workflowId child) ∧
      disallowed' = disallowed ++
        (db.descendants child).map fun descendant => descendant.nestedTransformationId := by
  unfold addChildNestings at h
  obtain ⟨mid, hmid, h⟩ := bind_eq_ok.mp h
  obtain ⟨hself, h⟩ := require_bind_eq_ok.mp h
  replace hself : child.transformationId ≠ workflowId := by simpa using hself
  obtain ⟨after, hafter, h⟩ := bind_eq_ok.mp h
  obtain ⟨rfl, rfl⟩ := Prod.mk.inj (return_eq_ok.mp h)
  have hdirect : Added workflowId db mid [directNesting workflowId child] := Added.single hmid
  rw [hdirect.descendants_eq hself] at hafter ⊢
  refine ⟨hself, hdirect.trans (Added.of_addNestings ?_ hafter), rfl⟩
  intro nesting hnesting
  exact workflowId_of_mem_childNestings (List.mem_cons_of_mem _ hnesting)

/-- The loop adds the nestings of all operators. -/
theorem foldlM_addChildNestings_eq_ok {disallowed disallowed' : List UUID}
    {operators : List (Operator V)}
    (h : operators.foldlM (addChildNestings workflowId) (db, disallowed) = .ok (db', disallowed')) :
    (∀ child ∈ operators, child.transformationId ≠ workflowId) ∧
      Added workflowId db db' (db.generatedNestings workflowId operators) ∧
      disallowed' = disallowed ++ operators.flatMap fun child =>
        (db.descendants child).map fun descendant => descendant.nestedTransformationId := by
  induction operators generalizing db disallowed with
  | nil =>
    obtain ⟨rfl, rfl⟩ := Prod.mk.inj (Except.ok.inj h)
    exact ⟨by simp, .refl db, by simp⟩
  | cons child rest ih =>
    rw [List.foldlM_cons, bind_eq_ok] at h
    obtain ⟨⟨mid, disallowedMid⟩, hmid, hrest⟩ := h
    obtain ⟨hself, hfirst, rfl⟩ := addChildNestings_eq_ok hmid
    obtain ⟨hselfs, hothers, rfl⟩ := ih hrest
    have hdescendants : ∀ other ∈ rest, mid.descendants other = db.descendants other :=
      fun other hother => hfirst.descendants_eq (hselfs other hother)
    rw [hfirst.generatedNestings_eq hselfs] at hothers
    refine ⟨List.forall_mem_cons.mpr ⟨hself, hselfs⟩, hfirst.trans hothers, ?_⟩
    rw [List.flatMap_cons, List.append_assoc]
    congr 2
    exact List.flatMap_congr fun other hother => by rw [hdescendants other hother]

/-- What an update of the nestings of a workflow has done. -/
structure NestingsUpdated (db db' : Database V D) (workflowId : UUID)
    (operators : List (Operator V)) : Prop where
  revisions : db'.revisions = db.revisions
  no_self : ∀ child ∈ operators, child.transformationId ≠ workflowId
  others : ∀ nesting : Nesting, nesting.workflowId ≠ workflowId →
    (nesting ∈ db'.nestings ↔ nesting ∈ db.nestings)
  generated : ∀ nesting ∈ db'.nestings, nesting.workflowId = workflowId →
    nesting ∈ db.generatedNestings workflowId operators
  keys : ∀ a ∈ db.generatedNestings workflowId operators,
    ∃ nesting ∈ db'.nestings, nesting.key = a.key
  no_cycle : ∀ ancestor ∈ db'.nestings, ancestor.nestedTransformationId = workflowId →
    ancestor.workflowId ∉ db.disallowedAncestors workflowId operators

/-- Deleting the nestings of a workflow leaves the descendants of operators which do not refer
to it. -/
theorem descendants_deleteOwnNestings {child : Operator V}
    (hchild : child.transformationId ≠ workflowId) :
    (db.deleteOwnNestings workflowId).descendants child = db.descendants child := by
  unfold descendants
  cases child.type with
  | component => rfl
  | workflow =>
    change (db.nestings.filter _).filter _ = db.nestings.filter _
    rw [List.filter_filter]
    refine List.filter_congr fun nesting _ => ?_
    by_cases hnesting : nesting.workflowId = child.transformationId
    · simpa [hnesting] using hchild
    · simp [hnesting]

/-- Deleting the nestings of a workflow leaves those to be generated for operators which do not
refer to it. -/
theorem generatedNestings_deleteOwnNestings {operators : List (Operator V)}
    (hselfs : ∀ child ∈ operators, child.transformationId ≠ workflowId) :
    (db.deleteOwnNestings workflowId).generatedNestings workflowId operators =
      db.generatedNestings workflowId operators := by
  refine List.flatMap_congr fun child hchild => ?_
  rw [childNestings, childNestings, descendants_deleteOwnNestings (hselfs child hchild)]

/-- A successful update has done what it should. -/
theorem updateNesting_eq_ok {operators : List (Operator V)}
    (h : db.updateNesting workflowId operators = .ok db') :
    NestingsUpdated db db' workflowId operators := by
  unfold updateNesting at h
  obtain ⟨⟨after, disallowed⟩, hloop, h⟩ := bind_eq_ok.mp h
  obtain ⟨hcheck, h⟩ := require_bind_eq_ok.mp h
  obtain rfl := return_eq_ok.mp h
  obtain ⟨hself, hadded, rfl⟩ := foldlM_addChildNestings_eq_ok hloop
  have hdescendants : ∀ child ∈ operators,
      (db.deleteOwnNestings workflowId).descendants child = db.descendants child :=
    fun child hchild => descendants_deleteOwnNestings (hself child hchild)
  rw [generatedNestings_deleteOwnNestings hself] at hadded
  have hworkflow : ∀ a ∈ db.generatedNestings workflowId operators, a.workflowId = workflowId := by
    intro a ha
    obtain ⟨child, -, ha⟩ := List.mem_flatMap.mp ha
    exact workflowId_of_mem_childNestings ha
  refine ⟨hadded.revisions, hself, fun nesting hnesting => ⟨fun hmem => ?_, fun hmem => ?_⟩,
    fun nesting hmem hnesting => ?_, hadded.keys, fun ancestor hmem hnested => ?_⟩
  · rcases hadded.mem nesting hmem with hnew | ⟨hold, -⟩
    · exact absurd (hworkflow nesting hnew) hnesting
    · exact (mem_deleteOwnNestings.mp hold).1
  · refine hadded.old nesting (mem_deleteOwnNestings.mpr ⟨hmem, hnesting⟩) fun a ha heq => ?_
    rw [← hworkflow a ha] at hnesting
    exact hnesting (congrArg Prod.fst heq).symm
  · rcases hadded.mem nesting hmem with hnew | ⟨hold, -⟩
    · exact hnew
    · exact absurd hnesting (mem_deleteOwnNestings.mp hold).2
  · have hancestor := List.all_eq_true.mp hcheck ancestor
      (mem_findAllNestings.mpr ⟨hmem, hnested⟩)
    have hflat : (operators.flatMap fun child =>
          ((db.deleteOwnNestings workflowId).descendants child).map fun descendant =>
            descendant.nestedTransformationId) =
        operators.flatMap fun child =>
          (db.descendants child).map fun descendant => descendant.nestedTransformationId :=
      List.flatMap_congr fun child hchild => by rw [hdescendants child hchild]
    rw [hflat] at hancestor
    simpa [disallowedAncestors] using hancestor

end Database

end HetidaDesigner
