import HetidaDesigner.Library.Checks
import HetidaDesigner.Library.Depths
import HetidaDesigner.Store.Containment

/-!
# Nesting levels

`trafoutils/nestings.py`: the level of a transformation revision, determined by a recursion which
passes the level downwards together with the ids it has seen. The recursion is bounded by a number
of rounds; the number of entries of the dictionary suffices.
-/

namespace HetidaDesigner

open Checks Depths

/-- Transformation revisions by ids. -/
abbrev TransformationDict (V W : Type) := List (UUID × TransformationRevision V W)

/-- Reasons for not determining a nesting level. -/
inductive NestingError
  | nestingLevelCycleDetected
  | missingReferencedTransformation
  | typeError
  | rounds
  deriving DecidableEq, Repr

section Definitions

variable {V W : Type} (transformationDict : TransformationDict V W)

/-- One operator in the loop of `nesting_level`. -/
def nextNestingLevel (recurse : UUID → Except NestingError ℕ) (nextlevel : ℕ)
    (operator : Operator V) : Except NestingError ℕ :=
  if operator.type = .workflow then
    if (transformationDict.lookup operator.transformationId).isNone then
      .error .missingReferencedTransformation
    else (recurse operator.transformationId).map fun below => max nextlevel below
  else .ok nextlevel

/-- `nesting_level`, with the level and the ids seen on the way. -/
def nestingLevelWithin : ℕ → UUID → ℕ → List UUID → Except NestingError ℕ
  | 0, _, _, _ => .error .rounds
  | rounds + 1, transformationId, level, seen =>
    if transformationId ∈ seen then .error .nestingLevelCycleDetected
    else
      match transformationDict.lookup transformationId with
      | none => .error .missingReferencedTransformation
      | some transformation =>
        match transformation.type, transformation.content with
        | .component, _ => .ok level
        | .workflow, .code _ => .error .typeError
        | .workflow, .workflow content =>
          content.operators.foldlM (nextNestingLevel transformationDict fun id =>
            nestingLevelWithin rounds id (level + 1) (transformationId :: seen)) (level + 1)

/-- `nesting_level` -/
def nestingLevel (transformationId : UUID) : Except NestingError ℕ :=
  nestingLevelWithin transformationDict (transformationDict.length + 1) transformationId 0 []

/-- Revisions have the content which belongs to their type, as validated ones do. -/
def ContentsFit : Prop :=
  ∀ entry ∈ transformationDict, match entry.2.type, entry.2.content with
    | .component, .code _ => True
    | .workflow, .workflow _ => True
    | _, _ => False

/-- Operators have the types of the transformations they refer to. -/
def OperatorTypesFit : Prop :=
  ∀ entry ∈ transformationDict, ∀ operator ∈ entry.2.operators, ∀ transformation,
    transformationDict.lookup operator.transformationId = some transformation →
      operator.type = transformation.type

/-- A transformation has an operator which refers to another one. -/
def ContainsTrafo (a b : UUID) : Prop :=
  ∃ transformation, transformationDict.lookup a = some transformation ∧
    ∃ operator ∈ transformation.operators, operator.transformationId = b

/-- A transformation which contains itself can be reached. -/
def CycleReachable (id : UUID) : Prop :=
  ∃ a, Relation.ReflTransGen (ContainsTrafo transformationDict) id a ∧
    Relation.TransGen (ContainsTrafo transformationDict) a a

/-- An operator which refers to a missing workflow can be reached. -/
def MissingWorkflowReachable (id : UUID) : Prop :=
  ∃ a transformation, Relation.ReflTransGen (ContainsTrafo transformationDict) id a ∧
    transformationDict.lookup a = some transformation ∧
    ∃ operator ∈ transformation.operators, operator.type = .workflow ∧
      transformationDict.lookup operator.transformationId = none

/-- The level of a component is zero, that of a workflow is one above the levels of the
transformations of its operators. -/
def IsNestingLevel (id : UUID) (level : ℕ) : Prop :=
  ∃ transformation, transformationDict.lookup id = some transformation ∧
    match transformation.type with
    | .component => level = 0
    | .workflow => ∃ levels : UUID → ℕ,
      (∀ operator ∈ transformation.operators,
        (transformationDict.lookup operator.transformationId).isSome →
          nestingLevel transformationDict operator.transformationId =
            .ok (levels operator.transformationId)) ∧
      level = greatest levels ((transformation.operators.map fun operator =>
        operator.transformationId).filter fun id => (transformationDict.lookup id).isSome) + 1

/-- The transformations to which operators refer as workflows. -/
def workflowIds (operators : List (Operator V)) : List UUID :=
  (operators.filter fun operator => operator.type = .workflow).map
    fun operator => operator.transformationId

/-- What the recursion sees of a transformation. -/
def nestingView (id : UUID) : Option (Node UUID) :=
  match transformationDict.lookup id with
  | none => none
  | some transformation =>
    match transformation.type with
    | .component => some .leaf
    | .workflow => some (.inner (workflowIds transformation.operators))

end Definitions

section Spec

variable {V W : Type} {transformationDict : TransformationDict V W}

/-! ## The recursion -/

/-- The meaning of the outcome of the recursion. -/
def NestingOutcome (transformationDict : TransformationDict V W) (id : UUID) (level : ℕ) :
    Except NestingError ℕ → Prop
  | .ok result => ∃ depth, HasDepth (nestingView transformationDict) id depth ∧
      result = level + depth
  | .error .nestingLevelCycleDetected =>
      ∃ a, Relation.ReflTransGen (Child (nestingView transformationDict)) id a ∧
        Relation.TransGen (Child (nestingView transformationDict)) a a
  | .error .missingReferencedTransformation =>
      ∃ a, Relation.ReflTransGen (Child (nestingView transformationDict)) id a ∧
        nestingView transformationDict a = none
  | .error _ => False

/-- Errors below a transformation are errors at it. -/
theorem NestingOutcome.of_child {a b : UUID} {level level' : ℕ} {error : NestingError}
    (hab : Child (nestingView transformationDict) a b)
    (h : NestingOutcome transformationDict b level (.error error)) :
    NestingOutcome transformationDict a level' (.error error) := by
  cases error with
  | nestingLevelCycleDetected =>
    obtain ⟨c, hreach, hcycle⟩ := h
    exact ⟨c, hreach.head hab, hcycle⟩
  | missingReferencedTransformation =>
    obtain ⟨c, hreach, hnone⟩ := h
    exact ⟨c, hreach.head hab, hnone⟩
  | typeError => exact h
  | rounds => exact h

/-- Nothing is seen of what is not in the dictionary. -/
theorem nestingView_eq_none {id : UUID} :
    nestingView transformationDict id = none ↔ transformationDict.lookup id = none := by
  unfold nestingView
  split
  · simp [*]
  · rename_i transformation hlookup
    rw [hlookup]
    split <;> simp

/-- An operator which refers to a workflow. -/
theorem workflowIds_cons_of_pos {operator : Operator V} (h : operator.type = .workflow)
    (rest : List (Operator V)) :
    workflowIds (operator :: rest) = operator.transformationId :: workflowIds rest := by
  simp [workflowIds, h]

/-- An operator which does not. -/
theorem workflowIds_cons_of_neg {operator : Operator V} (h : operator.type ≠ .workflow)
    (rest : List (Operator V)) : workflowIds (operator :: rest) = workflowIds rest := by
  simp [workflowIds, h]

/-- The meaning of the outcome of the loop over the operators of a workflow. -/
def OperatorsOutcome (transformationDict : TransformationDict V W) (id : UUID) (level start : ℕ)
    (children : List UUID) : Except NestingError ℕ → Prop
  | .ok result =>
    (∀ b ∈ children, ∃ n, HasDepth (nestingView transformationDict) b n) ∧
      result = max start (level + greatest (depth (nestingView transformationDict)) children)
  | .error error => NestingOutcome transformationDict id level (.error error)

/-- The loop over the operators of a workflow. -/
theorem foldlM_operators_outcome {id : UUID} {level : ℕ} {recurse : UUID → Except NestingError ℕ}
    {operators : List (Operator V)}
    (hchild : ∀ b ∈ workflowIds operators, Child (nestingView transformationDict) id b)
    (hrecurse : ∀ b ∈ workflowIds operators,
      NestingOutcome transformationDict b level (recurse b)) {start : ℕ} (hstart : level ≤ start) :
    OperatorsOutcome transformationDict id level start (workflowIds operators)
      (operators.foldlM (nextNestingLevel transformationDict recurse) start) := by
  induction operators generalizing start with
  | nil => exact ⟨nofun, (Nat.max_eq_left hstart).symm⟩
  | cons operator rest ih =>
    rw [List.foldlM_cons, nextNestingLevel]
    by_cases htype : operator.type = .workflow
    · rw [workflowIds_cons_of_pos htype] at hchild hrecurse ⊢
      obtain ⟨hfirst, hchild⟩ := List.forall_mem_cons.mp hchild
      obtain ⟨houtcome, hrecurse⟩ := List.forall_mem_cons.mp hrecurse
      rw [if_pos htype]
      cases hlookup : transformationDict.lookup operator.transformationId with
      | none => exact ⟨_, .single hfirst, nestingView_eq_none.mpr hlookup⟩
      | some transformation =>
        cases hbelow : recurse operator.transformationId with
        | error error =>
          rw [hbelow] at houtcome
          exact houtcome.of_child hfirst
        | ok below =>
          rw [hbelow] at houtcome
          obtain ⟨n, hn, rfl⟩ := houtcome
          have hrest := ih hchild hrecurse (hstart.trans (Nat.le_max_left start (level + n)))
          change OperatorsOutcome transformationDict id level start _
            (rest.foldlM _ (max start (level + n)))
          cases hresult : rest.foldlM (nextNestingLevel transformationDict recurse)
              (max start (level + n)) with
          | error error =>
            rw [hresult] at hrest
            exact hrest
          | ok result =>
            rw [hresult] at hrest
            obtain ⟨hdepths, rfl⟩ := hrest
            refine ⟨List.forall_mem_cons.mpr ⟨⟨n, hn⟩, hdepths⟩, ?_⟩
            rw [greatest_cons, hn.depth_eq]
            omega
    · rw [workflowIds_cons_of_neg htype] at hchild hrecurse ⊢
      rw [if_neg htype]
      exact ih hchild hrecurse hstart

/-- The children of a workflow. -/
theorem child_iff {a b : UUID} : Child (nestingView transformationDict) a b ↔
    ∃ transformation, transformationDict.lookup a = some transformation ∧
      transformation.type = .workflow ∧ b ∈ workflowIds transformation.operators := by
  constructor
  · rintro ⟨children, hview, hb⟩
    unfold nestingView at hview
    split at hview
    · cases hview
    · rename_i transformation hlookup
      split at hview
      · cases hview
      · rename_i htype
        obtain rfl := Node.inner.inj (Option.some.inj hview)
        exact ⟨transformation, hlookup, htype, hb⟩
  · rintro ⟨transformation, hlookup, htype, hb⟩
    refine ⟨_, ?_, hb⟩
    simp only [nestingView, hlookup, htype]

/-- The recursion ends, and its outcome says what can be reached. -/
theorem nestingLevelWithin_outcome (hcontents : ContentsFit transformationDict) {rounds : ℕ}
    {id : UUID} {level : ℕ} {seen : List UUID}
    (hseen : ∀ a ∈ seen, Relation.TransGen (Child (nestingView transformationDict)) a id)
    (hnodup : seen.Nodup) (hknown : seen ⊆ transformationDict.map Prod.fst)
    (hrounds : transformationDict.length < rounds + seen.length) :
    NestingOutcome transformationDict id level
      (nestingLevelWithin transformationDict rounds id level seen) := by
  induction rounds generalizing id level seen with
  | zero =>
    have hlength := (hnodup.subperm hknown).length_le
    rw [List.length_map] at hlength
    omega
  | succ rounds ih =>
    rw [nestingLevelWithin]
    by_cases hmem : id ∈ seen
    · rw [if_pos hmem]
      exact ⟨id, .refl, hseen id hmem⟩
    rw [if_neg hmem]
    cases hlookup : transformationDict.lookup id with
    | none => exact ⟨id, .refl, nestingView_eq_none.mpr hlookup⟩
    | some transformation =>
      have hentry := KeyedList.mem_of_lookup_eq_some hlookup
      have hfits := hcontents _ hentry
      dsimp only at hfits ⊢
      cases htype : transformation.type with
      | component => exact ⟨0, .leaf (by simp only [nestingView, hlookup, htype]), rfl⟩
      | workflow =>
        cases hcontent : transformation.content with
        | code text =>
          rw [htype, hcontent] at hfits
          exact hfits.elim
        | workflow content =>
          have hoperators : transformation.operators = content.operators := by
            rw [TransformationRevision.operators, hcontent]
          have hview : nestingView transformationDict id =
              some (.inner (workflowIds content.operators)) := by
            simp only [nestingView, hlookup, htype, hoperators]
          have hchild : ∀ b ∈ workflowIds content.operators,
              Child (nestingView transformationDict) id b := fun b hb => ⟨_, hview, hb⟩
          have houtcome := @foldlM_operators_outcome _ _ transformationDict id (level + 1)
            (fun b => nestingLevelWithin transformationDict rounds b (level + 1) (id :: seen))
            content.operators hchild (fun b hb => by
              refine ih ?_ (List.nodup_cons.mpr ⟨hmem, hnodup⟩) ?_ ?_
              · intro a ha
                rcases List.mem_cons.mp ha with rfl | ha
                · exact .single (hchild b hb)
                · exact (hseen a ha).tail (hchild b hb)
              · exact List.cons_subset.mpr ⟨List.mem_map_of_mem hentry, hknown⟩
              · rw [List.length_cons]
                omega) (level + 1) le_rfl
          dsimp only
          revert houtcome
          cases content.operators.foldlM (nextNestingLevel transformationDict fun b =>
            nestingLevelWithin transformationDict rounds b (level + 1) (id :: seen))
              (level + 1) with
          | error error => cases error <;> exact fun houtcome => houtcome
          | ok result =>
            rintro ⟨hdepths, rfl⟩
            refine ⟨_, .of_children hview hdepths, ?_⟩
            omega

/-- The outcome of `nesting_level`. -/
theorem nestingLevel_outcome (hcontents : ContentsFit transformationDict) (id : UUID) :
    NestingOutcome transformationDict id 0 (nestingLevel transformationDict id) :=
  nestingLevelWithin_outcome hcontents (by simp) List.nodup_nil (by simp) (by simp)

/-- The level of a transformation is its depth. -/
theorem nestingLevel_eq_ok_iff (hcontents : ContentsFit transformationDict) {id : UUID}
    {level : ℕ} : nestingLevel transformationDict id = .ok level ↔
      HasDepth (nestingView transformationDict) id level := by
  have houtcome := nestingLevel_outcome hcontents id
  constructor
  · intro h
    rw [h] at houtcome
    obtain ⟨depth, hdepth, rfl⟩ := houtcome
    rwa [Nat.zero_add]
  · intro h
    cases hresult : nestingLevel transformationDict id with
    | ok result =>
      rw [hresult] at houtcome
      obtain ⟨depth, hdepth, rfl⟩ := houtcome
      rw [Nat.zero_add, hdepth.unique h]
    | error error =>
      rw [hresult] at houtcome
      cases error with
      | nestingLevelCycleDetected =>
        obtain ⟨a, hreach, hcycle⟩ := houtcome
        obtain ⟨m, -, hm⟩ := h.reach hreach
        exact absurd hcycle hm.not_cyclic
      | missingReferencedTransformation =>
        obtain ⟨a, hreach, hnone⟩ := houtcome
        obtain ⟨m, -, hm⟩ := h.reach hreach
        exact absurd hnone hm.known
      | typeError => exact houtcome.elim
      | rounds => exact houtcome.elim

/-- Another recursion with the same outcomes. -/
theorem foldlM_operators_congr {recurse recurse' : UUID → Except NestingError ℕ}
    (h : ∀ id, recurse id ≠ .error .rounds → recurse' id = recurse id)
    {operators : List (Operator V)} {start : ℕ}
    (hne : operators.foldlM (nextNestingLevel transformationDict recurse) start ≠
      .error .rounds) :
    operators.foldlM (nextNestingLevel transformationDict recurse') start =
      operators.foldlM (nextNestingLevel transformationDict recurse) start := by
  induction operators generalizing start with
  | nil => rfl
  | cons operator rest ih =>
    rw [List.foldlM_cons] at hne
    rw [List.foldlM_cons, List.foldlM_cons]
    have hstep : nextNestingLevel transformationDict recurse' start operator =
        nextNestingLevel transformationDict recurse start operator := by
      unfold nextNestingLevel at hne ⊢
      split_ifs at hne ⊢ with htype hmissing
      · rfl
      · rw [h]
        intro hrounds
        rw [hrounds] at hne
        exact hne rfl
      · rfl
    rw [hstep]
    cases hnext : nextNestingLevel transformationDict recurse start operator with
    | error error => rfl
    | ok next =>
      rw [hnext] at hne
      exact ih hne

/-- More rounds change nothing if a number of rounds suffices. -/
theorem nestingLevelWithin_succ {rounds : ℕ} {id : UUID} {level : ℕ} {seen : List UUID}
    (h : nestingLevelWithin transformationDict rounds id level seen ≠ .error .rounds) :
    nestingLevelWithin transformationDict (rounds + 1) id level seen =
      nestingLevelWithin transformationDict rounds id level seen := by
  induction rounds generalizing id level seen with
  | zero => exact absurd rfl h
  | succ rounds ih =>
    rw [nestingLevelWithin] at h
    rw [nestingLevelWithin, nestingLevelWithin]
    split_ifs at h ⊢ with hmem
    · rfl
    cases hlookup : transformationDict.lookup id with
    | none => rfl
    | some transformation =>
      rw [hlookup] at h
      dsimp only at h ⊢
      cases htype : transformation.type with
      | component => rfl
      | workflow =>
        cases hcontent : transformation.content with
        | code text => rfl
        | workflow content =>
          rw [htype, hcontent] at h
          exact foldlM_operators_congr (fun b hb => ih hb) h

/-- The number of entries suffices. -/
theorem nestingLevelWithin_eq (hcontents : ContentsFit transformationDict) {rounds : ℕ}
    (hrounds : transformationDict.length < rounds) (id : UUID) :
    nestingLevelWithin transformationDict rounds id 0 [] = nestingLevel transformationDict id := by
  induction rounds, hrounds using Nat.le_induction with
  | base => rfl
  | succ rounds hrounds ih =>
    rw [nestingLevelWithin_succ, ih]
    rw [ih]
    intro h
    have houtcome := nestingLevel_outcome hcontents id
    rw [h] at houtcome
    exact houtcome

/-! ## Containment -/

/-- Transformations with operators are workflows. -/
theorem type_of_operator (hcontents : ContentsFit transformationDict) {id : UUID}
    {transformation : TransformationRevision V W}
    (hlookup : transformationDict.lookup id = some transformation) {operator : Operator V}
    (hoperator : operator ∈ transformation.operators) : transformation.type = .workflow := by
  have hfits := hcontents _ (KeyedList.mem_of_lookup_eq_some hlookup)
  unfold TransformationRevision.operators at hoperator
  split at hoperator
  · cases hoperator
  · rename_i content hcontent
    cases htype : transformation.type with
    | workflow => rfl
    | component =>
      dsimp only at hfits
      rw [htype, hcontent] at hfits
      exact hfits.elim

/-- The children of a workflow are contained in it. -/
theorem containsTrafo_of_child {a b : UUID} (h : Child (nestingView transformationDict) a b) :
    ContainsTrafo transformationDict a b := by
  obtain ⟨transformation, hlookup, -, hb⟩ := child_iff.mp h
  obtain ⟨operator, hoperator, rfl⟩ := List.mem_map.mp hb
  exact ⟨transformation, hlookup, operator, List.mem_of_mem_filter hoperator, rfl⟩

/-- What is reached through workflows is reached. -/
theorem reach_of_child {a b : UUID}
    (h : Relation.ReflTransGen (Child (nestingView transformationDict)) a b) :
    Relation.ReflTransGen (ContainsTrafo transformationDict) a b :=
  Relation.ReflTransGen.mono (fun _ _ => containsTrafo_of_child) _ _ h

/-- Cycles through workflows are cycles. -/
theorem cyclic_of_child {a : UUID}
    (h : Relation.TransGen (Child (nestingView transformationDict)) a a) :
    Relation.TransGen (ContainsTrafo transformationDict) a a :=
  Relation.TransGen.mono (fun _ _ => containsTrafo_of_child) _ _ h

/-- What refers to something as a workflow has it as a child. -/
theorem child_of_operator (hcontents : ContentsFit transformationDict) {id : UUID}
    {transformation : TransformationRevision V W}
    (hlookup : transformationDict.lookup id = some transformation) {operator : Operator V}
    (hoperator : operator ∈ transformation.operators) (htype : operator.type = .workflow) :
    Child (nestingView transformationDict) id operator.transformationId :=
  child_iff.mpr ⟨transformation, hlookup, type_of_operator hcontents hlookup hoperator,
    List.mem_map_of_mem (List.mem_filter.mpr ⟨hoperator, decide_eq_true htype⟩)⟩

/-- What contains something is a child of what it is contained in. -/
theorem child_of_containsTrafo (hcontents : ContentsFit transformationDict)
    (htypes : OperatorTypesFit transformationDict) {a b c : UUID}
    (hab : ContainsTrafo transformationDict a b) (hbc : ContainsTrafo transformationDict b c) :
    Child (nestingView transformationDict) a b := by
  obtain ⟨transformation, hlookup, operator, hoperator, rfl⟩ := hab
  obtain ⟨inner, hinner, operator', hoperator', -⟩ := hbc
  refine child_of_operator hcontents hlookup hoperator ?_
  rw [htypes _ (KeyedList.mem_of_lookup_eq_some hlookup) operator hoperator inner hinner]
  exact type_of_operator hcontents hinner hoperator'

/-- What contains something is reached through workflows. -/
theorem reach_of_containsTrafo (hcontents : ContentsFit transformationDict)
    (htypes : OperatorTypesFit transformationDict) {a b : UUID}
    (h : Relation.ReflTransGen (ContainsTrafo transformationDict) a b) {c : UUID}
    (hbc : ContainsTrafo transformationDict b c) :
    Relation.ReflTransGen (Child (nestingView transformationDict)) a b := by
  induction h generalizing c with
  | refl => exact .refl
  | tail _ hstep ih => exact (ih hstep).tail (child_of_containsTrafo hcontents htypes hstep hbc)

/-- What contains itself does so through workflows. -/
theorem cyclic_of_containsTrafo (hcontents : ContentsFit transformationDict)
    (htypes : OperatorTypesFit transformationDict) {a : UUID}
    (h : Relation.TransGen (ContainsTrafo transformationDict) a a) :
    Relation.TransGen (Child (nestingView transformationDict)) a a := by
  obtain ⟨b, hreach, hba⟩ := Relation.TransGen.tail'_iff.mp h
  obtain ⟨c, hac, -⟩ := Relation.TransGen.head'_iff.mp h
  exact .tail' (reach_of_containsTrafo hcontents htypes hreach hba)
    (child_of_containsTrafo hcontents htypes hba hac)

/-! ## Levels -/

/-- The greatest level of the operators of a workflow is that of its children. -/
theorem greatest_operators (htypes : OperatorTypesFit transformationDict) {id : UUID}
    {transformation : TransformationRevision V W} {operators : List (Operator V)}
    (hlookup : transformationDict.lookup id = some transformation)
    (hoperators : operators ⊆ transformation.operators)
    (hdepths : ∀ b ∈ workflowIds operators, nestingView transformationDict b ≠ none) :
    greatest (depth (nestingView transformationDict))
        ((operators.map fun operator => operator.transformationId).filter
          fun id => (transformationDict.lookup id).isSome) =
      greatest (depth (nestingView transformationDict)) (workflowIds operators) := by
  induction operators with
  | nil => rfl
  | cons operator rest ih =>
    obtain ⟨hoperator, hrest⟩ := List.cons_subset.mp hoperators
    rw [List.map_cons]
    by_cases htype : operator.type = .workflow
    · rw [workflowIds_cons_of_pos htype] at hdepths ⊢
      obtain ⟨hknown, hdepths⟩ := List.forall_mem_cons.mp hdepths
      have hsome : (transformationDict.lookup operator.transformationId).isSome = true :=
        Option.isSome_iff_ne_none.mpr (nestingView_eq_none.not.mp hknown)
      rw [List.filter_cons, if_pos hsome, greatest_cons, greatest_cons, ih hrest hdepths]
    · rw [workflowIds_cons_of_neg htype] at hdepths ⊢
      cases hinner : transformationDict.lookup operator.transformationId with
      | none =>
        rw [List.filter_cons_of_neg (by simp [hinner]), ih hrest hdepths]
      | some inner =>
        have hleaf : HasDepth (nestingView transformationDict) operator.transformationId 0 := by
          have hinnerType :=
            htypes _ (KeyedList.mem_of_lookup_eq_some hlookup) operator hoperator inner hinner
          refine .leaf ?_
          cases hcase : inner.type with
          | component => simp only [nestingView, hinner, hcase]
          | workflow => exact absurd (hinnerType.trans hcase) htype
        rw [List.filter_cons_of_pos (by simp [hinner]), greatest_cons, hleaf.depth_eq,
          ih hrest hdepths, Nat.zero_max]

/-- A depth is a nesting level. -/
theorem isNestingLevel_of_hasDepth (hcontents : ContentsFit transformationDict)
    (htypes : OperatorTypesFit transformationDict) {id : UUID} {level : ℕ}
    (h : HasDepth (nestingView transformationDict) id level) :
    IsNestingLevel transformationDict id level := by
  cases hlookup : transformationDict.lookup id with
  | none => exact absurd (nestingView_eq_none.mpr hlookup) h.known
  | some transformation =>
    refine ⟨transformation, hlookup, ?_⟩
    cases htype : transformation.type with
    | component =>
      have hview : nestingView transformationDict id = some .leaf := by
        simp only [nestingView, hlookup, htype]
      exact h.unique (.leaf hview)
    | workflow =>
      have hview : nestingView transformationDict id =
          some (.inner (workflowIds transformation.operators)) := by
        simp only [nestingView, hlookup, htype]
      have hchildren : ∀ b ∈ workflowIds transformation.operators,
          ∃ n, HasDepth (nestingView transformationDict) b n := fun b hb =>
        (h.child ⟨_, hview, hb⟩).imp fun n hn => hn.2
      refine ⟨depth (nestingView transformationDict), fun operator hoperator hsome => ?_, ?_⟩
      · rw [nestingLevel_eq_ok_iff hcontents]
        obtain ⟨inner, hinner⟩ := Option.isSome_iff_exists.mp hsome
        have hinnerType :=
          htypes _ (KeyedList.mem_of_lookup_eq_some hlookup) operator hoperator inner hinner
        cases hcase : inner.type with
        | component =>
          have hleaf : HasDepth (nestingView transformationDict) operator.transformationId 0 :=
            .leaf (by simp only [nestingView, hinner, hcase])
          rwa [hleaf.depth_eq]
        | workflow =>
          obtain ⟨n, -, hn⟩ := h.child (child_of_operator hcontents hlookup hoperator
            (hinnerType.trans hcase))
          rwa [hn.depth_eq]
      · rw [greatest_operators htypes hlookup (List.Subset.refl _) fun b hb =>
          (hchildren b hb).elim fun n hn => hn.known]
        exact h.unique (.of_children hview hchildren)

/-- `nesting_level` ends. It detects real cycles only, notices whether there is a cycle or a
missing workflow, and otherwise returns the level. -/
theorem nestingLevel_spec (hcontents : ContentsFit transformationDict)
    (htypes : OperatorTypesFit transformationDict) {id : UUID}
    (hid : id ∈ transformationDict.map Prod.fst) :
    (∀ rounds > transformationDict.length,
      nestingLevelWithin transformationDict rounds id 0 [] = nestingLevel transformationDict id) ∧
    nestingLevel transformationDict id ≠ .error .rounds ∧
    (nestingLevel transformationDict id = .error .nestingLevelCycleDetected →
      CycleReachable transformationDict id) ∧
    (CycleReachable transformationDict id ∨ MissingWorkflowReachable transformationDict id →
      nestingLevel transformationDict id = .error .nestingLevelCycleDetected ∨
        nestingLevel transformationDict id = .error .missingReferencedTransformation) ∧
    (¬ CycleReachable transformationDict id → ¬ MissingWorkflowReachable transformationDict id →
      ∃ level, nestingLevel transformationDict id = .ok level ∧
        IsNestingLevel transformationDict id level) := by
  have houtcome := nestingLevel_outcome hcontents id
  refine ⟨fun rounds hrounds => nestingLevelWithin_eq hcontents hrounds id, ?_, ?_, ?_, ?_⟩
  · intro h
    rw [h] at houtcome
    exact houtcome
  · intro h
    rw [h] at houtcome
    obtain ⟨a, hreach, hcycle⟩ := houtcome
    exact ⟨a, reach_of_child hreach, cyclic_of_child hcycle⟩
  · intro h
    cases hresult : nestingLevel transformationDict id with
    | error error =>
      rw [hresult] at houtcome
      cases error with
      | nestingLevelCycleDetected => exact Or.inl rfl
      | missingReferencedTransformation => exact Or.inr rfl
      | typeError => exact houtcome.elim
      | rounds => exact houtcome.elim
    | ok level =>
      have hdepth := (nestingLevel_eq_ok_iff hcontents).mp hresult
      rcases h with ⟨a, hreach, hcycle⟩ | ⟨a, transformation, hreach, hlookup, operator,
        hoperator, htype, hmissing⟩
      · obtain ⟨b, hab, -⟩ := Relation.TransGen.head'_iff.mp hcycle
        obtain ⟨m, -, hm⟩ := hdepth.reach (reach_of_containsTrafo hcontents htypes hreach hab)
        exact absurd (cyclic_of_containsTrafo hcontents htypes hcycle) hm.not_cyclic
      · have hcontains : ContainsTrafo transformationDict a operator.transformationId :=
          ⟨transformation, hlookup, operator, hoperator, rfl⟩
        obtain ⟨m, -, hm⟩ :=
          hdepth.reach (reach_of_containsTrafo hcontents htypes hreach hcontains)
        obtain ⟨k, -, hk⟩ := hm.child (child_of_operator hcontents hlookup hoperator htype)
        exact absurd (nestingView_eq_none.mpr hmissing) hk.known
  · intro hcycle hmissing
    cases hresult : nestingLevel transformationDict id with
    | ok level =>
      exact ⟨level, rfl, isNestingLevel_of_hasDepth hcontents htypes
        ((nestingLevel_eq_ok_iff hcontents).mp hresult)⟩
    | error error =>
      rw [hresult] at houtcome
      cases error with
      | nestingLevelCycleDetected =>
        obtain ⟨a, hreach, ha⟩ := houtcome
        exact absurd ⟨a, reach_of_child hreach, cyclic_of_child ha⟩ hcycle
      | missingReferencedTransformation =>
        obtain ⟨a, hreach, hnone⟩ := houtcome
        rw [nestingView_eq_none] at hnone
        rcases hreach.cases_tail with rfl | ⟨b, hbefore, hba⟩
        · exact absurd hid (KeyedList.lookup_eq_none_iff_notMem.mp hnone)
        · obtain ⟨transformation, hlookup, -, ha⟩ := child_iff.mp hba
          obtain ⟨operator, hoperator, rfl⟩ := List.mem_map.mp ha
          obtain ⟨hoperator, htype⟩ := List.mem_filter.mp hoperator
          exact absurd ⟨b, transformation, reach_of_child hbefore, hlookup, operator, hoperator,
            of_decide_eq_true htype, hnone⟩ hmissing
      | typeError => exact houtcome.elim
      | rounds => exact houtcome.elim

end Spec

/-- Two workflows, of which the first contains the second. -/
def nestedDict : TransformationDict ℤ (WorkflowWiring Unit) :=
  [(1, plainWorkflow 1 .draft [workflowOperator 5 2 .draft]), (2, plainWorkflow 2 .draft [])]

/-- Instance of `nestingLevel_spec`: the level of the first workflow. -/
theorem nestingLevel_nestedDict :
    nestingLevel nestedDict 1 = .ok 2 ∧ nestingLevel nestedDict 1 ≠ .error .rounds := by
  refine ⟨by decide, (@nestingLevel_spec ℤ (WorkflowWiring Unit) nestedDict ?_ ?_ 1 (by decide)).2.1⟩
  · intro entry hentry
    rcases List.mem_pair.mp hentry with rfl | rfl <;> exact trivial
  · intro entry hentry operator hoperator transformation hlookup
    rcases List.mem_pair.mp hentry with rfl | rfl
    · obtain rfl := List.mem_singleton.mp hoperator
      obtain rfl := Option.some.inj hlookup
      rfl
    · cases hoperator

end HetidaDesigner
