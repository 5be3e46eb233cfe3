import HetidaDesigner.Trafoutils.Filter

/-!
# Selected revisions with their dependencies

What `filter_and_order_trafos` returns for a list of revisions: the selected revisions, with their
transitive dependencies if these are included, in an order in which dependencies come first. Levels
and the sweep through them rely on the types of operators; missing dependencies are noticed where
levels are determined only.
-/

namespace HetidaDesigner

open Checks KeyedList Depths

section Statement

variable {V W : Type} (trafos : List (TransformationRevision V W)) (params : FilterParams)

/-- The revisions of a list by their ids, the last one with an id in the place of the first. -/
def knownTrafos : List (TransformationRevision V W) := (transformationDict trafos).map Prod.snd

/-- A revision of a list has an operator which refers to another one of the list. -/
def TrafoDependsOn (a b : TransformationRevision V W) : Prop :=
  a ∈ trafos ∧ b ∈ trafos ∧ b.id ∈ getDirectDependencies a

/-- It has such an operator which is a workflow. -/
def TrafoDependsOnWorkflow (a b : TransformationRevision V W) : Prop :=
  a ∈ trafos ∧ b ∈ trafos ∧
    ∃ operator ∈ a.operators, operator.type = .workflow ∧ operator.transformationId = b.id

/-- A revision is to be returned: it is selected, or a selected one depends on it. -/
def ToBeReturned (trafo : TransformationRevision V W) : Prop :=
  trafo ∈ trafos ∧
    if params.includeDependencies then ∃ selected ∈ trafos, params.allows selected = true ∧
      Relation.ReflTransGen (TrafoDependsOn trafos) selected trafo
    else params.allows trafo = true

/-- Lists with unique ids which are closed under dependencies on workflow operators and have no
cycle of these; contents are as validated. -/
structure ImportableList : Prop where
  ids_nodup : (trafos.map fun trafo => trafo.id).Nodup
  contents : ContentsFit (transformationDict trafos)
  closed : ∀ trafo ∈ trafos, ∀ operator ∈ trafo.operators, operator.type = .workflow →
    ∃ dependency ∈ trafos, dependency.id = operator.transformationId
  acyclic : ∀ trafo, ¬ Relation.TransGen (TrafoDependsOnWorkflow trafos) trafo trafo

/-- Operators which are components do not refer to workflows. -/
def ComponentOperatorsFit : Prop :=
  ∀ trafo ∈ trafos, ∀ operator ∈ trafo.operators, operator.type = .component →
    ∀ dependency ∈ trafos, dependency.id = operator.transformationId →
      dependency.type = .component

/-- A list of the revisions to be returned, each of them once and after those on which it
depends. -/
structure SelectedInOrder (result : List (TransformationRevision V W)) : Prop where
  ids_nodup : (result.map fun trafo => trafo.id).Nodup
  dependencies_first : ∀ before trafo after, result = before ++ trafo :: after →
    ∀ dependency ∈ result, dependency.id ∈ getDirectDependencies trafo → dependency ∈ before
  mem_iff : ∀ trafo, trafo ∈ result ↔ ToBeReturned trafos params trafo

end Statement

/-! ## Revisions and ids -/

section Ids

variable {V W : Type} {trafos : List (TransformationRevision V W)} {params : FilterParams}

/-- The revisions which are found under their ids. -/
theorem mem_knownTrafos_iff {trafo : TransformationRevision V W} :
    trafo ∈ knownTrafos trafos ↔ (transformationDict trafos).lookup trafo.id = some trafo := by
  constructor
  · intro h
    obtain ⟨⟨id, trafo⟩, hentry, rfl⟩ := List.mem_map.mp h
    have hlookup := (lookup_eq_some_iff_mem (insertAll_nil_nodup _)).mpr hentry
    obtain ⟨rfl, -⟩ := of_lookup_transformationDict hlookup
    exact hlookup
  · intro h
    exact List.mem_map.mpr ⟨_, mem_of_lookup_eq_some h, rfl⟩

/-- What is found is a known revision. -/
theorem mem_knownTrafos_of_lookup {id : UUID} {trafo : TransformationRevision V W}
    (h : (transformationDict trafos).lookup id = some trafo) : trafo ∈ knownTrafos trafos := by
  obtain ⟨rfl, -⟩ := of_lookup_transformationDict h
  exact mem_knownTrafos_iff.mpr h

/-- Nothing is found under an id exactly if no known revision has it. -/
theorem lookup_eq_none_iff_knownTrafos {id : UUID} :
    (transformationDict trafos).lookup id = none ↔
      ∀ trafo ∈ knownTrafos trafos, trafo.id ≠ id := by
  constructor
  · rintro h trafo htrafo rfl
    rw [mem_knownTrafos_iff.mp htrafo] at h
    cases h
  · intro h
    by_contra hne
    obtain ⟨trafo, htrafo⟩ := Option.ne_none_iff_exists'.mp hne
    exact h trafo (mem_knownTrafos_of_lookup htrafo) (of_lookup_transformationDict htrafo).1

/-- With unique ids all revisions are known. -/
theorem knownTrafos_of_nodup (h : (trafos.map fun trafo => trafo.id).Nodup) :
    knownTrafos trafos = trafos := by
  have hdict : transformationDict trafos = trafos.map fun trafo => (trafo.id, trafo) := by
    refine insertAll_of_nodup ?_
    rw [List.nil_append, List.map_map]
    exact h
  rw [knownTrafos, hdict, List.map_map]
  exact List.map_id _

/-- Dependencies of a known revision, by ids. -/
theorem mem_dependenciesOf_iff {a b : UUID} :
    b ∈ dependenciesOf (transformationDict trafos) a ↔
      ∃ trafo, (transformationDict trafos).lookup a = some trafo ∧
        b ∈ getDirectDependencies trafo := by
  rw [dependenciesOf]
  cases (transformationDict trafos).lookup a with
  | none => simp
  | some trafo => simp

/-- Dependencies are referred to by operators. -/
theorem mem_getDirectDependencies_iff (hcontents : ContentsFit (transformationDict trafos))
    {trafo : TransformationRevision V W} (htrafo : trafo ∈ knownTrafos trafos) {id : UUID} :
    id ∈ getDirectDependencies trafo ↔
      ∃ operator ∈ trafo.operators, operator.transformationId = id := by
  rw [getDirectDependencies]
  constructor
  · intro h
    split at h
    · cases h
    · exact List.mem_map.mp h
  · rintro ⟨operator, hoperator, rfl⟩
    rw [type_of_operator hcontents (mem_knownTrafos_iff.mp htrafo) hoperator]
    exact List.mem_map_of_mem hoperator

/-- Chains of dependencies between known revisions, by ids. -/
theorem reach_of_dependenciesOf {a b : TransformationRevision V W}
    (ha : a ∈ knownTrafos trafos) {id : UUID}
    (h : Relation.ReflTransGen
      (fun x y => y ∈ dependenciesOf (transformationDict trafos) x) a.id id)
    (hid : (transformationDict trafos).lookup id = some b) :
    Relation.ReflTransGen (TrafoDependsOn (knownTrafos trafos)) a b := by
  induction h generalizing b with
  | refl =>
    rw [mem_knownTrafos_iff.mp ha] at hid
    obtain rfl := Option.some.inj hid
    exact .refl
  | tail _ hstep ih =>
    obtain ⟨between, hbetween, hdependency⟩ := mem_dependenciesOf_iff.mp hstep
    obtain ⟨rfl, -⟩ := of_lookup_transformationDict hid
    exact (ih hbetween).tail ⟨mem_knownTrafos_of_lookup hbetween,
      mem_knownTrafos_of_lookup hid, hdependency⟩

/-- Chains of dependencies, by revisions. -/
theorem reach_of_trafoDependsOn {a b : TransformationRevision V W}
    (h : Relation.ReflTransGen (TrafoDependsOn (knownTrafos trafos)) a b) :
    Relation.ReflTransGen
      (fun x y => y ∈ dependenciesOf (transformationDict trafos) x) a.id b.id := by
  induction h with
  | refl => exact .refl
  | tail _ hstep ih =>
    obtain ⟨hbetween, -, hdependency⟩ := hstep
    exact ih.tail (mem_dependenciesOf_iff.mpr ⟨_, mem_knownTrafos_iff.mp hbetween, hdependency⟩)

/-- The revisions to be returned, by ids. -/
theorem toBeReturned_iff {trafo : TransformationRevision V W}
    (hdependencies : params.includeDependencies = true) :
    ToBeReturned (knownTrafos trafos) params trafo ↔
      (transformationDict trafos).lookup trafo.id = some trafo ∧
        ∃ id, selectedIds (transformationDict trafos) params id = true ∧
          Relation.ReflTransGen
            (fun x y => y ∈ dependenciesOf (transformationDict trafos) x) id trafo.id := by
  rw [ToBeReturned, if_pos hdependencies, mem_knownTrafos_iff]
  refine and_congr_right fun htrafo => ?_
  constructor
  · rintro ⟨selected, hselected, hallows, hreach⟩
    refine ⟨selected.id, ?_, reach_of_trafoDependsOn hreach⟩
    rw [selectedIds, mem_knownTrafos_iff.mp hselected]
    exact hallows
  · rintro ⟨id, hid, hreach⟩
    obtain ⟨selected, hselected, hallows⟩ := (Option.any_eq_true _ _).mp hid
    obtain ⟨rfl, -⟩ := of_lookup_transformationDict hselected
    have hknown := mem_knownTrafos_iff.mpr hselected
    exact ⟨selected, hknown, hallows, reach_of_dependenciesOf hknown hreach htrafo⟩

/-! ## Levels of known revisions -/

/-- If all known revisions have levels, these are determined. -/
theorem exists_levels {dict : TransformationDict V W}
    (h : ∀ id ∈ dict.map Prod.fst, ∃ level, nestingLevel dict id = .ok level) :
    ∃ groups, structureIdsByNestingLevel dict = .ok groups := by
  obtain ⟨levels, hlevels⟩ := @exists_mapM _ _ _
    (fun entry : UUID × TransformationRevision V W => do
      return (entry.1, ← nestingLevel dict entry.1)) dict (fun entry hentry => by
        obtain ⟨level, hlevel⟩ := h entry.1 (List.mem_map_of_mem hentry)
        exact ⟨(entry.1, level), bind_eq_ok.mpr ⟨level, hlevel, rfl⟩⟩)
  exact ⟨_, bind_eq_ok.mpr ⟨levels, hlevels, rfl⟩⟩

/-- A child is a known revision's dependency on a workflow operator. -/
theorem trafoDependsOnWorkflow_of_child {a b : UUID} {dependency : TransformationRevision V W}
    (h : Child (nestingView (transformationDict trafos)) a b)
    (hb : (transformationDict trafos).lookup b = some dependency) :
    ∃ trafo, (transformationDict trafos).lookup a = some trafo ∧
      TrafoDependsOnWorkflow (knownTrafos trafos) trafo dependency := by
  obtain ⟨trafo, htrafo, -, hmem⟩ := child_iff.mp h
  obtain ⟨operator, hoperator, rfl⟩ := List.mem_map.mp hmem
  obtain ⟨hoperator, htype⟩ := List.mem_filter.mp hoperator
  refine ⟨trafo, htrafo, mem_knownTrafos_of_lookup htrafo, mem_knownTrafos_of_lookup hb,
    operator, hoperator, of_decide_eq_true htype, ?_⟩
  exact (of_lookup_transformationDict hb).1.symm

/-- Chains of children are chains of dependencies on workflow operators. -/
theorem transGen_of_child {a b : UUID} {dependency : TransformationRevision V W}
    (h : Relation.TransGen (Child (nestingView (transformationDict trafos))) a b)
    (hb : (transformationDict trafos).lookup b = some dependency) :
    ∃ trafo, (transformationDict trafos).lookup a = some trafo ∧
      Relation.TransGen (TrafoDependsOnWorkflow (knownTrafos trafos)) trafo dependency := by
  induction h generalizing dependency with
  | single hstep =>
    obtain ⟨trafo, htrafo, hdepends⟩ := trafoDependsOnWorkflow_of_child hstep hb
    exact ⟨trafo, htrafo, .single hdepends⟩
  | tail _ hstep ih =>
    obtain ⟨between, hbetween, hdepends⟩ := trafoDependsOnWorkflow_of_child hstep hb
    obtain ⟨trafo, htrafo, hchain⟩ := ih hbetween
    exact ⟨trafo, htrafo, hchain.tail hdepends⟩

/-- Without cycles of dependencies on workflow operators none is detected. -/
theorem nestingLevel_ne_cycle (hcontents : ContentsFit (transformationDict trafos))
    (hacyclic : ∀ trafo,
      ¬ Relation.TransGen (TrafoDependsOnWorkflow (knownTrafos trafos)) trafo trafo) (id : UUID) :
    nestingLevel (transformationDict trafos) id ≠ .error .nestingLevelCycleDetected := by
  intro h
  have houtcome := nestingLevel_outcome hcontents id
  rw [h] at houtcome
  obtain ⟨a, -, hcycle⟩ := houtcome
  obtain ⟨b, hab, -⟩ := Relation.TransGen.head'_iff.mp hcycle
  obtain ⟨trafo, htrafo, -⟩ := child_iff.mp hab
  obtain ⟨trafo', htrafo', hchain⟩ := transGen_of_child hcycle htrafo
  rw [htrafo] at htrafo'
  obtain rfl := Option.some.inj htrafo'
  exact hacyclic trafo hchain

/-- No operator of a known revision refers to a missing workflow. -/
def WorkflowOperatorsKnown (trafos : List (TransformationRevision V W)) : Prop :=
  ∀ trafo ∈ knownTrafos trafos, ∀ operator ∈ trafo.operators, operator.type = .workflow →
    ∃ dependency ∈ knownTrafos trafos, dependency.id = operator.transformationId

/-- Levels are determined exactly if no operator refers to a missing workflow; otherwise this is
what is raised. -/
theorem structureIds_spec (hcontents : ContentsFit (transformationDict trafos))
    (hacyclic : ∀ trafo,
      ¬ Relation.TransGen (TrafoDependsOnWorkflow (knownTrafos trafos)) trafo trafo) :
    (WorkflowOperatorsKnown trafos ∧
      ∃ groups, structureIdsByNestingLevel (transformationDict trafos) = .ok groups) ∨
    (¬ WorkflowOperatorsKnown trafos ∧
      structureIdsByNestingLevel (transformationDict trafos) =
        .error .missingReferencedTransformation) := by
  have hcases (id : UUID) : (∃ level, nestingLevel (transformationDict trafos) id = .ok level) ∨
      nestingLevel (transformationDict trafos) id = .error .missingReferencedTransformation := by
    have houtcome := nestingLevel_outcome hcontents id
    cases hresult : nestingLevel (transformationDict trafos) id with
    | ok level => exact Or.inl ⟨level, rfl⟩
    | error error =>
      rw [hresult] at houtcome
      cases error with
      | nestingLevelCycleDetected => exact absurd hresult (nestingLevel_ne_cycle hcontents hacyclic id)
      | missingReferencedTransformation => exact Or.inr rfl
      | typeError => exact houtcome.elim
      | rounds => exact houtcome.elim
  by_cases hknown : WorkflowOperatorsKnown trafos
  · refine Or.inl ⟨hknown, exists_levels fun id hid => (hcases id).resolve_right fun hmissing => ?_⟩
    have houtcome := nestingLevel_outcome hcontents id
    rw [hmissing] at houtcome
    obtain ⟨a, hreach, hnone⟩ := houtcome
    rw [nestingView_eq_none] at hnone
    rcases hreach.cases_tail with rfl | ⟨b, -, hba⟩
    · exact lookup_eq_none_iff_notMem.mp hnone hid
    · obtain ⟨trafo, htrafo, -, hmem⟩ := child_iff.mp hba
      obtain ⟨operator, hoperator, rfl⟩ := List.mem_map.mp hmem
      obtain ⟨hoperator, htype⟩ := List.mem_filter.mp hoperator
      obtain ⟨dependency, hdependency, heq⟩ := hknown trafo (mem_knownTrafos_of_lookup htrafo)
        operator hoperator (of_decide_eq_true htype)
      exact lookup_eq_none_iff_knownTrafos.mp hnone dependency hdependency heq
  · refine Or.inr ⟨hknown, ?_⟩
    cases hgroups : structureIdsByNestingLevel (transformationDict trafos) with
    | ok groups =>
      obtain ⟨hdepths, -⟩ := structureIds_eq_ok hcontents hgroups
      refine absurd (fun trafo htrafo operator hoperator htype => ?_) hknown
      have hlookup := mem_knownTrafos_iff.mp htrafo
      have hdepth := hdepths trafo.id (List.mem_map_of_mem (mem_of_lookup_eq_some hlookup))
      obtain ⟨n, -, hn⟩ := hdepth.child (child_of_operator hcontents hlookup hoperator htype)
      obtain ⟨dependency, hdependency⟩ :=
        Option.ne_none_iff_exists'.mp (nestingView_eq_none.not.mp hn.known)
      exact ⟨dependency, mem_knownTrafos_of_lookup hdependency,
        (of_lookup_transformationDict hdependency).1⟩
    | error error =>
      unfold structureIdsByNestingLevel at hgroups
      rcases bind_eq_error.mp hgroups with hlevels | ⟨levels, -, hreturn⟩
      · obtain ⟨entry, -, hentry⟩ := exists_of_mapM_error hlevels
        rcases bind_eq_error.mp hentry with hlevel | ⟨level, -, hreturn⟩
        · rcases hcases entry.1 with ⟨level, hok⟩ | hmissing
          · rw [hok] at hlevel
            cases hlevel
          · rw [hmissing] at hlevel
            rw [← Except.error.inj hlevel]
        · cases hreturn
      · cases hreturn

/-- With fitting types dependencies have smaller levels. -/
theorem depth_lt_of_dependency (hcontents : ContentsFit (transformationDict trafos))
    (hfit : ComponentOperatorsFit (knownTrafos trafos))
    (hdepths : ∀ id ∈ (transformationDict trafos).map Prod.fst,
      HasDepth (nestingView (transformationDict trafos)) id
        (depth (nestingView (transformationDict trafos)) id)) {a b : TransformationRevision V W}
    (ha : a ∈ knownTrafos trafos) (hb : b ∈ knownTrafos trafos)
    (hab : b.id ∈ getDirectDependencies a) :
    depth (nestingView (transformationDict trafos)) b.id <
      depth (nestingView (transformationDict trafos)) a.id := by
  obtain ⟨operator, hoperator, hid⟩ := (mem_getDirectDependencies_iff hcontents ha).mp hab
  have hlookup := mem_knownTrafos_iff.mp ha
  have hdepth := hdepths a.id (List.mem_map_of_mem (mem_of_lookup_eq_some hlookup))
  cases htype : operator.type with
  | workflow =>
    have hchild := child_of_operator hcontents hlookup hoperator htype
    rw [hid] at hchild
    obtain ⟨n, hlt, hn⟩ := hdepth.child hchild
    rwa [hn.depth_eq]
  | component =>
    have hcomponent := hfit a ha operator hoperator htype b hb hid.symm
    have hleaf : HasDepth (nestingView (transformationDict trafos)) b.id 0 :=
      .leaf (by simp only [nestingView, mem_knownTrafos_iff.mp hb, hcomponent])
    rw [hleaf.depth_eq]
    generalize depth (nestingView (transformationDict trafos)) a.id = level at hdepth
    cases hdepth with
    | leaf hview =>
      have hworkflow := type_of_operator hcontents hlookup hoperator
      simp only [nestingView, hlookup, hworkflow] at hview
      cases hview
    | inner hview hdepths => exact Nat.succ_pos _

/-- With fitting types the sweep reaches all dependencies. -/
theorem passingIds_eq_true_iff (hcontents : ContentsFit (transformationDict trafos))
    (hfit : ComponentOperatorsFit (knownTrafos trafos)) {groups : List (ℕ × List UUID)}
    (hgroups : structureIdsByNestingLevel (transformationDict trafos) = .ok groups)
    (trafo : TransformationRevision V W) :
    (trafo ∈ knownTrafos trafos ∧ passingIds trafos params groups trafo.id = true) ↔
      ToBeReturned (knownTrafos trafos) params trafo := by
  obtain ⟨hdepths, hids⟩ := structureIds_eq_ok hcontents hgroups
  rw [passingIds]
  cases hdependencies : params.includeDependencies with
  | false =>
    rw [ToBeReturned, hdependencies]
    refine and_congr_right fun htrafo => ?_
    rw [if_neg Bool.false_ne_true, if_neg Bool.false_ne_true, selectedIds,
      mem_knownTrafos_iff.mp htrafo]
    rfl
  | true =>
    rw [toBeReturned_iff hdependencies, mem_knownTrafos_iff, if_pos rfl]
    refine and_congr_right fun _ => ?_
    have hmem := fun id => hids.mem_iff (List.mergeSort_perm groups
      (fun a b => decide (b.1 ≤ a.1))) id
    have hlt {a b : UUID} (hab : b ∈ dependenciesOf (transformationDict trafos) a)
        (hb : b ∈ (transformationDict trafos).map Prod.fst) :
        depth (nestingView (transformationDict trafos)) b <
          depth (nestingView (transformationDict trafos)) a := by
      obtain ⟨dependent, hdependent, hdependency⟩ := mem_dependenciesOf_iff.mp hab
      obtain ⟨dependency, hlookup⟩ := Option.ne_none_iff_exists'.mp
        (fun hnone => lookup_eq_none_iff_notMem.mp hnone hb)
      obtain ⟨rfl, -⟩ := of_lookup_transformationDict hdependent
      obtain ⟨rfl, -⟩ := of_lookup_transformationDict hlookup
      exact depth_lt_of_dependency hcontents hfit hdepths (mem_knownTrafos_iff.mpr hdependent)
        (mem_knownTrafos_iff.mpr hlookup) hdependency
    refine sweep_eq_true_iff ?_ ?_ ?_ trafo.id
    · refine List.Pairwise.imp_of_mem (fun {a b} ha _ hle hab => ?_) hids.decreasing
      exact absurd (hlt hab ((hmem a).mp ha)) (Nat.not_lt_of_le hle)
    · exact fun a ha haa => Nat.lt_irrefl _ (hlt haa ((hmem a).mp ha))
    · intro a hne
      obtain ⟨b, hb⟩ := List.exists_mem_of_ne_nil _ hne
      obtain ⟨dependent, hdependent, -⟩ := mem_dependenciesOf_iff.mp hb
      exact (hmem a).mpr (List.mem_map_of_mem (mem_of_lookup_eq_some hdependent))

/-! ## What is returned -/

/-- The revisions which are found under the ids of a list. -/
theorem map_id_filterMap_lookup {ids : List UUID}
    (hknown : ∀ id ∈ ids, id ∈ (transformationDict trafos).map Prod.fst) :
    (ids.filterMap ((transformationDict trafos).lookup ·)).map (fun trafo => trafo.id) = ids := by
  induction ids with
  | nil => rfl
  | cons id rest ih =>
    obtain ⟨hfirst, hknown⟩ := List.forall_mem_cons.mp hknown
    obtain ⟨trafo, htrafo⟩ := Option.ne_none_iff_exists'.mp
      (fun hnone => lookup_eq_none_iff_notMem.mp hnone hfirst)
    rw [List.filterMap_cons, htrafo, List.map_cons, ih hknown,
      (of_lookup_transformationDict htrafo).1]

/-- The revisions which are found under the ids which pass the filter. -/
theorem mem_passing_iff (hcontents : ContentsFit (transformationDict trafos))
    {groups : List (ℕ × List UUID)}
    (hgroups : structureIdsByNestingLevel (transformationDict trafos) = .ok groups)
    (trafo : TransformationRevision V W) :
    trafo ∈ ((idsByIncreasingLevel groups).filter (passingIds trafos params groups)).filterMap
        ((transformationDict trafos).lookup ·) ↔
      trafo ∈ knownTrafos trafos ∧ passingIds trafos params groups trafo.id = true := by
  obtain ⟨-, hids⟩ := structureIds_eq_ok hcontents hgroups
  have hmem := fun id => hids.mem_iff (List.mergeSort_perm groups
    (fun a b => decide (a.1 ≤ b.1))) id
  rw [List.mem_filterMap]
  constructor
  · rintro ⟨id, hid, htrafo⟩
    obtain ⟨rfl, -⟩ := of_lookup_transformationDict htrafo
    exact ⟨mem_knownTrafos_of_lookup htrafo, (List.mem_filter.mp hid).2⟩
  · rintro ⟨htrafo, hpasses⟩
    have hlookup := mem_knownTrafos_iff.mp htrafo
    refine ⟨trafo.id, List.mem_filter.mpr ⟨(hmem _).mpr ?_, hpasses⟩, hlookup⟩
    exact List.mem_map_of_mem (mem_of_lookup_eq_some hlookup)

/-- The selected revisions of an importable list whose operators have fitting types, with or without
their dependencies, are returned in order. -/
theorem filterAndOrderTrafos_selects (hlist : ImportableList trafos)
    (hfit : ComponentOperatorsFit trafos) (raiseOnMissingDependency : Bool) :
    ∃ result, filterAndOrderTrafos trafos params raiseOnMissingDependency = .ok result ∧
      SelectedInOrder trafos params result := by
  have hknown := knownTrafos_of_nodup hlist.ids_nodup
  obtain ⟨groups, hgroups⟩ : ∃ groups,
      structureIdsByNestingLevel (transformationDict trafos) = .ok groups := by
    have hacyclic := hlist.acyclic
    have hclosed : WorkflowOperatorsKnown trafos := by
      rw [WorkflowOperatorsKnown, hknown]
      exact hlist.closed
    rw [← hknown] at hacyclic
    rcases structureIds_spec hlist.contents hacyclic with ⟨-, hok⟩ | ⟨hnot, -⟩
    · exact hok
    · exact absurd hclosed hnot
  obtain ⟨hdepths, hids⟩ := structureIds_eq_ok hlist.contents hgroups
  have hmem := fun id => hids.mem_iff (List.mergeSort_perm groups
    (fun a b => decide (a.1 ≤ b.1))) id
  have hmapId := @map_id_filterMap_lookup V W trafos
    ((idsByIncreasingLevel groups).filter (passingIds trafos params groups))
    (fun id hid => (hmem id).mp (List.mem_of_mem_filter hid))
  refine ⟨_, filterAndOrderTrafos_of_levels hlist.contents hgroups _, ?_, ?_, fun trafo => ?_⟩
  · rw [hmapId]
    have hdictNodup : ((transformationDict trafos).map Prod.fst).Nodup := insertAll_nil_nodup _
    exact (hids.nodup (List.mergeSort_perm _ _) hdictNodup).filter _
  · intro before trafo after hresult dependency hdependency hdepends
    have hreturned := fun other => (@mem_passing_iff V W trafos params hlist.contents groups
      hgroups other).mp
    have horder := hids.increasing.filter (passingIds trafos params groups)
    rw [← hmapId, List.pairwise_map, hresult] at horder
    have htrafo := (hreturned trafo (by rw [hresult]; simp)).1
    have hlt := depth_lt_of_dependency hlist.contents (hknown.symm ▸ hfit) hdepths htrafo
      (hreturned dependency hdependency).1 hdepends
    rw [hresult, List.mem_append, List.mem_cons] at hdependency
    rcases hdependency with hbefore | rfl | hafter
    · exact hbefore
    · exact absurd hlt (Nat.lt_irrefl _)
    · have hle := (List.pairwise_cons.mp (List.pairwise_append.mp horder).2.1).1 dependency hafter
      exact absurd hlt (Nat.not_lt_of_le hle)
  · rw [mem_passing_iff hlist.contents hgroups,
      passingIds_eq_true_iff hlist.contents (hknown.symm ▸ hfit) hgroups, hknown]

/-! ## Missing dependencies -/

/-- A dependency of a revision to be returned is missing. -/
def DependencyMissing (trafos : List (TransformationRevision V W)) (params : FilterParams) : Prop :=
  ∃ trafo, ToBeReturned (knownTrafos trafos) params trafo ∧
    ∃ id ∈ getDirectDependencies trafo, ∀ dependency ∈ knownTrafos trafos, dependency.id ≠ id

/-- Missing dependencies are handled as the flag says: either a `KeyError` is raised, or the
revisions to be returned which are known are returned. -/
def MissingDependenciesHandled (trafos : List (TransformationRevision V W)) (params : FilterParams)
    (raiseOnMissingDependency : Bool) : Prop :=
  DependencyMissing trafos params →
    ((∃ error, filterAndOrderTrafos trafos params raiseOnMissingDependency = .error error ∧
      error.isKeyError = true) ↔ raiseOnMissingDependency = true) ∧
    (raiseOnMissingDependency = false →
      ∃ result, filterAndOrderTrafos trafos params raiseOnMissingDependency = .ok result ∧
        ∀ trafo, trafo ∈ result ↔ ToBeReturned (knownTrafos trafos) params trafo)

/-- Revisions to be returned are selected, or a chain of dependencies leads to them from a selected
one along which, until its last step, levels are processed one after the other. -/
def ReachedInOrder (trafos : List (TransformationRevision V W)) (params : FilterParams) : Prop :=
  ∀ groups, structureIdsByNestingLevel (transformationDict trafos) = .ok groups →
    ∀ trafo, ToBeReturned (knownTrafos trafos) params trafo → params.allows trafo = true ∨
      ∃ first rest, List.Sublist (first :: rest) (idsByDecreasingLevel groups) ∧
        selectedIds (transformationDict trafos) params first = true ∧
        List.IsChain (fun a b => b ∈ dependenciesOf (transformationDict trafos) a)
          (first :: rest ++ [trafo.id])

/-- The sweep reaches what is reached in the order of the levels. -/
theorem reachedInOrder_iff (hcontents : ContentsFit (transformationDict trafos))
    (hdependencies : params.includeDependencies = true) {groups : List (ℕ × List UUID)}
    (hgroups : structureIdsByNestingLevel (transformationDict trafos) = .ok groups) :
    ReachedInOrder trafos params ↔ ∀ trafo,
      trafo ∈ ((idsByIncreasingLevel groups).filter (passingIds trafos params groups)).filterMap
        ((transformationDict trafos).lookup ·) ↔ ToBeReturned (knownTrafos trafos) params trafo := by
  have hpasses (trafo : TransformationRevision V W) (htrafo : trafo ∈ knownTrafos trafos) :
      passingIds trafos params groups trafo.id = true ↔ params.allows trafo = true ∨
        ∃ first rest, List.Sublist (first :: rest) (idsByDecreasingLevel groups) ∧
          selectedIds (transformationDict trafos) params first = true ∧
          List.IsChain (fun a b => b ∈ dependenciesOf (transformationDict trafos) a)
            (first :: rest ++ [trafo.id]) := by
    rw [passingIds, if_pos hdependencies, sweep_eq_true_iff_chain, selectedIds,
      mem_knownTrafos_iff.mp htrafo]
    rfl
  simp only [mem_passing_iff hcontents hgroups]
  constructor
  · intro h trafo
    constructor
    · rintro ⟨htrafo, hpass⟩
      rw [toBeReturned_iff hdependencies]
      rw [passingIds, if_pos hdependencies] at hpass
      exact ⟨mem_knownTrafos_iff.mp htrafo, reachable_of_sweep hpass⟩
    · intro hreturned
      exact ⟨hreturned.1, (hpasses trafo hreturned.1).mpr (h groups hgroups trafo hreturned)⟩
  · intro h groups' hgroups' trafo hreturned
    obtain rfl := Except.ok.inj (hgroups.symm.trans hgroups')
    exact (hpasses trafo hreturned.1).mp ((h trafo).mpr hreturned).2

/-- With fitting types all revisions to be returned are reached in order. -/
theorem reachedInOrder_of_fit (hcontents : ContentsFit (transformationDict trafos))
    (hdependencies : params.includeDependencies = true)
    (hfit : ComponentOperatorsFit (knownTrafos trafos)) : ReachedInOrder trafos params := by
  intro groups hgroups
  refine (reachedInOrder_iff hcontents hdependencies hgroups).mpr (fun trafo => ?_) groups hgroups
  rw [mem_passing_iff hcontents hgroups, passingIds_eq_true_iff hcontents hfit hgroups]

/-- Chains of dependencies on workflow operators are chains of dependencies. -/
theorem trafoDependsOn_of_workflow (hcontents : ContentsFit (transformationDict trafos))
    {a b : TransformationRevision V W} (h : TrafoDependsOnWorkflow (knownTrafos trafos) a b) :
    TrafoDependsOn (knownTrafos trafos) a b := by
  obtain ⟨ha, hb, operator, hoperator, -, hid⟩ := h
  exact ⟨ha, hb, (mem_getDirectDependencies_iff hcontents ha).mpr ⟨operator, hoperator, hid⟩⟩

/-- In a list without cycles missing dependencies are handled as the flag says exactly if it is set
for lists in which an operator refers to a missing workflow, and not set for others; without the
flag the dependencies also have to be reached in order. -/
theorem missingDependenciesHandled_iff (hcontents : ContentsFit (transformationDict trafos))
    (hacyclic : ∀ trafo, ¬ Relation.TransGen (TrafoDependsOn (knownTrafos trafos)) trafo trafo)
    (hdependencies : params.includeDependencies = true) (raiseOnMissingDependency : Bool) :
    MissingDependenciesHandled trafos params raiseOnMissingDependency ↔
      (DependencyMissing trafos params →
        (raiseOnMissingDependency = true ∧ ¬ WorkflowOperatorsKnown trafos) ∨
        (raiseOnMissingDependency = false ∧ WorkflowOperatorsKnown trafos ∧
          ReachedInOrder trafos params)) := by
  have hacyclic' : ∀ trafo,
      ¬ Relation.TransGen (TrafoDependsOnWorkflow (knownTrafos trafos)) trafo trafo :=
    fun trafo h => hacyclic trafo
      (Relation.TransGen.mono (fun _ _ => trafoDependsOn_of_workflow hcontents) _ _ h)
  refine imp_congr_right fun _ => ?_
  rcases structureIds_spec hcontents hacyclic' with ⟨hknown, groups, hgroups⟩ | ⟨hunknown, herror⟩
  · rw [reachedInOrder_iff hcontents hdependencies hgroups, filterAndOrderTrafos_of_levels hcontents hgroups]
    cases raiseOnMissingDependency with
    | true => simp [hknown]
    | false => simp [hknown]
  · rw [filterAndOrderTrafos_of_error herror]
    cases raiseOnMissingDependency with
    | true => simp [hunknown, FilterError.isKeyError]
    | false => simp [hunknown, FilterError.isKeyError]

end Ids

/-! ## Workflows in workflows -/

/-- A filter which selects everything. -/
def allowAll (includeDependencies : Bool) : FilterParams :=
  ⟨none, none, none, none, none, none, none, true, includeDependencies⟩

/-- A workflow with an operator which refers to the second id, and possibly a workflow with it. -/
def nestingTrafos (operatorType : TrafoType) (known : Bool) : List (Revision ℤ Unit) :=
  plainWorkflow 1 .draft [{ workflowOperator 5 2 .draft with type := operatorType }] ::
    if known then [plainWorkflow 2 .draft []] else []

/-- Their contents are as validated. -/
theorem contentsFit_nestingTrafos (operatorType : TrafoType) (known : Bool) :
    ContentsFit (transformationDict (nestingTrafos operatorType known)) := by
  intro entry hentry
  have hmem := mem_of_mem_insertAll_nil hentry
  obtain ⟨trafo, htrafo, rfl⟩ := List.mem_map.mp hmem
  rcases List.mem_cons.mp htrafo with rfl | htrafo
  · exact trivial
  · cases known with
    | false => cases htrafo
    | true =>
      obtain rfl := List.mem_singleton.mp htrafo
      exact trivial

/-- A relation which only leads from the first id to the second has no cycles. -/
theorem acyclic_of_ids {r : Revision ℤ Unit → Revision ℤ Unit → Prop}
    (hr : ∀ a b, r a b → a.id = 1 ∧ b.id = 2) (trafo : Revision ℤ Unit) : ¬ Relation.TransGen r trafo trafo := by
  intro h
  obtain ⟨b, hab, hba⟩ := Relation.TransGen.head'_iff.mp h
  obtain ⟨ha, hb⟩ := hr _ _ hab
  rcases hba.cases_head with rfl | ⟨c, hbc, -⟩
  · rw [ha] at hb
    cases hb
  · have hone := (hr _ _ hbc).1
    rw [hb] at hone
    cases hone

/-- A list with both workflows is importable. -/
theorem importableList_nestingTrafos (operatorType : TrafoType) :
    ImportableList (nestingTrafos operatorType true) where
  ids_nodup := by
    change [1, 2].Nodup
    decide
  contents := contentsFit_nestingTrafos operatorType true
  closed := by
    intro trafo htrafo operator hoperator _
    rcases List.mem_pair.mp htrafo with rfl | rfl
    · obtain rfl := List.mem_singleton.mp hoperator
      exact ⟨plainWorkflow 2 .draft [], by simp [nestingTrafos], rfl⟩
    · cases hoperator
  acyclic := by
    refine acyclic_of_ids fun a b hab => ?_
    obtain ⟨ha, -, operator, hoperator, -, hid⟩ := hab
    rcases List.mem_pair.mp ha with rfl | rfl
    · obtain rfl := List.mem_singleton.mp hoperator
      exact ⟨rfl, hid.symm⟩
    · cases hoperator

/-- Instance of `filterAndOrderTrafos_selects`. -/
theorem nestingTrafos_selected :
    ∃ result, filterAndOrderTrafos (nestingTrafos .workflow true) (allowAll true) false =
        .ok result ∧ SelectedInOrder (nestingTrafos .workflow true) (allowAll true) result := by
  refine filterAndOrderTrafos_selects (importableList_nestingTrafos .workflow) ?_ false
  intro trafo htrafo operator hoperator htype
  rcases List.mem_pair.mp htrafo with rfl | rfl
  · obtain rfl := List.mem_singleton.mp hoperator
    cases htype
  · cases hoperator

/-- If the operator is a component by its type, the workflow it refers to comes after its own. -/
theorem mistypedOperator_not_selected :
    ImportableList (nestingTrafos .component true) ∧
      filterAndOrderTrafos (nestingTrafos .component true) (allowAll false) false =
        .ok (nestingTrafos .component true) ∧
      ¬ SelectedInOrder (nestingTrafos .component true) (allowAll false)
        (nestingTrafos .component true) := by
  refine ⟨importableList_nestingTrafos .component, ?_, fun h => ?_⟩
  · have hgroups : structureIdsByNestingLevel
        (transformationDict (nestingTrafos .component true)) = .ok [(1, [1, 2])] := by decide
    rw [filterAndOrderTrafos_of_levels (contentsFit_nestingTrafos .component true) hgroups,
      idsByIncreasingLevel, List.mergeSort_singleton]
    rfl
  · exact absurd (h.dependencies_first [] _ [plainWorkflow 2 .draft []] rfl
      (plainWorkflow 2 .draft []) (by simp [nestingTrafos]) (by decide)) List.not_mem_nil

/-- Instance of `missingDependenciesHandled_iff`: a missing workflow and the flag. -/
theorem missingWorkflow_handled :
    MissingDependenciesHandled (nestingTrafos .workflow false) (allowAll true) true := by
  refine (missingDependenciesHandled_iff (contentsFit_nestingTrafos .workflow false) ?_ rfl
    true).mpr fun _ => Or.inl ⟨rfl, fun hknown => ?_⟩
  · refine acyclic_of_ids fun a b hab => ?_
    obtain ⟨ha, -, hid⟩ := hab
    obtain rfl := List.mem_singleton.mp ha
    exact ⟨rfl, List.mem_singleton.mp hid⟩
  · obtain ⟨dependency, hdependency, hid⟩ := hknown _ (List.mem_singleton_self _) _
      (List.mem_singleton_self _) rfl
    obtain rfl := List.mem_singleton.mp hdependency
    cases hid

/-- A missing component is not noticed. -/
theorem missingComponent_not_handled :
    ¬ MissingDependenciesHandled (nestingTrafos .component false) (allowAll true) true := by
  intro h
  have hmissing : DependencyMissing (nestingTrafos .component false) (allowAll true) := by
    refine ⟨_, ⟨List.mem_singleton_self _, _, List.mem_singleton_self _, by decide, .refl⟩, 2,
      by decide, fun dependency hdependency => ?_⟩
    obtain rfl := List.mem_singleton.mp hdependency
    decide
  obtain ⟨error, herror, -⟩ := (h hmissing).1.mpr rfl
  have hgroups : structureIdsByNestingLevel
      (transformationDict (nestingTrafos .component false)) = .ok [(1, [1])] := by decide
  rw [filterAndOrderTrafos_of_levels (contentsFit_nestingTrafos .component false) hgroups] at herror
  cases herror

end HetidaDesigner
