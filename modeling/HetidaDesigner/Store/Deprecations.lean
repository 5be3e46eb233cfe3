import HetidaDesigner.Library.NestedPaths
import HetidaDesigner.Store.Containment

/-!
# Marks of deprecated operators

An operator should carry the state DISABLED if what it refers to is deprecated or contains
something deprecated. Marks are pushed along the nestings when a revision is deprecated, and
pulled for new workflow operators when a stored workflow is updated.
-/

namespace HetidaDesigner

open NestedPaths Relation Runs

namespace Database

variable {V D : Type}

/-- The revision is stored and deprecated. -/
def IsDisabled (db : Database V D) (id : UUID) : Prop :=
  ∃ shape ∈ db.shape id, shape.state = .disabled

/-- The revision is deprecated or contains, on any level, a deprecated one. -/
def ContainsDisabled (db : Database V D) (id : UUID) : Prop :=
  ∃ id', ReflTransGen db.Contains id id' ∧ db.IsDisabled id'

/-- Every operator that refers to something with a deprecated revision in it has the mark. -/
def OperatorsMarked (db : Database V D) : Prop :=
  ∀ row ∈ db.revisions, ∀ operator ∈ row.operators,
    db.ContainsDisabled operator.transformationId → operator.state = .disabled

/-- The property in terms of uses. -/
theorem operatorsMarked_iff {db : Database V D} : db.OperatorsMarked ↔
    ∀ id, ∀ use ∈ db.uses id, db.ContainsDisabled use.transformationId → use.state = .disabled := by
  constructor
  · intro h id use huse
    have hid : use.ref ∈ db.refs id := List.mem_map_of_mem huse
    obtain ⟨row, hrow, rfl⟩ := exists_row_of_mem_refs hid
    rw [uses, shape, find_of_mem hrow, Option.map_some, Option.map_some, Option.getD_some,
      ← operators_map_use] at huse
    obtain ⟨operator, hoperator, rfl⟩ := List.mem_map.mp huse
    exact h row hrow operator hoperator
  · intro h row hrow operator hoperator
    refine h row.id operator.use ?_
    rw [uses, shape, find_of_mem hrow, Option.map_some, Option.map_some, Option.getD_some,
      ← operators_map_use]
    exact List.mem_map_of_mem hoperator

end Database

section Conditions

variable {V D : Type}

/-- The revision is deprecated with the save, or contains something deprecated through it. -/
def BecomesDeprecated (db : Database V D) (revision : Revision V D) : Prop :=
  revision.state = .disabled ∨
    ∃ use ∈ savedUses db revision, db.ContainsDisabled use.transformationId

/-- A save keeps marks if the saved operators of deprecated revisions carry the mark or get it,
and if, in case the saved revision itself becomes deprecated, all operators elsewhere that reach
it carry the mark or get it, by a deprecation, along a nesting. -/
def KeepsMarks (db : Database V D) (request : Request V D) : Prop :=
  ∀ revision ∈ request.payload,
    (∀ use ∈ savedUses db revision,
      db.ContainsDisabled use.transformationId ∨ (BecomesDeprecated db revision ∧
        ReflTransGen db.Contains use.transformationId revision.id) →
      use.state = .disabled ∨ Pulled db.shape (db.shape revision.id) use) ∧
    (BecomesDeprecated db revision → ∀ other, other ≠ revision.id → ∀ use ∈ db.uses other,
      ReflTransGen db.Contains use.transformationId revision.id →
      use.state = .disabled ∨
        (request.Deprecates ∧ Marked (db.findAllNestings revision.id) other use))

end Conditions

/-! ## Deprecated revisions after a save -/

section Steps

variable {V D : Type} {db db' : Database V D} {request : Request V D} {revision : Revision V D}

/-- A revision is deprecated after a save if it is the saved one, sent as deprecated, or has been
deprecated before. -/
theorem Saves.isDisabled_cases (h : Saves db db' request revision) {id : UUID}
    (hid : db'.IsDisabled id) : (id = revision.id ∧ revision.state = .disabled) ∨
      (id ≠ revision.id ∧ db.IsDisabled id) := by
  obtain ⟨shape', hshape', hdisabled⟩ := hid
  obtain ⟨saved, hsaved, -, hpropagated⟩ := h
  obtain ⟨shape, hshape, -, hstate, -⟩ := hpropagated.exists_shape hshape'
  rw [hstate] at hdisabled
  split at hshape
  · rename_i hself
    obtain rfl := Option.some.inj hshape
    exact Or.inl ⟨hself, hsaved.state.symm.trans hdisabled⟩
  · rename_i hother
    exact Or.inr ⟨hother, shape, hshape, hdisabled⟩

/-- What contains something deprecated after a save did so before, or reaches the saved revision,
which becomes deprecated. -/
theorem Saves.containsDisabled_cases (h : Saves db db' request revision) {id : UUID}
    (hid : db'.ContainsDisabled id) : db.ContainsDisabled id ∨
      (BecomesDeprecated db revision ∧ ReflTransGen db.Contains id revision.id) := by
  obtain ⟨last, hwalk, hlast⟩ := hid
  have hold (hreach : ReflTransGen db.Contains id last) : db.ContainsDisabled id ∨
      (BecomesDeprecated db revision ∧ ReflTransGen db.Contains id revision.id) := by
    rcases h.isDisabled_cases hlast with ⟨hself, hstate⟩ | ⟨-, hdisabled⟩
    · exact Or.inr ⟨Or.inl hstate, hself ▸ hreach⟩
    · exact Or.inl ⟨last, hreach, hdisabled⟩
  rcases reflTransGen_or_reaches h.contains_iff hwalk with hreach | hreach
  · exact hold hreach
  · rcases reflTransGen_or_from h.contains_iff hwalk with hreach' | rfl | ⟨next, hnext, hrest⟩
    · exact hold hreach'
    · rcases h.isDisabled_cases hlast with ⟨-, hstate⟩ | ⟨hother, -⟩
      · exact Or.inr ⟨Or.inl hstate, hreach⟩
      · exact absurd rfl hother
    · obtain ⟨use, huse, rfl⟩ := h.contains_self.mp hnext
      rcases h.isDisabled_cases hlast with ⟨-, hstate⟩ | ⟨-, hdisabled⟩
      · exact Or.inr ⟨Or.inl hstate, hreach⟩
      · exact Or.inr ⟨Or.inr ⟨use, huse, last, hrest, hdisabled⟩, hreach⟩

/-- After a save every use is one from before or a saved one, up to marks that a deprecation
adds. -/
theorem Propagated.mem_uses {deprecates : Prop} {id : UUID} {saved : Shape}
    (h : Propagated db db' deprecates id saved) {other : UUID} {use' : OperatorUse}
    (huse' : use' ∈ db'.uses other) :
    ∃ use ∈ if other = id then saved.uses else db.uses other,
      use'.transformationId = use.transformationId ∧
      (use.state = .disabled ∨ (deprecates ∧ Marked (db.findAllNestings id) other use) →
        use'.state = .disabled) := by
  have hbase : ((if other = id then some saved else db.shape other).map Shape.uses).getD [] =
      if other = id then saved.uses else db.uses other := by
    split <;> rfl
  rw [← hbase]
  unfold Database.uses at huse'
  cases h with
  | marked _ _ hshapes =>
    rw [hshapes] at huse'
    cases hshape : (if other = id then some saved else db.shape other) with
    | none =>
      rw [hshape] at huse'
      exact absurd huse' List.not_mem_nil
    | some shape =>
      rw [hshape] at huse'
      obtain ⟨use, huse, rfl⟩ := List.mem_map.mp huse'
      refine ⟨use, huse, OperatorUse.mark_transformationId use _, fun hstate => ?_⟩
      exact OperatorUse.mark_state_eq_disabled.mpr (hstate.imp_right And.right)
  | rebuilt hactive _ hshapes | kept hactive _ _ hshapes =>
    rw [hshapes] at huse'
    refine ⟨use', huse', rfl, fun hstate => ?_⟩
    exact hstate.resolve_right fun hdeprecates => hactive hdeprecates.1

/-- A save that keeps marks keeps the property. -/
theorem Saves.operatorsMarked (h : Saves db db' request revision)
    (hpayload : revision ∈ request.payload) (hmarked : db.OperatorsMarked)
    (hkeeps : KeepsMarks db request) : db'.OperatorsMarked := by
  rw [Database.operatorsMarked_iff] at hmarked ⊢
  obtain ⟨hsavedMarked, hreaching⟩ := hkeeps revision hpayload
  obtain ⟨saved, hsaved, -, hpropagated⟩ := id h
  intro other use' huse' hdisabled
  obtain ⟨use, huse, htrafo, hmark⟩ := hpropagated.mem_uses huse'
  rw [htrafo] at hdisabled
  have hcases := h.containsDisabled_cases hdisabled
  refine hmark ?_
  split at huse
  · rw [hsaved.uses] at huse
    obtain ⟨original, horiginal, rfl⟩ := List.mem_map.mp huse
    rw [OperatorUse.mark_transformationId] at hcases
    exact Or.inl (OperatorUse.mark_state_eq_disabled.mpr
      (hsavedMarked original horiginal hcases))
  · rename_i hother
    rcases hcases with hold | ⟨hbecomes, hreach⟩
    · exact Or.inl (hmarked other use huse hold)
    · exact hreaching hbecomes other hother use huse hreach

/-- The empty store has no operators. -/
theorem operatorsMarked_empty : (Database.empty : Database V D).OperatorsMarked :=
  fun _ hrow => absurd hrow List.not_mem_nil

end Steps

/-- In every run of saves and deprecations which keep marks, every operator of something
deprecated carries the mark. -/
theorem operatorsMarked_of_run [UnicodeData] {V D : Type} [DecidableEq V] [DecidableEq D]
    {tools : CodeTools V D} {db : Database V D}
    (h : Reaches (handle tools) (fun db request => request.WellTyped ∧
      request.payload.isSome ∧ KeepsMarks db request) .empty db) : db.OperatorsMarked := by
  refine h.invariant operatorsMarked_empty fun s request s' hs hallowed hok => ?_
  obtain ⟨hvalid, hpayload, hkeeps⟩ := hallowed
  obtain ⟨revision, hrevision, hsaves⟩ := saves_of_payload hvalid hpayload hok
  exact hsaves.operatorsMarked hrevision hs hkeeps

/-! ## A save of content which was read before a deprecation -/

/-- A workflow is released, used, deprecated, and then the using workflow is saved once more as
it was before. -/
def staleSave : List (Request ℤ Unit) := [
  plainPut (plainWorkflow 2 .released []),
  plainPut (plainWorkflow 1 .draft [workflowOperator 11 2 .released]),
  plainPut (plainWorkflow 2 .disabled []),
  plainPut (plainWorkflow 1 .draft [workflowOperator 11 2 .released])]

/-- All payloads are valid. -/
theorem staleSave_wellTyped : ∀ request ∈ staleSave, PlainWellTyped request := by
  simp only [staleSave, List.forall_mem_cons, List.not_mem_nil, false_imp_iff, implies_true,
    and_true]
  exact ⟨plainPut_wellTyped (by decide), plainPut_wellTyped (by decide),
    plainPut_wellTyped (by decide), plainPut_wellTyped (by decide)⟩

/-- The mark set by the deprecation is lost. -/
theorem staleSave_losesMark :
    ¬ ∀ db, Reaches plainHandle (fun _ request => PlainWellTyped request ∧
      request.payload.isSome) .empty db → db.OperatorsMarked := by
  intro h
  obtain ⟨db, hdb, huse, hstate⟩ := exists_of_run plainHandle
    (fun _ request => request.payload.isSome) staleSave .empty
    (fun db => ⟨11, 2, .workflow, .released⟩ ∈ db.uses 1 ∧
      (db.shape 2).map Shape.state = some .disabled) (by decide +kernel)
  have hmarked := Database.operatorsMarked_iff.mp
    (h db (Reaches.of_run staleSave_wellTyped hdb)) 1 _ huse
  obtain ⟨shape, hshape, hdisabled⟩ := Option.map_eq_some_iff.mp hstate
  exact absurd (hmarked ⟨2, .refl, shape, hshape, hdisabled⟩) (by decide)

/-- Nothing is deprecated yet, or a revision without operators is deprecated which all operators
elsewhere are nested with. -/
def PlainlyKeepsMarks (db : Database ℤ Unit) (request : Request ℤ Unit) : Prop :=
  request.payload.isSome ∧ ∀ revision ∈ request.payload,
    (revision.state ≠ .disabled ∧ ∀ row ∈ db.revisions, row.state ≠ .disabled) ∨
      (savedUses db revision = [] ∧ request.Deprecates ∧
        ∀ row ∈ db.revisions, row.id ≠ revision.id → ∀ use ∈ db.uses row.id,
          ∃ nesting ∈ db.findAllNestings revision.id,
            nesting.workflowId = row.id ∧ nesting.viaOperatorId = use.operatorId)

instance (db : Database ℤ Unit) (request : Request ℤ Unit) :
    Decidable (PlainlyKeepsMarks db request) :=
  inferInstanceAs (Decidable (_ ∧ ∀ _ ∈ request.payload, _))

/-- In both cases marks are kept. -/
theorem PlainlyKeepsMarks.keepsMarks {db : Database ℤ Unit} {request : Request ℤ Unit}
    (h : PlainlyKeepsMarks db request) : KeepsMarks db request := by
  intro revision hrevision
  rcases h.2 revision hrevision with ⟨hactive, hnone⟩ | ⟨hplain, hdeprecates, hmarked⟩
  · have hcontains (id : UUID) : ¬ db.ContainsDisabled id := by
      rintro ⟨last, -, shape, hshape, hdisabled⟩
      obtain ⟨row, hrow, rfl⟩ := Option.map_eq_some_iff.mp hshape
      exact hnone row (Database.find_eq_some hrow).1 hdisabled
    have hbecomes : ¬ BecomesDeprecated db revision := by
      rintro (hstate | ⟨use, -, huse⟩)
      · exact hactive hstate
      · exact hcontains _ huse
    exact ⟨fun use _ hcases => (hcases.elim (hcontains _) fun h => hbecomes h.1).elim,
      fun h => (hbecomes h).elim⟩
  · rw [hplain]
    refine ⟨fun use huse => absurd huse List.not_mem_nil, fun _ other hother use huse _ => ?_⟩
    have href : use.ref ∈ db.refs other := List.mem_map_of_mem huse
    obtain ⟨row, hrow, rfl⟩ := Database.exists_row_of_mem_refs href
    exact Or.inr ⟨hdeprecates, hmarked row hrow hother use huse⟩

/-- Up to the deprecation all marks are there. -/
theorem staleSave_deprecation_marks :
    ∃ db, run plainHandle PlainlyKeepsMarks (staleSave.take 3) .empty = some db ∧
      db.uses 1 = [⟨11, 2, .workflow, .disabled⟩] ∧ db.OperatorsMarked := by
  obtain ⟨db, hdb, huses⟩ := exists_of_run plainHandle PlainlyKeepsMarks (staleSave.take 3) .empty
    (fun db => db.uses 1 = [⟨11, 2, .workflow, .disabled⟩]) (by decide +kernel)
  have hreaches := Reaches.of_run (fun request hrequest =>
    staleSave_wellTyped request (List.mem_of_mem_take hrequest)) hdb
  refine ⟨db, hdb, huses, @operatorsMarked_of_run asciiOnly _ _ _ _ _ _ (hreaches.mono ?_)⟩
  exact fun db request hallowed => ⟨hallowed.1, hallowed.2.1, hallowed.2.keepsMarks⟩

end HetidaDesigner
