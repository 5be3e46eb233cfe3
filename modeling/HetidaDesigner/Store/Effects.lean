import HetidaDesigner.Store.Shape

/-!
# What writing a revision does to its shape

For each function of the service one lemma says what a successful call has done. Writing a
revision sets its shape: the state is always the one sent, and the operators are those sent
unless the call releases or deprecates, up to marks which new workflow operators get.
-/

namespace HetidaDesigner

open Checks Database

/-! ## The shape which gets stored -/

/-- The call releases a draft or deprecates a released revision. -/
def changesState (existing payload : Shape) : Prop :=
  (existing.state = .draft ∧ payload.state = .released) ∨
    (existing.state = .released ∧ payload.state = .disabled)

instance (existing payload : Shape) : Decidable (changesState existing payload) :=
  inferInstanceAs (Decidable (_ ∨ _))

/-- The shape whose content gets stored: releasing and deprecating keep the stored content. -/
def contentSource (existing : Option Shape) (payload : Shape) : Shape :=
  match existing with
  | none => payload
  | some existing => if changesState existing payload then existing else payload

/-- The revision is stored with an operator that is marked as deprecated. -/
def hasDisabledUse (shapes : UUID → Option Shape) (id : UUID) : Prop :=
  ∃ shape, shapes id = some shape ∧ ∃ use ∈ shape.uses, use.state = .disabled

/-- A new workflow operator of a stored workflow gets the mark if what it refers to has marked
operators. -/
def Pulled (shapes : UUID → Option Shape) (existing : Option Shape) (use : OperatorUse) : Prop :=
  use.type = .workflow ∧ hasDisabledUse shapes use.transformationId ∧
    ∃ shape, existing = some shape ∧ use.operatorId ∉ shape.uses.map OperatorUse.operatorId

open Classical in
/-- A use which gets the mark that it is deprecated on a condition. -/
noncomputable def OperatorUse.mark (use : OperatorUse) (p : Prop) : OperatorUse :=
  if p then { use with state := .disabled } else use

@[simp] theorem OperatorUse.mark_operatorId (use : OperatorUse) (p : Prop) :
    (use.mark p).operatorId = use.operatorId := by
  unfold mark
  split <;> rfl

@[simp] theorem OperatorUse.mark_transformationId (use : OperatorUse) (p : Prop) :
    (use.mark p).transformationId = use.transformationId := by
  unfold mark
  split <;> rfl

@[simp] theorem OperatorUse.mark_type (use : OperatorUse) (p : Prop) :
    (use.mark p).type = use.type := by
  unfold mark
  split <;> rfl

/-- A marked use is disabled. -/
theorem OperatorUse.mark_of {use : OperatorUse} {p : Prop} (h : p) :
    use.mark p = { use with state := .disabled } := if_pos h

/-- A use which is not marked stays as it is. -/
theorem OperatorUse.mark_of_not {use : OperatorUse} {p : Prop} (h : ¬p) : use.mark p = use :=
  if_neg h

/-- Marking twice. -/
theorem OperatorUse.mark_mark (use : OperatorUse) (p q : Prop) :
    (use.mark p).mark q = use.mark (p ∨ q) := by
  by_cases hp : p
  · rw [mark_of hp, mark_of (Or.inl hp)]
    unfold mark
    split <;> rfl
  · rw [mark_of_not hp]
    by_cases hq : q
    · rw [mark_of hq, mark_of (Or.inr hq)]
    · rw [mark_of_not hq, mark_of_not (by tauto)]

/-- A use with a mark has the state of deprecated operators, and one without keeps its state. -/
theorem OperatorUse.mark_state_eq_disabled {use : OperatorUse} {p : Prop} :
    (use.mark p).state = .disabled ↔ use.state = .disabled ∨ p := by
  by_cases hp : p
  · rw [mark_of hp]
    simp [hp]
  · rw [mark_of_not hp]
    simp [hp]

section Write

variable [UnicodeData] {V D : Type} [DecidableEq V] [DecidableEq D] {db mid : Database V D}
  {tools : CodeTools V D} {surroundings : Surroundings} {options : PutOptions}

omit [UnicodeData] in
/-- Revisions which are the same except for wiring and documentation have the same shape. -/
theorem shape_eq_of_same {trA trB : Revision V D} (h : trSameExceptForWiringAndDocu trA trB = true) :
    trA.shape = trB.shape := by
  have heq := of_decide_eq_true h
  calc trA.shape
      = TransformationRevision.shape
          { trA with testWiring := trB.testWiring, documentation := trB.documentation } := rfl
    _ = trB.shape := by rw [heq]

omit [UnicodeData] in
/-- A modifiable revision keeps its type, and a frozen one is not changed. -/
theorem isModifiable_eq_true {existing updated : Revision V D} {allow : Bool}
    (h : isModifiable existing updated allow = true) :
    existing.type = updated.type ∧
      (trSameExceptForWiringAndDocu existing updated = true ∨ allow = true ∨
        (existing.state ≠ .disabled ∧ (existing.state = .released → updated.state = .disabled))) := by
  obtain ⟨htype, h⟩ := of_decide_eq_true h
  refine ⟨htype, h.imp id fun hstates => ?_⟩
  cases allow with
  | true => exact Or.inl rfl
  | false =>
    refine Or.inr ⟨fun hdisabled => hstates.1 ⟨hdisabled, rfl⟩, fun hreleased => ?_⟩
    by_contra hne
    exact hstates.2 ⟨hreleased, hne, rfl⟩

omit [DecidableEq D] in
/-- Releasing or deprecating keeps the stored content and takes over the state sent; otherwise
the payload stays. -/
theorem ifApplicableReleaseOrDeprecate_shape {existing payload updated : Revision V D}
    (h : ifApplicableReleaseOrDeprecate surroundings existing payload = .ok updated)
    (hid : existing.id = payload.id) (htype : existing.type = payload.type) :
    updated.id = payload.id ∧ updated.shape =
      { contentSource (some existing.shape) payload.shape with
        state := payload.state, type := payload.type } := by
  unfold ifApplicableReleaseOrDeprecate at h
  split at h
  · rename_i hexisting hpayload
    obtain ⟨released, hreleased, h⟩ := bind_eq_ok.mp h
    obtain ⟨hid', hshape⟩ := TransformationRevision.release_shape (mapError_eq_ok.mp hreleased)
    obtain ⟨hid'', hshape'⟩ := TransformationRevision.assignContent_shape (mapError_eq_ok.mp h)
    have hchanges : changesState existing.shape payload.shape := Or.inl ⟨hexisting, hpayload⟩
    have htypeReleased : released.type = payload.type := congrArg Shape.type hshape
    have hstateReleased : released.state = .released := congrArg Shape.state hshape
    refine ⟨hid''.trans hid', ?_⟩
    rw [hshape', contentSource, if_pos hchanges, htypeReleased, hstateReleased, hpayload]
    rfl
  · rename_i hexisting hpayload
    obtain ⟨copied, hcopied, h⟩ := bind_eq_ok.mp h
    obtain ⟨deprecated, hdeprecated, h⟩ := bind_eq_ok.mp h
    obtain ⟨hidCopied, hshapeCopied⟩ := TransformationRevision.validate_shape
      (mapError_eq_ok.mp hcopied)
    obtain ⟨hid', hshape⟩ := TransformationRevision.deprecateRevision_shape
      (mapError_eq_ok.mp hdeprecated)
    obtain ⟨hid'', hshape'⟩ := TransformationRevision.assignContent_shape (mapError_eq_ok.mp h)
    have hchanges : changesState existing.shape payload.shape := Or.inr ⟨hexisting, hpayload⟩
    rw [hshapeCopied] at hshape
    have htypeDeprecated : deprecated.type = payload.type :=
      (congrArg Shape.type hshape).trans htype
    have hstateDeprecated : deprecated.state = .disabled := congrArg Shape.state hshape
    refine ⟨hid''.trans (hid'.trans (hidCopied.trans hid)), ?_⟩
    rw [hshape', contentSource, if_pos hchanges, htypeDeprecated, hstateDeprecated, hpayload]
    rfl
  · rename_i hreleases hdeprecates
    obtain rfl := return_eq_ok.mp h
    have hchanges : ¬changesState existing.shape payload.shape := by
      rintro (⟨hexisting, hpayload⟩ | ⟨hexisting, hpayload⟩)
      · exact hreleases hexisting hpayload
      · exact hdeprecates hexisting hpayload
    refine ⟨rfl, ?_⟩
    rw [contentSource, if_neg hchanges]
    rfl

omit [DecidableEq D] in
/-- A revision contains deprecated operators if its stored shape does. -/
theorem containsDeprecated_eq_ok {uuid4 : ℕ → UUID} {id : UUID} {found : Bool}
    (h : containsDeprecated uuid4 db id = .ok found) : found = true ↔ hasDisabledUse db.shape id := by
  unfold containsDeprecated at h
  obtain ⟨revision, hselect, h⟩ := bind_eq_ok.mp h
  obtain ⟨-, hshape⟩ := Database.shape_of_select hselect
  split at h
  · cases h
  · rename_i content hcontent
    obtain rfl := return_eq_ok.mp h
    have huses : revision.shape.uses = content.operators.map Operator.use := by
      rw [TransformationRevision.shape, hcontent]
      rfl
    rw [hasDisabledUse, hshape, List.any_eq_true]
    constructor
    · rintro ⟨operator, hoperator, hdisabled⟩
      refine ⟨_, rfl, operator.use, ?_, of_decide_eq_true hdisabled⟩
      rw [huses]
      exact List.mem_map_of_mem hoperator
    · rintro ⟨shape, hshape', use, huse, hdisabled⟩
      obtain rfl := Option.some.inj hshape'
      rw [huses] at huse
      obtain ⟨operator, hoperator, rfl⟩ := List.mem_map.mp huse
      exact ⟨operator, hoperator, decide_eq_true hdisabled⟩

omit [DecidableEq D] in
/-- An operator of an existing workflow gets the mark exactly if it is pulled. -/
theorem pullDeprecation_use {existing : Revision V D} {operator pulled : Operator V}
    (h : pullDeprecation surroundings db (existing.operators.map fun operator => operator.id)
      operator = .ok pulled) :
    pulled.use = operator.use.mark (Pulled db.shape (some existing.shape) operator.use) := by
  have hids : (existing.operators.map fun operator => operator.id) =
      existing.shape.uses.map OperatorUse.operatorId := by
    rw [← operators_map_use, List.map_map]
    rfl
  unfold pullDeprecation at h
  rw [hids] at h
  split at h
  · rename_i hnew
    obtain ⟨found, hfound, h⟩ := bind_eq_ok.mp h
    obtain rfl := return_eq_ok.mp h
    have hiff := containsDeprecated_eq_ok hfound
    have hpulled : Pulled db.shape (some existing.shape) operator.use ↔ found = true :=
      ⟨fun hp => hiff.mpr hp.2.1, fun hf => ⟨hnew.1, hiff.mp hf, existing.shape, rfl, hnew.2⟩⟩
    by_cases hf : found = true
    · rw [if_pos hf, OperatorUse.mark_of (hpulled.mpr hf)]
      rfl
    · rw [if_neg hf, OperatorUse.mark_of_not fun hp => hf (hpulled.mp hp)]
  · rename_i hold
    obtain rfl := return_eq_ok.mp h
    refine (OperatorUse.mark_of_not ?_).symm
    rintro ⟨htype, -, shape, hshape, hnew⟩
    obtain rfl := Option.some.inj hshape
    exact hold ⟨htype, hnew⟩

omit [DecidableEq D] in
/-- Updating the content keeps id, type and state; the only change of uses are pulled marks. -/
theorem updateContent_shape {existing : Option (Revision V D)} {updated written : Revision V D}
    (h : updateContent tools surroundings db options existing updated = .ok written) :
    written.id = updated.id ∧ written.type = updated.type ∧ written.state = updated.state ∧
      written.shape.uses = updated.shape.uses.map fun use =>
        use.mark (Pulled db.shape (existing.map TransformationRevision.shape) use) := by
  unfold updateContent at h
  split at h
  · rename_i text hcontent
    have hnone : updated.shape.uses = [] := by
      rw [TransformationRevision.shape, hcontent]
      rfl
    split at h
    · obtain ⟨code, -, h⟩ := bind_eq_ok.mp h
      obtain rfl := return_eq_ok.mp h
      rw [hnone]
      exact ⟨rfl, rfl, rfl, rfl⟩
    · obtain rfl := return_eq_ok.mp h
      rw [hnone]
      exact ⟨rfl, rfl, rfl, rfl⟩
  · obtain rfl := return_eq_ok.mp h
    refine ⟨rfl, rfl, rfl, (List.map_id _).symm.trans (List.map_congr_left fun use _ => ?_)⟩
    refine (OperatorUse.mark_of_not ?_).symm
    rintro ⟨-, -, shape, hshape, -⟩
    cases hshape
  · rename_i content existing hcontent
    obtain ⟨operators, hoperators, h⟩ := bind_eq_ok.mp h
    obtain rfl := return_eq_ok.mp h
    refine ⟨rfl, rfl, rfl, ?_⟩
    have huses : updated.shape.uses = content.operators.map Operator.use := by
      rw [TransformationRevision.shape, hcontent]
      rfl
    rw [huses, List.map_map, ← List.forall₂_eq_eq_eq]
    refine List.forall₂_map_left_iff.mpr (List.forall₂_map_right_iff.mpr ?_)
    exact (mapM_eq_ok.mp hoperators).flip.imp fun _ _ => pullDeprecation_use

/-- A revision is inserted, or the stored one is changed as far as that is allowed. -/
theorem writeRevision_eq_ok {payload written : Revision V D}
    (h : writeRevision tools surroundings db options payload = .ok (mid, written)) :
    (db.find payload.id = none ∧
      updateContent tools surroundings db options none payload = .ok written ∧
      db.addTr written = .ok mid) ∨
    ∃ existing updated, db.selectTrById (surroundings.uuid4 .existing) payload.id = .ok existing ∧
      isModifiable existing payload options.allowOverwriteReleased = true ∧
      ifApplicableReleaseOrDeprecate surroundings existing payload = .ok updated ∧
      updateContent tools surroundings db options (some existing) updated = .ok written ∧
      db.updateTr written = .ok mid := by
  unfold writeRevision at h
  split at h
  · rename_i id hselect
    refine Or.inl ⟨?_, ?_⟩
    · unfold selectTrById at hselect
      split at hselect
      · assumption
      · rename_i row hrow
        cases hvalid : row.validate (surroundings.uuid4 .existing) with
        | error e => rw [hvalid] at hselect; cases hselect
        | ok revision => rw [hvalid] at hselect; cases hselect
    · obtain ⟨created, hcreated, h⟩ := bind_eq_ok.mp h
      obtain ⟨after, hadd, h⟩ := bind_eq_ok.mp h
      obtain ⟨rfl, rfl⟩ := Prod.mk.inj (return_eq_ok.mp h)
      exact ⟨hcreated, hadd⟩
  · cases h
  · rename_i existing hselect
    obtain ⟨hmodifiable, h⟩ := require_bind_eq_ok.mp h
    obtain ⟨updated, hupdated, h⟩ := bind_eq_ok.mp h
    obtain ⟨updated', hupdated', h⟩ := bind_eq_ok.mp h
    obtain ⟨after, hafter, h⟩ := bind_eq_ok.mp h
    obtain ⟨rfl, rfl⟩ := Prod.mk.inj (return_eq_ok.mp h)
    exact Or.inr ⟨existing, updated, hselect, hmodifiable, hupdated, hupdated', hafter⟩

/-- How the shape which gets stored arises from the one sent and the one stored before. -/
structure SavedAs (shapes : UUID → Option Shape) (allowOverwriteReleased : Bool) (id : UUID)
    (payload saved : Shape) : Prop where
  type : saved.type = payload.type
  state : saved.state = payload.state
  uses : saved.uses = (contentSource (shapes id) payload).uses.map fun use =>
    use.mark (Pulled shapes (shapes id) use)
  type_eq : ∀ existing, shapes id = some existing → existing.type = payload.type
  frozen : allowOverwriteReleased = false → ∀ existing, shapes id = some existing →
    payload = existing ∨
      (existing.state ≠ .disabled ∧ (existing.state = .released → payload.state = .disabled))

/-- Writing a revision sets its shape and leaves everything else. -/
theorem writeRevision_shape {payload written : Revision V D}
    (h : writeRevision tools surroundings db options payload = .ok (mid, written)) :
    written.id = payload.id ∧
      SavedAs db.shape options.allowOverwriteReleased payload.id payload.shape written.shape ∧
      mid.nestings = db.nestings ∧
      ∀ id, mid.shape id = if id = payload.id then some written.shape else db.shape id := by
  rcases writeRevision_eq_ok h with ⟨hnew, hcontent, hadd⟩ |
    ⟨existing, updated, hselect, hmodifiable, hupdated, hcontent, hupdate⟩
  · have hnone : db.shape payload.id = none := by rw [Database.shape, hnew, Option.map_none]
    obtain ⟨hid, htype, hstate, huses⟩ := updateContent_shape hcontent
    refine ⟨hid, ⟨htype, hstate, ?_, ?_, ?_⟩, (addTr_eq_ok hadd).2.1, fun id => ?_⟩
    · rw [huses, hnone]
      rfl
    · simp [hnone]
    · simp [hnone]
    · rw [Database.shape_addTr hadd, hid]
  · obtain ⟨hidExisting, hsome⟩ := Database.shape_of_select hselect
    obtain ⟨htypeExisting, hfrozen⟩ := isModifiable_eq_true hmodifiable
    obtain ⟨hidUpdated, hshapeUpdated⟩ :=
      ifApplicableReleaseOrDeprecate_shape hupdated hidExisting htypeExisting
    obtain ⟨hid, htype, hstate, huses⟩ := updateContent_shape hcontent
    refine ⟨hid.trans hidUpdated, ⟨?_, ?_, ?_, ?_, ?_⟩, (updateTr_eq_ok hupdate).1, fun id => ?_⟩
    · exact htype.trans (congrArg Shape.type hshapeUpdated)
    · exact hstate.trans (congrArg Shape.state hshapeUpdated)
    · rw [huses, hsome, hshapeUpdated]
      rfl
    · intro shape hshape
      obtain rfl := Option.some.inj (hsome.symm.trans hshape)
      exact htypeExisting
    · intro hallow shape hshape
      obtain rfl := Option.some.inj (hsome.symm.trans hshape)
      rcases hfrozen with hsame | hallow' | hstates
      · exact Or.inl (shape_eq_of_same hsame).symm
      · exact absurd (hallow.symm.trans hallow') (by decide)
      · exact Or.inr hstates
    · rw [Database.shape_updateTr hupdate, hid.trans hidUpdated]
      split
      · rename_i hid
        rw [hid, hsome, Option.map_some]
      · rfl

end Write

end HetidaDesigner
