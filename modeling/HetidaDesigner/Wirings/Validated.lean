import HetidaDesigner.Wirings.Described

/-!
# Wirings which pass validation

What validation demands of a wiring, and which wirings it returns as they are when they are dumped
and validated again. Whatever has passed validation once does so again, apart from a missing
reference id, which is found only if it is given. Resolution changes a wiring after validation; the
record decides whether the result is still one which validation leaves alone.
-/

namespace HetidaDesigner

open Checks KeyedList

variable {J : Type}

/-! ## Fields -/

/-- A filter value which validation leaves alone. -/
def FilterValueValid (side : WiringSide) : JsonValue J → Prop
  | .null => False
  | .text _ => True
  | .other _ => side = .input

/-- A filter which validation leaves alone. -/
structure FilterValid (side : WiringSide) (filter : PyStr × JsonValue J) : Prop where
  key : filterKeyValid filter.1 = true
  notReserved : filter.1 ∉ reservedFilterKeys
  value : FilterValueValid side filter.2

/-- The fields of a wiring pass validation, apart from the reference id. -/
structure FieldsValid (config : WiringConfig) (side : WiringSide)
    (wiring : Wiring (WiringData J)) : Prop where
  name : wiring.data.name ≠ []
  adapterId : adapterIdKnown config side wiring.adapterId = true
  metadata : metadataTypeIncludesAdditionalFields wiring = true
  filters : ∀ filter ∈ wiring.data.filters, FilterValid side filter
  ofSide : wiring.data.ofSide side = wiring.data

/-- A filter value after validation is valid, and valid values stay. -/
theorem validateFilterValue_eq_ok {side : WiringSide} {value value' : JsonValue J}
    (h : validateFilterValue side value = .ok value') : FilterValueValid side value' := by
  cases value with
  | null =>
    obtain rfl := Except.ok.inj h
    trivial
  | text s =>
    obtain rfl := Except.ok.inj h
    trivial
  | other v =>
    cases side with
    | input =>
      obtain rfl := Except.ok.inj h
      rfl
    | output => cases h

/-- Validation leaves valid filter values alone. -/
theorem validateFilterValue_self {side : WiringSide} {value : JsonValue J}
    (h : FilterValueValid side value) : validateFilterValue side value = .ok value := by
  cases value with
  | null => exact h.elim
  | text s => rfl
  | other v =>
    obtain rfl : side = .input := h
    rfl

/-- Filters after validation are valid. -/
theorem validateFilters_eq_ok {side : WiringSide} {filters filters' : List (PyStr × JsonValue J)}
    (h : validateFilters side filters = .ok filters') :
    ∀ filter ∈ filters', FilterValid side filter := by
  obtain ⟨validated, hvalidated, h⟩ := bind_eq_ok.mp h
  obtain ⟨hreserved, h⟩ := require_bind_eq_ok.mp h
  obtain rfl := return_eq_ok.mp h
  intro filter hfilter
  obtain ⟨given, -, hgiven⟩ := exists_argument_of_mapM hvalidated hfilter
  obtain ⟨hkey, hgiven⟩ := require_bind_eq_ok.mp hgiven
  obtain ⟨value, hvalue, hgiven⟩ := bind_eq_ok.mp hgiven
  obtain rfl := return_eq_ok.mp hgiven
  exact ⟨hkey, of_decide_eq_true (List.all_eq_true.mp hreserved _ hfilter),
    validateFilterValue_eq_ok hvalue⟩

/-- Validation leaves valid filters alone. -/
theorem validateFilters_self {side : WiringSide} {filters : List (PyStr × JsonValue J)}
    (h : ∀ filter ∈ filters, FilterValid side filter) :
    validateFilters side filters = .ok filters := by
  have heach : filters.mapM (validateFilter side) = .ok filters := by
    refine mapM_eq_ok.mpr (List.forall₂_same.mpr fun filter hfilter => ?_)
    have hvalid := h filter hfilter
    rw [validateFilter, require_bind_of hvalid.key, validateFilterValue_self hvalid.value]
    rfl
  rw [validateFilters, heach]
  refine require_bind_of (List.all_eq_true.mpr fun filter hfilter => ?_)
  exact decide_eq_true (h filter hfilter).notReserved

/-- Fields after validation are valid; everything but the filters and the fields of the other side
is as it was. -/
theorem validateWiringFields_eq_ok {config : WiringConfig} {side : WiringSide} {refIdGiven : Bool}
    {data wiring : Wiring (WiringData J)}
    (h : validateWiringFields config side refIdGiven data = .ok wiring) :
    FieldsValid config side wiring ∧
      (refIdGiven = true → refIdSetForNonDirectProvisioning wiring = true) ∧
      wiring.data.name = data.data.name := by
  obtain ⟨hname, h⟩ := require_bind_eq_ok.mp h
  obtain ⟨hadapter, h⟩ := require_bind_eq_ok.mp h
  obtain ⟨hrefId, h⟩ := require_bind_eq_ok.mp h
  obtain ⟨hmetadata, h⟩ := require_bind_eq_ok.mp h
  obtain ⟨filters, hfilters, h⟩ := bind_eq_ok.mp h
  obtain rfl := return_eq_ok.mp h
  refine ⟨⟨?_, hadapter, ?_, validateFilters_eq_ok hfilters, ?_⟩, fun hgiven => ?_, ?_⟩
  · cases side <;> exact of_decide_eq_true hname
  · cases side <;> exact hmetadata
  · cases side <;> rfl
  · rw [hgiven, Bool.not_true, Bool.false_or] at hrefId
    cases side <;> exact hrefId
  · cases side <;> rfl

/-- Validation leaves valid fields alone, if all fields are given and the reference id is set. -/
theorem validateWiringFields_self_iff {config : WiringConfig} {side : WiringSide}
    {wiring : Wiring (WiringData J)} :
    validateWiringFields config side true wiring = .ok wiring ↔
      FieldsValid config side wiring ∧ refIdSetForNonDirectProvisioning wiring = true := by
  constructor
  · intro h
    obtain ⟨hvalid, hrefId, -⟩ := validateWiringFields_eq_ok h
    exact ⟨hvalid, hrefId rfl⟩
  · rintro ⟨hvalid, hrefId⟩
    rw [validateWiringFields, require_bind_of (decide_eq_true hvalid.name),
      require_bind_of hvalid.adapterId, require_bind_of (by simp [hrefId]),
      require_bind_of hvalid.metadata, validateFilters_self hvalid.filters]
    show Except.ok { wiring with data := { wiring.data.ofSide side with
      filters := wiring.data.filters } } = Except.ok wiring
    rw [hvalid.ofSide]

/-! ## Uris -/

/-- Taking over the fields of a uri twice is taking them over once. -/
theorem UriFields.update_update (fields : UriFields J) (wiring : Wiring (WiringData J)) :
    fields.update (fields.update wiring) = fields.update wiring := by
  obtain ⟨adapterId, refId, filters⟩ := fields
  simp only [UriFields.update, mergeEntries, insertAll_idem]
  cases adapterId <;> cases refId <;> rfl

/-- What a uri gives is there already. -/
structure UriAgrees (fields : UriFields J) (wiring : Wiring (WiringData J)) : Prop where
  adapterId : ∀ id, fields.adapterId = some id → wiring.adapterId = id
  refId : ∀ refId, fields.refId = some refId → wiring.data.refId = some refId
  filters : ∀ filter ∈ insertAll Prod.fst [] fields.filters,
    OnlyEntry Prod.fst wiring.data.filters filter

/-- Taking over the fields of a uri changes nothing exactly if they are there already. -/
theorem UriFields.update_eq_self_iff {fields : UriFields J} {wiring : Wiring (WiringData J)} :
    fields.update wiring = wiring ↔ UriAgrees fields wiring := by
  have hfilters := @insertAll_eq_self_iff _ _ _ Prod.fst wiring.data.filters fields.filters
  obtain ⟨adapterId, refId, filters⟩ := fields
  obtain ⟨wiringAdapterId, data⟩ := wiring
  obtain ⟨name, uri, dataRefId, refIdType, refKey, type, useDefaultValue, dataFilters, attrs⟩ := data
  constructor
  · intro h
    obtain ⟨hadapter, hdata⟩ := Wiring.mk.inj h
    obtain ⟨-, -, hrefId, -, -, -, -, hmerged, -⟩ := WiringData.mk.inj hdata
    refine ⟨?_, ?_, hfilters.mp hmerged⟩
    · rintro id hid
      obtain rfl : adapterId = some id := hid
      exact hadapter.symm
    · rintro given hgiven
      obtain rfl : refId = some given := hgiven
      exact hrefId.symm
  · rintro ⟨hadapter, hrefId, hentries⟩
    have hmerged : mergeEntries dataFilters filters = dataFilters := hfilters.mpr hentries
    simp only [UriFields.update, hmerged]
    cases adapterId with
    | none =>
      cases refId with
      | none => rfl
      | some given => rw [Option.some_or, Option.getD_none, ← hrefId given rfl]
    | some id =>
      obtain rfl : wiringAdapterId = id := hadapter id rfl
      cases refId with
      | none => rfl
      | some given => rw [Option.some_or, Option.getD_some, ← hrefId given rfl]

/-! ## Wirings -/

/-- A wiring which has passed validation. -/
structure ValidWiring (config : WiringConfig) (side : WiringSide)
    (wiring : Wiring (WiringData J)) : Prop extends FieldsValid config side wiring where
  uri : ∀ uri, wiring.data.uri = some uri → refIdSetForNonDirectProvisioning wiring = true ∧
    ∃ fields, extractFields config uri = .ok fields ∧ UriAgrees fields wiring

section Validate

/-- The uri stays when its fields are taken over. -/
@[simp] theorem UriFields.update_uri (fields : UriFields J) (wiring : Wiring (WiringData J)) :
    (fields.update wiring).data.uri = wiring.data.uri := rfl

/-- The name stays when the fields of a uri are taken over. -/
@[simp] theorem UriFields.update_name (fields : UriFields J) (wiring : Wiring (WiringData J)) :
    (fields.update wiring).data.name = wiring.data.name := rfl

variable [DecidableEq J] {config : WiringConfig} {side : WiringSide}

/-- What validation returns is valid and has the name which was given. -/
theorem valid_of_validateWiring {refIdGiven : Bool} {data wiring : Wiring (WiringData J)}
    (h : validateWiring config side refIdGiven data = .ok wiring) :
    ValidWiring config side wiring ∧
      (refIdGiven = true → refIdSetForNonDirectProvisioning wiring = true) ∧
      wiring.data.name = data.data.name := by
  obtain ⟨validated, hvalidated, h⟩ := bind_eq_ok.mp h
  obtain ⟨hfields, hrefId, hname⟩ := validateWiringFields_eq_ok hvalidated
  split at h
  · rename_i hnone
    obtain rfl := return_eq_ok.mp h
    exact ⟨⟨hfields, fun uri huri => absurd (hnone.symm.trans huri) (by simp)⟩, hrefId, hname⟩
  · rename_i uri huri
    obtain ⟨updated, hupdated, h⟩ := bind_eq_ok.mp h
    obtain ⟨revalidated, hrevalidated, h⟩ := bind_eq_ok.mp h
    obtain ⟨hsame, h⟩ := require_bind_eq_ok.mp h
    obtain rfl := return_eq_ok.mp h
    obtain ⟨fields, hextract, hupdate⟩ := bind_eq_ok.mp hupdated
    obtain rfl := return_eq_ok.mp hupdate
    rw [← of_decide_eq_true hsame] at hrevalidated
    obtain ⟨hvalid, hset⟩ := validateWiringFields_self_iff.mp hrevalidated
    refine ⟨⟨hvalid, fun uri' huri' => ⟨hset, fields, ?_, ?_⟩⟩, fun _ => hset, hname⟩
    · rw [UriFields.update_uri, huri] at huri'
      rw [← Option.some.inj huri']
      exact hextract
    · exact UriFields.update_eq_self_iff.mp (fields.update_update validated)

/-- Dumping a wiring and validating the dump returns it exactly if it is valid and its reference
id is set. -/
theorem validateWiring_self_iff {wiring : Wiring (WiringData J)} :
    validateWiring config side true wiring = .ok wiring ↔
      ValidWiring config side wiring ∧ refIdSetForNonDirectProvisioning wiring = true := by
  constructor
  · intro h
    obtain ⟨hvalid, hset, -⟩ := valid_of_validateWiring h
    exact ⟨hvalid, hset rfl⟩
  · rintro ⟨hvalid, hset⟩
    have hfields := validateWiringFields_self_iff.mpr ⟨hvalid.toFieldsValid, hset⟩
    rw [validateWiring, hfields]
    dsimp only [bind, Except.bind]
    cases huri : wiring.data.uri with
    | none => rfl
    | some uri =>
      obtain ⟨-, fields, hextract, hagrees⟩ := hvalid.uri uri huri
      have hupdate : updateWiringFromUri config uri wiring = .ok wiring := by
        rw [updateWiringFromUri, hextract]
        exact congrArg Except.ok (UriFields.update_eq_self_iff.mpr hagrees)
      dsimp only
      rw [hupdate]
      show (validateWiringFields config side true wiring >>= _) = _
      rw [hfields]
      exact require_bind_of (decide_eq_true rfl)

end Validate

end HetidaDesigner
