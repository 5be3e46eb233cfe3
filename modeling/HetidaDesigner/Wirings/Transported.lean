import HetidaDesigner.Wirings.Validated

/-!
# Resolved wirings which are dumped and validated again

Resolution leaves the uri of a wiring in place, so validation takes over its fields once more. A
resolved wiring survives that only if the uri agrees with the record, and if what the record adds
passes validation itself.
-/

namespace HetidaDesigner

open Checks KeyedList

variable {J : Type}

/-- The reference id which a record gives a wiring. -/
def resolvedRefId (record : SourceOrSink (JsonValue J)) (wiring : Wiring (WiringData J)) : PyStr :=
  if wiring.data.type = some (.metadata .any) then record.refId else record.referencedId

/-- Adapters whose wirings to metadata need no further fields. -/
def withoutMetadataFields (id : AdapterId) : Bool :=
  id.isDirectProvisioning || id = .str "component-adapter".toList

/-- A virtual wiring and its record, of which the resolved wiring passes validation unchanged. -/
structure StaysResolved (config : WiringConfig) (side : WiringSide)
    (record : SourceOrSink (JsonValue J)) (wiring : Wiring (WiringData J)) : Prop where
  adapterKey : ∀ uri fields, wiring.data.uri = some uri →
    @extractFields J config uri = .ok fields → ∀ id, fields.adapterId = some id →
      id = .str record.adapterKey
  refId : ∀ uri fields, wiring.data.uri = some uri →
    @extractFields J config uri = .ok fields → ∀ refId, fields.refId = some refId →
      refId = resolvedRefId record wiring
  filters : ∀ uri fields, wiring.data.uri = some uri →
    extractFields config uri = .ok fields → ∀ filter ∈ insertAll Prod.fst [] fields.filters,
      ∀ preset ∈ insertAll Prod.fst [] record.presetFilters, preset.1 = filter.1 → preset = filter
  metadata : wiring.data.type = some (.metadata .any) →
    withoutMetadataFields (.str record.adapterKey) = true ∨ record.refKey ≠ none
  presetFilters : ∀ preset ∈ insertAll Prod.fst [] record.presetFilters, FilterValid side preset

/-- A wiring in a request whose resolved form passes validation unchanged. -/
structure StaysValid (config : WiringConfig) (numerals : NumeralTables)
    (structures : StructureDb (JsonValue J)) (wiring : WorkflowWiring (WiringData J)) : Prop where
  inputs : ∀ input ∈ wiring.inputWirings, isVirtual input = false →
    refIdSetForNonDirectProvisioning input = true
  outputs : ∀ output ∈ wiring.outputWirings, isVirtual output = false →
    refIdSetForNonDirectProvisioning output = true
  sources : ∀ records,
    getVirtualSourcesOrSinks numerals structures.sources wiring.inputWirings = .ok records →
      List.Forall₂ (fun input record => StaysResolved config .input record input)
        (wiring.inputWirings.filter isVirtual) records
  sinks : ∀ records,
    getVirtualSourcesOrSinks numerals structures.sinks wiring.outputWirings = .ok records →
      List.Forall₂ (fun output record => StaysResolved config .output record output)
        (wiring.outputWirings.filter isVirtual) records

/-! ## One wiring -/

/-- The reference id after an update. -/
theorem updateWirings_refId (record : SourceOrSink (JsonValue J))
    (wiring : Wiring (WiringData J)) :
    (updateWirings record wiring).data.refId = some (resolvedRefId record wiring) := by
  unfold resolvedRefId
  simp only [updateWirings]
  split <;> rfl

/-- The type after an update. -/
@[simp] theorem updateWirings_type (record : SourceOrSink (JsonValue J))
    (wiring : Wiring (WiringData J)) :
    (updateWirings record wiring).data.type = wiring.data.type := by
  simp only [updateWirings]
  split <;> rfl

/-- The uri after an update. -/
@[simp] theorem updateWirings_uri (record : SourceOrSink (JsonValue J))
    (wiring : Wiring (WiringData J)) :
    (updateWirings record wiring).data.uri = wiring.data.uri := by
  simp only [updateWirings]
  split <;> rfl

/-- The filters after an update. -/
@[simp] theorem updateWirings_filters (record : SourceOrSink (JsonValue J))
    (wiring : Wiring (WiringData J)) :
    (updateWirings record wiring).data.filters =
      insertAll Prod.fst wiring.data.filters record.presetFilters := rfl

/-- An updated wiring has its reference id. -/
theorem refIdSet_updateWirings (record : SourceOrSink (JsonValue J))
    (wiring : Wiring (WiringData J)) :
    refIdSetForNonDirectProvisioning (updateWirings record wiring) = true := by
  rw [refIdSetForNonDirectProvisioning, updateWirings_refId]
  exact Bool.or_true _

/-- Updated fields belong to the side they belonged to. -/
theorem ofSide_updateWirings {side : WiringSide} {wiring : Wiring (WiringData J)}
    (h : wiring.data.ofSide side = wiring.data) (record : SourceOrSink (JsonValue J)) :
    (updateWirings record wiring).data.ofSide side = (updateWirings record wiring).data := by
  cases side with
  | input => rfl
  | output =>
    have hdefault : wiring.data.useDefaultValue = false := by rw [← h]; rfl
    have hattrs : wiring.data.attrs = none := by rw [← h]; rfl
    simp only [updateWirings]
    split <;> simp only [WiringData.ofSide, hdefault, hattrs]

/-- The fields for metadata are there after an update exactly if the record gives a key where one
is needed. -/
theorem metadata_updateWirings_iff {wiring : Wiring (WiringData J)}
    (hvirtual : isVirtual wiring = true)
    (h : metadataTypeIncludesAdditionalFields wiring = true)
    (record : SourceOrSink (JsonValue J)) :
    metadataTypeIncludesAdditionalFields (updateWirings record wiring) = true ↔
      (wiring.data.type = some (.metadata .any) →
        withoutMetadataFields (.str record.adapterKey) = true ∨ record.refKey ≠ none) := by
  have hadapter : wiring.adapterId = virtualStructureAdapter := of_decide_eq_true hvirtual
  have hneither : withoutMetadataFields virtualStructureAdapter = false := by decide
  obtain ⟨adapterId, data⟩ := wiring
  obtain ⟨name, uri, refId, refIdType, refKey, type, useDefaultValue, filters, attrs⟩ := data
  dsimp only at hadapter
  subst hadapter
  cases type with
  | none =>
    refine iff_of_true ?_ fun hany => ?_
    · simp [metadataTypeIncludesAdditionalFields, updateWirings]
    · exact absurd hany (by simp)
  | some type =>
    unfold metadataTypeIncludesAdditionalFields at h ⊢
    simp only [Option.all_some] at h ⊢
    rw [← withoutMetadataFields, hneither, Bool.false_or] at h
    rw [updateWirings_type, Option.all_some]
    by_cases hany : type = .metadata .any
    · subst hany
      simp only [updateWirings, if_true, withoutMetadataFields, ExternalType.isMetadata,
        Option.isSome_some, Bool.true_and, Bool.not_true, Bool.or_false, Bool.or_eq_true,
        forall_const, Option.isSome_iff_ne_none, ne_eq]
    · have hne : some type ≠ some (ExternalType.metadata .any) := fun heq =>
        hany (Option.some.inj heq)
      refine iff_of_true ?_ fun heq => absurd heq hne
      simp only [updateWirings, hne, if_false]
      simp only [Bool.or_eq_true] at h ⊢
      rcases h with h | h
      · exact Or.inl (Or.inr h)
      · exact Or.inr h

/-- A resolved wiring passes validation unchanged exactly if its uri and its record agree and the
record adds nothing invalid. -/
theorem valid_updateWirings_iff {config : WiringConfig} {side : WiringSide}
    {wiring : Wiring (WiringData J)} (hvirtual : isVirtual wiring = true)
    (hvalid : ValidWiring config side wiring) (record : SourceOrSink (JsonValue J)) :
    ValidWiring config side (updateWirings record wiring) ↔
      StaysResolved config side record wiring := by
  have hmetadata := metadata_updateWirings_iff hvirtual hvalid.metadata record
  constructor
  · intro h
    have huri : ∀ uri fields, wiring.data.uri = some uri → extractFields config uri = .ok fields →
        UriAgrees fields (updateWirings record wiring) := by
      intro uri fields huri hextract
      obtain ⟨-, fields', hextract', hagrees⟩ :=
        h.uri uri ((updateWirings_uri record wiring).trans huri)
      rwa [Except.ok.inj (hextract.symm.trans hextract')]
    refine ⟨fun uri fields hu hextract id hid => ?_, fun uri fields hu hextract refId hrefId => ?_,
      fun uri fields hu hextract filter hfilter preset hpreset hkey => ?_, hmetadata.mp h.metadata,
      fun preset hpreset => ?_⟩
    · exact ((huri uri fields hu hextract).adapterId id hid).symm
    · have hsame := (huri uri fields hu hextract).refId refId hrefId
      rw [updateWirings_refId] at hsame
      exact (Option.some.inj hsame).symm
    · have honly := (huri uri fields hu hextract).filters filter hfilter
      rw [updateWirings_filters] at honly
      exact honly.2 preset (mem_insertAll_iff.mpr (Or.inl hpreset)) hkey
    · refine h.filters preset ?_
      rw [updateWirings_filters]
      exact mem_insertAll_iff.mpr (Or.inl hpreset)
  · intro h
    refine ⟨⟨?_, rfl, hmetadata.mpr h.metadata, fun filter hfilter => ?_,
      ofSide_updateWirings hvalid.ofSide record⟩, fun uri huri => ⟨refIdSet_updateWirings _ _, ?_⟩⟩
    · rw [updateWirings_name]
      exact hvalid.name
    · rw [updateWirings_filters] at hfilter
      rcases mem_insertAll_iff.mp hfilter with hpreset | ⟨hold, -⟩
      · exact h.presetFilters filter hpreset
      · exact hvalid.filters filter hold
    · rw [updateWirings_uri] at huri
      obtain ⟨-, fields, hextract, hagrees⟩ := hvalid.uri uri huri
      refine ⟨fields, hextract, fun id hid => ?_, fun refId hrefId => ?_, fun filter hfilter => ?_⟩
      · exact (h.adapterKey uri fields huri hextract id hid).symm
      · rw [updateWirings_refId, h.refId uri fields huri hextract refId hrefId]
      · rw [updateWirings_filters]
        exact (onlyEntry_insertAll_iff (hagrees.filters filter hfilter)).mpr
          (h.filters uri fields huri hextract filter hfilter)

/-- Metadata of a source does not matter for validation. -/
theorem valid_addVstMetadata_iff {config : WiringConfig}
    (source : StructureServiceSource (JsonValue J)) {wiring : Wiring (WiringData J)} :
    ValidWiring config .input (addVstMetadata source wiring) ↔
      ValidWiring config .input wiring := by
  rw [addVstMetadata_eq]
  constructor
  · rintro ⟨⟨hname, hadapter, hmetadata, hfilters, -⟩, huri⟩
    refine ⟨⟨hname, hadapter, hmetadata, hfilters, rfl⟩, fun uri hu => ?_⟩
    obtain ⟨hset, fields, hextract, hagrees⟩ := huri uri hu
    exact ⟨hset, fields, hextract, hagrees.adapterId, hagrees.refId, hagrees.filters⟩
  · rintro ⟨⟨hname, hadapter, hmetadata, hfilters, -⟩, huri⟩
    refine ⟨⟨hname, hadapter, hmetadata, hfilters, rfl⟩, fun uri hu => ?_⟩
    obtain ⟨hset, fields, hextract, hagrees⟩ := huri uri hu
    exact ⟨hset, fields, hextract, hagrees.adapterId, hagrees.refId, hagrees.filters⟩

/-! ## Workflow wirings -/

section Workflow

variable [DecidableEq J] {config : WiringConfig}

omit [DecidableEq J] in
/-- What holds of a list after replacing its virtual wirings. -/
theorem forall_replaceVirtual_iff
    {resolve : SourceOrSink (JsonValue J) → Wiring (WiringData J) → Wiring (WiringData J)}
    {P : Wiring (WiringData J) → Prop} {wirings result : List (Wiring (WiringData J))}
    {records : List (SourceOrSink (JsonValue J))}
    (h : replaceVirtual resolve wirings records = .ok result) :
    (∀ wiring ∈ result, P wiring) ↔
      (∀ wiring ∈ wirings, isVirtual wiring = false → P wiring) ∧
        List.Forall₂ (fun wiring record => P (resolve record wiring))
          (wirings.filter isVirtual) records := by
  induction wirings generalizing records result with
  | nil =>
    cases records with
    | nil =>
      obtain rfl := Except.ok.inj h
      simp
    | cons record later => cases h
  | cons wiring rest ih =>
    rcases replaceVirtual_cons_eq_ok.mp h with
      ⟨hvirtual, replaced, hreplaced, rfl⟩ |
        ⟨hvirtual, record, later, rfl, replaced, hreplaced, rfl⟩
    · rw [List.filter_cons_of_neg (by simp [hvirtual]), List.forall_mem_cons,
        List.forall_mem_cons, ih hreplaced]
      simp only [hvirtual, forall_const, and_assoc]
    · rw [List.filter_cons_of_pos hvirtual, List.forall_mem_cons, List.forall_mem_cons,
        ih hreplaced, List.forall₂_cons]
      simp only [hvirtual, Bool.true_eq_false, false_implies, true_and]
      exact and_left_comm

/-- A workflow wiring survives dump and validation exactly if its wirings do and have distinct
names on each side. -/
theorem validate_dump_self_iff {wiring : WorkflowWiring (WiringData J)} :
    (dumpWorkflowWiring wiring).validate config = .ok wiring ↔
      (∀ input ∈ wiring.inputWirings, validateWiring config .input true input = .ok input) ∧
        (wiring.inputWirings.map fun wiring => wiring.data.name).Nodup ∧
        (∀ output ∈ wiring.outputWirings, validateWiring config .output true output = .ok output) ∧
        (wiring.outputWirings.map fun wiring => wiring.data.name).Nodup := by
  have hmapM (side : WiringSide) (wirings result : List (Wiring (WiringData J))) :
      ((wirings.map dumpWiring).mapM fun request =>
          validateWiring config side request.refIdGiven request.wiring) = .ok result ↔
        List.Forall₂ (fun wiring result => validateWiring config side true wiring = .ok result)
          wirings result := by
    rw [mapM_eq_ok, List.forall₂_map_left_iff]
    rfl
  constructor
  · intro h
    obtain ⟨inputs, hinputs, h⟩ := bind_eq_ok.mp h
    obtain ⟨hinputNames, h⟩ := require_bind_eq_ok.mp h
    obtain ⟨outputs, houtputs, h⟩ := bind_eq_ok.mp h
    obtain ⟨houtputNames, h⟩ := require_bind_eq_ok.mp h
    have hsame := return_eq_ok.mp h
    obtain rfl : inputs = wiring.inputWirings := congrArg WorkflowWiring.inputWirings hsame
    obtain rfl : outputs = wiring.outputWirings := congrArg WorkflowWiring.outputWirings hsame
    exact ⟨List.forall₂_same.mp ((hmapM .input _ _).mp hinputs), of_decide_eq_true hinputNames,
      List.forall₂_same.mp ((hmapM .output _ _).mp houtputs), of_decide_eq_true houtputNames⟩
  · intro ⟨hinputs, hinputNames, houtputs, houtputNames⟩
    have hinputs := (hmapM .input _ _).mpr (List.forall₂_same.mpr hinputs)
    have houtputs := (hmapM .output _ _).mpr (List.forall₂_same.mpr houtputs)
    refine bind_eq_ok.mpr ⟨_, hinputs, ?_⟩
    refine require_bind_eq_ok.mpr ⟨decide_eq_true hinputNames, ?_⟩
    refine bind_eq_ok.mpr ⟨_, houtputs, ?_⟩
    exact require_bind_eq_ok.mpr ⟨decide_eq_true houtputNames, rfl⟩

/-- A workflow wiring which has passed validation. -/
structure ValidWorkflowWiring (config : WiringConfig) (wiring : WorkflowWiring (WiringData J)) :
    Prop where
  inputs : ∀ input ∈ wiring.inputWirings, ValidWiring config .input input
  inputNames : (wiring.inputWirings.map fun wiring => wiring.data.name).Nodup
  outputs : ∀ output ∈ wiring.outputWirings, ValidWiring config .output output
  outputNames : (wiring.outputWirings.map fun wiring => wiring.data.name).Nodup

/-- What validation returns is valid. -/
theorem valid_of_validate {request : WorkflowWiringRequest J}
    {wiring : WorkflowWiring (WiringData J)} (h : request.validate config = .ok wiring) :
    ValidWorkflowWiring config wiring := by
  obtain ⟨inputs, hinputs, h⟩ := bind_eq_ok.mp h
  obtain ⟨hinputNames, h⟩ := require_bind_eq_ok.mp h
  obtain ⟨outputs, houtputs, h⟩ := bind_eq_ok.mp h
  obtain ⟨houtputNames, h⟩ := require_bind_eq_ok.mp h
  obtain rfl := return_eq_ok.mp h
  refine ⟨fun input hinput => ?_, of_decide_eq_true hinputNames, fun output houtput => ?_,
    of_decide_eq_true houtputNames⟩
  · obtain ⟨_, -, hok⟩ := exists_argument_of_mapM hinputs hinput
    exact (valid_of_validateWiring hok).1
  · obtain ⟨_, -, hok⟩ := exists_argument_of_mapM houtputs houtput
    exact (valid_of_validateWiring hok).1

/-- A dump which has been validated survives another dump and validation. -/
theorem validate_dump_of_validate_dump {given wiring : WorkflowWiring (WiringData J)}
    (h : (dumpWorkflowWiring given).validate config = .ok wiring) :
    (dumpWorkflowWiring wiring).validate config = .ok wiring := by
  obtain ⟨-, hinputNames, -, houtputNames⟩ := valid_of_validate h
  obtain ⟨inputs, hinputs, h⟩ := bind_eq_ok.mp h
  obtain ⟨-, h⟩ := require_bind_eq_ok.mp h
  obtain ⟨outputs, houtputs, h⟩ := bind_eq_ok.mp h
  obtain ⟨-, h⟩ := require_bind_eq_ok.mp h
  obtain rfl := return_eq_ok.mp h
  have hself (side : WiringSide) (given result : List (Wiring (WiringData J)))
      (h : ((given.map dumpWiring).mapM fun request =>
        validateWiring config side request.refIdGiven request.wiring) = .ok result) :
      ∀ wiring ∈ result, validateWiring config side true wiring = .ok wiring := by
    intro wiring hwiring
    obtain ⟨request, hrequest, hok⟩ := exists_argument_of_mapM h hwiring
    obtain ⟨wiring', -, rfl⟩ := List.mem_map.mp hrequest
    obtain ⟨hvalid, hset, -⟩ := valid_of_validateWiring hok
    exact validateWiring_self_iff.mpr ⟨hvalid, hset rfl⟩
  exact validate_dump_self_iff.mpr
    ⟨hself .input _ _ hinputs, hinputNames, hself .output _ _ houtputs, houtputNames⟩

/-- A resolved wiring survives dump and validation exactly under the condition on the wiring and
the records. -/
theorem resolved_fixed_iff {numerals : NumeralTables} {structures : StructureDb (JsonValue J)}
    {wiring resolved : WorkflowWiring (WiringData J)} (hvalid : ValidWorkflowWiring config wiring)
    (h : resolveVirtualStructureWirings numerals structures wiring = .ok resolved) :
    (dumpWorkflowWiring resolved).validate config = .ok resolved ↔
      StaysValid config numerals structures wiring := by
  obtain ⟨hinputNames, houtputNames⟩ := names_of_resolve h
  obtain ⟨sources, hsources, sinks, hsinks, hinputs, houtputs, -⟩ :=
    resolveVirtualStructureWirings_eq_ok.mp h
  have hplain (side : WiringSide) (wirings : List (Wiring (WiringData J)))
      (hall : ∀ wiring ∈ wirings, ValidWiring config side wiring) :
      (∀ wiring ∈ wirings, isVirtual wiring = false →
          validateWiring config side true wiring = .ok wiring) ↔
        ∀ wiring ∈ wirings, isVirtual wiring = false →
          refIdSetForNonDirectProvisioning wiring = true :=
    forall₂_congr fun wiring hwiring => imp_congr_right fun _ =>
      validateWiring_self_iff.trans (and_iff_right (hall wiring hwiring))
  have hvirtual (side : WiringSide) (wirings : List (Wiring (WiringData J)))
      (hall : ∀ wiring ∈ wirings, ValidWiring config side wiring)
      (records : List (SourceOrSink (JsonValue J)))
      (resolve : SourceOrSink (JsonValue J) → Wiring (WiringData J) → Wiring (WiringData J))
      (hresolve : ∀ record wiring, ValidWiring config side wiring → isVirtual wiring = true →
        (validateWiring config side true (resolve record wiring) = .ok (resolve record wiring) ↔
          StaysResolved config side record wiring)) :
      List.Forall₂ (fun wiring record => validateWiring config side true (resolve record wiring) =
            .ok (resolve record wiring)) (wirings.filter isVirtual) records ↔
        List.Forall₂ (fun wiring record => StaysResolved config side record wiring)
          (wirings.filter isVirtual) records := by
    apply forall₂_iff_of_left
    intro wiring hwiring record
    obtain ⟨hmem, hisVirtual⟩ := List.mem_filter.mp hwiring
    exact hresolve record wiring (hall wiring hmem) hisVirtual
  rw [validate_dump_self_iff, hinputNames, houtputNames, forall_replaceVirtual_iff hinputs,
    forall_replaceVirtual_iff houtputs, hplain .input _ hvalid.inputs,
    hplain .output _ hvalid.outputs,
    hvirtual .input _ hvalid.inputs sources resolveInput fun record wiring hwiring hisVirtual => ?_,
    hvirtual .output _ hvalid.outputs sinks updateWirings
      fun record wiring hwiring hisVirtual => ?_]
  · constructor
    · rintro ⟨⟨hinputsSet, hinputsStay⟩, -, ⟨houtputsSet, houtputsStay⟩, -⟩
      refine ⟨hinputsSet, houtputsSet, fun records hrecords => ?_, fun records hrecords => ?_⟩
      · rwa [Except.ok.inj (hrecords.symm.trans hsources)]
      · rwa [Except.ok.inj (hrecords.symm.trans hsinks)]
    · intro hstays
      exact ⟨⟨hstays.inputs, hstays.sources _ hsources⟩, hvalid.inputNames,
        ⟨hstays.outputs, hstays.sinks _ hsinks⟩, hvalid.outputNames⟩
  · rw [validateWiring_self_iff, valid_updateWirings_iff hisVirtual hwiring,
      and_iff_left (refIdSet_updateWirings record wiring)]
  · have hset : refIdSetForNonDirectProvisioning (resolveInput record wiring) = true := by
      rw [resolveInput, addVstMetadata_eq]
      exact refIdSet_updateWirings record wiring
    rw [validateWiring_self_iff, and_iff_left hset, resolveInput, valid_addVstMetadata_iff,
      valid_updateWirings_iff hisVirtual hwiring]

end Workflow

end HetidaDesigner
