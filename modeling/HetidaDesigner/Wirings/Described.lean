import HetidaDesigner.Wirings.VirtualStructure

/-!
# Wirings which resolution leaves alone

Resolution replaces what a wiring refers to by what a record of the structure refers to. It leaves
a wiring as it is only if the record describes that wiring: its adapter is the virtual structure
adapter again, and its reference, filters and metadata are there already.
-/

namespace HetidaDesigner

open Checks KeyedList

variable {J : Type}

/-- A record which describes a wiring as it is. -/
structure DescribesWiring (record : SourceOrSink (JsonValue J)) (wiring : Wiring (WiringData J)) :
    Prop where
  adapterKey : wiring.adapterId = .str record.adapterKey
  metadata : wiring.data.type = some (.metadata .any) → wiring.data.refId = some record.refId ∧
    wiring.data.refKey = record.refKey ∧ wiring.data.refIdType = some .thingnode
  referenced : wiring.data.type ≠ some (.metadata .any) →
    wiring.data.refId = some record.referencedId
  presetFilters : ∀ filter ∈ insertAll Prod.fst [] record.presetFilters,
    OnlyEntry Prod.fst wiring.data.filters filter

/-- A source which describes an input wiring as it is; its metadata is among the attributes. -/
structure DescribesInput (source : StructureServiceSource (JsonValue J))
    (wiring : Wiring (WiringData J)) : Prop extends DescribesWiring source wiring where
  metaData : ∀ metaData, source.metaData = some metaData → ∃ attrs,
    wiring.data.attrs = some attrs ∧
      ∀ entry ∈ insertAll Prod.fst [] metaData, OnlyEntry Prod.fst attrs entry

/-- A workflow wiring whose virtual wirings are described, one by one, by the records they get. -/
structure DescribesItself (numerals : NumeralTables) (structures : StructureDb (JsonValue J))
    (wiring : WorkflowWiring (WiringData J)) : Prop where
  sources : ∃ records,
    getVirtualSourcesOrSinks numerals structures.sources wiring.inputWirings = .ok records ∧
      List.Forall₂ (fun wiring record => DescribesInput record wiring)
        (wiring.inputWirings.filter isVirtual) records
  sinks : ∃ records,
    getVirtualSourcesOrSinks numerals structures.sinks wiring.outputWirings = .ok records ∧
      List.Forall₂ (fun wiring record => DescribesWiring record wiring)
        (wiring.outputWirings.filter isVirtual) records

/-! ## One wiring -/

/-- An update leaves alone what the record describes. -/
theorem updateWirings_eq_self_iff {record : SourceOrSink (JsonValue J)}
    {wiring : Wiring (WiringData J)} :
    updateWirings record wiring = wiring ↔ DescribesWiring record wiring := by
  have hfilters := @insertAll_eq_self_iff _ _ _ Prod.fst wiring.data.filters record.presetFilters
  obtain ⟨adapterId, data⟩ := wiring
  obtain ⟨name, uri, refId, refIdType, refKey, type, useDefaultValue, filters, attrs⟩ := data
  constructor
  · intro h
    obtain ⟨hadapter, hdata⟩ := Wiring.mk.inj h
    by_cases htype : type = some (.metadata .any)
    · simp only [htype, if_true] at hdata
      obtain ⟨-, -, hrefId, hrefIdType, hrefKey, -, -, hmerged, -⟩ := WiringData.mk.inj hdata
      exact ⟨hadapter.symm, fun _ => ⟨hrefId.symm, hrefKey.symm, hrefIdType.symm⟩,
        fun hne => absurd htype hne, hfilters.mp hmerged⟩
    · simp only [htype, if_false] at hdata
      obtain ⟨-, -, hrefId, -, -, -, -, hmerged, -⟩ := WiringData.mk.inj hdata
      exact ⟨hadapter.symm, fun heq => absurd heq htype, fun _ => hrefId.symm,
        hfilters.mp hmerged⟩
  · rintro ⟨hadapter, hmetadata, hreferenced, hpreset⟩
    have hmerged : mergeEntries filters record.presetFilters = filters := hfilters.mpr hpreset
    dsimp only at hadapter hmetadata hreferenced
    by_cases htype : type = some (.metadata .any)
    · obtain ⟨hrefId, hrefKey, hrefIdType⟩ := hmetadata htype
      simp only [updateWirings, htype, if_true, hmerged, hadapter, hrefId, hrefKey, hrefIdType]
    · simp only [updateWirings, htype, if_false, hmerged, hadapter, hreferenced htype]

/-- An update leaves the attributes alone. -/
@[simp] theorem updateWirings_attrs (record : SourceOrSink (JsonValue J))
    (wiring : Wiring (WiringData J)) :
    (updateWirings record wiring).data.attrs = wiring.data.attrs := by
  simp only [updateWirings]
  split <;> rfl

/-- An update leaves the name alone. -/
@[simp] theorem updateWirings_name (record : SourceOrSink (JsonValue J))
    (wiring : Wiring (WiringData J)) :
    (updateWirings record wiring).data.name = wiring.data.name := by
  simp only [updateWirings]
  split <;> rfl

/-- Metadata only changes attributes. -/
theorem addVstMetadata_eq (source : StructureServiceSource (JsonValue J))
    (wiring : Wiring (WiringData J)) :
    addVstMetadata source wiring = { wiring with data := { wiring.data with
      attrs := (addVstMetadata source wiring).data.attrs } } := by
  unfold addVstMetadata
  split <;> rfl

/-- The attributes which metadata leaves alone. -/
theorem addVstMetadata_attrs_eq_iff {source : StructureServiceSource (JsonValue J)}
    {wiring : Wiring (WiringData J)} :
    (addVstMetadata source wiring).data.attrs = wiring.data.attrs ↔
      ∀ metaData, source.metaData = some metaData → ∃ attrs, wiring.data.attrs = some attrs ∧
        ∀ entry ∈ insertAll Prod.fst [] metaData, OnlyEntry Prod.fst attrs entry := by
  unfold addVstMetadata
  cases source.metaData with
  | none => simp
  | some metaData =>
    simp only [Option.some.injEq, forall_eq']
    cases wiring.data.attrs with
    | none => simp
    | some attrs =>
      simp only [Option.getD_some, Option.some.injEq, exists_eq_left']
      exact insertAll_eq_self_iff

/-- The change made to an input wiring leaves alone what the source describes. -/
theorem resolveInput_eq_self_iff {source : StructureServiceSource (JsonValue J)}
    {wiring : Wiring (WiringData J)} :
    resolveInput source wiring = wiring ↔ DescribesInput source wiring := by
  have hdescribed : DescribesInput source wiring ↔ updateWirings source wiring = wiring ∧
      (addVstMetadata source wiring).data.attrs = wiring.data.attrs := by
    rw [updateWirings_eq_self_iff, addVstMetadata_attrs_eq_iff]
    exact ⟨fun h => ⟨h.toDescribesWiring, h.metaData⟩, fun ⟨h, hmeta⟩ => ⟨h, hmeta⟩⟩
  rw [hdescribed, resolveInput]
  constructor
  · intro h
    have hattrs : (addVstMetadata source (updateWirings source wiring)).data.attrs =
        wiring.data.attrs := by rw [h]
    have hupdated : updateWirings source wiring = wiring := by
      have heq := h
      rw [addVstMetadata_eq, hattrs, ← updateWirings_attrs source wiring] at heq
      exact heq
    rw [hupdated] at hattrs
    exact ⟨hupdated, hattrs⟩
  · rintro ⟨hupdated, hattrs⟩
    rw [hupdated, addVstMetadata_eq, hattrs]

/-- The change made to an input wiring leaves the name alone. -/
@[simp] theorem resolveInput_name (source : StructureServiceSource (JsonValue J))
    (wiring : Wiring (WiringData J)) :
    (resolveInput source wiring).data.name = wiring.data.name := by
  rw [resolveInput, addVstMetadata_eq]
  exact updateWirings_name source wiring

/-! ## Replacing along a list -/

section Replace

variable {resolve : SourceOrSink (JsonValue J) → Wiring (WiringData J) → Wiring (WiringData J)}

/-- Replacing a wiring at the head. -/
theorem replaceVirtual_cons_eq_ok {wiring : Wiring (WiringData J)}
    {rest result : List (Wiring (WiringData J))} {records : List (SourceOrSink (JsonValue J))} :
    replaceVirtual resolve (wiring :: rest) records = .ok result ↔
      (isVirtual wiring = false ∧ ∃ replaced, replaceVirtual resolve rest records = .ok replaced ∧
          result = wiring :: replaced) ∨
        (isVirtual wiring = true ∧ ∃ record later, records = record :: later ∧ ∃ replaced,
          replaceVirtual resolve rest later = .ok replaced ∧
            result = resolve record wiring :: replaced) := by
  cases hvirtual : isVirtual wiring with
  | false =>
    rw [replaceVirtual.eq_def]
    simp only [hvirtual, Bool.false_eq_true, if_false, bind_eq_ok, return_eq_ok]
    simp [eq_comm]
  | true =>
    rw [replaceVirtual.eq_def]
    simp only [hvirtual, if_true]
    cases records with
    | nil => simp
    | cons record later =>
      simp only [bind_eq_ok, return_eq_ok, List.cons.injEq]
      constructor
      · rintro ⟨replaced, hreplaced, rfl⟩
        exact Or.inr ⟨trivial, record, later, ⟨rfl, rfl⟩, replaced, hreplaced, rfl⟩
      · rintro (⟨h, -⟩ | ⟨-, _, _, ⟨rfl, rfl⟩, replaced, hreplaced, rfl⟩)
        · exact absurd h (by simp)
        · exact ⟨replaced, hreplaced, rfl⟩

/-- Replacing changes nothing exactly if each wiring is what its record makes of it. -/
theorem replaceVirtual_eq_self_iff {wirings : List (Wiring (WiringData J))}
    {records : List (SourceOrSink (JsonValue J))} :
    replaceVirtual resolve wirings records = .ok wirings ↔
      List.Forall₂ (fun wiring record => resolve record wiring = wiring)
        (wirings.filter isVirtual) records := by
  induction wirings generalizing records with
  | nil => cases records <;> simp [replaceVirtual]
  | cons wiring rest ih =>
    rw [replaceVirtual_cons_eq_ok]
    cases hvirtual : isVirtual wiring with
    | false =>
      rw [List.filter_cons_of_neg (by simp [hvirtual]), ← ih]
      simp
    | true =>
      rw [List.filter_cons_of_pos hvirtual, List.forall₂_cons_left_iff]
      simp only [Bool.true_eq_false, false_and, false_or, true_and, List.cons.injEq]
      constructor
      · rintro ⟨record, later, rfl, replaced, hreplaced, hhead, rfl⟩
        exact ⟨record, later, hhead.symm, ih.mp hreplaced, rfl⟩
      · rintro ⟨record, later, hhead, hrest, rfl⟩
        exact ⟨record, later, rfl, rest, ih.mpr hrest, hhead.symm, rfl⟩

/-- Replacing keeps what the changes keep. -/
theorem map_replaceVirtual {A : Type} {f : Wiring (WiringData J) → A}
    (hf : ∀ record wiring, f (resolve record wiring) = f wiring)
    {wirings result : List (Wiring (WiringData J))} {records : List (SourceOrSink (JsonValue J))}
    (h : replaceVirtual resolve wirings records = .ok result) :
    result.map f = wirings.map f := by
  induction wirings generalizing records result with
  | nil =>
    cases records with
    | nil =>
      obtain rfl := Except.ok.inj h
      rfl
    | cons record later => cases h
  | cons wiring rest ih =>
    rcases replaceVirtual_cons_eq_ok.mp h with
      ⟨-, replaced, hreplaced, rfl⟩ | ⟨-, record, later, rfl, replaced, hreplaced, rfl⟩
    · rw [List.map_cons, List.map_cons, ih hreplaced]
    · rw [List.map_cons, List.map_cons, ih hreplaced, hf]

/-- What is not virtual stays. -/
theorem sublist_replaceVirtual {wirings result : List (Wiring (WiringData J))}
    {records : List (SourceOrSink (JsonValue J))}
    (h : replaceVirtual resolve wirings records = .ok result) :
    (wirings.filter fun wiring => !isVirtual wiring).Sublist result := by
  induction wirings generalizing records result with
  | nil => exact List.nil_sublist _
  | cons wiring rest ih =>
    rcases replaceVirtual_cons_eq_ok.mp h with
      ⟨hvirtual, replaced, hreplaced, rfl⟩ | ⟨hvirtual, record, later, rfl, replaced, hreplaced, rfl⟩
    · rw [List.filter_cons_of_pos (by simp [hvirtual])]
      exact (ih hreplaced).cons_cons wiring
    · rw [List.filter_cons_of_neg (by simp [hvirtual])]
      exact (ih hreplaced).cons _

end Replace

/-! ## The whole wiring -/

/-- A resolved wiring. -/
theorem resolveVirtualStructureWirings_eq_ok {numerals : NumeralTables}
    {structures : StructureDb (JsonValue J)} {wiring resolved : WorkflowWiring (WiringData J)} :
    resolveVirtualStructureWirings numerals structures wiring = .ok resolved ↔
      ∃ sources,
        getVirtualSourcesOrSinks numerals structures.sources wiring.inputWirings = .ok sources ∧
      ∃ sinks,
        getVirtualSourcesOrSinks numerals structures.sinks wiring.outputWirings = .ok sinks ∧
      replaceVirtual resolveInput wiring.inputWirings sources = .ok resolved.inputWirings ∧
      replaceVirtual updateWirings wiring.outputWirings sinks = .ok resolved.outputWirings ∧
      resolved.dashboardPositionings = wiring.dashboardPositionings := by
  unfold resolveVirtualStructureWirings
  simp only [bind_eq_ok, return_eq_ok]
  refine exists_congr fun sources => and_congr_right fun _ => exists_congr fun sinks =>
    and_congr_right fun _ => ?_
  constructor
  · rintro ⟨inputWirings, hinputs, outputWirings, houtputs, rfl⟩
    exact ⟨hinputs, houtputs, rfl⟩
  · rintro ⟨hinputs, houtputs, hpositions⟩
    refine ⟨_, hinputs, _, houtputs, ?_⟩
    rw [← hpositions]

/-- Resolution leaves alone exactly the wirings which describe themselves. -/
theorem resolve_eq_self_iff {numerals : NumeralTables} {structures : StructureDb (JsonValue J)}
    {wiring : WorkflowWiring (WiringData J)} :
    resolveVirtualStructureWirings numerals structures wiring = .ok wiring ↔
      DescribesItself numerals structures wiring := by
  rw [resolveVirtualStructureWirings_eq_ok]
  simp only [replaceVirtual_eq_self_iff, resolveInput_eq_self_iff, updateWirings_eq_self_iff,
    and_true]
  constructor
  · rintro ⟨sources, hsources, sinks, hsinks, hinputs, houtputs⟩
    exact ⟨⟨sources, hsources, hinputs⟩, ⟨sinks, hsinks, houtputs⟩⟩
  · rintro ⟨⟨sources, hsources, hinputs⟩, ⟨sinks, hsinks, houtputs⟩⟩
    exact ⟨sources, hsources, sinks, hsinks, hinputs, houtputs⟩

/-- Resolution leaves the names alone. -/
theorem names_of_resolve {numerals : NumeralTables} {structures : StructureDb (JsonValue J)}
    {wiring resolved : WorkflowWiring (WiringData J)}
    (h : resolveVirtualStructureWirings numerals structures wiring = .ok resolved) :
    (resolved.inputWirings.map fun wiring => wiring.data.name) =
        (wiring.inputWirings.map fun wiring => wiring.data.name) ∧
      (resolved.outputWirings.map fun wiring => wiring.data.name) =
        wiring.outputWirings.map fun wiring => wiring.data.name := by
  obtain ⟨_, -, _, -, hinputs, houtputs, -⟩ := resolveVirtualStructureWirings_eq_ok.mp h
  exact ⟨map_replaceVirtual resolveInput_name hinputs,
    map_replaceVirtual updateWirings_name houtputs⟩

end HetidaDesigner
