import HetidaDesigner.Wirings.Overridden
import HetidaDesigner.Wirings.UrlEncoding
import HetidaDesigner.Wirings.Validated

/-!
# Wirings which are described by a uri

A uri of the documented format gives the adapter key, the reference id, filters and, in its
fragment, the key and the type of the reference id, all of them url-encoded. What has to hold for
the validated wiring to be the described one: only the query is decoded, blank values of it are
lost, and the fragment is never read, but demands that the query gives nothing.
-/

namespace HetidaDesigner

open Checks KeyedList

/-- What a uri says about a wiring. -/
structure UriDescription where
  adapterKey : PyStr
  refId : Option PyStr
  filters : List (PyStr × PyStr)
  refKey : Option PyStr
  refIdType : Option RefIdType
  filters_nodup : (filters.map Prod.fst).Nodup

/-- The entries of the fragment. -/
def UriDescription.fragmentPairs (d : UriDescription) : List (PyStr × PyStr) :=
  (d.refKey.map fun key => ("ref_key".toList, key)).toList ++
    (d.refIdType.map fun type => ("ref_id_type".toList, type.value)).toList

/-- The uri of a description; slashes, for example, may be safe in the reference id. -/
def UriDescription.toUri (safe : PyStr) (d : UriDescription) : HdWiringUri where
  host := some (quote [] d.adapterKey)
  path := d.refId.map fun refId => '/' :: quote safe refId
  query := if d.filters = [] then none else some (urlencode d.filters)
  fragment := if d.fragmentPairs = [] then none else some (urlencode d.fragmentPairs)

section Describe

variable {J : Type}

/-- Entries of a query as filters. -/
def textFilters (filters : List (PyStr × PyStr)) : List (PyStr × JsonValue J) :=
  filters.map fun filter => (filter.1, .text filter.2)

/-- A wiring where everything which is described is as described. -/
def UriDescription.describe (d : UriDescription) (wiring : Wiring (WiringData J)) :
    Wiring (WiringData J) where
  adapterId := .str d.adapterKey
  data := { wiring.data with
    refId := d.refId.or wiring.data.refId
    refIdType := d.refIdType.or wiring.data.refIdType
    refKey := d.refKey.or wiring.data.refKey
    filters := mergeEntries wiring.data.filters (textFilters d.filters) }

/-- Taking over the fields of the uri makes a wiring the described one. -/
structure UriDescription.Understood (safe : PyStr) (d : UriDescription)
    (wiring : Wiring (WiringData J)) : Prop where
  adapterKey : ∀ c ∈ d.adapterKey, isUrlSafe [] c = true
  adapterId : d.adapterKey = [] → wiring.adapterId = .str []
  refId : ∀ refId, d.refId = some refId →
    (∀ c ∈ refId, isUrlSafe safe c = true) ∧ refId.head? ≠ some '/'
  filters : ∀ filter ∈ d.filters, filter.2 = [] →
    OnlyEntry Prod.fst wiring.data.filters (filter.1, .text [])
  fragment : d.fragmentPairs ≠ [] → ∀ filter ∈ d.filters, filter.2 = []
  refKey : ∀ key, d.refKey = some key → wiring.data.refKey = some key
  refIdType : ∀ type, d.refIdType = some type → wiring.data.refIdType = some type

/-! ## Parts of a uri -/

/-- Only empty queries are encoded to the empty text. -/
theorem urlencode_eq_nil_iff {pairs : List (PyStr × PyStr)} : urlencode pairs = [] ↔ pairs = [] := by
  constructor
  · intro h
    by_contra hne
    obtain ⟨pair, rest, rfl⟩ := List.exists_cons_of_ne_nil hne
    have hsplit := splitOn_urlencode hne
    rw [h, List.splitOn_nil, List.map_cons] at hsplit
    have hpair := (List.cons.inj hsplit).1
    exact List.append_ne_nil_of_right_ne_nil _ (List.cons_ne_nil _ _) hpair.symm
  · rintro rfl
    rfl

/-- Absent texts and empty ones are not given. -/
theorem given_some (text : PyStr) : given (some text) = if text = [] then none else some text := by
  by_cases h : text = [] <;> simp [given, h]

/-- An absent query is like an empty one. -/
theorem extractFilters_eq (uri : HdWiringUri) :
    (extractFilters uri : Except WiringError (List (PyStr × JsonValue J))) =
      (parseQs (uri.query.getD [])).mapM fun (key, values) => do
        require (filterKeyValid key) (.invalidFilterKey key)
        return (key, .text (queryValue values)) := by
  rw [extractFilters]
  cases huri : uri.query with
  | none => rfl
  | some query =>
    rw [given_some]
    by_cases hquery : query = []
    · rw [if_pos hquery, hquery]
      rfl
    · rw [if_neg hquery]
      rfl

variable {d : UriDescription} {safe : PyStr}

/-- The query of a description. -/
theorem parseQs_toUri (d : UriDescription) (safe : PyStr) :
    parseQs ((d.toUri safe).query.getD []) =
      (d.filters.filter fun filter => filter.2 ≠ []).map fun filter => (filter.1, [filter.2]) := by
  rw [← parseQs_urlencode d.filters_nodup, UriDescription.toUri]
  dsimp only
  split_ifs with h
  · rw [h]
    rfl
  · rfl

/-- The filters which are read off the query. -/
theorem extractFilters_toUri (h : ∀ filter ∈ d.filters, filterKeyValid filter.1 = true) :
    (extractFilters (d.toUri safe) : Except WiringError (List (PyStr × JsonValue J))) =
      .ok (textFilters (d.filters.filter fun filter => filter.2 ≠ [])) := by
  rw [extractFilters_eq, parseQs_toUri, textFilters]
  refine mapM_eq_ok.mpr (List.forall₂_map_left_iff.mpr (List.forall₂_map_right_iff.mpr
    (List.forall₂_same.mpr fun filter hfilter => ?_)))
  exact require_bind_of (h filter (List.mem_of_mem_filter hfilter))

/-- The fragment is accepted if nothing has been read off the query. -/
theorem checkFragment_toUri :
    checkFragment (d.toUri safe) = .ok () ↔
      (d.fragmentPairs ≠ [] → ∀ filter ∈ d.filters, filter.2 = []) := by
  rw [checkFragment, parseQs_toUri]
  by_cases hfragment : d.fragmentPairs = []
  · have hnone : (d.toUri safe).fragment = none := if_pos hfragment
    rw [hnone]
    exact iff_of_true rfl fun h => absurd hfragment h
  · have hsome : (d.toUri safe).fragment = some (urlencode d.fragmentPairs) := if_neg hfragment
    rw [hsome, given_some, if_neg (mt urlencode_eq_nil_iff.mp hfragment)]
    dsimp only
    rw [require_eq_ok, decide_eq_true_eq, List.map_eq_nil_iff, List.filter_eq_nil_iff]
    simp [hfragment]

/-- What is read off the path. -/
theorem extractPath_toUri :
    extractPath (d.toUri safe) none = d.refId.map fun refId => stripSlashes (quote safe refId) := by
  rw [extractPath, UriDescription.toUri]
  cases d.refId with
  | none => rfl
  | some refId => rfl

/-- What is read off the path is the reference id. -/
theorem stripSlashes_quote_eq_iff {refId : PyStr} :
    stripSlashes (quote safe refId) = refId ↔
      (∀ c ∈ refId, isUrlSafe safe c = true) ∧ refId.head? ≠ some '/' := by
  cases refId with
  | nil => exact iff_of_true rfl ⟨fun c hc => absurd hc List.not_mem_nil, by simp⟩
  | cons c rest =>
    by_cases hc : c = '/'
    · refine iff_of_false (fun h => ?_) fun h => h.2 (congrArg some hc)
      have hhead := List.head?_dropWhile_not (fun d => decide (d = '/')) (quote safe (c :: rest))
      rw [show (quote safe (c :: rest)).dropWhile (fun d => decide (d = '/')) = c :: rest from h,
        List.head?_cons, hc] at hhead
      simp at hhead
    · have hfirst : stripSlashes (quote safe (c :: rest)) = quote safe (c :: rest) := by
        cases hsafe : isUrlSafe safe c with
        | true =>
          rw [quote_cons_of_safe hsafe]
          exact List.dropWhile_cons_of_neg (by simp [hc])
        | false =>
          obtain ⟨before, -, hquote⟩ := exists_quote_cons hsafe rest
          rw [hquote]
          exact List.dropWhile_cons_of_neg (by decide)
      rw [hfirst, quote_eq_self_iff]
      exact (and_iff_left fun h => hc (Option.some.inj h)).symm

/-! ## Taking over the fields -/

/-- What is left of a description in the fields of its uri. -/
def UriDescription.takenFields (safe : PyStr) (d : UriDescription) : UriFields J where
  adapterId := if d.adapterKey = [] then none else some (.str (quote [] d.adapterKey))
  refId := d.refId.map fun refId => stripSlashes (quote safe refId)
  filters := textFilters (d.filters.filter fun filter => filter.2 ≠ [])

/-- The fields of the uri of a description. -/
theorem extractFields_toUri {config : WiringConfig}
    (hshortcut : config.uriWiringShortcuts (quote [] d.adapterKey) = none)
    (hkeys : ∀ filter ∈ d.filters, filterKeyValid filter.1 = true) {fields : UriFields J} :
    extractFields config (d.toUri safe) = .ok fields ↔
      (d.fragmentPairs ≠ [] → ∀ filter ∈ d.filters, filter.2 = []) ∧
        d.takenFields safe = fields := by
  have hhost : extractHost config (d.toUri safe) =
      if d.adapterKey = [] then none else some (quote [] d.adapterKey, none) := by
    rw [extractHost, show (d.toUri safe).host = some (quote [] d.adapterKey) from rfl, given_some]
    by_cases h : d.adapterKey = []
    · rw [if_pos h, if_pos (quote_eq_nil_iff.mpr h)]
      rfl
    · rw [if_neg h, if_neg (mt quote_eq_nil_iff.mp h), Option.map_some, hshortcut]
  have hpath : extractPath (d.toUri safe) ((extractHost config (d.toUri safe)).bind Prod.snd) =
      d.refId.map fun refId => stripSlashes (quote safe refId) := by
    rw [← extractPath_toUri, hhost]
    split_ifs <;> rfl
  have hid : ((extractHost config (d.toUri safe)).map fun found => AdapterId.str found.1) =
      if d.adapterKey = [] then none else some (.str (quote [] d.adapterKey)) := by
    rw [hhost]
    split_ifs <;> rfl
  rw [extractFields, extractFilters_toUri hkeys, hpath, hid, ← @checkFragment_toUri d safe]
  exact check_bind_eq_ok.trans (and_congr_right fun _ => return_eq_ok)

/-- A supplied value stays exactly if nothing else is described. -/
theorem eq_or_iff {A : Type} {described supplied : Option A} :
    supplied = described.or supplied ↔ ∀ a, described = some a → supplied = some a := by
  cases described with
  | none => simp
  | some a => simp

/-- The adapter id is the described one. -/
theorem adapterId_eq_iff {id : AdapterId} :
    (d.takenFields safe : UriFields J).adapterId.getD id = .str d.adapterKey ↔
      (∀ c ∈ d.adapterKey, isUrlSafe [] c = true) ∧ (d.adapterKey = [] → id = .str []) := by
  rw [UriDescription.takenFields]
  by_cases h : d.adapterKey = []
  · rw [if_pos h, h]
    simp
  · rw [if_neg h, Option.getD_some, AdapterId.str.injEq, quote_eq_self_iff]
    exact (and_iff_left fun hnil => absurd hnil h).symm

/-- The reference id is the described one. -/
theorem refId_eq_iff {supplied : Option PyStr} :
    (d.takenFields safe : UriFields J).refId.or supplied = d.refId.or supplied ↔
      ∀ refId, d.refId = some refId →
        (∀ c ∈ refId, isUrlSafe safe c = true) ∧ refId.head? ≠ some '/' := by
  rw [UriDescription.takenFields]
  cases d.refId with
  | none => simp
  | some refId =>
    rw [Option.map_some, Option.some_or, Option.some_or, Option.some_inj,
      stripSlashes_quote_eq_iff]
    simp

/-- Filters with a text which is not empty, and all other filters. -/
def notBlank (filter : PyStr × JsonValue J) : Bool :=
  match filter.2 with
  | .text value => value ≠ []
  | _ => true

/-- The filters are the described ones. -/
theorem filters_eq_iff {supplied : List (PyStr × JsonValue J)} :
    mergeEntries supplied (d.takenFields safe).filters =
        mergeEntries supplied (textFilters d.filters) ↔
      ∀ filter ∈ d.filters, filter.2 = [] →
        OnlyEntry Prod.fst supplied (filter.1, .text []) := by
  have hkept : (d.takenFields safe : UriFields J).filters =
      (textFilters d.filters).filter notBlank := by
    rw [UriDescription.takenFields, textFilters, textFilters, List.filter_map]
    rfl
  have hnodup : ((textFilters d.filters : List (PyStr × JsonValue J)).map Prod.fst).Nodup := by
    rw [textFilters, List.map_map]
    exact d.filters_nodup
  rw [hkept, mergeEntries, mergeEntries, insertAll_filter_eq_iff hnodup, textFilters,
    List.forall_mem_map]
  refine forall₂_congr fun filter _ => ?_
  by_cases hblank : filter.2 = []
  · simp [notBlank, hblank]
  · simp [notBlank, hblank]

/-- What is left of a description makes a wiring the described one if everything is understood. -/
theorem exists_update_eq_describe_iff {config : WiringConfig}
    (hshortcut : config.uriWiringShortcuts (quote [] d.adapterKey) = none)
    (hkeys : ∀ filter ∈ d.filters, filterKeyValid filter.1 = true)
    {wiring : Wiring (WiringData J)} :
    (∃ fields, extractFields config (d.toUri safe) = .ok fields ∧
        fields.update wiring = d.describe wiring) ↔ d.Understood safe wiring := by
  constructor
  · rintro ⟨fields, hfields, hupdate⟩
    obtain ⟨hfragment, rfl⟩ := (extractFields_toUri hshortcut hkeys).mp hfields
    obtain ⟨hadapter, hdata⟩ := Wiring.mk.inj hupdate
    obtain ⟨-, -, hrefId, hrefIdType, hrefKey, -, -, hfilters, -⟩ := WiringData.mk.inj hdata
    obtain ⟨hsafe, hempty⟩ := adapterId_eq_iff.mp hadapter
    exact ⟨hsafe, hempty, refId_eq_iff.mp hrefId, filters_eq_iff.mp hfilters, hfragment,
      eq_or_iff.mp hrefKey, eq_or_iff.mp hrefIdType⟩
  · intro h
    refine ⟨_, (extractFields_toUri hshortcut hkeys).mpr ⟨h.fragment, rfl⟩, ?_⟩
    rw [UriFields.update, UriDescription.describe,
      adapterId_eq_iff.mpr ⟨h.adapterKey, h.adapterId⟩, refId_eq_iff.mpr h.refId,
      filters_eq_iff.mpr h.filters, ← eq_or_iff.mpr h.refKey, ← eq_or_iff.mpr h.refIdType]

/-! ## Validation of fields -/

/-- A filter as it is stored. -/
def storedFilter (filter : PyStr × JsonValue J) : PyStr × JsonValue J :=
  (filter.1, match filter.2 with
    | .null => .text []
    | value => value)

/-- Validation of a filter returns what is stored. -/
theorem eq_of_validateFilter {side : WiringSide} {filter filter' : PyStr × JsonValue J}
    (h : validateFilter side filter = .ok filter') : filter' = storedFilter filter := by
  obtain ⟨-, h⟩ := require_bind_eq_ok.mp h
  obtain ⟨value, hvalue, h⟩ := bind_eq_ok.mp h
  obtain rfl := return_eq_ok.mp h
  obtain ⟨key, given⟩ := filter
  cases given with
  | null => exact congrArg (Prod.mk key) (Except.ok.inj hvalue).symm
  | text s => exact congrArg (Prod.mk key) (Except.ok.inj hvalue).symm
  | other v =>
    cases side with
    | input => exact congrArg (Prod.mk key) (Except.ok.inj hvalue).symm
    | output => cases hvalue

/-- Validation of filters returns what is stored. -/
theorem eq_of_validateFilters {side : WiringSide} {filters filters' : List (PyStr × JsonValue J)}
    (h : validateFilters side filters = .ok filters') : filters' = filters.map storedFilter := by
  obtain ⟨validated, hvalidated, h⟩ := bind_eq_ok.mp h
  obtain ⟨-, h⟩ := require_bind_eq_ok.mp h
  obtain rfl := return_eq_ok.mp h
  have hmap : validated.map id = filters.map storedFilter :=
    map_eq_of_mapM hvalidated fun filter filter' => eq_of_validateFilter
  rwa [List.map_id] at hmap

/-- What validation of fields returns. -/
theorem eq_of_validateWiringFields {config : WiringConfig} {side : WiringSide} {refIdGiven : Bool}
    {data wiring : Wiring (WiringData J)}
    (h : validateWiringFields config side refIdGiven data = .ok wiring) :
    wiring = { data with
      data := { data.data.ofSide side with filters := data.data.filters.map storedFilter } } := by
  obtain ⟨-, h⟩ := require_bind_eq_ok.mp h
  obtain ⟨-, h⟩ := require_bind_eq_ok.mp h
  obtain ⟨-, h⟩ := require_bind_eq_ok.mp h
  obtain ⟨-, h⟩ := require_bind_eq_ok.mp h
  obtain ⟨filters, hfilters, h⟩ := bind_eq_ok.mp h
  obtain rfl := return_eq_ok.mp h
  rw [eq_of_validateFilters hfilters]

/-- Validation may come before or after what is described. -/
theorem describe_of_validateWiringFields {config : WiringConfig} {side : WiringSide}
    {refIdGiven : Bool} {data wiring described : Wiring (WiringData J)}
    (hwiring : validateWiringFields config side refIdGiven data = .ok wiring)
    (hdescribed : validateWiringFields config side true (d.describe data) = .ok described) :
    described = d.describe wiring := by
  have htexts : (textFilters d.filters).map storedFilter =
      (textFilters d.filters : List (PyStr × JsonValue J)) := by
    rw [textFilters, List.map_map]
    rfl
  have hmerge : (mergeEntries data.data.filters (textFilters d.filters)).map storedFilter =
      mergeEntries (data.data.filters.map storedFilter) (textFilters d.filters) := by
    rw [mergeEntries, map_insertAll (f := storedFilter) (fun _ => rfl), htexts, mergeEntries]
  rw [eq_of_validateWiringFields hwiring, eq_of_validateWiringFields hdescribed]
  rw [UriDescription.describe, hmerge, UriDescription.describe]
  cases side <;> rfl

end Describe

/-! ## Uris of the documented format -/

section Format

variable {J : Type} [DecidableEq J]

/-- What is supplied becomes what the uri describes exactly if it is valid without the uri, too, and
the uri is understood. -/
theorem validateWiring_toUri_iff {config : WiringConfig} {side : WiringSide} {refIdGiven : Bool}
    {d : UriDescription} {safe : PyStr} {data described : Wiring (WiringData J)}
    (huri : data.data.uri = some (d.toUri safe))
    (hshortcut : config.uriWiringShortcuts (quote [] d.adapterKey) = none)
    (hdescribed : validateWiringFields config side true (d.describe data) = .ok described) :
    validateWiring config side refIdGiven data = .ok described ↔
      ∃ wiring, validateWiringFields config side refIdGiven data = .ok wiring ∧
        d.Understood safe wiring := by
  have hvalid := (validateWiringFields_eq_ok hdescribed).1
  have hkeys : ∀ filter ∈ d.filters, filterKeyValid filter.1 = true := by
    intro filter hfilter
    have htext : (filter.1, JsonValue.text filter.2) ∈
        (textFilters d.filters : List (_ × JsonValue J)) :=
      List.mem_map_of_mem (f := fun filter => (filter.1, JsonValue.text filter.2)) hfilter
    obtain ⟨entry, hentry, hkey⟩ :=
      @exists_mem_insertAll _ _ _ Prod.fst _ _ htext data.data.filters
    have hfilters : described.data.filters =
        (mergeEntries data.data.filters (textFilters d.filters)).map storedFilter := by
      rw [eq_of_validateWiringFields hdescribed]
      rfl
    have hstored := hvalid.filters (storedFilter entry)
      (hfilters ▸ List.mem_map_of_mem hentry)
    have hvalidKey : filterKeyValid entry.1 = true := hstored.key
    rwa [hkey] at hvalidKey
  have hagain : validateWiringFields config side true described = .ok described :=
    validateWiringFields_self_iff.mpr ⟨hvalid, (validateWiringFields_eq_ok hdescribed).2.1 rfl⟩
  rw [validateWiring, bind_eq_ok]
  refine exists_congr fun wiring => and_congr_right fun hwiring => ?_
  have hsame := describe_of_validateWiringFields hwiring hdescribed
  have huri' : wiring.data.uri = some (d.toUri safe) := by
    rw [eq_of_validateWiringFields hwiring, ← huri]
    cases side <;> rfl
  rw [← exists_update_eq_describe_iff hshortcut hkeys, huri']
  dsimp only
  rw [updateWiringFromUri]
  constructor
  · intro h
    obtain ⟨updated, hupdated, h⟩ := bind_eq_ok.mp h
    obtain ⟨revalidated, -, h⟩ := bind_eq_ok.mp h
    obtain ⟨-, h⟩ := require_bind_eq_ok.mp h
    obtain rfl := return_eq_ok.mp h
    obtain ⟨fields, hfields, hupdate⟩ := bind_eq_ok.mp hupdated
    exact ⟨fields, hfields, (return_eq_ok.mp hupdate).trans hsame⟩
  · rintro ⟨fields, hfields, hupdate⟩
    rw [← hsame] at hupdate
    refine bind_eq_ok.mpr ⟨described, bind_eq_ok.mpr ⟨fields, hfields, ?_⟩,
      bind_eq_ok.mpr ⟨described, hagain, require_bind_of (decide_eq_true rfl)⟩⟩
    exact return_eq_ok.mpr hupdate

end Format

/-! ## A uri with and without fragment -/

/-- The uri `hd://demo/root?freq=1+h`, possibly with the fragment
`ref_key=unit&ref_id_type=SOURCE`. -/
def freqUri (hasFragment : Bool) : UriDescription where
  adapterKey := "demo".toList
  refId := some "root".toList
  filters := [("freq".toList, "1 h".toList)]
  refKey := if hasFragment then some "unit".toList else none
  refIdType := if hasFragment then some .source else none
  filters_nodup := List.nodup_singleton _

/-- A wiring of which nothing but the name and the uri is supplied. -/
def freqInput (hasFragment : Bool) : Wiring (WiringData ℤ) where
  adapterId := .str "direct_provisioning".toList
  data := {
    name := ['x']
    uri := some ((freqUri hasFragment).toUri [])
    refId := none
    refIdType := none
    refKey := none
    type := none
    useDefaultValue := false
    filters := []
    attrs := none }

/-- A uri with a query and a fragment is rejected, although what it describes is valid. -/
theorem freqInput_rejected :
    (freqUri true).toUri [] = ⟨some "demo".toList, some "/root".toList, some "freq=1+h".toList,
        some "ref_key=unit&ref_id_type=SOURCE".toList⟩ ∧
      validateWiringFields noShortcuts .input true ((freqUri true).describe (freqInput true)) =
        .ok ((freqUri true).describe (freqInput true)) ∧
      validateWiring noShortcuts .input false (freqInput true) = .error .invalidFragment := by
  refine ⟨?_, ?_, ?_⟩ <;> decide +kernel

/-- Without the fragment the validated wiring is the described one. -/
theorem freqInput_described :
    validateWiring noShortcuts .input false (freqInput false) =
      .ok ((freqUri false).describe (freqInput false)) := by
  have hdescribed : validateWiringFields noShortcuts .input true
      ((freqUri false).describe (freqInput false)) =
        .ok ((freqUri false).describe (freqInput false)) := by
    decide +kernel
  refine (validateWiring_toUri_iff rfl rfl hdescribed).mpr ⟨freqInput false, by decide +kernel, ?_⟩
  exact {
    adapterKey := List.all_eq_true.mp (show "demo".toList.all (isUrlSafe []) = true by decide)
    adapterId := by decide
    refId := fun refId hrefId => by
      obtain rfl := Option.some.inj hrefId
      exact ⟨List.all_eq_true.mp (show "root".toList.all (isUrlSafe []) = true by decide),
        by decide⟩
    filters := fun filter hfilter hblank => by
      obtain rfl := List.mem_singleton.mp hfilter
      exact absurd hblank (by decide)
    fragment := by decide
    refKey := by decide
    refIdType := by decide }

end HetidaDesigner
