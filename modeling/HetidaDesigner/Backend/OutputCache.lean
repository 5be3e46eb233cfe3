import HetidaDesigner.Backend.ReadingMonotone
import HetidaDesigner.Store.Containment

/-!
# The cache of dictionaries

The wrapper which `cache_output_dict_conditionally` of `utils.py` puts around a function from keys
to dictionaries, and the cached reading of transformation revisions. The cache has only entries
which an earlier call has got, so a call gets what the function gives as long as the entries which
may be cached do not change.
-/

namespace HetidaDesigner

open Checks Collecting KeyedList

variable {E K W : Type} [DecidableEq K]

/-- A function from keys to a dictionary over these keys which acts key by key. -/
structure KeyFunction (E K W : Type) [DecidableEq K] where
  func : List K → Except E (List (K × W))
  value : K → Except E (Option W)
  raises_iff : ∀ keys,
    (∃ error, func keys = .error error) ↔ ∃ key ∈ keys, ∃ error, value key = .error error
  dict_nodup : ∀ keys dict, func keys = .ok dict → (dict.map Prod.fst).Nodup
  keys_subset : ∀ keys dict, func keys = .ok dict → ∀ key ∈ dict.map Prod.fst, key ∈ keys
  value_of_mem : ∀ keys dict, func keys = .ok dict → ∀ key ∈ keys, value key = .ok (dict.lookup key)

/-- A call of the wrapper: the function as it is at that time, and the keys. -/
structure CacheCall (E K W : Type) [DecidableEq K] where
  function : KeyFunction E K W
  keys : List K

/-- What a call leaves and returns, and the keys for which the function has been called. -/
structure CacheOutcome (E K W : Type) where
  cache : List (K × W)
  result : Except E (List (K × W))
  called : Option (List K)

/-- The entries of the cache for some keys. -/
def cachedDictPart (cache : List (K × W)) (keys : List K) : List (K × W) :=
  insertAll Prod.fst [] (keys.filterMap fun key => (cache.lookup key).map fun val => (key, val))

/-- The keys without an entry in the cache. -/
def keysNotInCache (cache : List (K × W)) (keys : List K) : List K :=
  keys.filter fun key => key ∉ cache.map Prod.fst

/-- `cache_wrapper` -/
def cacheWrapper (conditionFunc : W → Bool) (func : List K → Except E (List (K × W)))
    (cache : List (K × W)) (keys : List K) : CacheOutcome E K W :=
  if keysNotInCache cache keys = [] then ⟨cache, .ok (cachedDictPart cache keys), none⟩
  else
    match func (keysNotInCache cache keys) with
    | .error error => ⟨cache, .error error, some (keysNotInCache cache keys)⟩
    | .ok resultDict =>
      ⟨insertAll Prod.fst cache (resultDict.filter fun entry => conditionFunc entry.2),
        .ok (insertAll Prod.fst resultDict (cachedDictPart cache keys)),
        some (keysNotInCache cache keys)⟩

/-- The cache after a sequence of calls. -/
def cacheAfter (conditionFunc : W → Bool) (calls : List (CacheCall E K W)) : List (K × W) :=
  calls.foldl
    (fun cache call => (cacheWrapper conditionFunc call.function.func cache call.keys).cache) []

/-- Values which fulfil the condition stay as they are in later calls. -/
def NeverChanges (conditionFunc : W → Bool) (calls : List (CacheCall E K W)) : Prop :=
  calls.Pairwise fun earlier later => ∀ key val, earlier.function.value key = .ok (some val) →
    conditionFunc val = true → later.function.value key = .ok (some val)

/-- The same mapping, or an error both times. -/
def SameMapping (cached direct : Except E (List (K × W))) : Prop :=
  (∀ dict, cached = .ok dict →
      ∃ dict', direct = .ok dict' ∧ ∀ key, dict.lookup key = dict'.lookup key) ∧
    ∀ error, cached = .error error → ∃ error', direct = .error error'

/-! ## Parts of a call -/

section Parts

variable {cache : List (K × W)} {keys : List K}

/-- The cached part has distinct keys. -/
theorem cachedDictPart_nodup : ((cachedDictPart cache keys).map Prod.fst).Nodup :=
  insertAll_nil_nodup _

/-- The cached part has the entries of the cache for the keys. -/
theorem lookup_cachedDictPart (key : K) :
    (cachedDictPart cache keys).lookup key = if key ∈ keys then cache.lookup key else none := by
  have hmem (entry : K × W) (h : entry ∈ cachedDictPart cache keys) :
      entry.1 ∈ keys ∧ cache.lookup entry.1 = some entry.2 := by
    obtain ⟨key, hkey, hentry⟩ := List.mem_filterMap.mp (mem_of_mem_insertAll_nil h)
    obtain ⟨val, hval, rfl⟩ := Option.map_eq_some_iff.mp hentry
    exact ⟨hkey, hval⟩
  cases hfound : (cachedDictPart cache keys).lookup key with
  | some val =>
    obtain ⟨hkey, hval⟩ := hmem (key, val) (mem_of_lookup_eq_some hfound)
    rw [if_pos hkey, hval]
  | none =>
    split
    · rename_i hkey
      cases hval : cache.lookup key with
      | none => rfl
      | some val =>
        have hkeys : key ∈ (cachedDictPart cache keys).map Prod.fst := by
          apply mem_map_insertAll_nil_iff.mpr
          have hentry : (key, val) ∈ keys.filterMap fun key =>
              (cache.lookup key).map fun val => (key, val) :=
            List.mem_filterMap.mpr ⟨key, hkey, by rw [hval]; rfl⟩
          exact List.mem_map.mpr ⟨(key, val), hentry, rfl⟩
        exact absurd hkeys (lookup_eq_none_iff_notMem.mp hfound)
    · rfl

/-- A key is missing in the cache exactly if nothing is found there. -/
theorem mem_keysNotInCache_iff {key : K} :
    key ∈ keysNotInCache cache keys ↔ key ∈ keys ∧ cache.lookup key = none := by
  rw [keysNotInCache, List.mem_filter, decide_eq_true_eq, lookup_eq_none_iff_notMem]

end Parts

/-! ## A call -/

section Call

variable {conditionFunc : W → Bool} {call : CacheCall E K W} {cache : List (K × W)}

variable (conditionFunc call cache) in
/-- What a call can do. -/
theorem cacheWrapper_cases :
    let outcome := cacheWrapper conditionFunc call.function.func cache call.keys
    (keysNotInCache cache call.keys = [] ∧ outcome.cache = cache ∧ outcome.called = none ∧
        outcome.result = .ok (cachedDictPart cache call.keys)) ∨
      outcome.called = some (keysNotInCache cache call.keys) ∧
        ((∃ error, call.function.func (keysNotInCache cache call.keys) = .error error ∧
            outcome.cache = cache ∧ outcome.result = .error error) ∨
          ∃ dict, call.function.func (keysNotInCache cache call.keys) = .ok dict ∧
            outcome.cache =
              insertAll Prod.fst cache (dict.filter fun entry => conditionFunc entry.2) ∧
            outcome.result = .ok (insertAll Prod.fst dict (cachedDictPart cache call.keys))) := by
  dsimp only
  unfold cacheWrapper
  split
  · rename_i hnil
    exact .inl ⟨hnil, rfl, rfl, rfl⟩
  · cases hfunc : call.function.func (keysNotInCache cache call.keys) with
    | error error => exact .inr ⟨rfl, .inl ⟨error, rfl, rfl, rfl⟩⟩
    | ok dict => exact .inr ⟨rfl, .inr ⟨dict, rfl, rfl, rfl⟩⟩

/-- A value of a dictionary is the one for the key. -/
theorem KeyFunction.value_of_lookup (function : KeyFunction E K W) {keys : List K}
    {dict : List (K × W)} (h : function.func keys = .ok dict) {key : K} {val : W}
    (hval : dict.lookup key = some val) : function.value key = .ok (some val) := by
  have hkey := function.keys_subset keys dict h key
    (List.mem_map_of_mem (f := Prod.fst) (mem_of_lookup_eq_some hval))
  rw [function.value_of_mem keys dict h key hkey, hval]

/-- An entry after a call was there before or is a value which fulfils the condition. -/
theorem lookup_cache_cacheWrapper {key : K} {val : W}
    (h : (cacheWrapper conditionFunc call.function.func cache call.keys).cache.lookup key =
      some val) :
    cache.lookup key = some val ∨
      call.function.value key = .ok (some val) ∧ conditionFunc val = true := by
  obtain ⟨-, hcache, -⟩ | ⟨-, ⟨error, -, hcache, -⟩ | ⟨dict, hdict, hcache, -⟩⟩ :=
    cacheWrapper_cases conditionFunc call cache
  · rw [hcache] at h
    exact Or.inl h
  · rw [hcache] at h
    exact Or.inl h
  · have hnodup := call.function.dict_nodup _ dict hdict
    rw [hcache, list_lookup_insertAll (filter_nodup hnodup _), Option.or_eq_some_iff] at h
    obtain hnew | ⟨-, hold⟩ := h
    · have hmem := mem_of_lookup_eq_some hnew
      obtain ⟨hentry, hcondition⟩ := List.mem_filter.mp hmem
      refine Or.inr ⟨call.function.value_of_lookup hdict ?_, hcondition⟩
      exact (lookup_eq_some_iff_mem hnodup).mpr hentry
    · exact Or.inl hold

/-- Nothing is found under other keys. -/
theorem KeyFunction.lookup_of_notMem (function : KeyFunction E K W) {keys : List K}
    {dict : List (K × W)} (h : function.func keys = .ok dict) {key : K} (hkey : key ∉ keys) :
    dict.lookup key = none :=
  lookup_eq_none_iff_notMem.mpr fun hmem => hkey (function.keys_subset keys dict h key hmem)

/-- The cached part and what is got for the missing keys together are what the function gives. -/
theorem lookup_merged (function : KeyFunction E K W) {keys : List K}
    (hcache : ∀ key val, cache.lookup key = some val → function.value key = .ok (some val))
    (fresh : List (K × W))
    (hmissing : ∀ key ∈ keysNotInCache cache keys, function.value key = .ok (fresh.lookup key))
    (hothers : ∀ key, key ∉ keysNotInCache cache keys → fresh.lookup key = none)
    {direct : List (K × W)} (hdirect : function.func keys = .ok direct) (key : K) :
    (insertAll Prod.fst fresh (cachedDictPart cache keys)).lookup key = direct.lookup key := by
  rw [list_lookup_insertAll cachedDictPart_nodup, lookup_cachedDictPart]
  by_cases hkey : key ∈ keys
  · have hvalue := function.value_of_mem keys direct hdirect key hkey
    rw [if_pos hkey]
    cases hfound : cache.lookup key with
    | some val => exact Except.ok.inj ((hcache key val hfound).symm.trans hvalue)
    | none =>
      have hfresh := hmissing key (mem_keysNotInCache_iff.mpr ⟨hkey, hfound⟩)
      exact Except.ok.inj (hfresh.symm.trans hvalue)
  · rw [if_neg hkey, function.lookup_of_notMem hdirect hkey, Option.none_or]
    exact hothers key fun hmem => hkey (mem_keysNotInCache_iff.mp hmem).1

/-- The function raises for the missing keys exactly if it does for all of them. -/
theorem raises_keysNotInCache_iff (function : KeyFunction E K W) (keys : List K)
    (hcache : ∀ key val, cache.lookup key = some val → function.value key = .ok (some val)) :
    (∃ error, function.func (keysNotInCache cache keys) = .error error) ↔
      ∃ error, function.func keys = .error error := by
  rw [function.raises_iff, function.raises_iff]
  constructor
  · intro ⟨key, hkey, herror⟩
    exact ⟨key, (mem_keysNotInCache_iff.mp hkey).1, herror⟩
  · intro ⟨key, hkey, error, herror⟩
    refine ⟨key, mem_keysNotInCache_iff.mpr ⟨hkey, ?_⟩, error, herror⟩
    cases hfound : cache.lookup key with
    | none => rfl
    | some val => simp [hcache key val hfound] at herror

variable (call) in
/-- A call gives what the function gives if the entries of the cache are what it gives. -/
theorem cacheWrapper_sameMapping
    (hcache : ∀ key val, cache.lookup key = some val → call.function.value key = .ok (some val)) :
    SameMapping (cacheWrapper conditionFunc call.function.func cache call.keys).result
      (call.function.func call.keys) := by
  have hraises := raises_keysNotInCache_iff call.function call.keys hcache
  have hsucceeds (h : ∀ error, call.function.func (keysNotInCache cache call.keys) ≠ .error error) :
      ∃ direct, call.function.func call.keys = .ok direct := by
    cases hdirect : call.function.func call.keys with
    | ok direct => exact ⟨direct, rfl⟩
    | error error =>
      obtain ⟨error', herror⟩ := hraises.mpr ⟨error, hdirect⟩
      exact absurd herror (h error')
  obtain ⟨hnil, -, -, hresult⟩ | ⟨-, ⟨error, herror, -, hresult⟩ | ⟨dict, hdict, -, hresult⟩⟩ :=
    cacheWrapper_cases conditionFunc call cache
  · have hvalues : ¬ ∃ error, call.function.func call.keys = .error error := by
      rw [← hraises, call.function.raises_iff, hnil]
      exact fun ⟨key, hkey, _⟩ => List.not_mem_nil hkey
    rw [hresult]
    cases hdirect : call.function.func call.keys with
    | error error => exact absurd ⟨error, hdirect⟩ hvalues
    | ok direct =>
      refine ⟨fun dict hdict => ⟨direct, rfl, fun key => ?_⟩, nofun⟩
      have hmerged := lookup_merged call.function hcache [] (by simp [hnil])
        (fun _ _ => rfl) hdirect key
      rwa [list_lookup_insertAll cachedDictPart_nodup, List.lookup_nil, Option.or_none,
        Except.ok.inj hdict] at hmerged
  · rw [hresult]
    exact ⟨nofun, fun _ _ => hraises.mp ⟨error, herror⟩⟩
  · obtain ⟨direct, hdirect⟩ := hsucceeds fun error herror => by simp [hdict] at herror
    rw [hresult]
    refine ⟨fun merged hmerged => ⟨direct, hdirect, fun key => ?_⟩, nofun⟩
    rw [← Except.ok.inj hmerged]
    exact lookup_merged call.function hcache dict
      (call.function.value_of_mem _ dict hdict)
      (fun key hkey => call.function.lookup_of_notMem hdict hkey) hdirect key

variable (conditionFunc call cache) in
/-- What a call returns is in the cache after it if it fulfils the condition. -/
theorem lookup_cache_of_result {dict : List (K × W)}
    (h : (cacheWrapper conditionFunc call.function.func cache call.keys).result = .ok dict)
    {key : K} {val : W} (hval : dict.lookup key = some val) (hcondition : conditionFunc val = true) :
    (cacheWrapper conditionFunc call.function.func cache call.keys).cache.lookup key = some val := by
  obtain ⟨-, hcache, -, hresult⟩ | ⟨-, ⟨error, -, -, hresult⟩ | ⟨fresh, hfresh, hcache, hresult⟩⟩ :=
    cacheWrapper_cases conditionFunc call cache
  · rw [← Except.ok.inj (hresult.symm.trans h), lookup_cachedDictPart] at hval
    rw [hcache]
    exact (Option.ite_none_right_eq_some.mp hval).2
  · cases hresult.symm.trans h
  · have hnodup := call.function.dict_nodup _ fresh hfresh
    rw [← Except.ok.inj (hresult.symm.trans h), list_lookup_insertAll cachedDictPart_nodup,
      lookup_cachedDictPart, Option.or_eq_some_iff] at hval
    rw [hcache, list_lookup_insertAll (filter_nodup hnodup _), Option.or_eq_some_iff]
    obtain hold | ⟨-, hnew⟩ := hval
    · obtain ⟨-, hold⟩ := Option.ite_none_right_eq_some.mp hold
      refine Or.inr ⟨lookup_eq_none_iff_notMem.mpr fun hmem => ?_, hold⟩
      obtain ⟨entry, hentry, rfl⟩ := List.mem_map.mp hmem
      have hkey := call.function.keys_subset _ fresh hfresh entry.1
        (List.mem_map_of_mem (List.mem_filter.mp hentry).1)
      exact absurd (hold.symm.trans (mem_keysNotInCache_iff.mp hkey).2) (Option.some_ne_none val)
    · refine Or.inl ((lookup_eq_some_iff_mem (filter_nodup hnodup _)).mpr ?_)
      exact List.mem_filter.mpr ⟨mem_of_lookup_eq_some hnew, hcondition⟩

end Call

/-! ## Sequences of calls -/

section Calls

variable {conditionFunc : W → Bool}

/-- Each entry of the cache is a value of an earlier call which fulfils the condition. -/
theorem exists_call_of_lookup_cacheAfter {calls : List (CacheCall E K W)} {key : K} {val : W}
    (h : (cacheAfter conditionFunc calls).lookup key = some val) :
    conditionFunc val = true ∧ ∃ call ∈ calls, call.function.value key = .ok (some val) := by
  induction calls using List.reverseRecOn with
  | nil => cases h
  | append_singleton calls call ih =>
    rw [cacheAfter, List.foldl_append] at h
    obtain hold | ⟨hvalue, hcondition⟩ := lookup_cache_cacheWrapper h
    · obtain ⟨hcondition, earlier, hearlier, hvalue⟩ := ih hold
      exact ⟨hcondition, earlier, List.mem_append_left _ hearlier, hvalue⟩
    · exact ⟨hcondition, call, List.mem_append_right _ (List.mem_singleton_self _), hvalue⟩

/-- The entries of the cache are what the function of the next call gives. -/
theorem value_of_lookup_cacheAfter {calls : List (CacheCall E K W)} {call : CacheCall E K W}
    (hnever : NeverChanges conditionFunc (calls ++ [call])) {key : K} {val : W}
    (h : (cacheAfter conditionFunc calls).lookup key = some val) :
    call.function.value key = .ok (some val) := by
  obtain ⟨hcondition, earlier, hearlier, hvalue⟩ := exists_call_of_lookup_cacheAfter h
  have hpair := (List.pairwise_append.mp hnever).2.2 earlier hearlier call
    (List.mem_singleton_self _)
  exact hpair key val hvalue hcondition

/-- Each call gives what the function gives, the function is called at most with keys which are not
cached, and what the call returns is cached after it if it fulfils the condition. -/
theorem cacheWrapper_transparent (calls : List (CacheCall E K W)) (call : CacheCall E K W)
    (hnever : NeverChanges conditionFunc (calls ++ [call])) :
    let cache := cacheAfter conditionFunc calls
    let outcome := cacheWrapper conditionFunc call.function.func cache call.keys
    SameMapping outcome.result (call.function.func call.keys) ∧
      (∀ called, outcome.called = some called →
        ∀ key ∈ called, key ∈ call.keys ∧ cache.lookup key = none) ∧
      ∀ dict, outcome.result = .ok dict → ∀ key val, dict.lookup key = some val →
        conditionFunc val = true → outcome.cache.lookup key = some val := by
  intro cache outcome
  refine ⟨?_, ?_, fun dict h key val => lookup_cache_of_result conditionFunc call cache h⟩
  · apply cacheWrapper_sameMapping
    exact fun key val hfound => value_of_lookup_cacheAfter hnever hfound
  · intro called hcalled key hkey
    obtain ⟨-, -, hnone, -⟩ | ⟨hsome, -⟩ :=
      cacheWrapper_cases conditionFunc call cache
    · cases hnone.symm.trans hcalled
    · rw [← Option.some.inj (hsome.symm.trans hcalled)] at hkey
      exact mem_keysNotInCache_iff.mp hkey

end Calls

/-! ## Transformation revisions -/

section Revisions

variable {V D : Type}

/-- Reading several revisions acts id by id. -/
def readMultipleFunction (read : UUID → Except StoreError (Revision V D)) :
    KeyFunction StoreError UUID (Revision V D) where
  func := readMultiple read
  value id := (read id).map some
  raises_iff ids := by
    constructor
    · intro ⟨error, herror⟩
      by_contra hnone
      obtain ⟨entries, hentries⟩ := @exists_readMultiple _ _ read ids fun id hid => by
        cases hread : read id with
        | ok revision => exact ⟨revision, rfl⟩
        | error error => exact absurd ⟨id, hid, error, by rw [hread]; rfl⟩ hnone
      cases hentries.symm.trans herror
    · intro ⟨id, hid, error, herror⟩
      cases hmultiple : readMultiple read ids with
      | error error => exact ⟨error, rfl⟩
      | ok entries =>
        obtain ⟨revision, hrevision⟩ := exists_of_readMultiple hmultiple hid
        rw [hrevision] at herror
        cases herror
  dict_nodup ids entries h := by
    obtain ⟨all, -, h⟩ := bind_eq_ok.mp h
    obtain rfl := return_eq_ok.mp h
    exact insertAll_nil_nodup all
  keys_subset ids entries h id hid := by
    obtain ⟨entry, hentry, rfl⟩ := List.mem_map.mp hid
    exact ((mem_of_readMultiple h).mp hentry).1
  value_of_mem ids entries h id hid := by
    obtain ⟨revision, hrevision⟩ := exists_of_readMultiple h hid
    have hfound : entries.lookup id = some revision := by
      obtain ⟨all, -, h'⟩ := bind_eq_ok.mp h
      have hmem : (id, revision) ∈ entries := (mem_of_readMultiple h).mpr ⟨hid, hrevision⟩
      obtain rfl := return_eq_ok.mp h'
      exact (lookup_eq_some_iff_mem (insertAll_nil_nodup all)).mpr hmem
    rw [hrevision, hfound]
    rfl

/-- Whether a revision is cached. -/
def cachesTrafo (enabled : Bool) (trafo : Revision V D) : Bool := enabled && trafo.state != .draft

/-- `read_multiple_transformation_revisions_by_id_with_possible_caching` -/
def readMultipleWithPossibleCaching (enabled : Bool)
    (read : UUID → Except StoreError (Revision V D)) (cache : List (UUID × Revision V D))
    (ids : List UUID) : CacheOutcome StoreError UUID (Revision V D) :=
  cacheWrapper (cachesTrafo enabled) (readMultiple read) cache ids

/-- The cache after some readings. -/
def cacheAfterReadings (enabled : Bool)
    (readings : List ((UUID → Except StoreError (Revision V D)) × List UUID)) :
    List (UUID × Revision V D) :=
  cacheAfter (cachesTrafo enabled)
    (readings.map fun reading => ⟨readMultipleFunction reading.1, reading.2⟩)

/-- Reading with the cache gives what reading without it gives if revisions which are not drafts
stay as they are. -/
theorem readMultipleWithPossibleCaching_sameMapping {enabled : Bool}
    {readings : List ((UUID → Except StoreError (Revision V D)) × List UUID)}
    {read : UUID → Except StoreError (Revision V D)} {ids : List UUID}
    (hstays : (readings ++ [(read, ids)]).Pairwise fun earlier later => ∀ id trafo,
      earlier.1 id = .ok trafo → cachesTrafo enabled trafo = true → later.1 id = .ok trafo) :
    SameMapping
      (readMultipleWithPossibleCaching enabled read (cacheAfterReadings enabled readings) ids).result
      (readMultiple read ids) := by
  have hnever : NeverChanges (cachesTrafo enabled)
      ((readings ++ [(read, ids)]).map fun reading =>
        (⟨readMultipleFunction reading.1, reading.2⟩ : CacheCall _ _ _)) := by
    refine List.pairwise_map.mpr (hstays.imp fun {earlier later} h id trafo hread hcaches => ?_)
    obtain ⟨found, hfound, hsome⟩ := map_eq_ok.mp hread
    obtain rfl := Option.some.inj hsome
    exact map_eq_ok.mpr ⟨found, h id found hfound hcaches, rfl⟩
  rw [List.map_append] at hnever
  apply cacheWrapper_sameMapping ⟨readMultipleFunction read, ids⟩
  exact fun id trafo hfound => value_of_lookup_cacheAfter hnever hfound

end Revisions

/-! ## A draft which changes between two readings -/

/-- A released component with id 1 and a draft with id 2. -/
def releasedAndDraft (text : PyStr) (id : UUID) : Except StoreError (Revision ℤ Unit) :=
  if id = 1 then .ok (plainComponent 1 .released ['x'])
  else if id = 2 then .ok (plainComponent 2 .draft text)
  else .error (.notFound id)

/-- Reading both, one of them twice. -/
def readingBoth (text : PyStr) : CacheCall StoreError UUID (Revision ℤ Unit) :=
  ⟨readMultipleFunction (releasedAndDraft text), [1, 2, 1]⟩

/-- The second reading gives the changed draft and asks for that only, and after it the component is
still cached. -/
theorem readingBoth_transparent :
    let cache := cacheAfter (cachesTrafo true) [readingBoth ['x']]
    let outcome := cacheWrapper (cachesTrafo true) (readMultiple (releasedAndDraft ['y'])) cache
      [1, 2, 1]
    SameMapping outcome.result (readMultiple (releasedAndDraft ['y']) [1, 2, 1]) ∧
      outcome.called = some [2] ∧ cache.lookup 2 = none ∧
      outcome.cache.lookup 1 = some (plainComponent 1 .released ['x']) := by
  intro cache outcome
  have hnever : NeverChanges (cachesTrafo true) [readingBoth ['x'], readingBoth ['y']] := by
    refine List.pairwise_pair.mpr fun id trafo hread hcaches => ?_
    obtain ⟨found, hfound, hsome⟩ := map_eq_ok.mp hread
    obtain rfl := Option.some.inj hsome
    refine map_eq_ok.mpr ⟨found, ?_, rfl⟩
    unfold releasedAndDraft at hfound ⊢
    split
    · rename_i hid
      rwa [if_pos hid] at hfound
    · rename_i hid
      rw [if_neg hid] at hfound
      split at hfound
      · rw [← Except.ok.inj hfound] at hcaches
        cases hcaches
      · cases hfound
  obtain ⟨hsame, hcalled, hcached⟩ :=
    cacheWrapper_transparent [readingBoth ['x']] (readingBoth ['y']) hnever
  have hmissing : outcome.called = some [2] := by decide
  have hresult : ∃ dict, outcome.result = .ok dict ∧
      dict.lookup 1 = some (plainComponent 1 .released ['x']) := ⟨_, rfl, rfl⟩
  obtain ⟨dict, hdict, hval⟩ := hresult
  exact ⟨hsame, hmissing, (hcalled _ hmissing 2 (List.mem_singleton_self 2)).2,
    hcached dict hdict 1 _ hval rfl⟩

end HetidaDesigner
