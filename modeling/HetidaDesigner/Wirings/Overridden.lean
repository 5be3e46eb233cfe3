import HetidaDesigner.Wirings.QueryParameters
import HetidaDesigner.Wirings.Transported

/-!
# What query parameters override

Before the final validation each property has the value which the last parameter about it sets, and
whatever no parameter names is as it was. The final validation takes the fields of a uri over once
more, so a property which the uri gives, too, only has the value of the parameter if both agree.
Of several places on the dashboard for the same input or output only the last one is left.
-/

namespace HetidaDesigner

open Checks KeyedList LastEntry SplitOnce

/-! ## What parameters set -/

namespace Override

/-- What an override sets the adapter id to. -/
def adapterId? : Override → Option AdapterId
  | .direct _ => some (.str "direct_provisioning".toList)
  | .adapterId text => some (.str text)
  | _ => none

/-- What an override sets the reference id to. -/
def refId? : Override → Option (Option PyStr)
  | .direct _ => some none
  | .refId text => some (some text)
  | _ => none

/-- What an override sets the type of the reference id to. -/
def refIdType? : Override → Option (Option RefIdType)
  | .direct _ => some none
  | .refIdType member => some member
  | _ => none

/-- What an override sets the key of a metadatum to. -/
def refKey? : Override → Option (Option PyStr)
  | .direct _ => some none
  | .refKey text => some (some text)
  | _ => none

/-- What an override sets the type to. -/
def type? : Override → Option (Option ExternalType)
  | .type member => some member
  | _ => none

/-- What an override sets the filter with a key to; direct provisioning drops other filters. -/
def filter? (key : PyStr) : Override → Option (Option PyStr)
  | .direct filters => some ((lookup Prod.fst key filters).map Prod.snd)
  | .filter name text => if name = key then some (some text) else none
  | _ => none

end Override

/-- The value which the last override about it sets. -/
def lastSet {A : Type} (value : Override → Option A) (overrides : List Override) : Option A :=
  (overrides.filterMap value).getLast?

/-- The overrides of the wiring and the place of an input or output. -/
def overridesOf (reading : ParameterReading) (pairs : List (PyStr × PyStr)) (side : WiringSide)
    (name : PyStr) : List Override :=
  pairs.filterMap fun pair => (readKey pair.1).bind fun key =>
    if key.1 = side ∧ key.2.1 = name then (readOverride reading side key.2.2 pair.2).toOption
    else none

/-- Some parameter names the input or output. -/
def Named (pairs : List (PyStr × PyStr)) (side : WiringSide) (name : PyStr) : Prop :=
  ∃ pair ∈ pairs, ∃ changedProperty, readKey pair.1 = some (side, name, changedProperty)

section Statement

variable {J : Type}

/-- The wiring of an input or output. -/
def WorkflowWiring.wiringOf (wiring : WorkflowWiring (WiringData J)) (side : WiringSide)
    (name : PyStr) : Option (Wiring (WiringData J)) :=
  lookup (fun w => w.data.name) name (wiring.wiringsOf side)

/-- The places of an input or output on the dashboard. -/
def WorkflowWiring.positioningsOf {D : Type} (wiring : WorkflowWiring D) (side : WiringSide)
    (name : PyStr) : List GridstackItemPositioning :=
  wiring.dashboardPositionings.filter fun positioning =>
    positioning.type = side.positioningType ∧ positioning.id = name

/-- Each property which is set has the value set last. -/
structure HasLastSet (overrides : List Override) (wiring : Wiring (WiringData J)) : Prop where
  adapterId : ∀ id, lastSet Override.adapterId? overrides = some id → wiring.adapterId = id
  refId : ∀ refId, lastSet Override.refId? overrides = some refId → wiring.data.refId = refId
  refIdType : ∀ member, lastSet Override.refIdType? overrides = some member →
    wiring.data.refIdType = member
  refKey : ∀ refKey, lastSet Override.refKey? overrides = some refKey →
    wiring.data.refKey = refKey
  type : ∀ member, lastSet Override.type? overrides = some member → wiring.data.type = member
  filters : ∀ key text, lastSet (Override.filter? key) overrides = some text →
    (lookup Prod.fst key wiring.data.filters).map Prod.snd = text.map .text

/-- Overrides take effect and touch nothing else. -/
structure OverridesTakeEffect (reading : ParameterReading) (pairs : List (PyStr × PyStr))
    (wiring result : WorkflowWiring (WiringData J)) : Prop where
  wirings : ∀ side name, ¬Named pairs side name →
    result.wiringOf side name = wiring.wiringOf side name
  positionings : ∀ side name, ¬Named pairs side name →
    result.positioningsOf side name = wiring.positioningsOf side name
  overridden : ∀ side name,
    (∃ override ∈ overridesOf reading pairs side name, override.setsProperty = true) →
      ∃ w, result.wiringOf side name = some w ∧
        HasLastSet (overridesOf reading pairs side name) w

/-- Where a uri gives a property which is set, it gives the value which is set last. -/
structure AgreesWithUri (overrides : List Override) (fields : UriFields J) : Prop where
  adapterId : ∀ id, fields.adapterId = some id → ∀ id',
    lastSet Override.adapterId? overrides = some id' → id' = id
  refId : ∀ refId, fields.refId = some refId → ∀ refId',
    lastSet Override.refId? overrides = some refId' → refId' = some refId
  filters : ∀ filter ∈ insertAll Prod.fst [] fields.filters, ∀ text,
    lastSet (Override.filter? filter.1) overrides = some text → text.map .text = some filter.2

/-- The parameters agree with the uris of the wirings, and what they do not name has at most one
place on the dashboard. -/
structure OverridesFit (config : WiringConfig) (reading : ParameterReading)
    (pairs : List (PyStr × PyStr)) (wiring : WorkflowWiring (WiringData J)) : Prop where
  positionings : ∀ side name, ¬Named pairs side name →
    (wiring.positioningsOf side name).length ≤ 1
  uris : ∀ side name w uri (fields : UriFields J), wiring.wiringOf side name = some w → w.data.uri = some uri →
    extractFields config uri = .ok fields →
      AgreesWithUri (overridesOf reading pairs side name) fields

end Statement

/-! ## Overrides one after the other -/

section Overrides

variable {J A : Type}

/-- A property is what the last override about it sets, if each override sets it as it says. -/
theorem get_foldl_apply {get : Wiring (WiringData J) → A} {value : Override → Option A}
    (h : ∀ override wiring, get (Override.apply override wiring) =
      (value override).getD (get wiring)) (overrides : List Override)
    (wiring : Wiring (WiringData J)) :
    get (overrides.foldl (fun w override => override.apply w) wiring) =
      (lastSet value overrides).getD (get wiring) := by
  induction overrides using List.reverseRecOn with
  | nil => rfl
  | append_singleton overrides override ih =>
    rw [List.foldl_append, List.foldl_cons, List.foldl_nil, h, ih, lastSet, lastSet,
      List.filterMap_append, List.getLast?_append]
    cases hvalue : value override <;> simp [hvalue]

/-- The values of filters after an override. -/
theorem filter_apply (key : PyStr) (override : Override) (wiring : Wiring (WiringData J)) :
    (lookup Prod.fst key (override.apply wiring).data.filters).map Prod.snd =
      ((override.filter? key).map fun text => text.map JsonValue.text).getD
        ((lookup Prod.fst key wiring.data.filters).map Prod.snd) := by
  cases override with
  | direct filters =>
    simp only [Override.apply, Override.filter?, Option.map_some, Option.getD_some, lookup,
      List.find?_map, Option.map_map]
    rfl
  | filter name text =>
    simp only [Override.apply, Override.filter?]
    rw [lookup_insertEntry]
    by_cases hkey : name = key
    · rw [if_pos hkey, if_pos hkey.symm]
      rfl
    · rw [if_neg hkey, if_neg (Ne.symm hkey)]
      rfl
  | _ => rfl

/-- The wiring after all overrides. -/
def applyAll (overrides : List Override) (wiring : Wiring (WiringData J)) :
    Wiring (WiringData J) :=
  overrides.foldl (fun w override => override.apply w) wiring

/-- What holds of the wiring and is kept by each override holds after all of them. -/
theorem applyAll_keeps {P : Wiring (WiringData J) → Prop}
    (h : ∀ override wiring, P wiring → P (Override.apply override wiring))
    {overrides : List Override} {wiring : Wiring (WiringData J)} (hwiring : P wiring) :
    P (applyAll overrides wiring) := by
  unfold applyAll
  induction overrides generalizing wiring with
  | nil => exact hwiring
  | cons override rest ih => exact ih (h override wiring hwiring)

/-- Name and uri stay. -/
theorem applyAll_name_uri (overrides : List Override) (wiring : Wiring (WiringData J)) :
    (applyAll overrides wiring).data.name = wiring.data.name ∧
      (applyAll overrides wiring).data.uri = wiring.data.uri :=
  applyAll_keeps (P := fun w => w.data.name = wiring.data.name ∧ w.data.uri = wiring.data.uri)
    (fun override w hw => by cases override <;> exact hw) ⟨rfl, rfl⟩

/-- Wirings of outputs have no default value and no attributes. -/
theorem ofSide_output_iff {data : WiringData J} :
    data.ofSide .output = data ↔ data.useDefaultValue = false ∧ data.attrs = none := by
  cases data
  simp [WiringData.ofSide, eq_comm]

/-- The values of filters are such that validation leaves them, and fields of the other side have
their defaults. -/
structure Settled (side : WiringSide) (wiring : Wiring (WiringData J)) : Prop where
  filters : ∀ filter ∈ wiring.data.filters, FilterValueValid side filter.2
  ofSide : wiring.data.ofSide side = wiring.data

/-- Overrides keep a wiring settled. -/
theorem Settled.apply {side : WiringSide} {wiring : Wiring (WiringData J)}
    (h : Settled side wiring) (override : Override) : Settled side (override.apply wiring) := by
  obtain ⟨hfilters, hside⟩ := h
  constructor
  · cases override with
    | direct filters =>
      intro filter hfilter
      obtain ⟨given, -, rfl⟩ := List.mem_map.mp hfilter
      trivial
    | filter name text =>
      intro filter hfilter
      rcases mem_insertEntry_iff.mp hfilter with rfl | ⟨hfilter, -⟩
      · trivial
      · exact hfilters filter hfilter
    | _ => exact hfilters
  · cases side with
    | input => rfl
    | output =>
      obtain ⟨hdefault, hattrs⟩ := ofSide_output_iff.mp hside
      cases override with
      | direct filters => exact ofSide_output_iff.mpr ⟨rfl, hattrs⟩
      | _ => exact ofSide_output_iff.mpr ⟨hdefault, hattrs⟩

/-- The last value under a function. -/
theorem lastSet_map {B : Type} (value : Override → Option A) (f : A → B)
    (overrides : List Override) :
    lastSet (fun override => (value override).map f) overrides =
      (lastSet value overrides).map f := by
  rw [lastSet, lastSet, ← List.getLast?_map, List.map_filterMap]

/-- Before the final validation each property has the value set last. -/
theorem hasLastSet_applyAll (overrides : List Override) (wiring : Wiring (WiringData J)) :
    HasLastSet overrides (applyAll overrides wiring) := by
  have hget {A : Type} (get : Wiring (WiringData J) → A) (value : Override → Option A)
      (h : ∀ override wiring, get (Override.apply override wiring) =
        (value override).getD (get wiring)) (a : A) (ha : lastSet value overrides = some a) :
      get (applyAll overrides wiring) = a := by
    rw [applyAll, get_foldl_apply h, ha, Option.getD_some]
  constructor
  · refine hget (fun w => w.adapterId) _ fun override wiring => ?_
    cases override <;> rfl
  · refine hget (fun w => w.data.refId) _ fun override wiring => ?_
    cases override <;> rfl
  · refine hget (fun w => w.data.refIdType) _ fun override wiring => ?_
    cases override <;> rfl
  · refine hget (fun w => w.data.refKey) _ fun override wiring => ?_
    cases override <;> rfl
  · refine hget (fun w => w.data.type) _ fun override wiring => ?_
    cases override <;> rfl
  · intro key text htext
    refine hget (fun w => (lookup Prod.fst key w.data.filters).map Prod.snd) _ (filter_apply key)
      _ ?_
    rw [lastSet_map, htext, Option.map_some]

end Overrides

/-! ## The loop over the parameters -/

section Loop

variable {J : Type} [DecidableEq J] {config : WiringConfig} {reading : ParameterReading}
  {side : WiringSide} {name : PyStr} {start wiring result : WorkflowWiring (WiringData J)}

omit [DecidableEq J] in
/-- The wirings of a side after some have been replaced. -/
theorem wiringsOf_setWirings (wiring : WorkflowWiring (WiringData J))
    (wirings : List (Wiring (WiringData J))) (side side' : WiringSide) :
    (wiring.setWirings wirings side).wiringsOf side' =
      if side' = side then wirings else wiring.wiringsOf side' := by
  cases side <;> cases side' <;> rfl

omit [DecidableEq J] in
/-- Validation leaves settled fields. -/
theorem validateWiringFields_of_settled {refIdGiven : Bool} {w w' : Wiring (WiringData J)}
    (hsettled : Settled side w) (h : validateWiringFields config side refIdGiven w = .ok w') :
    w' = w := by
  unfold validateWiringFields at h
  simp only [require_bind_eq_ok] at h
  obtain ⟨-, -, -, -, h⟩ := h
  obtain ⟨filters, hfilters, h⟩ := bind_eq_ok.mp h
  obtain rfl := return_eq_ok.mp h
  obtain ⟨validated, hvalidated, hfilters⟩ := bind_eq_ok.mp hfilters
  obtain ⟨-, hfilters⟩ := require_bind_eq_ok.mp hfilters
  obtain rfl := return_eq_ok.mp hfilters
  have hsame : validated = w.data.filters := by
    refine eq_of_mapM hvalidated fun filter hfilter filter' h => ?_
    obtain ⟨-, h⟩ := require_bind_eq_ok.mp h
    rw [validateFilterValue_self (hsettled.filters filter hfilter)] at h
    exact (return_eq_ok.mp h).symm
  rw [hsame, hsettled.ofSide]

/-- A new wiring is the default one. -/
theorem validateWiring_default {w : Wiring (WiringData J)}
    (h : validateWiring config side false (defaultWiring name) = .ok w) : w = defaultWiring name := by
  obtain ⟨validated, hvalidated, h⟩ := bind_eq_ok.mp h
  have hsettled : @Settled J side (defaultWiring name) :=
    ⟨fun _ hfilter => absurd hfilter List.not_mem_nil, by cases side <;> rfl⟩
  obtain rfl := validateWiringFields_of_settled hsettled hvalidated
  exact (return_eq_ok.mp h).symm

/-- Afterwards the wiring is there. -/
theorem ensureWiringInDict_eq_ok {wirings wirings' : List (Wiring (WiringData J))}
    (h : ensureWiringInDict config side name wirings = .ok wirings')
    (hnames : (wirings.map fun w => w.data.name).Nodup) :
    (wirings'.map fun w => w.data.name).Nodup ∧
      ∀ other, lookup (fun w => w.data.name) other wirings' = if other = name then
        some ((lookup (fun w => w.data.name) name wirings).getD (defaultWiring name))
        else lookup (fun w => w.data.name) other wirings := by
  unfold ensureWiringInDict at h
  split at h
  · rename_i w hw
    obtain rfl := Except.ok.inj h
    refine ⟨hnames, fun other => ?_⟩
    split
    · rename_i hother
      rw [hother, hw]
      rfl
    · rfl
  · rename_i hnone
    obtain ⟨w, hw, h⟩ := bind_eq_ok.mp h
    obtain rfl := return_eq_ok.mp h
    obtain rfl := validateWiring_default hw
    have hnew := lookup_eq_none.mp hnone
    refine ⟨append_nodup hnames hnew, fun other => ?_⟩
    rw [lookup_append hnew, hnone]
    rfl

/-- The wiring of an input or output after an override. -/
def overriddenBy (name : PyStr) (current : Option (Wiring (WiringData J))) (override : Override) :
    Option (Wiring (WiringData J)) :=
  if override.setsProperty then some (override.apply (current.getD (defaultWiring name)))
  else current

omit [DecidableEq J] in
/-- Overrides of the place on the dashboard leave the wiring. -/
theorem apply_of_not_setsProperty {override : Override} (h : override.setsProperty = false)
    (w : Wiring (WiringData J)) : override.apply w = w := by
  cases override with
  | pos => rfl
  | allowed => rfl
  | _ => cases h

omit [DecidableEq J] in
/-- The name of a wiring stays under an override. -/
theorem apply_name (override : Override) (w : Wiring (WiringData J)) :
    (override.apply w).data.name = w.data.name := by
  cases override <;> rfl

omit [DecidableEq J] in
/-- The first override is applied first. -/
theorem applyAll_cons (override : Override) (rest : List Override) (w : Wiring (WiringData J)) :
    applyAll (override :: rest) w = applyAll rest (override.apply w) := rfl

omit [DecidableEq J] in
/-- Overrides of the place on the dashboard leave the wiring. -/
theorem applyAll_of_none {overrides : List Override}
    (h : overrides.any Override.setsProperty = false) (w : Wiring (WiringData J)) :
    applyAll overrides w = w := by
  induction overrides with
  | nil => rfl
  | cons override rest ih =>
    rw [List.any_cons, Bool.or_eq_false_iff] at h
    rw [applyAll_cons, apply_of_not_setsProperty h.1, ih h.2]

omit [DecidableEq J] in
/-- The wiring after several overrides. -/
theorem foldl_overriddenBy (overrides : List Override) (current : Option (Wiring (WiringData J))) :
    overrides.foldl (overriddenBy name) current =
      if overrides.any Override.setsProperty then
        some (applyAll overrides (current.getD (defaultWiring name))) else current := by
  induction overrides generalizing current with
  | nil => rfl
  | cons override rest ih =>
    rw [List.foldl_cons, ih, overriddenBy, List.any_cons]
    cases hsets : override.setsProperty with
    | true =>
      rw [if_pos rfl, Bool.true_or, if_pos rfl, Option.getD_some]
      cases hrest : rest.any Override.setsProperty with
      | true => rfl
      | false => rw [if_neg Bool.false_ne_true, applyAll_cons, applyAll_of_none hrest]
    | false =>
      rw [if_neg Bool.false_ne_true, Bool.false_or, applyAll_cons,
        apply_of_not_setsProperty hsets]

/-- The names of the wirings of each side are distinct. -/
def NamesDistinct (wiring : WorkflowWiring (WiringData J)) : Prop :=
  ∀ side, ((wiring.wiringsOf side).map fun w => w.data.name).Nodup

/-- One override changes the wiring which it is about. -/
theorem updateOrInsertWiring_eq_ok {override : Override}
    (hnames : NamesDistinct wiring)
    (h : updateOrInsertWiring config side name override wiring = .ok result) :
    NamesDistinct result ∧ ∀ side' name', result.wiringOf side' name' =
      if side' = side ∧ name' = name then overriddenBy name (wiring.wiringOf side name) override
      else wiring.wiringOf side' name' := by
  unfold updateOrInsertWiring at h
  split at h
  · rename_i hsets
    obtain ⟨wirings, hensure, h⟩ := bind_eq_ok.mp h
    obtain rfl := return_eq_ok.mp h
    obtain ⟨hnodup, hlookup⟩ := ensureWiringInDict_eq_ok (mapError_eq_ok.mp hensure) (hnames side)
    have hkey (w : Wiring (WiringData J)) : (if w.data.name = name then override.apply w
        else w).data.name = w.data.name := by
      split
      · exact apply_name override w
      · rfl
    constructor
    · intro side'
      rw [wiringsOf_setWirings]
      split
      · rw [List.map_map]
        exact (List.map_congr_left fun w _ => hkey w) ▸ hnodup
      · exact hnames side'
    · intro side' name'
      rw [WorkflowWiring.wiringOf, wiringsOf_setWirings]
      by_cases hside : side' = side
      · rw [if_pos hside, lookup_map hkey, hlookup, hside]
        by_cases hname : name' = name
        · have hfound : ((lookup (fun w => w.data.name) name (wiring.wiringsOf side)).getD
              (defaultWiring name)).data.name = name := by
            cases hw : lookup (fun w => w.data.name) name (wiring.wiringsOf side) with
            | none => rfl
            | some w => exact (lookup_eq_some hw).2
          rw [if_pos hname, if_pos ⟨rfl, hname⟩, Option.map_some, if_pos hfound, overriddenBy,
            if_pos hsets]
          rfl
        · rw [if_neg hname, if_neg fun h => hname h.2, WorkflowWiring.wiringOf]
          cases hw : lookup (fun w => w.data.name) name' (wiring.wiringsOf side) with
          | none => rfl
          | some w =>
            have hne : ¬ w.data.name = name := fun heq => hname ((lookup_eq_some hw).2.symm.trans heq)
            rw [Option.map_some, if_neg hne]
      · rw [if_neg hside, if_neg fun h => hside h.1]
        rfl
  · rename_i hsets
    obtain rfl := Except.ok.inj h
    refine ⟨hnames, fun side' name' => ?_⟩
    split
    · rename_i hsame
      obtain ⟨rfl, rfl⟩ := hsame
      rw [overriddenBy, if_neg hsets]
      rfl
    · rfl

/-- After the loop each wiring has had its overrides. -/
theorem wiringOf_of_foldlM {pairs : List (PyStr × PyStr)} (hnames : NamesDistinct start)
    (h : pairs.foldlM (applyParameter config reading) start = .ok result) :
    NamesDistinct result ∧ ∀ side name, result.wiringOf side name =
      (overridesOf reading pairs side name).foldl (overriddenBy name) (start.wiringOf side name) := by
  induction pairs generalizing start with
  | nil =>
    obtain rfl := return_eq_ok.mp h
    exact ⟨hnames, fun _ _ => rfl⟩
  | cons pair rest ih =>
    rw [List.foldlM_cons] at h
    obtain ⟨next, hnext, h⟩ := bind_eq_ok.mp h
    have hcons (side : WiringSide) (name : PyStr) : overridesOf reading (pair :: rest) side name =
        ((readKey pair.1).bind fun key => if key.1 = side ∧ key.2.1 = name then
          (readOverride reading side key.2.2 pair.2).toOption else none).toList ++
            overridesOf reading rest side name := by
      rw [overridesOf, List.filterMap_cons]
      split
      · rename_i hnone
        rw [hnone]
        rfl
      · rename_i override hsome
        rw [hsome]
        rfl
    unfold applyParameter at hnext
    split at hnext
    · rename_i hkey
      obtain rfl := Except.ok.inj hnext
      obtain ⟨hnames', hwirings⟩ := ih hnames h
      refine ⟨hnames', fun side name => ?_⟩
      rw [hwirings, hcons, hkey]
      rfl
    · rename_i side' name' changedProperty hkey
      obtain ⟨override, hread, hnext⟩ := bind_eq_ok.mp hnext
      obtain ⟨hnamesNext, hnextWirings⟩ := updateOrInsertWiring_eq_ok hnames hnext
      obtain ⟨hnames', hwirings⟩ := ih hnamesNext h
      refine ⟨hnames', fun side name => ?_⟩
      rw [hwirings, hcons, hkey, hnextWirings, Option.bind_some]
      by_cases hsame : side = side' ∧ name = name'
      · obtain ⟨rfl, rfl⟩ := hsame
        rw [if_pos ⟨rfl, rfl⟩, if_pos ⟨rfl, rfl⟩, hread]
        rfl
      · rw [if_neg hsame, if_neg fun h => hsame ⟨h.1.symm, h.2.symm⟩]
        rfl

end Loop

/-! ## Places on the dashboard -/

section Positionings

variable {J : Type} [DecidableEq J] {config : WiringConfig} {reading : ParameterReading}
  {start result : WorkflowWiring (WiringData J)}

/-- Dashboard ids tell inputs and outputs with different names apart. -/
theorem dashboardId_eq_iff {positioning : GridstackItemPositioning} {side : WiringSide}
    {name : PyStr} : positioning.dashboardId = dashboardIdForIo name side.positioningType ↔
      positioning.type = side.positioningType ∧ positioning.id = name := by
  have hne : ('i' : Char) ≠ 'o' := by decide
  unfold GridstackItemPositioning.dashboardId
  cases positioning.type <;> cases side <;>
    simp [dashboardIdForIo, WiringSide.positioningType, hne, hne.symm]

omit [DecidableEq J] in
/-- The places of an input or output are those with its dashboard id. -/
theorem positioningsOf_eq (wiring : WorkflowWiring (WiringData J)) (side : WiringSide)
    (name : PyStr) : wiring.positioningsOf side name =
      wiring.dashboardPositionings.filter fun positioning =>
        positioning.dashboardId = dashboardIdForIo name side.positioningType := by
  rw [WorkflowWiring.positioningsOf]
  refine List.filter_congr fun positioning _ => ?_
  rw [decide_eq_decide]
  exact dashboardId_eq_iff.symm

/-- An override changes the place of one input or output only. -/
theorem filter_applyToPositionings {override : Override} {side side' : WiringSide}
    {name name' : PyStr} (h : ¬(side' = side ∧ name' = name))
    (positionings : List GridstackItemPositioning) :
    (override.applyToPositionings side name positionings).filter (fun positioning =>
        positioning.dashboardId = dashboardIdForIo name' side'.positioningType) =
      positionings.filter fun positioning =>
        positioning.dashboardId = dashboardIdForIo name' side'.positioningType := by
  have hne : dashboardIdForIo name side.positioningType ≠
      dashboardIdForIo name' side'.positioningType := by
    intro heq
    have hsame := (@dashboardId_eq_iff ⟨none, none, none, none, name, side.positioningType, []⟩
      side' name').mp heq
    refine h ⟨?_, hsame.2.symm⟩
    have htype : side.positioningType = side'.positioningType := hsame.1
    cases side <;> cases side' <;> first | rfl | cases htype
  have hentry (positioning : GridstackItemPositioning)
      (hid : positioning.dashboardId = dashboardIdForIo name side.positioningType) :
      (insertEntry GridstackItemPositioning.dashboardId positionings positioning).filter
          (fun positioning =>
            positioning.dashboardId = dashboardIdForIo name' side'.positioningType) =
        positionings.filter fun positioning =>
          positioning.dashboardId = dashboardIdForIo name' side'.positioningType :=
    filter_insertEntry fun other hother =>
      decide_eq_false fun heq => hne (hid.symm.trans (hother.symm.trans heq))
  cases override with
  | pos x y w h => exact hentry _ rfl
  | allowed values =>
    refine hentry _ ?_
    cases hfound : lookup GridstackItemPositioning.dashboardId
        (dashboardIdForIo name side.positioningType) positionings with
    | none => rfl
    | some positioning => exact (lookup_eq_some hfound).2
  | _ => rfl

/-- The loop leaves the places of what is not named. -/
theorem positioningsOf_of_foldlM {pairs : List (PyStr × PyStr)}
    (h : pairs.foldlM (applyParameter config reading) start = .ok result) {side : WiringSide}
    {name : PyStr} (hunnamed : ¬Named pairs side name) :
    result.positioningsOf side name = start.positioningsOf side name := by
  induction pairs generalizing start with
  | nil =>
    obtain rfl := return_eq_ok.mp h
    rfl
  | cons pair rest ih =>
    rw [List.foldlM_cons] at h
    obtain ⟨next, hnext, h⟩ := bind_eq_ok.mp h
    have hrest : ¬Named rest side name := by
      rintro ⟨other, hother, hnamed⟩
      exact hunnamed ⟨other, List.mem_cons_of_mem _ hother, hnamed⟩
    rw [ih h hrest]
    unfold applyParameter at hnext
    split at hnext
    · obtain rfl := Except.ok.inj hnext
      rfl
    · rename_i side' name' changedProperty hkey
      obtain ⟨override, -, hnext⟩ := bind_eq_ok.mp hnext
      have hother : ¬(side = side' ∧ name = name') := by
        rintro ⟨rfl, rfl⟩
        exact hunnamed ⟨pair, List.mem_cons_self, changedProperty, hkey⟩
      rw [positioningsOf_eq, positioningsOf_eq]
      unfold updateOrInsertWiring at hnext
      split at hnext
      · obtain ⟨wirings, -, hnext⟩ := bind_eq_ok.mp hnext
        obtain rfl := return_eq_ok.mp hnext
        cases side' <;> rfl
      · obtain rfl := Except.ok.inj hnext
        exact filter_applyToPositionings hother start.dashboardPositionings

omit [DecidableEq J] in
/-- A dictionary has the places which are listed exactly if there is at most one. -/
theorem positioningsOf_wiringDicts_iff {wiring : WorkflowWiring (WiringData J)} {side : WiringSide}
    {name : PyStr} : (wiringDicts wiring).positioningsOf side name = wiring.positioningsOf side name ↔
      (wiring.positioningsOf side name).length ≤ 1 := by
  rw [positioningsOf_eq, positioningsOf_eq]
  generalize dashboardIdForIo name side.positioningType = id
  have hnodup := @insertAll_nil_nodup _ _ _ GridstackItemPositioning.dashboardId
    wiring.dashboardPositionings
  have hdict : ((wiringDicts wiring).dashboardPositionings.filter fun positioning =>
      positioning.dashboardId = id) =
        (insertAll GridstackItemPositioning.dashboardId [] wiring.dashboardPositionings).filter
          fun positioning => positioning.dashboardId = id := rfl
  rw [hdict]
  cases hlisted : wiring.dashboardPositionings.filter fun positioning =>
      positioning.dashboardId = id with
  | nil =>
    simp only [List.length_nil, Nat.zero_le, iff_true, List.filter_eq_nil_iff] at hlisted ⊢
    exact fun positioning hpositioning =>
      hlisted positioning (mem_of_mem_insertAll_nil hpositioning)
  | cons first rest =>
    have hfirst := List.mem_filter.mp (hlisted ▸ List.mem_cons_self : first ∈ _)
    obtain ⟨found, hfound, hkey⟩ := @exists_mem_insertAll _ _ _
      GridstackItemPositioning.dashboardId _ _ hfirst.1 []
    have hid : found.dashboardId = id := hkey.trans (of_decide_eq_true hfirst.2)
    have hsingle : (insertAll GridstackItemPositioning.dashboardId []
        wiring.dashboardPositionings).filter (fun positioning => positioning.dashboardId = id) =
        [found] :=
      filter_eq_singleton hnodup hfound (decide_eq_true hid) fun other _ hother =>
        (of_decide_eq_true hother).trans hid.symm
    rw [hsingle]
    constructor
    · intro heq
      obtain ⟨-, rfl⟩ := List.cons.inj heq
      rfl
    · intro hlength
      obtain rfl : rest = [] := List.length_eq_zero_iff.mp (by simpa using hlength)
      have hmem : found ∈ wiring.dashboardPositionings.filter fun positioning =>
          positioning.dashboardId = id :=
        List.mem_filter.mpr ⟨mem_of_mem_insertAll_nil hfound, decide_eq_true hid⟩
      rw [hlisted] at hmem
      rw [List.mem_singleton.mp hmem]

end Positionings

/-! ## The final validation -/

section Final

variable {J : Type} [DecidableEq J] {config : WiringConfig} {reading : ParameterReading}
  {side : WiringSide} {name : PyStr} {wiring overridden result : WorkflowWiring (WiringData J)}

omit [DecidableEq J] in
/-- Valid wirings are settled. -/
theorem ValidWiring.settled {w : Wiring (WiringData J)} (h : ValidWiring config side w) :
    Settled side w :=
  ⟨fun filter hfilter => (h.filters filter hfilter).value, h.ofSide⟩

/-- Validation of a settled wiring takes over the fields of its uri and nothing else. -/
theorem validateWiring_of_settled {refIdGiven : Bool} {w w' : Wiring (WiringData J)}
    (hsettled : Settled side w) (h : validateWiring config side refIdGiven w = .ok w') :
    (w.data.uri = none ∧ w' = w) ∨ ∃ uri fields, w.data.uri = some uri ∧
      extractFields config uri = .ok fields ∧ w' = fields.update w := by
  obtain ⟨validated, hvalidated, h⟩ := bind_eq_ok.mp h
  rw [validateWiringFields_of_settled hsettled hvalidated] at h
  split at h
  · rename_i hnone
    exact Or.inl ⟨hnone, (return_eq_ok.mp h).symm⟩
  · rename_i uri huri
    obtain ⟨updated, hupdated, h⟩ := bind_eq_ok.mp h
    obtain ⟨revalidated, -, h⟩ := bind_eq_ok.mp h
    obtain ⟨-, h⟩ := require_bind_eq_ok.mp h
    obtain rfl := return_eq_ok.mp h
    obtain ⟨fields, hfields, hupdated⟩ := bind_eq_ok.mp hupdated
    exact Or.inr ⟨uri, fields, huri, hfields, (return_eq_ok.mp hupdated).symm⟩

/-- Validated wirings are found under the names of what they have been validated from. -/
theorem lookup_of_validated {wirings validated : List (Wiring (WiringData J))}
    (h : (wirings.map dumpWiring).mapM (fun request =>
      validateWiring config side request.refIdGiven request.wiring) = .ok validated)
    (name : PyStr) :
    Option.Rel (fun w w' => validateWiring config side true w = .ok w')
      (lookup (fun w => w.data.name) name wirings)
      (lookup (fun w => w.data.name) name validated) := by
  rw [mapM_eq_ok, List.forall₂_map_left_iff] at h
  induction h with
  | nil => exact .none
  | @cons w w' wirings validated hfirst _ ih =>
    have hname := (valid_of_validateWiring hfirst).2.2
    rw [lookup, lookup, List.find?_cons, List.find?_cons, ← lookup, ← lookup]
    have hsame : decide (w'.data.name = name) = decide (w.data.name = name) :=
      decide_eq_decide.mpr (by rw [hname]; rfl)
    rw [hsame]
    split
    · exact .some hfirst
    · exact ih

/-- The wirings after the final validation, and the places on the dashboard. -/
theorem wiringOf_of_validate (h : (dumpWorkflowWiring overridden).validate config = .ok result) :
    (∀ side name, Option.Rel (fun w w' => validateWiring config side true w = .ok w')
      (overridden.wiringOf side name) (result.wiringOf side name)) ∧
      result.dashboardPositionings = overridden.dashboardPositionings := by
  obtain ⟨inputs, hinputs, h⟩ := bind_eq_ok.mp h
  obtain ⟨-, h⟩ := require_bind_eq_ok.mp h
  obtain ⟨outputs, houtputs, h⟩ := bind_eq_ok.mp h
  obtain ⟨-, h⟩ := require_bind_eq_ok.mp h
  obtain rfl := return_eq_ok.mp h
  refine ⟨fun side name => ?_, rfl⟩
  cases side with
  | input => exact lookup_of_validated hinputs name
  | output => exact lookup_of_validated houtputs name

omit [DecidableEq J] in
/-- Taking over the fields of a uri keeps what is set exactly if it agrees with them. -/
theorem hasLastSet_update_iff {overrides : List Override} {fields : UriFields J}
    {w : Wiring (WiringData J)} (h : HasLastSet overrides w) :
    HasLastSet overrides (fields.update w) ↔ AgreesWithUri overrides fields := by
  constructor
  · intro hupdated
    refine ⟨fun id hid id' hset => ?_, fun refId hrefId refId' hset => ?_,
      fun filter hfilter text hset => ?_⟩
    · have heq := hupdated.adapterId id' hset
      rw [UriFields.update, hid, Option.getD_some] at heq
      exact heq.symm
    · have heq := hupdated.refId refId' hset
      rw [UriFields.update, hrefId, Option.some_or] at heq
      exact heq.symm
    · have heq := hupdated.filters filter.1 text hset
      rw [UriFields.update, mergeEntries, lookup_insertAll_of_mem hfilter] at heq
      exact heq.symm
  · intro hagrees
    refine ⟨fun id hset => ?_, fun refId hset => ?_, h.refIdType, h.refKey, h.type,
      fun key text hset => ?_⟩
    · rw [UriFields.update]
      cases hid : fields.adapterId with
      | none => exact h.adapterId id hset
      | some given => exact (hagrees.adapterId given hid id hset).symm
    · rw [UriFields.update]
      cases hrefId : fields.refId with
      | none => exact h.refId refId hset
      | some given => exact (hagrees.refId given hrefId refId hset).symm
    · rw [UriFields.update, mergeEntries]
      by_cases hgiven : ∃ filter ∈ insertAll Prod.fst [] fields.filters, filter.1 = key
      · obtain ⟨filter, hfilter, rfl⟩ := hgiven
        rw [lookup_insertAll_of_mem hfilter]
        exact (hagrees.filters filter hfilter text hset).symm
      · rw [lookup_insertAll_of_notMem fun filter hfilter hkey => ?_]
        · exact h.filters key text hset
        · obtain ⟨found, hfound, hsame⟩ := @exists_mem_insertAll _ _ _ Prod.fst _ _ hfilter []
          exact hgiven ⟨found, hfound, hsame.trans hkey⟩

omit [DecidableEq J] in
/-- The dictionaries of a valid wiring have its wirings. -/
theorem wiringOf_wiringDicts (h : ValidWorkflowWiring config wiring) :
    NamesDistinct (wiringDicts wiring) ∧
      ∀ side name, (wiringDicts wiring).wiringOf side name = wiring.wiringOf side name := by
  have hinputs : (wiringDicts wiring).inputWirings = wiring.inputWirings :=
    insertAll_of_nodup h.inputNames
  have houtputs : (wiringDicts wiring).outputWirings = wiring.outputWirings :=
    insertAll_of_nodup h.outputNames
  have hsame (side : WiringSide) :
      (wiringDicts wiring).wiringsOf side = wiring.wiringsOf side := by
    cases side with
    | input => exact hinputs
    | output => exact houtputs
  refine ⟨fun side => ?_, fun side name => ?_⟩
  · rw [hsame]
    cases side with
    | input => exact h.inputNames
    | output => exact h.outputNames
  · rw [WorkflowWiring.wiringOf, hsame, WorkflowWiring.wiringOf]

omit [DecidableEq J] in
/-- The wirings of a valid workflow wiring are valid. -/
theorem ValidWorkflowWiring.wiringOf (h : ValidWorkflowWiring config wiring)
    {w : Wiring (WiringData J)} (hw : wiring.wiringOf side name = some w) :
    ValidWiring config side w := by
  have hmem := (lookup_eq_some hw).1
  cases side with
  | input => exact h.inputs w hmem
  | output => exact h.outputs w hmem

/-- Only what a parameter names has overrides. -/
theorem overridesOf_eq_nil {pairs : List (PyStr × PyStr)} (h : ¬Named pairs side name) :
    overridesOf reading pairs side name = [] := by
  rw [overridesOf, List.filterMap_eq_nil_iff]
  intro pair hpair
  cases hkey : readKey pair.1 with
  | none => rfl
  | some key =>
    rw [Option.bind_some, if_neg]
    rintro ⟨rfl, rfl⟩
    exact h ⟨pair, hpair, key.2.2, hkey⟩

/-- Validation leaves a wiring which has passed it before. -/
theorem eq_of_validateWiring {w w' : Wiring (WiringData J)} (hvalid : ValidWiring config side w)
    (h : validateWiring config side true w = .ok w') : w' = w := by
  rcases validateWiring_of_settled hvalid.settled h with ⟨-, heq⟩ |
    ⟨uri, fields, huri, hfields, rfl⟩
  · exact heq
  · obtain ⟨-, fields', hfields', hagrees⟩ := hvalid.uri uri huri
    obtain rfl := Except.ok.inj (hfields.symm.trans hfields')
    exact UriFields.update_eq_self_iff.mpr hagrees

variable {pairs : List (PyStr × PyStr)}

/-- The stages of overriding a valid wiring. -/
structure Overrides (config : WiringConfig) (reading : ParameterReading)
    (pairs : List (PyStr × PyStr)) (wiring result : WorkflowWiring (WiringData J)) : Prop where
  valid : ValidWorkflowWiring config wiring
  wirings : ∀ side name, Option.Rel (fun w w' => validateWiring config side true w = .ok w')
    ((overridesOf reading pairs side name).foldl (overriddenBy name) (wiring.wiringOf side name))
    (result.wiringOf side name)
  positionings : ∀ side name, ¬Named pairs side name →
    result.positioningsOf side name = (wiringDicts wiring).positioningsOf side name

/-- What a successful call does. -/
theorem overrides_of_update {request : WorkflowWiringRequest J}
    (hvalid : request.validate config = .ok wiring)
    (h : updateWiringFromQueryParameters config reading (some wiring) pairs = .ok result) :
    Overrides config reading pairs wiring result := by
  have hwiring := valid_of_validate hvalid
  obtain ⟨overridden, hloop, hfinal⟩ := bind_eq_ok.mp h
  obtain ⟨hnames, hstart⟩ := wiringOf_wiringDicts hwiring
  obtain ⟨-, hwirings⟩ := wiringOf_of_foldlM hnames hloop
  obtain ⟨hvalidated, hpositionings⟩ := wiringOf_of_validate (mapError_eq_ok.mp hfinal)
  refine ⟨hwiring, fun side name => ?_, fun side name hunnamed => ?_⟩
  · have hrel := hvalidated side name
    rw [hwirings] at hrel
    exact hstart side name ▸ hrel
  · rw [WorkflowWiring.positioningsOf, hpositionings]
    exact positioningsOf_of_foldlM hloop hunnamed

/-- Without overrides of its properties a wiring stays. -/
theorem Overrides.wiringOf_of_none (h : Overrides config reading pairs wiring result)
    (hnone : (overridesOf reading pairs side name).any Override.setsProperty = false) :
    result.wiringOf side name = wiring.wiringOf side name := by
  have hrel := h.wirings side name
  rw [foldl_overriddenBy, hnone, if_neg Bool.false_ne_true] at hrel
  cases hw : wiring.wiringOf side name with
  | none =>
    rw [hw] at hrel
    generalize result.wiringOf side name = w' at hrel
    cases hrel
    rfl
  | some w =>
    rw [hw] at hrel
    generalize result.wiringOf side name = w' at hrel
    cases hrel with
    | some hvalidated => rw [eq_of_validateWiring (h.valid.wiringOf hw) hvalidated]

/-- A wiring with overrides has what is set last exactly if that agrees with its uri. -/
theorem Overrides.hasLastSet_iff (h : Overrides config reading pairs wiring result)
    (hsome : (overridesOf reading pairs side name).any Override.setsProperty = true) :
    ∃ w', result.wiringOf side name = some w' ∧
      (HasLastSet (overridesOf reading pairs side name) w' ↔
        ∀ w uri (fields : UriFields J), wiring.wiringOf side name = some w →
          w.data.uri = some uri → extractFields config uri = .ok fields →
            AgreesWithUri (overridesOf reading pairs side name) fields) := by
  have hrel := h.wirings side name
  rw [foldl_overriddenBy, hsome, if_pos rfl] at hrel
  generalize hoverrides : overridesOf reading pairs side name = overrides at hrel ⊢
  generalize hbase : (wiring.wiringOf side name).getD (defaultWiring name) = base at hrel
  have hsettled : Settled side base := by
    rw [← hbase]
    cases hw : wiring.wiringOf side name with
    | none => exact ⟨fun _ hfilter => absurd hfilter List.not_mem_nil, by cases side <;> rfl⟩
    | some w => exact (h.valid.wiringOf hw).settled
  have huri := (applyAll_name_uri overrides base).2
  have hset := hasLastSet_applyAll overrides base
  generalize hresult : result.wiringOf side name = found at hrel
  cases hrel with
  | @some _ w' hvalidated =>
    refine ⟨w', rfl, ?_⟩
    have happlied : Settled side (applyAll overrides base) :=
      applyAll_keeps (P := Settled side) (fun override w hw => hw.apply override) hsettled
    rcases validateWiring_of_settled happlied hvalidated with
      ⟨hnone, rfl⟩ | ⟨uri, fields, hsomeUri, hfields, rfl⟩
    · refine iff_of_true hset fun w uri fields hw hsomeUri _ => ?_
      rw [huri, ← hbase, hw, Option.getD_some, hsomeUri] at hnone
      cases hnone
    · rw [hasLastSet_update_iff hset]
      rw [huri] at hsomeUri
      constructor
      · intro hagrees w uri' fields' hw huri' hfields'
        rw [← hbase, hw, Option.getD_some, huri'] at hsomeUri
        obtain rfl := Option.some.inj hsomeUri
        obtain rfl := Except.ok.inj (hfields.symm.trans hfields')
        exact hagrees
      · intro hagrees
        cases hw : wiring.wiringOf side name with
        | none =>
          rw [← hbase, hw] at hsomeUri
          cases hsomeUri
        | some w =>
          rw [← hbase, hw, Option.getD_some] at hsomeUri
          exact hagrees w uri fields hw hsomeUri hfields

/-- Overrides take effect and touch nothing else exactly if they agree with the uris of the
wirings, and what is not named has at most one place on the dashboard. -/
theorem overridesTakeEffect_iff {request : WorkflowWiringRequest J}
    (hvalid : request.validate config = .ok wiring)
    (h : updateWiringFromQueryParameters config reading (some wiring) pairs = .ok result) :
    OverridesTakeEffect reading pairs wiring result ↔
      OverridesFit config reading pairs wiring := by
  have hoverrides := overrides_of_update hvalid h
  constructor
  · intro heffect
    refine ⟨fun side name hunnamed => ?_, fun side name w uri fields hw huri hfields => ?_⟩
    · rw [← positioningsOf_wiringDicts_iff, ← hoverrides.positionings side name hunnamed]
      exact heffect.positionings side name hunnamed
    · cases hsets : (overridesOf reading pairs side name).any Override.setsProperty with
      | true =>
        obtain ⟨w', hw', hiff⟩ := hoverrides.hasLastSet_iff hsets
        obtain ⟨w'', hw'', hset⟩ := heffect.overridden side name (List.any_eq_true.mp hsets)
        obtain rfl := Option.some.inj (hw'.symm.trans hw'')
        exact hiff.mp hset w uri fields hw huri hfields
      | false =>
        -- where no property is set, every wiring has what is set
        have hset (w : Wiring (WiringData J)) :
            HasLastSet (overridesOf reading pairs side name) w := by
          rw [← applyAll_of_none hsets w]
          exact hasLastSet_applyAll _ w
        exact (hasLastSet_update_iff (hset w)).mp (hset _)
  · intro hfit
    refine ⟨fun side name hunnamed => ?_, fun side name hunnamed => ?_,
      fun side name hsets => ?_⟩
    · refine hoverrides.wiringOf_of_none ?_
      rw [overridesOf_eq_nil hunnamed]
      rfl
    · rw [hoverrides.positionings side name hunnamed, positioningsOf_wiringDicts_iff]
      exact hfit.positionings side name hunnamed
    · obtain ⟨w', hw', hiff⟩ := hoverrides.hasLastSet_iff (List.any_eq_true.mpr hsets)
      exact ⟨w', hw', hiff.mpr fun w uri fields hw huri hfields =>
        hfit.uris side name w uri fields hw huri hfields⟩

end Final

/-! ## An input with and without a uri -/

/-- Direct provisioning has a number on both sides. -/
theorem noShortcuts_registered : WiringSide → (1 : ℤ) ∈ [(1 : ℤ)] :=
  fun _ => List.mem_singleton_self 1

/-- A configuration in which the adapter of direct provisioning is the only one with a number. -/
def noShortcuts : WiringConfig where
  registeredAdapters := fun _ => [1]
  direct_provisioning_registered := noShortcuts_registered
  uriWiringShortcuts := fun _ => none

/-- Reading digits, and letters which have no upper case. -/
def plainReading : ParameterReading where
  upper := id
  coordinate := fun text => if text = ['3'] then some 3 else none

/-- A wiring of an input, possibly with the uri `hd://demo/r`. -/
def uriInput (hasUri : Bool) : WorkflowWiring (WiringData ℤ) where
  inputWirings := [{
    adapterId := .str "demo".toList
    data := {
      name := ['x']
      uri := if hasUri then some ⟨some "demo".toList, some "/r".toList, none, none⟩ else none
      refId := some ['r']
      refIdType := none
      refKey := none
      type := none
      useDefaultValue := false
      filters := []
      attrs := none } }]
  outputWirings := []
  dashboardPositionings := [⟨some 0, some 0, some 3, some 1, ['y'], .output, []⟩]

/-- Parameters which set the adapter id and a filter of the input. -/
def inputPairs : List (PyStr × PyStr) :=
  [("input.x.a".toList, "other".toList), ("in.x.f.level".toList, ['3']),
    ("i.x.pos".toList, "3_3_3_3".toList)]

/-- The result of overriding, with an adapter id. -/
def overriddenInput (hasUri : Bool) (adapterId : PyStr) : WorkflowWiring (WiringData ℤ) where
  inputWirings := (uriInput hasUri).inputWirings.map fun w =>
    { adapterId := .str adapterId
      data := { w.data with filters := [("level".toList, .text ['3'])] } }
  outputWirings := []
  dashboardPositionings :=
    (uriInput hasUri).dashboardPositionings ++ [⟨some 3, some 3, some 3, some 3, ['x'], .input, []⟩]

/-- The overrides of the input. -/
theorem overridesOf_inputPairs : overridesOf plainReading inputPairs .input ['x'] =
    [.adapterId "other".toList, .filter "level".toList ['3'], .pos 3 3 3 3] := by
  decide +kernel

/-- The adapter id given by a parameter is lost where the uri gives one. -/
theorem uriInput_notOverridden :
    (dumpWorkflowWiring (uriInput true)).validate noShortcuts = .ok (uriInput true) ∧
      ∃ result, updateWiringFromQueryParameters noShortcuts plainReading (some (uriInput true))
          inputPairs = .ok result ∧
        ¬OverridesTakeEffect plainReading inputPairs (uriInput true) result := by
  refine ⟨by decide +kernel, overriddenInput true "demo".toList, by decide +kernel, fun h => ?_⟩
  obtain ⟨w, hw, hset⟩ := h.overridden .input ['x'] ⟨.adapterId "other".toList,
    by rw [overridesOf_inputPairs]; exact List.mem_cons_self, rfl⟩
  obtain rfl := Option.some.inj hw
  have hid := hset.adapterId (.str "other".toList) (by rw [overridesOf_inputPairs]; rfl)
  exact absurd hid (by decide)

/-- Without a uri the parameters take effect. -/
theorem plainInput_overridden :
    ∃ result, updateWiringFromQueryParameters noShortcuts plainReading (some (uriInput false))
        inputPairs = .ok result ∧
      OverridesTakeEffect plainReading inputPairs (uriInput false) result := by
  have hvalid : (dumpWorkflowWiring (uriInput false)).validate noShortcuts =
      .ok (uriInput false) := by
    decide +kernel
  have hupdate : updateWiringFromQueryParameters noShortcuts plainReading (some (uriInput false))
      inputPairs = .ok (overriddenInput false "other".toList) := by
    decide +kernel
  refine ⟨_, hupdate, (overridesTakeEffect_iff hvalid hupdate).mpr ⟨fun side name _ => ?_, ?_⟩⟩
  · exact List.length_filter_le _ _
  · rintro side name w uri fields hw huri -
    have hmem := (lookup_eq_some hw).1
    cases side with
    | input =>
      obtain rfl := List.mem_singleton.mp hmem
      cases huri
    | output => cases hmem

end HetidaDesigner
