import HetidaDesigner.Library.Checks
import HetidaDesigner.Library.KeyedList
import HetidaDesigner.Wirings.Models

/-!
# Metadata of value dimensions

The extraction of metadata by `get_value_dimension_info` of `helpers/metadata.py` from the current
convention, with the errors which the specs of the library glom raise and catch. An explicit null
for the value dimensions of one metric is an error which is caught around all metrics.
-/

namespace HetidaDesigner

open Checks KeyedList LastEntry

variable {K V A W : Type} [DecidableEq K]

/-! ## Attributes -/

/-- A field which can be missing, null or given. -/
inductive OptionalField (A : Type)
  | missing
  | null
  | given (value : A)
  deriving DecidableEq

/-- The fields of an object; a value can be null. -/
abbrev MetadataFields (V : Type) := List (PyStr × Option V)

/-- An entry of a list of value dimensions: its column and all its fields. -/
structure ValueDimension (V : Type) where
  column : PyStr
  fields : MetadataFields V

/-- An entry of the list of metrics: the value under the metric key, all fields, and those under
`value_dimensions`. -/
structure MetricMetadata (K V : Type) where
  key : K
  fields : MetadataFields V
  valueDimensions : OptionalField (List (ValueDimension V))

/-- Attributes in the current convention which name a metric key. -/
structure MetadataAttrs (K V : Type) where
  metrics : OptionalField (List (MetricMetadata K V))
  valueDimensionsShared : OptionalField (List (ValueDimension V))

/-! ## Specs -/

/-- The errors of specs. -/
inductive GlomError
  | pathAccess
  | check
  | unregisteredTarget
  deriving DecidableEq, Repr

/-- Access to a field. -/
def OptionalField.access : OptionalField A → Except GlomError (Option A)
  | .missing => .error .pathAccess
  | .null => .ok none
  | .given value => .ok (some value)

/-- `Coalesce` with one spec and a default. -/
def coalesce (attempt : Except GlomError A) (default : A) : A :=
  match attempt with
  | .ok value => value
  | .error _ => default

/-- `Check(instance_of=list)` -/
def checkInstanceOfList : Option (List A) → Except GlomError (List A)
  | none => .error .check
  | some items => .ok items

/-- The items which a list spec goes through; null has none. -/
def iterate : Option (List A) → Except GlomError (List A)
  | none => .error .unregisteredTarget
  | some items => .ok items

/-- `Coalesce(metadatum_key, default=None)` for the name of a field -/
def fieldOrNone (metadatumKey : PyStr) (fields : MetadataFields V) : Option V :=
  (fields.lookup metadatumKey).join

/-- `build_dict_from_iterable_from_key_and_subspec_and_then_proceed_on_result`, with the dictionary
to start with -/
def buildDict (startDict : List (K × W)) (key : A → K) (value : A → W) (items : List A) :
    List (K × W) :=
  insertAll Prod.fst startDict (insertAll Prod.fst [] (items.map fun item => (key item, value item)))

/-- The information by columns. -/
def infoByColumn (metadatumKey : PyStr) (startDict : List (PyStr × Option V))
    (dimensions : List (ValueDimension V)) : List (PyStr × Option V) :=
  buildDict startDict ValueDimension.column
    (fun dimension => fieldOrNone metadatumKey dimension.fields) dimensions

/-- The name of the value dimension which metrics have. -/
def valueColumn : PyStr := "value".toList

/-- The part `defaults_by_value_dimension`. -/
def defaultsByValueDimension (metadatumKey : PyStr) (attrs : MetadataAttrs K V) :
    List (PyStr × Option V) :=
  coalesce (do
    let shared ← checkInstanceOfList (coalesce attrs.valueDimensionsShared.access (some []))
    return infoByColumn metadatumKey [] shared) []

/-- The part `defaults_by_metric`. -/
def defaultsByMetric (metadatumKey : PyStr) (attrs : MetadataAttrs K V) : List (K × Option V) :=
  coalesce (do
    let found ← attrs.metrics.access
    let metrics ← checkInstanceOfList found
    return buildDict [] MetricMetadata.key
      (fun metric => fieldOrNone metadatumKey metric.fields) metrics) []

/-- The information in the value dimensions of a metric, with its key. -/
def infoOfMetric (metadatumKey : PyStr) (metric : MetricMetadata K V) :
    Except GlomError (K × List (PyStr × Option V)) := do
  let dimensions ← iterate (coalesce metric.valueDimensions.access (some []))
  return (metric.key, infoByColumn metadatumKey [(valueColumn, none)] dimensions)

/-- The part `actual_per_metric_per_value_dimensions`. -/
def actualPerMetric (metadatumKey : PyStr) (attrs : MetadataAttrs K V) :
    List (K × List (PyStr × Option V)) :=
  coalesce (do
    let found ← attrs.metrics.access
    let metrics ← checkInstanceOfList found
    let infos ← metrics.mapM (infoOfMetric metadatumKey)
    return insertAll Prod.fst [] infos) []

/-- The information for a value dimension of a metric, after what it has itself. -/
def withFallback (byValueDimension : List (PyStr × Option V)) (byMetric : List (K × Option V))
    (metric : K) (valueDim : PyStr) (info : Option V) : Option V :=
  if info.isSome then info
  else if valueDim = valueColumn ∧ (byMetric.lookup metric).join.isSome then
    (byMetric.lookup metric).join
  else (byValueDimension.lookup valueDim).join

/-- `get_value_dimension_info` for the name of a field -/
def getValueDimensionInfo (attrs : MetadataAttrs K V) (metadatumKey : PyStr) :
    List (K × List (PyStr × Option V)) :=
  let byValueDimension := defaultsByValueDimension metadatumKey attrs
  let byMetric := defaultsByMetric metadatumKey attrs
  (actualPerMetric metadatumKey attrs).map fun entry =>
    (entry.1, (insertAll Prod.fst byValueDimension entry.2).map fun info =>
      (info.1, withFallback byValueDimension byMetric entry.1 info.1 info.2))

/-- What is found in a dictionary of dictionaries with defaults. -/
def infoAt (infos : List (K × List (PyStr × Option V))) (metric : K) (valueDim : PyStr) :
    Option V :=
  (((infos.lookup metric).getD []).lookup valueDim).join

/-! ## The documented priority -/

/-- The value of a field if there is one. -/
def OptionalField.toList : OptionalField (List A) → List A
  | .missing => []
  | .null => []
  | .given items => items

/-- What the last of some value dimensions with a column has under a field. -/
def dimensionInfo (metadatumKey valueDim : PyStr) (dimensions : List (ValueDimension V)) :
    Option V :=
  (lastEntry ValueDimension.column dimensions valueDim).bind fun dimension =>
    fieldOrNone metadatumKey dimension.fields

/-- The information for a value dimension of a metric by the documented priority. -/
def documentedInfo (attrs : MetadataAttrs K V) (metadatumKey : PyStr) (metric : K)
    (valueDim : PyStr) : Option V :=
  (lastEntry MetricMetadata.key attrs.metrics.toList metric).bind fun entry =>
    (dimensionInfo metadatumKey valueDim entry.valueDimensions.toList).or
      ((if valueDim = valueColumn then fieldOrNone metadatumKey entry.fields else none).or
        (dimensionInfo metadatumKey valueDim attrs.valueDimensionsShared.toList))

/-- The information for all value dimensions of all listed metrics follows the priority. -/
def FollowsPriority (attrs : MetadataAttrs K V) (metadatumKey : PyStr)
    (infos : List (K × List (PyStr × Option V))) : Prop :=
  ∀ metric ∈ attrs.metrics.toList, ∀ valueDim,
    infoAt infos metric.key valueDim = documentedInfo attrs metadatumKey metric.key valueDim

/-- No metric has an explicit null for its value dimensions. -/
def NoNullDimensions (attrs : MetadataAttrs K V) : Prop :=
  ∀ metric ∈ attrs.metrics.toList, metric.valueDimensions ≠ .null

/-- There is no information under a field for any listed metric. -/
def NoInformation (attrs : MetadataAttrs K V) (metadatumKey : PyStr) : Prop :=
  ∀ metric ∈ attrs.metrics.toList, ∀ valueDim,
    documentedInfo attrs metadatumKey metric.key valueDim = none

/-! ## The parts -/

section Parts

variable {metadatumKey : PyStr} {attrs : MetadataAttrs K V}

/-- What is found in a dictionary which is built from a list. -/
theorem lookup_buildDict {B : Type} [DecidableEq B] [BEq B] [LawfulBEq B]
    (startDict : List (B × W)) (key : A → B) (value : A → W) (items : List A) (k : B) :
    (buildDict startDict key value items).lookup k =
      ((lastEntry key items k).map value).or (startDict.lookup k) := by
  rw [buildDict, list_lookup_insertAll (insertAll_nil_nodup _), list_lookup_insertAll_nil,
    lastEntry_map Prod.fst (fun _ => rfl), Option.map_map]
  rfl

/-- The information of a metric has distinct columns. -/
theorem infoByColumn_nodup (dimensions : List (ValueDimension V)) :
    ((infoByColumn metadatumKey [(valueColumn, none)] dimensions).map Prod.fst).Nodup :=
  insertAll_nodup (by simp) _

omit [DecidableEq K] in
/-- The shared information on a column. -/
theorem lookup_defaultsByValueDimension (metadatumKey : PyStr) (attrs : MetadataAttrs K V)
    (valueDim : PyStr) :
    ((defaultsByValueDimension metadatumKey attrs).lookup valueDim).join =
      dimensionInfo metadatumKey valueDim attrs.valueDimensionsShared.toList := by
  unfold defaultsByValueDimension dimensionInfo
  cases attrs.valueDimensionsShared with
  | missing => rfl
  | null => rfl
  | given shared =>
    change ((infoByColumn metadatumKey [] shared).lookup valueDim).join = _
    rw [infoByColumn, lookup_buildDict, List.lookup_nil, Option.or_none]
    change _ = (lastEntry ValueDimension.column shared valueDim).bind _
    cases lastEntry ValueDimension.column shared valueDim <;> rfl

/-- The information on a metric itself. -/
theorem lookup_defaultsByMetric (metadatumKey : PyStr) (attrs : MetadataAttrs K V) (metric : K) :
    (defaultsByMetric metadatumKey attrs).lookup metric =
      (lastEntry MetricMetadata.key attrs.metrics.toList metric).map fun entry =>
        fieldOrNone metadatumKey entry.fields := by
  unfold defaultsByMetric
  cases attrs.metrics with
  | missing => rfl
  | null => rfl
  | given metrics =>
    change (buildDict [] _ _ metrics).lookup metric = _
    rw [lookup_buildDict, List.lookup_nil, Option.or_none]
    rfl

omit [DecidableEq K] in
/-- The information in the value dimensions of a metric which are not null. -/
theorem infoOfMetric_eq {metric : MetricMetadata K V} (h : metric.valueDimensions ≠ .null) :
    infoOfMetric metadatumKey metric = .ok (metric.key,
      infoByColumn metadatumKey [(valueColumn, none)] metric.valueDimensions.toList) := by
  unfold infoOfMetric
  cases hdimensions : metric.valueDimensions with
  | missing => rfl
  | null => exact absurd hdimensions h
  | given dimensions => rfl

omit [DecidableEq K] in
/-- Null for the value dimensions of a metric is an error. -/
theorem infoOfMetric_null {metric : MetricMetadata K V} (h : metric.valueDimensions = .null) :
    infoOfMetric metadatumKey metric = .error .unregisteredTarget := by
  unfold infoOfMetric
  rw [h]
  rfl

/-- The information which metrics have in their value dimensions. -/
theorem lookup_actualPerMetric (h : NoNullDimensions attrs) (metric : K) :
    (actualPerMetric metadatumKey attrs).lookup metric =
      (lastEntry MetricMetadata.key attrs.metrics.toList metric).map fun entry =>
        infoByColumn metadatumKey [(valueColumn, none)] entry.valueDimensions.toList := by
  unfold actualPerMetric NoNullDimensions at *
  cases hmetrics : attrs.metrics with
  | missing => rfl
  | null => rfl
  | given metrics =>
    rw [hmetrics] at h
    have hinfos : metrics.mapM (infoOfMetric metadatumKey) = .ok (metrics.map fun entry =>
        (entry.key,
          infoByColumn metadatumKey [(valueColumn, none)] entry.valueDimensions.toList)) := by
      apply mapM_eq_ok.mpr
      rw [List.forall₂_map_right_iff]
      exact List.forall₂_same.mpr fun entry hentry => infoOfMetric_eq (h entry hentry)
    simp only [OptionalField.access, checkInstanceOfList, bind, Except.bind, hinfos]
    change (insertAll Prod.fst [] _).lookup metric = _
    rw [list_lookup_insertAll_nil, lastEntry_map Prod.fst (fun _ => rfl), Option.map_map]
    rfl

/-- Null for the value dimensions of one metric leaves nothing for any of them. -/
theorem actualPerMetric_of_null (h : ¬ NoNullDimensions attrs) :
    actualPerMetric metadatumKey attrs = [] := by
  unfold actualPerMetric NoNullDimensions at *
  cases hmetrics : attrs.metrics with
  | missing => rfl
  | null => rfl
  | given metrics =>
    rw [hmetrics] at h
    push Not at h
    obtain ⟨metric, hmetric, hnull⟩ := h
    simp only [OptionalField.access, checkInstanceOfList, bind, Except.bind]
    cases hinfos : metrics.mapM (infoOfMetric metadatumKey) with
    | error error => rfl
    | ok infos =>
      obtain ⟨info, -, hinfo⟩ := exists_of_mapM hinfos hmetric
      cases (infoOfMetric_null hnull).symm.trans hinfo

end Parts

/-! ## The priority -/

section Priority

variable {metadatumKey : PyStr} {attrs : MetadataAttrs K V}

/-- Fallback is a choice by priority. -/
theorem withFallback_eq (byValueDimension : List (PyStr × Option V)) (byMetric : List (K × Option V))
    (metric : K) (valueDim : PyStr) (info : Option V) :
    withFallback byValueDimension byMetric metric valueDim info =
      info.or ((if valueDim = valueColumn then (byMetric.lookup metric).join else none).or
        (byValueDimension.lookup valueDim).join) := by
  unfold withFallback
  cases info with
  | some value => rfl
  | none =>
    rw [if_neg (by simp), Option.none_or]
    by_cases hdim : valueDim = valueColumn
    · rw [if_pos hdim]
      cases (byMetric.lookup metric).join <;> simp [hdim]
    · rw [if_neg hdim, if_neg fun h => hdim h.1, Option.none_or]

/-- The information for a metric without null. -/
theorem infoAt_getValueDimensionInfo (h : NoNullDimensions attrs) (metric : K) (valueDim : PyStr) :
    infoAt (getValueDimensionInfo attrs metadatumKey) metric valueDim =
      documentedInfo attrs metadatumKey metric valueDim := by
  unfold infoAt getValueDimensionInfo documentedInfo
  dsimp only
  rw [list_lookup_map _ fun metric infos => (insertAll Prod.fst
      (defaultsByValueDimension metadatumKey attrs) infos).map fun info =>
        (info.1, withFallback (defaultsByValueDimension metadatumKey attrs)
          (defaultsByMetric metadatumKey attrs) metric info.1 info.2), lookup_actualPerMetric h]
  have hbyMetric := lookup_defaultsByMetric metadatumKey attrs metric
  cases hentry : lastEntry MetricMetadata.key attrs.metrics.toList metric with
  | none => rfl
  | some entry =>
    rw [hentry] at hbyMetric
    have hshared := lookup_defaultsByValueDimension metadatumKey attrs valueDim
    have hown := lookup_buildDict [(valueColumn, (none : Option V))] ValueDimension.column
      (fun dimension => fieldOrNone metadatumKey dimension.fields) entry.valueDimensions.toList
      valueDim
    dsimp only [Option.map_some, Option.getD_some, Option.bind_some]
    rw [list_lookup_map _ (withFallback (defaultsByValueDimension metadatumKey attrs)
        (defaultsByMetric metadatumKey attrs) metric),
      list_lookup_insertAll (infoByColumn_nodup _), infoByColumn, hown, dimensionInfo]
    have hfallback (info : Option V) : withFallback (defaultsByValueDimension metadatumKey attrs)
        (defaultsByMetric metadatumKey attrs) metric valueDim info =
          info.or ((if valueDim = valueColumn then fieldOrNone metadatumKey entry.fields else none).or
            (dimensionInfo metadatumKey valueDim attrs.valueDimensionsShared.toList)) := by
      rw [withFallback_eq, hbyMetric, hshared]
      rfl
    cases lastEntry ValueDimension.column entry.valueDimensions.toList valueDim with
    | some dimension => exact hfallback _
    | none =>
      by_cases hdim : valueDim = valueColumn
      · rw [hdim] at hfallback ⊢
        exact hfallback none
      · have hstart : [(valueColumn, (none : Option V))].lookup valueDim = none :=
          lookup_eq_none_iff_notMem.mpr (by simpa using hdim)
        rw [if_neg hdim, Option.none_or] at hfallback ⊢
        rw [← hshared] at hfallback ⊢
        rw [hstart]
        cases hfound : (defaultsByValueDimension metadatumKey attrs).lookup valueDim with
        | none => rfl
        | some info =>
          rw [hfound] at hfallback
          change withFallback _ _ _ _ _ = info
          rw [hfallback info]
          cases info <;> rfl

/-- The documented priority is followed exactly if no metric has null for its value dimensions, or
if there is nothing to be found. -/
theorem getValueDimensionInfo_followsPriority_iff (attrs : MetadataAttrs K V)
    (metadatumKey : PyStr) :
    FollowsPriority attrs metadatumKey (getValueDimensionInfo attrs metadatumKey) ↔
      NoNullDimensions attrs ∨ NoInformation attrs metadatumKey := by
  by_cases h : NoNullDimensions attrs
  · exact iff_of_true (fun metric _ valueDim => infoAt_getValueDimensionInfo h metric.key valueDim)
      (.inl h)
  · have hnone (metric : K) (valueDim : PyStr) :
        infoAt (getValueDimensionInfo attrs metadatumKey) metric valueDim = none := by
      unfold infoAt getValueDimensionInfo
      rw [actualPerMetric_of_null h]
      rfl
    rw [or_iff_right h]
    unfold FollowsPriority NoInformation
    simp only [hnone, eq_comm]

end Priority

/-! ## Null for the value dimensions of another metric -/

/-- A metric with a unit, and one which has null for its value dimensions. -/
def attrsWithNull : MetadataAttrs ℕ ℕ where
  metrics := .given [⟨0, [("unit".toList, some 7)], .missing⟩, ⟨1, [], .null⟩]
  valueDimensionsShared := .missing

/-- The unit of the first metric is not found. -/
theorem attrsWithNull_loses_unit : ¬ FollowsPriority attrsWithNull "unit".toList
    (getValueDimensionInfo attrsWithNull "unit".toList) := by
  intro h
  have hunit := h ⟨0, [("unit".toList, some 7)], .missing⟩ List.mem_cons_self valueColumn
  exact absurd hunit (by decide +kernel)

/-- Without null it is found. -/
example : infoAt (getValueDimensionInfo (K := ℕ)
    ⟨.given [⟨0, [("unit".toList, some 7)], .missing⟩, ⟨1, [], .missing⟩], .missing⟩ "unit".toList)
      0 valueColumn = some 7 := by
  decide +kernel

end HetidaDesigner
