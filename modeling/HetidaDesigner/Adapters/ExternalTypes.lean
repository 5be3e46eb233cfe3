import HetidaDesigner.Structure.Models

/-!
# Texts of external types

The enumeration `ExternalType` of `generic_rest/external_types.py`: each member has a canonical
text, and some can be written in another way, too.
-/

namespace HetidaDesigner

namespace ValueDataType

/-- All members, in the order of their definition. -/
def all : List ValueDataType := [.int, .float, .numeric, .string, .boolean, .any]

/-- The text of a member. -/
def text : ValueDataType → PyStr
  | .int => "int".toList
  | .float => "float".toList
  | .numeric => "numeric".toList
  | .string => "string".toList
  | .boolean => "boolean".toList
  | .any => "any".toList

end ValueDataType

namespace ExternalType

/-- All members, in the order of their definition. -/
def all : List ExternalType :=
  ValueDataType.all.map .metadata ++ ValueDataType.all.map .timeseries ++
    ValueDataType.all.map .series ++ [.multitsframe, .dataframe, .plotlyjson]

/-- The canonical text of a member. -/
def value : ExternalType → PyStr
  | .metadata values => "metadata(".toList ++ values.text ++ ")".toList
  | .timeseries values => "timeseries(".toList ++ values.text ++ ")".toList
  | .series values => "series(".toList ++ values.text ++ ")".toList
  | .multitsframe => "multitsframe".toList
  | .dataframe => "dataframe".toList
  | .plotlyjson => "plotlyjson".toList

/-- The other texts of members. -/
def otherTexts : List (PyStr × ExternalType) := [
  ("metadata(integer)".toList, .metadata .int), ("metadata(str)".toList, .metadata .string),
  ("metadata(bool)".toList, .metadata .boolean),
  ("timeseries(integer)".toList, .timeseries .int), ("timeseries(str)".toList, .timeseries .string),
  ("timeseries(bool)".toList, .timeseries .boolean),
  ("timeseries(object)".toList, .timeseries .any),
  ("series(integer)".toList, .series .int), ("series(str)".toList, .series .string),
  ("series(bool)".toList, .series .boolean), ("series(object)".toList, .series .any)]

/-- The member with a text. -/
def ofText (text : PyStr) : Option ExternalType :=
  ((all.map fun type => (type.value, type)) ++ otherTexts).lookup text

/-- All members are listed. -/
theorem mem_all (type : ExternalType) : type ∈ all := by
  cases type with
  | metadata values => cases values <;> decide
  | timeseries values => cases values <;> decide
  | series values => cases values <;> decide
  | multitsframe => decide
  | dataframe => decide
  | plotlyjson => decide

/-- A member is found by its canonical text. -/
theorem ofText_value (type : ExternalType) : ofText type.value = some type := by
  have hall : (all.all fun type => ofText type.value = some type) = true := by
    decide +kernel
  exact of_decide_eq_true (List.all_eq_true.mp hall type (mem_all type))

/-- Canonical texts have no underscore. -/
theorem underscore_notMem_value (type : ExternalType) : '_' ∉ type.value := by
  have hall : (all.all fun type => '_' ∉ type.value) = true := by
    decide +kernel
  exact of_decide_eq_true (List.all_eq_true.mp hall type (mem_all type))

end ExternalType

end HetidaDesigner
