import HetidaDesigner.Helpers.JsonDecoding
import HetidaDesigner.Library.Related

/-!
# Parsing according to data types

`parse_single_value_dynamically`, parsing of dictionaries and `parsing_not_identical` of `hdutils.py`
for the data types without pandas objects. The conversions of pydantic are a parameter. A text for
the type `ANY` is decoded at most twice, so parsing changes a text which has been encoded three
times once more. Entries of a dictionary whose keys are no names of fields get lost.
-/

namespace HetidaDesigner

open Checks KeyedList

/-- The data types whose values are no pandas objects. -/
inductive PlainDataType
  | integer
  | float
  | string
  | boolean
  | any
  | plotlyJson
  deriving DecidableEq, Repr

/-- The errors of parsing a dictionary: those of values, and those of keys with which no model can be
created or read. -/
inductive PydanticError
  | validation
  | fieldName
  deriving DecidableEq, Repr

/-- Conversions of pydantic in lax mode with numbers coerced to texts, the conversion and comparison
of floating point numbers, and the names for which models cannot be created or read. -/
structure LaxConversions (R : Type) where
  refusesName : CodePoints → Bool
  toFloat : CodePoints → R
  floatEq : R → R → Bool
  int : DataValue R → Option ℤ
  float : DataValue R → Option R
  str : DataValue R → Option CodePoints
  bool : DataValue R → Option Bool
  int_int : ∀ n, int (.int n) = some n
  int_bool : ∀ b, int (.bool b) = some (if b then 1 else 0)
  float_float : ∀ x, float (.float x) = some x
  str_str : ∀ s, str (.str s) = some s
  str_ne_null : ∀ value s, str value = some s → (∀ t, value ≠ .str t) → s ≠ codePoints "null"
  bool_bool : ∀ b, bool (.bool b) = some b

section Parsing

variable {R : Type}

/-- `isinstance(value, int)`, which holds of booleans, too -/
def DataValue.isInt : DataValue R → Bool
  | .int _ => true
  | .bool _ => true
  | _ => false

/-- `isinstance(value, float)` -/
def DataValue.isFloat : DataValue R → Bool
  | .float _ => true
  | _ => false

/-- `isinstance(value, str)` -/
def DataValue.isStr : DataValue R → Bool
  | .str _ => true
  | _ => false

/-- `isinstance(value, bool)` -/
def DataValue.isBool : DataValue R → Bool
  | .bool _ => true
  | _ => false

/-- Comparison of a value of a basic type with what it is parsed to. -/
def LaxConversions.equals (conversions : LaxConversions R) : DataValue R → DataValue R → Bool
  | .int n, .int m => n == m
  | .bool b, .int n => (if b then 1 else 0) == n
  | .float x, .float y => conversions.floatEq x y
  | .str s, .str t => s == t
  | .bool b, .bool c => b == c
  | _, _ => false

/-- `wrap_basic_type_parsing` -/
def wrapBasicTypeParsing (conversions : LaxConversions R) (handler : DataValue R → Option (DataValue R))
    (isInstance : DataValue R → Bool) (value : DataValue R) : Option (DataValue R) :=
  (handler value).map fun parsed =>
    if isInstance value && conversions.equals value parsed then value else parsed

/-- `parse_any`; an integer with too many digits is an error of validation. -/
def parseAny (toFloat : CodePoints → R) (value : DataValue R) : Option (DataValue R) :=
  match value with
  | .str s =>
    match loads toFloat s with
    | .error .jsonDecode => some value
    | .error .tooManyDigits => none
    | .ok (.str t) =>
      match loads toFloat t with
      | .error .jsonDecode => some (.str t)
      | .error .tooManyDigits => none
      | .ok parsed => some parsed
    | .ok parsed => some parsed
  | _ => some value

/-- `parse_plotly_json_dict` -/
def parsePlotlyJsonDict (value : DataValue R) : Option (DataValue R) :=
  match value with
  | .dict _ => some value
  | _ => none

variable (conversions : LaxConversions R)

/-- Validation with the type `ParsedInt`. -/
def parsedInt (value : DataValue R) : Option (DataValue R) :=
  wrapBasicTypeParsing conversions (fun value => (conversions.int value).map .int) DataValue.isInt value

/-- Validation with the type `ParsedFloat`. -/
def parsedFloat (value : DataValue R) : Option (DataValue R) :=
  wrapBasicTypeParsing conversions (fun value => (conversions.float value).map .float)
    DataValue.isFloat value

/-- Validation with the type `ParsedStr`. -/
def parsedStr (value : DataValue R) : Option (DataValue R) :=
  wrapBasicTypeParsing conversions (fun value => (conversions.str value).map .str) DataValue.isStr value

/-- Validation with the type `ParsedBool`. -/
def parsedBool (value : DataValue R) : Option (DataValue R) :=
  wrapBasicTypeParsing conversions (fun value => (conversions.bool value).map .bool)
    DataValue.isBool value

/-- Parsing with the entry of `data_type_map`. -/
def parseByType : PlainDataType → DataValue R → Option (DataValue R)
  | .integer => parsedInt conversions
  | .float => parsedFloat conversions
  | .string => parsedStr conversions
  | .boolean => parsedBool conversions
  | .any => parseAny conversions.toFloat
  | .plotlyJson => parsePlotlyJsonDict

variable [DecidableEq R]

/-- The text `null` instead of nothing. -/
def nullStrToNone (value : DataValue R) : DataValue R :=
  if value = .str (codePoints "null") then .none else value

/-- `parse_single_value_dynamically`, under the name of a field -/
def parseSingleValueDynamically (value : DataValue R) (dataType : PlainDataType) (nullable : Bool) :
    Option (DataValue R) :=
  if nullable then
    if nullStrToNone value = .none then some .none
    else parseByType conversions dataType (nullStrToNone value)
  else parseByType conversions dataType value

/-- Whether a key is the name of a field: one with a leading underscore is a private attribute of the
model, and `model_config` its configuration. -/
def isFieldKey (key : CodePoints) : Bool :=
  key.head? != some 95 && key != codePoints "model_config"

/-- The entries which become fields of the model. -/
def fieldEntries (data : List (CodePoints × DataValue R)) : List (CodePoints × DataValue R) :=
  data.filter fun entry => isFieldKey entry.1

/-- `parse_dict_using_data_type_dict` -/
def parseDictUsingDataTypeDict (data : List (CodePoints × DataValue R))
    (dataTypes : CodePoints → PlainDataType) (nullable : Bool) :
    Except PydanticError (List (CodePoints × DataValue R)) :=
  if data.any fun entry => conversions.refusesName entry.1 then .error .fieldName
  else
    (fieldEntries data).mapM fun entry =>
      match parseSingleValueDynamically conversions entry.2 (dataTypes entry.1) nullable with
      | none => .error .validation
      | some parsed => .ok (entry.1, parsed)

/-- `parsing_not_identical`: the keys whose values are changed by parsing -/
def parsingNotIdentical (data : List (CodePoints × DataValue R))
    (dataTypes : CodePoints → PlainDataType) (nullable : Bool) : Except PydanticError (List CodePoints) :=
  (parseDictUsingDataTypeDict conversions data dataTypes nullable).map fun parsed =>
    (((fieldEntries data).zip parsed).filter fun pair => pair.2.2 ≠ pair.1.2).map fun pair =>
      pair.1.1

end Parsing

/-! ## Values which stay as they are -/

section Idempotence

variable {R : Type} (conversions : LaxConversions R)

/-- Decoding a value for the type `ANY` twice leaves nothing which can be decoded. -/
def DecodedByTwo (dataType : PlainDataType) (value : DataValue R) : Prop :=
  dataType = .any → ∀ s t u, value = .str s → loads conversions.toFloat s = .ok (.str t) →
    loads conversions.toFloat t = .ok (.str u) → loads conversions.toFloat u = .error .jsonDecode

variable {conversions}

/-- Parsing a value of a basic type gives the value or what it is converted to. -/
theorem wrapBasicTypeParsing_eq_some {handler : DataValue R → Option (DataValue R)}
    {isInstance : DataValue R → Bool} {value parsed : DataValue R}
    (h : wrapBasicTypeParsing conversions handler isInstance value = some parsed) :
    (isInstance value = true ∧ parsed = value) ∨ handler value = some parsed := by
  obtain ⟨found, hfound, h⟩ := Option.map_eq_some_iff.mp h
  split at h
  · rename_i hsame
    rw [Bool.and_eq_true] at hsame
    exact .inl ⟨hsame.1, h.symm⟩
  · exact .inr (h ▸ hfound)

/-- A value which the handler accepts as equal stays as it is. -/
theorem wrapBasicTypeParsing_of_equals {handler : DataValue R → Option (DataValue R)}
    {isInstance : DataValue R → Bool} {value : DataValue R} (converted : DataValue R)
    (hhandler : handler value = some converted) (hinstance : isInstance value = true)
    (hequals : conversions.equals value converted = true) :
    wrapBasicTypeParsing conversions handler isInstance value = some value := by
  rw [wrapBasicTypeParsing, hhandler, Option.map_some, hinstance, hequals]
  rfl

/-- A value which the handler leaves alone stays as it is. -/
theorem wrapBasicTypeParsing_of_eq {handler : DataValue R → Option (DataValue R)}
    {isInstance : DataValue R → Bool} {value : DataValue R} (hhandler : handler value = some value) :
    wrapBasicTypeParsing conversions handler isInstance value = some value := by
  rw [wrapBasicTypeParsing, hhandler, Option.map_some]
  split <;> rfl

/-- Where exactly the converted values are of a basic type, they stay as they are. -/
theorem wrapBasicTypeParsing_idem {B : Type} {convert : DataValue R → Option B}
    {constructor : B → DataValue R} {isInstance : DataValue R → Bool}
    (hconvert : ∀ b, convert (constructor b) = some b)
    (hinstance : ∀ value, isInstance value = true → ∃ b, value = constructor b)
    {value parsed : DataValue R} (h : wrapBasicTypeParsing conversions
      (fun value => (convert value).map constructor) isInstance value = some parsed) :
    (∃ b, parsed = constructor b) ∧ wrapBasicTypeParsing conversions
      (fun value => (convert value).map constructor) isInstance parsed = some parsed := by
  have hparsed : ∃ b, parsed = constructor b := by
    obtain ⟨hbasic, rfl⟩ | hhandler := wrapBasicTypeParsing_eq_some h
    · exact hinstance parsed hbasic
    · obtain ⟨b, -, hb⟩ := Option.map_eq_some_iff.mp hhandler
      exact ⟨b, hb.symm⟩
  obtain ⟨b, rfl⟩ := hparsed
  exact ⟨⟨b, rfl⟩, wrapBasicTypeParsing_of_eq (by rw [hconvert, Option.map_some])⟩

/-- What is parsed as an integer stays as it is, and is no text. -/
theorem parsedInt_idem {value parsed : DataValue R} (h : parsedInt conversions value = some parsed) :
    (∀ s, parsed ≠ .str s) ∧ parsedInt conversions parsed = some parsed := by
  have hint (n : ℤ) : parsedInt conversions (.int n) = some (.int n) := by
    apply wrapBasicTypeParsing_of_eq
    rw [conversions.int_int, Option.map_some]
  -- a boolean is an instance of the integers, and equal to what it is converted to
  have hbool (b : Bool) : parsedInt conversions (.bool b) = some (.bool b) := by
    apply wrapBasicTypeParsing_of_equals (.int (if b then 1 else 0))
    · rw [conversions.int_bool, Option.map_some]
    · rfl
    · cases b <;> rfl
  obtain ⟨hbasic, rfl⟩ | hhandler := wrapBasicTypeParsing_eq_some h
  · cases parsed with
    | int n => exact ⟨nofun, hint n⟩
    | bool b => exact ⟨nofun, hbool b⟩
    | _ => cases hbasic
  · obtain ⟨n, -, rfl⟩ := Option.map_eq_some_iff.mp hhandler
    exact ⟨nofun, hint n⟩

/-- What is parsed as a floating point number stays as it is, and is no text. -/
theorem parsedFloat_idem {value parsed : DataValue R}
    (h : parsedFloat conversions value = some parsed) :
    (∀ s, parsed ≠ .str s) ∧ parsedFloat conversions parsed = some parsed := by
  obtain ⟨⟨x, rfl⟩, hparsed⟩ := wrapBasicTypeParsing_idem conversions.float_float
    (fun value hvalue => by cases value <;> first | exact ⟨_, rfl⟩ | cases hvalue) h
  exact ⟨nofun, hparsed⟩

/-- What is parsed as a boolean stays as it is, and is no text. -/
theorem parsedBool_idem {value parsed : DataValue R}
    (h : parsedBool conversions value = some parsed) :
    (∀ s, parsed ≠ .str s) ∧ parsedBool conversions parsed = some parsed := by
  obtain ⟨⟨b, rfl⟩, hparsed⟩ := wrapBasicTypeParsing_idem conversions.bool_bool
    (fun value hvalue => by cases value <;> first | exact ⟨_, rfl⟩ | cases hvalue) h
  exact ⟨nofun, hparsed⟩

/-- What is parsed as a text stays as it is, and is the text `null` only if it was before. -/
theorem parsedStr_idem {value parsed : DataValue R} (h : parsedStr conversions value = some parsed) :
    (parsed = .str (codePoints "null") → value = parsed) ∧
      parsedStr conversions parsed = some parsed := by
  obtain ⟨-, hparsed⟩ := wrapBasicTypeParsing_idem conversions.str_str
    (fun value hvalue => by cases value <;> first | exact ⟨_, rfl⟩ | cases hvalue) h
  refine ⟨?_, hparsed⟩
  rintro rfl
  obtain ⟨-, hsame⟩ | hhandler := wrapBasicTypeParsing_eq_some h
  · exact hsame.symm
  · obtain ⟨s, hs, heq⟩ := Option.map_eq_some_iff.mp hhandler
    by_contra hne
    refine conversions.str_ne_null value s hs (fun t ht => hne ?_) (DataValue.str.inj heq)
    rw [ht, conversions.str_str] at hs
    rw [ht, Option.some.inj hs, heq]

/-! ## The type `ANY` -/

/-- Values which are no texts stay as they are. -/
theorem parseAny_of_ne_str {toFloat : CodePoints → R} {value : DataValue R}
    (h : ∀ s, value ≠ .str s) : parseAny toFloat value = some value := by
  cases value with
  | str s => exact absurd rfl (h s)
  | _ => rfl

/-- A text stays as it is exactly if it cannot be decoded. -/
theorem parseAny_str_eq_self_iff {toFloat : CodePoints → R} {s : CodePoints} :
    parseAny toFloat (.str s) = some (.str s) ↔ loads toFloat s = .error .jsonDecode := by
  unfold parseAny
  dsimp only
  split
  · rename_i herror
    exact iff_of_true rfl herror
  · rename_i herror
    exact iff_of_false nofun (by simp [herror])
  · rename_i t ht
    have hshorter := length_of_loads toFloat ht
    refine iff_of_false (fun h => ?_) (by simp [ht])
    split at h
    · obtain rfl := DataValue.str.inj (Option.some.inj h)
      exact Nat.lt_irrefl _ hshorter
    · cases h
    · rename_i parsed hparsed
      obtain rfl := Option.some.inj h
      exact Nat.lt_irrefl _ (Nat.lt_trans (length_of_loads toFloat hparsed) hshorter)
  · rename_i parsed hne hparsed
    refine iff_of_false (fun h => ?_) (by simp [hparsed])
    exact hne s (Option.some.inj h)

/-- When decoding a text twice leaves nothing which can be decoded. -/
theorem decodedByTwo_str_iff {s : CodePoints} : DecodedByTwo conversions .any (.str s) ↔
    ∀ t u, loads conversions.toFloat s = .ok (.str t) →
      loads conversions.toFloat t = .ok (.str u) →
        loads conversions.toFloat u = .error .jsonDecode := by
  constructor
  · exact fun h t u => h rfl s t u rfl
  · intro h _ s' t u heq
    obtain rfl := DataValue.str.inj heq
    exact h t u

/-- What is parsed for the type `ANY` stays as it is exactly if decoding twice leaves nothing which
can be decoded. -/
theorem parseAny_idem_iff {value parsed : DataValue R}
    (h : parseAny conversions.toFloat value = some parsed) :
    parseAny conversions.toFloat parsed = some parsed ↔ DecodedByTwo conversions .any value := by
  cases value with
  | str s =>
    rw [decodedByTwo_str_iff]
    unfold parseAny at h
    dsimp only at h
    split at h
    · rename_i herror
      obtain rfl := Option.some.inj h
      exact iff_of_true (parseAny_str_eq_self_iff.mpr herror) (by simp [herror])
    · cases h
    · rename_i t ht
      have hfirst (t' : CodePoints) : loads conversions.toFloat s = .ok (.str t') ↔ t = t' := by
        rw [ht, Except.ok.injEq, DataValue.str.injEq]
      simp only [hfirst]
      split at h
      · rename_i herror
        obtain rfl := Option.some.inj h
        refine iff_of_true (parseAny_str_eq_self_iff.mpr herror) ?_
        rintro _ u rfl hu
        cases herror.symm.trans hu
      · cases h
      · rename_i found hfound
        obtain rfl := Option.some.inj h
        cases found with
        | str u =>
          rw [parseAny_str_eq_self_iff]
          constructor
          · rintro herror _ u' rfl hu'
            obtain rfl := DataValue.str.inj (Except.ok.inj (hfound.symm.trans hu'))
            exact herror
          · exact fun hall => hall t u rfl hfound
        | _ =>
          refine iff_of_true (parseAny_of_ne_str nofun) ?_
          rintro _ u rfl hu
          cases hfound.symm.trans hu
    · rename_i found hne hfound
      obtain rfl := Option.some.inj h
      refine iff_of_true (parseAny_of_ne_str hne) fun t u ht => ?_
      exact absurd (Except.ok.inj (hfound.symm.trans ht)) (hne t)
  | _ =>
    obtain rfl := Option.some.inj h
    exact iff_of_true (parseAny_of_ne_str nofun) nofun

/-- If the text `null` is what remains after decoding, it can be decoded once more. -/
theorem not_decodedByTwo_of_null {value : DataValue R}
    (h : parseAny conversions.toFloat value = some (.str (codePoints "null"))) :
    ¬ DecodedByTwo conversions .any value := by
  rw [← parseAny_idem_iff h, parseAny_str_eq_self_iff, loads_null]
  exact nofun

/-! ## All types -/

/-- Only the type `ANY` decodes texts. -/
theorem decodedByTwo_of_ne {dataType : PlainDataType} {value : DataValue R} (h : dataType ≠ .any) :
    DecodedByTwo conversions dataType value :=
  fun heq => absurd heq h

/-- What is parsed stays as it is exactly if decoding twice leaves nothing which can be decoded. -/
theorem parseByType_idem_iff {dataType : PlainDataType} {value parsed : DataValue R}
    (h : parseByType conversions dataType value = some parsed) :
    parseByType conversions dataType parsed = some parsed ↔
      DecodedByTwo conversions dataType value := by
  cases dataType with
  | integer => exact iff_of_true (parsedInt_idem h).2 (decodedByTwo_of_ne nofun)
  | float => exact iff_of_true (parsedFloat_idem h).2 (decodedByTwo_of_ne nofun)
  | string => exact iff_of_true (parsedStr_idem h).2 (decodedByTwo_of_ne nofun)
  | boolean => exact iff_of_true (parsedBool_idem h).2 (decodedByTwo_of_ne nofun)
  | any => exact parseAny_idem_iff h
  | plotlyJson =>
    refine iff_of_true ?_ (decodedByTwo_of_ne nofun)
    cases value with
    | dict entries =>
      obtain rfl := Option.some.inj h
      rfl
    | _ => cases h

/-- The text `null` is parsed from itself, or it can be decoded once more. -/
theorem parseByType_eq_null {dataType : PlainDataType} {value : DataValue R}
    (h : parseByType conversions dataType value = some (.str (codePoints "null"))) :
    value = .str (codePoints "null") ∨ ¬ DecodedByTwo conversions dataType value := by
  cases dataType with
  | integer => exact absurd rfl ((parsedInt_idem h).1 _)
  | float => exact absurd rfl ((parsedFloat_idem h).1 _)
  | string => exact .inl ((parsedStr_idem h).1 rfl)
  | boolean => exact absurd rfl ((parsedBool_idem h).1 _)
  | any => exact .inr (not_decodedByTwo_of_null h)
  | plotlyJson =>
    cases value with
    | dict entries => cases h
    | _ => cases h

/-- Neither nothing nor the text `null` is decoded twice. -/
theorem decodedByTwo_of_null {dataType : PlainDataType} {value : DataValue R}
    (h : value = .none ∨ value = .str (codePoints "null")) :
    DecodedByTwo conversions dataType value := by
  rintro - s t u rfl ht
  obtain hnone | hnull := h
  · cases hnone
  · rw [DataValue.str.inj hnull, loads_null] at ht
    cases ht

variable [DecidableEq R]

/-- Only nothing and the text `null` are taken for nothing. -/
theorem nullStrToNone_eq_none_iff {value : DataValue R} :
    nullStrToNone value = .none ↔ value = .none ∨ value = .str (codePoints "null") := by
  unfold nullStrToNone
  split
  · rename_i hnull
    exact iff_of_true rfl (.inr hnull)
  · rename_i hnull
    exact (or_iff_left hnull).symm

/-- Other texts are left alone. -/
theorem nullStrToNone_of_ne {value : DataValue R} (h : value ≠ .str (codePoints "null")) :
    nullStrToNone value = value :=
  if_neg h

/-- A parsed value stays as it is exactly if decoding twice leaves nothing which can be decoded. -/
theorem parseSingle_idem_iff {dataType : PlainDataType} {nullable : Bool} {value parsed : DataValue R}
    (h : parseSingleValueDynamically conversions value dataType nullable = some parsed) :
    parseSingleValueDynamically conversions parsed dataType nullable = some parsed ↔
      DecodedByTwo conversions dataType value := by
  unfold parseSingleValueDynamically at *
  cases nullable with
  | false => exact parseByType_idem_iff h
  | true =>
    rw [if_pos rfl] at h ⊢
    by_cases hnone : nullStrToNone value = .none
    · rw [if_pos hnone] at h
      obtain rfl := Option.some.inj h
      exact iff_of_true rfl (decodedByTwo_of_null (nullStrToNone_eq_none_iff.mp hnone))
    · have hvalue : value ≠ .str (codePoints "null") :=
        fun hnull => hnone (nullStrToNone_eq_none_iff.mpr (.inr hnull))
      rw [if_neg hnone, nullStrToNone_of_ne hvalue] at h
      by_cases hnull : parsed = .str (codePoints "null")
      · rw [hnull] at h ⊢
        refine iff_of_false (fun hsame => ?_) ((parseByType_eq_null h).resolve_left hvalue)
        rw [if_pos (nullStrToNone_eq_none_iff.mpr (.inr rfl))] at hsame
        cases hsame
      · rw [nullStrToNone_of_ne hnull]
        split
        · rename_i hparsed
          rw [hparsed] at h ⊢
          refine iff_of_true rfl ?_
          by_cases hany : dataType = .any
          · subst hany
            exact (parseAny_idem_iff h).mp rfl
          · exact decodedByTwo_of_ne hany
        · exact parseByType_idem_iff h

end Idempotence

/-! ## Dictionaries -/

section Dictionaries

variable {R : Type} {conversions : LaxConversions R} [DecidableEq R]
  {dataTypes : CodePoints → PlainDataType} {nullable : Bool}

/-- Parsing a dictionary is parsing the values of its fields. -/
theorem parseDict_eq_ok {data parsed : List (CodePoints × DataValue R)} :
    parseDictUsingDataTypeDict conversions data dataTypes nullable = .ok parsed ↔
      (∀ entry ∈ data, conversions.refusesName entry.1 = false) ∧
        List.Forall₂ (fun entry found => found.1 = entry.1 ∧
          parseSingleValueDynamically conversions entry.2 (dataTypes entry.1) nullable =
            some found.2) (fieldEntries data) parsed := by
  unfold parseDictUsingDataTypeDict
  split
  · rename_i hrefused
    obtain ⟨entry, hentry, hname⟩ := List.any_eq_true.mp hrefused
    refine iff_of_false nofun fun hall => ?_
    rw [hall.1 entry hentry] at hname
    cases hname
  · rename_i hrefused
    rw [List.any_eq_true, not_exists] at hrefused
    have hnames (entry) (hentry : entry ∈ data) : conversions.refusesName entry.1 = false :=
      Bool.eq_false_iff.mpr fun hname => hrefused entry ⟨hentry, hname⟩
    rw [and_iff_right hnames, mapM_eq_ok]
    apply iff_of_eq
    congr 1
    funext entry found
    obtain ⟨key, value⟩ := found
    cases parseSingleValueDynamically conversions entry.2 (dataTypes entry.1) nullable with
    | none => simp
    | some parsed => simp [eq_comm]

/-- What has been parsed only has fields. -/
theorem fieldEntries_of_parseDict {data parsed : List (CodePoints × DataValue R)}
    (h : parseDictUsingDataTypeDict conversions data dataTypes nullable = .ok parsed) :
    fieldEntries parsed = parsed := by
  refine List.filter_eq_self.mpr fun found hfound => ?_
  obtain ⟨entry, hentry, hkey, -⟩ := Related.exists_left (parseDict_eq_ok.mp h).2 hfound
  rw [hkey]
  exact (List.mem_filter.mp hentry).2

/-- Parsing reports nothing exactly if it leaves the fields of the dictionary as they are. -/
theorem parsingNotIdentical_eq_nil_iff_parseDict {data parsed : List (CodePoints × DataValue R)}
    (h : parseDictUsingDataTypeDict conversions data dataTypes nullable = .ok parsed) :
    parsingNotIdentical conversions data dataTypes nullable = .ok [] ↔
      parsed = fieldEntries data := by
  rw [parsingNotIdentical, h]
  have hall := (parseDict_eq_ok.mp h).2
  change Except.ok _ = Except.ok _ ↔ _
  rw [Except.ok.injEq, List.map_eq_nil_iff, List.filter_eq_nil_iff]
  clear h
  generalize fieldEntries data = entries at hall ⊢
  induction hall with
  | nil => simp
  | @cons entry found rest rest' hfirst hrest ih =>
    rw [List.zip_cons_cons, List.forall_mem_cons, ih, List.cons.injEq]
    refine and_congr_left' ?_
    rw [decide_not, Bool.not_eq_true, Bool.not_eq_false', decide_eq_true_eq]
    exact ⟨fun hvalue => Prod.ext hfirst.1 hvalue, fun heq => heq ▸ rfl⟩

/-- Parsing a parsed dictionary leaves it as it is exactly if decoding the values of its fields twice
leaves nothing which can be decoded. -/
theorem parseDict_idem_iff {data parsed : List (CodePoints × DataValue R)}
    (h : parseDictUsingDataTypeDict conversions data dataTypes nullable = .ok parsed) :
    parseDictUsingDataTypeDict conversions parsed dataTypes nullable = .ok parsed ↔
      ∀ entry ∈ fieldEntries data, DecodedByTwo conversions (dataTypes entry.1) entry.2 := by
  obtain ⟨hnames, hall⟩ := parseDict_eq_ok.mp h
  have hparsedNames (found) (hfound : found ∈ parsed) : conversions.refusesName found.1 = false := by
    obtain ⟨entry, hentry, hkey, -⟩ := Related.exists_left hall hfound
    rw [hkey]
    exact hnames entry (List.mem_filter.mp hentry).1
  rw [parseDict_eq_ok, and_iff_right hparsedNames, fieldEntries_of_parseDict h, List.forall₂_same]
  clear h hparsedNames
  generalize fieldEntries data = entries at hall ⊢
  induction hall with
  | nil => simp
  | @cons entry found rest rest' hfirst hrest ih =>
    rw [List.forall_mem_cons, List.forall_mem_cons]
    refine and_congr ?_ ih
    rw [hfirst.1, and_iff_right rfl]
    exact parseSingle_idem_iff hfirst.2

/-- Parsing is idempotent exactly for values which are decoded by two passes: for single values, and
for the fields of dictionaries, where exactly then nothing is reported. -/
theorem parsing_idempotent_iff (conversions : LaxConversions R) (nullable : Bool) :
    (∀ dataType value parsed,
      parseSingleValueDynamically conversions value dataType nullable = some parsed →
        (parseSingleValueDynamically conversions parsed dataType nullable = some parsed ↔
          DecodedByTwo conversions dataType value)) ∧
      ∀ dataTypes data parsed,
        parseDictUsingDataTypeDict conversions data dataTypes nullable = .ok parsed →
          (parsingNotIdentical conversions parsed dataTypes nullable = .ok [] ↔
            ∀ entry ∈ fieldEntries data, DecodedByTwo conversions (dataTypes entry.1) entry.2) := by
  refine ⟨fun dataType value parsed h => parseSingle_idem_iff h, fun dataTypes data parsed h => ?_⟩
  rw [← parseDict_idem_iff h]
  cases hagain : parseDictUsingDataTypeDict conversions parsed dataTypes nullable with
  | error error =>
    refine iff_of_false (fun hnil => ?_) nofun
    rw [parsingNotIdentical, hagain] at hnil
    cases hnil
  | ok again =>
    rw [parsingNotIdentical_eq_nil_iff_parseDict hagain, fieldEntries_of_parseDict h, Except.ok.injEq]

end Dictionaries

/-! ## A text which has been encoded three times -/

/-- Conversions between values of the same type, and of booleans to integers. -/
def plainConversions : LaxConversions ℕ where
  refusesName key := key == codePoints "keys"
  toFloat _ := 0
  floatEq x y := x == y
  int
    | .int n => some n
    | .bool b => some (if b then 1 else 0)
    | _ => none
  float
    | .float x => some x
    | _ => none
  str
    | .str s => some s
    | _ => none
  bool
    | .bool b => some b
    | _ => none
  int_int _ := rfl
  int_bool _ := rfl
  float_float _ := rfl
  str_str _ := rfl
  str_ne_null value s h hne := by
    cases value with
    | str t => exact absurd rfl (hne t)
    | _ => cases h
  bool_bool _ := rfl

/-- The text `x` in quotation marks. -/
def quotedOnce : CodePoints := codePoints "\"x\""

/-- The same, encoded once more. -/
def quotedTwice : CodePoints := codePoints "\"\\\"x\\\"\""

/-- And once more. -/
def quotedThrice : CodePoints := codePoints "\"\\\"\\\\\\\"x\\\\\\\"\\\"\""

/-- A text is decoded if it is scanned behind the first quotation mark. -/
theorem loads_plain {text s : CodePoints} (hquote : text = 34 :: text.tail)
    (hscan : scanString text.tail = some (s, [])) :
    loads plainConversions.toFloat text = .ok (.str s) := by
  rw [hquote]
  exact loads_quoted _ hscan rfl

/-- A text in three pairs of quotation marks is parsed to one which is parsed to another one. -/
theorem quotedThrice_not_idempotent :
    parseSingleValueDynamically plainConversions (.str quotedThrice) .any false =
        some (.str quotedOnce) ∧
      parseSingleValueDynamically plainConversions (.str quotedOnce) .any false ≠
        some (.str quotedOnce) := by
  have hthrice : loads plainConversions.toFloat quotedThrice = .ok (.str quotedTwice) :=
    loads_plain (by decide +kernel) (by decide +kernel)
  have htwice : loads plainConversions.toFloat quotedTwice = .ok (.str quotedOnce) :=
    loads_plain (by decide +kernel) (by decide +kernel)
  have honce : loads plainConversions.toFloat quotedOnce = .ok (.str (codePoints "x")) :=
    loads_plain (by decide +kernel) (by decide +kernel)
  constructor
  · change parseAny plainConversions.toFloat (.str quotedThrice) = _
    simp only [parseAny, hthrice, htwice]
  · change ¬ parseAny plainConversions.toFloat (.str quotedOnce) = _
    rw [parseAny_str_eq_self_iff, honce]
    exact nofun

/-- A number and a text which cannot be decoded stay as they are. -/
theorem plain_parsing_idempotent :
    parseSingleValueDynamically plainConversions (.bool true) .integer false = some (.bool true) ∧
      parsingNotIdentical plainConversions [(codePoints "x", .int 1)] (fun _ => .any) true =
        .ok [] := by
  obtain ⟨hsingle, hdict⟩ := parsing_idempotent_iff plainConversions false
  obtain ⟨-, hdict⟩ := parsing_idempotent_iff plainConversions true
  refine ⟨(hsingle .integer (.bool true) (.bool true) rfl).mpr (decodedByTwo_of_ne nofun), ?_⟩
  refine (hdict (fun _ => .any) [(codePoints "x", .int 1)] _ rfl).mpr ?_
  exact List.forall_mem_singleton.mpr fun _ s t u hs => by cases hs

end HetidaDesigner
