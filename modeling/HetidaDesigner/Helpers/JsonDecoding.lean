import HetidaDesigner.Library.Checks
import HetidaDesigner.Library.KeyedList
import Mathlib.Data.List.Basic
import Mathlib.Data.Nat.Notation
import Mathlib.Data.Int.Notation

/-!
# Decoding JSON texts

`json.loads` of the standard library for texts. Texts are lists of code points here, since an
escape can decode to half of a surrogate pair. Conversion of literals to floating point numbers is a
parameter, and the recursion limit of the interpreter is left out.
-/

namespace HetidaDesigner

/-- A text by its code points. -/
abbrev CodePoints := List ℕ

/-- The code points of a text. -/
def codePoints (text : String) : CodePoints := text.toList.map Char.toNat

/-- Values as they are decoded from JSON texts; `R` is the type of floating point numbers. -/
inductive DataValue (R : Type)
  | none
  | bool (value : Bool)
  | int (value : ℤ)
  | float (value : R)
  | str (text : CodePoints)
  | list (items : List (DataValue R))
  | dict (entries : List (CodePoints × DataValue R))

/-! ## Equality of values -/

namespace DataValue

variable {R : Type} [DecidableEq R]

mutual

/-- Whether two values are the same. -/
def same : DataValue R → DataValue R → Bool
  | none, none => true
  | bool value, bool value' => value == value'
  | int value, int value' => value == value'
  | float value, float value' => decide (value = value')
  | str text, str text' => text == text'
  | list items, list items' => sameItems items items'
  | dict entries, dict entries' => sameEntries entries entries'
  | _, _ => false

/-- Whether two lists have the same items. -/
def sameItems : List (DataValue R) → List (DataValue R) → Bool
  | [], [] => true
  | item :: items, item' :: items' => same item item' && sameItems items items'
  | _, _ => false

/-- Whether two dictionaries have the same entries in the same order. -/
def sameEntries : List (CodePoints × DataValue R) → List (CodePoints × DataValue R) → Bool
  | [], [] => true
  | (key, value) :: entries, (key', value') :: entries' =>
    key == key' && same value value' && sameEntries entries entries'
  | _, _ => false

end

mutual

/-- Values are the same if they are equal. -/
theorem same_iff (value value' : DataValue R) : same value value' = true ↔ value = value' := by
  cases value <;> cases value' <;> simp [same, sameItems_iff, sameEntries_iff]

/-- Lists have the same items if they are equal. -/
theorem sameItems_iff (items items' : List (DataValue R)) :
    sameItems items items' = true ↔ items = items' := by
  cases items with
  | nil => cases items' <;> simp [sameItems]
  | cons item items =>
    cases items' with
    | nil => simp [sameItems]
    | cons item' items' => simp [sameItems, same_iff item item', sameItems_iff items items']

/-- Dictionaries have the same entries if they are equal. -/
theorem sameEntries_iff (entries entries' : List (CodePoints × DataValue R)) :
    sameEntries entries entries' = true ↔ entries = entries' := by
  cases entries with
  | nil => cases entries' <;> simp [sameEntries]
  | cons entry entries =>
    obtain ⟨key, value⟩ := entry
    cases entries' with
    | nil => simp [sameEntries]
    | cons entry' entries' =>
      obtain ⟨key', value'⟩ := entry'
      simp [sameEntries, same_iff value value', sameEntries_iff entries entries', and_assoc]

end

instance : DecidableEq (DataValue R) := fun value value' =>
  decidable_of_iff _ (same_iff value value')

end DataValue

/-- The errors of decoding: `JSONDecodeError`, and another `ValueError` for integers with too many
digits. -/
inductive LoadsError
  | jsonDecode
  | tooManyDigits
  deriving DecidableEq, Repr

/-! ## Scanning texts -/

/-- Blanks in JSON texts. -/
def isJsonSpace (c : ℕ) : Bool := c == 32 || c == 9 || c == 10 || c == 13

/-- What follows some blanks. -/
def skipSpace (text : CodePoints) : CodePoints := text.dropWhile isJsonSpace

/-- The value of a hexadecimal digit. -/
def jsonHexDigit (c : ℕ) : Option ℕ :=
  if 48 ≤ c ∧ c ≤ 57 then some (c - 48)
  else if 97 ≤ c ∧ c ≤ 102 then some (c - 87)
  else if 65 ≤ c ∧ c ≤ 70 then some (c - 55)
  else none

/-- The value of four hexadecimal digits. -/
def jsonHexValue (a b c d : ℕ) : Option ℕ := do
  let a ← jsonHexDigit a
  let b ← jsonHexDigit b
  let c ← jsonHexDigit c
  let d ← jsonHexDigit d
  return ((a * 16 + b) * 16 + c) * 16 + d

/-- What a backslash and a character other than `u` stand for. -/
def simpleEscape (c : ℕ) : Option ℕ :=
  [(34, 34), (92, 92), (47, 47), (98, 8), (102, 12), (110, 10), (114, 13), (116, 9)].lookup c

/-- The second half of a surrogate pair which an escape stands for. -/
def lowSurrogate (backslash u a b c d : ℕ) : Option ℕ :=
  if backslash = 92 ∧ u = 117 then
    (jsonHexValue a b c d).filter fun code => 0xDC00 ≤ code && code ≤ 0xDFFF
  else none

/-- The code point of a surrogate pair. -/
def joinSurrogates (high low : ℕ) : ℕ := 0x10000 + (high - 0xD800) * 0x400 + (low - 0xDC00)

/-- Put a code point before a scanned text. -/
def withFirst (code : ℕ) (scanned : CodePoints × CodePoints) : CodePoints × CodePoints :=
  (code :: scanned.1, scanned.2)

/-- `scanstring`: the text up to the closing quotation mark, and what follows it. -/
def scanString : CodePoints → Option (CodePoints × CodePoints)
  | [] => none
  | c :: rest =>
    if c = 34 then some ([], rest)
    else if c = 92 then
      match rest with
      | [] => none
      | escape :: rest =>
        if escape = 117 then
          match rest with
          | a :: b :: c :: d :: rest =>
            match jsonHexValue a b c d with
            | none => none
            | some code =>
              if 0xD800 ≤ code ∧ code ≤ 0xDBFF then
                match rest with
                | backslash :: u :: a :: b :: c :: d :: rest' =>
                  match lowSurrogate backslash u a b c d with
                  | some low =>
                    (scanString rest').map (withFirst (joinSurrogates code low))
                  | none =>
                    (scanString (backslash :: u :: a :: b :: c :: d :: rest')).map (withFirst code)
                | rest => (scanString rest).map (withFirst code)
              else (scanString rest).map (withFirst code)
          | _ => none
        else
          match simpleEscape escape with
          | none => none
          | some code => (scanString rest).map (withFirst code)
    else if c < 32 then none
    else (scanString rest).map (withFirst c)

/-- A text which has been scanned and what follows it are shorter than the whole. -/
theorem length_of_scanString {text scanned rest : CodePoints}
    (h : scanString text = some (scanned, rest)) :
    scanned.length + rest.length < text.length := by
  have hfirst {code : ℕ} {rest' scanned rest text : CodePoints}
      (ih : ∀ scanned rest, scanString rest' = some (scanned, rest) →
        scanned.length + rest.length < rest'.length)
      (h : (scanString rest').map (withFirst code) = some (scanned, rest))
      (hlength : rest'.length < text.length) : scanned.length + rest.length < text.length := by
    obtain ⟨⟨scanned', rest''⟩, hscanned, heq⟩ := Option.map_eq_some_iff.mp h
    obtain ⟨rfl, rfl⟩ := Prod.mk.inj heq
    have hle := ih scanned' rest'' hscanned
    simp only [List.length_cons]
    omega
  fun_induction scanString text generalizing scanned rest with
  | case1 => cases h
  | case2 =>
    obtain ⟨rfl, rfl⟩ := Prod.mk.inj (Option.some.inj h)
    simp
  | case3 => cases h
  | case4 => cases h
  | case5 _ _ _ _ _ _ _ _ _ _ _ _ _ _ _ _ _ ih =>
    exact hfirst (fun _ _ => ih) h (by simp only [List.length_cons]; omega)
  | case6 _ _ _ _ _ _ _ _ _ _ _ _ _ _ _ _ ih =>
    exact hfirst (fun _ _ => ih) h (by simp only [List.length_cons]; omega)
  | case7 _ _ _ _ _ _ _ _ _ _ ih =>
    exact hfirst (fun _ _ => ih) h (by simp only [List.length_cons]; omega)
  | case8 _ _ _ _ _ _ _ _ _ ih =>
    exact hfirst (fun _ _ => ih) h (by simp only [List.length_cons]; omega)
  | case9 => cases h
  | case10 => cases h
  | case11 _ _ _ _ _ _ ih =>
    exact hfirst (fun _ _ => ih) h (by simp only [List.length_cons]; omega)
  | case12 => cases h
  | case13 _ _ _ _ _ ih =>
    exact hfirst (fun _ _ => ih) h (by simp only [List.length_cons]; omega)

/-! ## Numbers -/

/-- Decimal digits. -/
def isJsonDigit (c : ℕ) : Bool := decide (48 ≤ c) && decide (c ≤ 57)

/-- The digits at the beginning of a text, and what follows them. -/
def spanDigits (text : CodePoints) : CodePoints × CodePoints :=
  (text.takeWhile isJsonDigit, text.dropWhile isJsonDigit)

/-- The value of some digits. -/
def digitsValue (digits : CodePoints) : ℕ := digits.foldl (fun value c => value * 10 + (c - 48)) 0

/-- The whole part of a number, which has no superfluous zero, and what follows it. -/
def scanWhole : CodePoints → Option (CodePoints × CodePoints)
  | [] => none
  | c :: rest =>
    if c = 48 then some ([c], rest)
    else if isJsonDigit c then some (c :: (spanDigits rest).1, (spanDigits rest).2)
    else none

/-- The fraction of a number, if there is one, and what follows it. -/
def scanFraction (text : CodePoints) : CodePoints × CodePoints :=
  match text with
  | c :: d :: rest =>
    if c = 46 ∧ isJsonDigit d then (c :: (spanDigits (d :: rest)).1, (spanDigits (d :: rest)).2)
    else ([], text)
  | _ => ([], text)

/-- The sign in an exponent, if there is one, and what follows it. -/
def scanSign (text : CodePoints) : CodePoints × CodePoints :=
  match text with
  | c :: rest => if c = 43 ∨ c = 45 then ([c], rest) else ([], text)
  | [] => ([], [])

/-- The exponent of a number, if there is one, and what follows it. -/
def scanExponent (text : CodePoints) : CodePoints × CodePoints :=
  match text with
  | c :: rest =>
    let (sign, unsigned) := scanSign rest
    let (digits, rest') := spanDigits unsigned
    if (c = 101 ∨ c = 69) ∧ digits ≠ [] then (c :: sign ++ digits, rest') else ([], text)
  | [] => ([], [])

/-- The limit for digits of integers, `sys.int_info.default_max_str_digits`. -/
def maxStrDigits : ℕ := 4300

/-- A number without its sign, and what follows it. -/
def scanUnsigned {R : Type} (toFloat : CodePoints → R) (negative : Bool) (text : CodePoints) :
    Option (Except LoadsError (DataValue R) × CodePoints) :=
  (scanWhole text).map fun (whole, rest) =>
    let (fraction, rest) := scanFraction rest
    let (exponent, rest) := scanExponent rest
    let sign := if negative then [45] else []
    if fraction ≠ [] ∨ exponent ≠ [] then
      (.ok (.float (toFloat (sign ++ whole ++ fraction ++ exponent))), rest)
    else if maxStrDigits < whole.length then (.error .tooManyDigits, rest)
    else
      (.ok (.int (if negative then -(digitsValue whole : ℤ) else digitsValue whole)), rest)

/-- `_match_number` -/
def scanNumber {R : Type} (toFloat : CodePoints → R) (text : CodePoints) :
    Option (Except LoadsError (DataValue R) × CodePoints) :=
  match text with
  | c :: rest => if c = 45 then scanUnsigned toFloat true rest else scanUnsigned toFloat false text
  | [] => none

/-! ## Values -/

/-- What has been scanned, and what follows it. -/
structure Scanned (A : Type) (text : CodePoints) where
  value : A
  rest : CodePoints
  shorter : rest.length < text.length

/-- What follows a literal. -/
def afterLiteral (literal text : CodePoints) : Option CodePoints :=
  if literal.isPrefixOf text then some (text.drop literal.length) else none

section Shorter

/-- Skipping blanks makes no text longer. -/
theorem length_skipSpace_le (text : CodePoints) : (skipSpace text).length ≤ text.length :=
  (List.dropWhile_suffix _).length_le

/-- What follows digits is not longer. -/
theorem length_spanDigits_le (text : CodePoints) : (spanDigits text).2.length ≤ text.length :=
  (List.dropWhile_suffix _).length_le

/-- What follows a whole part is shorter. -/
theorem length_of_scanWhole {text whole rest : CodePoints}
    (h : scanWhole text = some (whole, rest)) : rest.length < text.length := by
  cases text with
  | nil => cases h
  | cons c text =>
    have hle := length_spanDigits_le text
    rw [scanWhole] at h
    split at h
    · obtain ⟨-, rfl⟩ := Prod.mk.inj (Option.some.inj h)
      exact Nat.lt_succ_self _
    · split at h
      · obtain ⟨-, rfl⟩ := Prod.mk.inj (Option.some.inj h)
        exact Nat.lt_succ_of_le hle
      · cases h

/-- What follows a fraction is not longer. -/
theorem length_scanFraction_le (text : CodePoints) : (scanFraction text).2.length ≤ text.length := by
  unfold scanFraction
  split
  · rename_i c d rest
    split
    · have hle := length_spanDigits_le (d :: rest)
      simp only [List.length_cons] at hle ⊢
      omega
    · exact Nat.le_refl _
  · exact Nat.le_refl _

/-- What follows a sign is not longer. -/
theorem length_scanSign_le (text : CodePoints) : (scanSign text).2.length ≤ text.length := by
  unfold scanSign
  split
  · split
    · exact Nat.le_succ _
    · exact Nat.le_refl _
  · exact Nat.le_refl _

/-- What follows an exponent is not longer. -/
theorem length_scanExponent_le (text : CodePoints) : (scanExponent text).2.length ≤ text.length := by
  unfold scanExponent
  split
  · rename_i c rest
    have hsign := length_scanSign_le rest
    have hdigits := length_spanDigits_le (scanSign rest).2
    dsimp only
    split
    · rw [List.length_cons]
      dsimp only
      omega
    · exact Nat.le_refl _
  · exact Nat.le_refl _

variable {R : Type} {toFloat : CodePoints → R}

/-- What follows a number without its sign is shorter. -/
theorem length_of_scanUnsigned {negative : Bool} {text rest : CodePoints}
    {value : Except LoadsError (DataValue R)}
    (h : scanUnsigned toFloat negative text = some (value, rest)) : rest.length < text.length := by
  obtain ⟨⟨whole, rest'⟩, hwhole, h⟩ := Option.map_eq_some_iff.mp h
  have hrest := length_of_scanWhole hwhole
  have hfraction := length_scanFraction_le rest'
  have hexponent := length_scanExponent_le (scanFraction rest').2
  have hresult : rest = (scanExponent (scanFraction rest').2).2 := by
    dsimp only at h
    split at h
    · exact (congrArg Prod.snd h).symm
    · split at h
      · exact (congrArg Prod.snd h).symm
      · exact (congrArg Prod.snd h).symm
  rw [hresult]
  omega

/-- What follows a number is shorter. -/
theorem length_of_scanNumber {text rest : CodePoints} {value : Except LoadsError (DataValue R)}
    (h : scanNumber toFloat text = some (value, rest)) : rest.length < text.length := by
  cases text with
  | nil => cases h
  | cons c text =>
    rw [scanNumber] at h
    split at h
    · exact Nat.lt_trans (length_of_scanUnsigned h) (Nat.lt_succ_self _)
    · exact length_of_scanUnsigned h

/-- What follows a literal is shorter. -/
theorem length_of_afterLiteral {literal text rest : CodePoints}
    (h : afterLiteral literal text = some rest) (hliteral : literal ≠ []) :
    rest.length < text.length := by
  unfold afterLiteral at h
  split at h
  · rename_i hprefix
    obtain rfl := Option.some.inj h
    have hle := (List.isPrefixOf_iff_prefix.mp hprefix).length_le
    have hpos := List.length_pos_iff.mpr hliteral
    rw [List.length_drop]
    omega
  · cases h

end Shorter

section Values

variable {R : Type} (toFloat : CodePoints → R)

/-- The constants, with their texts. -/
def jsonConstants : List (CodePoints × DataValue R) := [
  (codePoints "null", .none), (codePoints "true", .bool true), (codePoints "false", .bool false),
  (codePoints "NaN", .float (toFloat (codePoints "NaN"))),
  (codePoints "Infinity", .float (toFloat (codePoints "Infinity"))),
  (codePoints "-Infinity", .float (toFloat (codePoints "-Infinity")))]

/-- A constant at the beginning of a text. -/
def scanConstant (text : CodePoints) : Option (DataValue R × CodePoints) :=
  (jsonConstants toFloat).findSome? fun constant =>
    (afterLiteral constant.1 text).map fun rest => (constant.2, rest)

/-- What follows a constant is shorter. -/
theorem length_of_scanConstant {text rest : CodePoints} {value : DataValue R}
    (h : scanConstant toFloat text = some (value, rest)) : rest.length < text.length := by
  obtain ⟨constant, hconstant, h⟩ := List.exists_of_findSome?_eq_some h
  obtain ⟨rest', hrest, heq⟩ := Option.map_eq_some_iff.mp h
  obtain ⟨-, rfl⟩ := Prod.mk.inj heq
  apply length_of_afterLiteral hrest
  have hall : ((jsonConstants toFloat).map Prod.fst).all (fun text => !text.isEmpty) = true := by
    rfl
  have hempty := List.all_eq_true.mp hall _ (List.mem_map_of_mem hconstant)
  exact fun hnil => by simp [hnil] at hempty

mutual

/-- `scan_once` -/
def scanOnce (text : CodePoints) : Except LoadsError (Scanned (DataValue R) text) :=
  match text with
  | [] => .error .jsonDecode
  | c :: rest =>
    if c = 34 then
      match hscan : scanString rest with
      | none => .error .jsonDecode
      | some scanned => .ok ⟨.str scanned.1, scanned.2, by
          have h := length_of_scanString hscan
          simp only [List.length_cons]
          omega⟩
    else if c = 123 then
      match hskip : skipSpace rest with
      | [] => .error .jsonDecode
      | d :: rest' =>
        have hle := length_skipSpace_le rest
        if d = 125 then .ok ⟨.dict [], rest', by
          rw [hskip] at hle
          simp only [List.length_cons] at hle ⊢
          omega⟩
        else do
          let pairs ← scanPairs (d :: rest')
          return ⟨.dict (KeyedList.insertAll Prod.fst [] pairs.value), pairs.rest, by
            have h := pairs.shorter
            rw [hskip] at hle
            simp only [List.length_cons] at hle h ⊢
            omega⟩
    else if c = 91 then
      match hskip : skipSpace rest with
      | [] => .error .jsonDecode
      | d :: rest' =>
        have hle := length_skipSpace_le rest
        if d = 93 then .ok ⟨.list [], rest', by
          rw [hskip] at hle
          simp only [List.length_cons] at hle ⊢
          omega⟩
        else do
          let items ← scanItems (d :: rest')
          return ⟨.list items.value, items.rest, by
            have h := items.shorter
            rw [hskip] at hle
            simp only [List.length_cons] at hle h ⊢
            omega⟩
    else
      match hconstant : scanConstant toFloat (c :: rest) with
      | some scanned => .ok ⟨scanned.1, scanned.2, length_of_scanConstant toFloat hconstant⟩
      | none =>
        match hnumber : scanNumber toFloat (c :: rest) with
        | some (.ok value, rest') => .ok ⟨value, rest', length_of_scanNumber hnumber⟩
        | some (.error error, _) => .error error
        | none => .error .jsonDecode
termination_by (text.length, 0)
decreasing_by
  · apply Prod.Lex.left
    rw [← hskip, List.length_cons]
    omega
  · apply Prod.Lex.left
    rw [← hskip, List.length_cons]
    omega

/-- The items of an array from the first one on, with the closing bracket. -/
def scanItems (text : CodePoints) : Except LoadsError (Scanned (List (DataValue R)) text) := do
  let item ← scanOnce text
  match hskip : skipSpace item.rest with
  | [] => .error .jsonDecode
  | c :: rest =>
    have hle := length_skipSpace_le item.rest
    have hshorter := item.shorter
    if c = 93 then return ⟨[item.value], rest, by
      rw [hskip] at hle
      simp only [List.length_cons] at hle
      omega⟩
    else if c = 44 then
      have hrest := length_skipSpace_le rest
      let items ← scanItems (skipSpace rest)
      return ⟨item.value :: items.value, items.rest, by
        have h := items.shorter
        rw [hskip] at hle
        simp only [List.length_cons] at hle
        omega⟩
    else .error .jsonDecode
termination_by (text.length, 1)
decreasing_by
  · exact Prod.Lex.right _ Nat.zero_lt_one
  · apply Prod.Lex.left
    rw [hskip, List.length_cons] at hle
    omega

/-- The pairs of an object from the first one on, with the closing brace. -/
def scanPairs (text : CodePoints) :
    Except LoadsError (Scanned (List (CodePoints × DataValue R)) text) :=
  match text with
  | [] => .error .jsonDecode
  | c :: rest =>
    if c = 34 then
      match hscan : scanString rest with
      | none => .error .jsonDecode
      | some (key, afterKey) =>
        match hcolon : skipSpace afterKey with
        | [] => .error .jsonDecode
        | d :: afterColon =>
          if d = 58 then do
            have hkey := length_of_scanString hscan
            have hle := length_skipSpace_le afterKey
            have hle' := length_skipSpace_le afterColon
            let value ← scanOnce (skipSpace afterColon)
            have hvalue := value.shorter
            match hskip : skipSpace value.rest with
            | [] => .error .jsonDecode
            | e :: rest' =>
              have hle'' := length_skipSpace_le value.rest
              if e = 125 then return ⟨[(key, value.value)], rest', by
                rw [hskip] at hle''
                rw [hcolon] at hle
                simp only [List.length_cons] at hle hle'' ⊢
                omega⟩
              else if e = 44 then
                have hrest := length_skipSpace_le rest'
                let pairs ← scanPairs (skipSpace rest')
                return ⟨(key, value.value) :: pairs.value, pairs.rest, by
                  have h := pairs.shorter
                  rw [hskip] at hle''
                  rw [hcolon] at hle
                  simp only [List.length_cons] at hle hle'' ⊢
                  omega⟩
              else .error .jsonDecode
          else .error .jsonDecode
    else .error .jsonDecode
termination_by (text.length, 0)
decreasing_by
  · apply Prod.Lex.left
    rw [hcolon, List.length_cons] at hle
    rw [List.length_cons]
    omega
  · apply Prod.Lex.left
    rw [hcolon, List.length_cons] at hle
    rw [hskip, List.length_cons] at hle''
    rw [List.length_cons]
    omega

end

/-- `json.loads` -/
def loads (text : CodePoints) : Except LoadsError (DataValue R) :=
  if text.head? = some 65279 then .error .jsonDecode
  else
    match scanOnce toFloat (skipSpace text) with
    | .error error => .error error
    | .ok scanned => if skipSpace scanned.rest = [] then .ok scanned.value else .error .jsonDecode

/-! ## Decoded texts -/

/-- Constants are no texts. -/
theorem scanConstant_ne_str {text rest s : CodePoints} :
    scanConstant toFloat text ≠ some (.str s, rest) := by
  intro h
  obtain ⟨constant, hconstant, h⟩ := List.exists_of_findSome?_eq_some h
  obtain ⟨rest', -, heq⟩ := Option.map_eq_some_iff.mp h
  have hstr := (Prod.mk.inj heq).1
  simp only [jsonConstants, List.mem_cons, List.not_mem_nil, or_false] at hconstant
  rcases hconstant with rfl | rfl | rfl | rfl | rfl | rfl <;> cases hstr

/-- Numbers are no texts. -/
theorem scanNumber_ne_str {text rest s : CodePoints} :
    scanNumber toFloat text ≠ some (.ok (.str s), rest) := by
  have hunsigned (negative : Bool) (text : CodePoints) :
      scanUnsigned toFloat negative text ≠ some (.ok (.str s), rest) := by
    intro h
    obtain ⟨⟨whole, rest'⟩, -, h⟩ := Option.map_eq_some_iff.mp h
    dsimp only at h
    split at h
    · cases h
    · split at h
      · cases h
      · cases h
  cases text with
  | nil => exact nofun
  | cons c text =>
    rw [scanNumber]
    split
    · exact hunsigned true text
    · exact hunsigned false _

/-- A value which is a text is scanned as such. -/
theorem scanString_of_scanOnce {text s : CodePoints} {scanned : Scanned (DataValue R) text}
    (h : scanOnce toFloat text = .ok scanned) (hstr : scanned.value = .str s) :
    ∃ rest, text = 34 :: rest ∧ scanString rest = some (s, scanned.rest) := by
  cases text with
  | nil =>
    rw [scanOnce] at h
    cases h
  | cons c rest =>
    rw [scanOnce] at h
    split at h
    · rename_i hc
      split at h
      · cases h
      · rename_i found hfound
        obtain rfl := Except.ok.inj h
        obtain rfl := DataValue.str.inj hstr
        exact ⟨rest, by rw [hc], hfound⟩
    · have hother : scanned.value ≠ .str s := by
        clear hstr
        split at h
        · split at h
          · cases h
          · split at h
            · obtain rfl := Except.ok.inj h
              exact nofun
            · obtain ⟨pairs, -, h⟩ := Checks.bind_eq_ok.mp h
              obtain rfl := Checks.return_eq_ok.mp h
              exact nofun
        · split at h
          · split at h
            · cases h
            · split at h
              · obtain rfl := Except.ok.inj h
                exact nofun
              · obtain ⟨items, -, h⟩ := Checks.bind_eq_ok.mp h
                obtain rfl := Checks.return_eq_ok.mp h
                exact nofun
          · split at h
            · rename_i found hconstant
              obtain rfl := Except.ok.inj h
              intro (heq : found.1 = .str s)
              exact scanConstant_ne_str toFloat (hconstant.trans (by rw [← heq]))
            · split at h
              · rename_i value rest' hnumber
                obtain rfl := Except.ok.inj h
                intro (heq : value = .str s)
                exact scanNumber_ne_str toFloat (heq ▸ hnumber)
              · cases h
              · cases h
      exact absurd hstr hother

/-- A decoded text is shorter than what it is decoded from. -/
theorem length_of_loads {text s : CodePoints} (h : loads toFloat text = .ok (.str s)) :
    s.length < text.length := by
  unfold loads at h
  split at h
  · cases h
  · split at h
    · cases h
    · rename_i scanned hscanned
      split at h
      · obtain ⟨rest, htext, hrest⟩ := scanString_of_scanOnce toFloat hscanned (Except.ok.inj h)
        have hscan := length_of_scanString hrest
        have hskip := length_skipSpace_le text
        rw [htext, List.length_cons] at hskip
        omega
      · cases h

/-- A quoted text is decoded. -/
theorem loads_quoted {body s rest : CodePoints} (hscan : scanString body = some (s, rest))
    (hrest : skipSpace rest = []) : loads toFloat (34 :: body) = .ok (.str s) := by
  have hvalue : ∃ scanned, scanOnce toFloat (34 :: body) = .ok scanned ∧ scanned.value = .str s ∧
      scanned.rest = rest := by
    rw [scanOnce]
    split
    · split
      · rename_i hnone
        cases hnone.symm.trans hscan
      · rename_i found hfound
        obtain rfl := Option.some.inj (hfound.symm.trans hscan)
        exact ⟨_, rfl, rfl, rfl⟩
    · rename_i hne
      exact absurd rfl hne
  obtain ⟨scanned, hscanned, hstr, rfl⟩ := hvalue
  replace hscanned : scanOnce toFloat (skipSpace (34 :: body)) = .ok scanned := hscanned
  rw [loads, if_neg (by simp), hscanned]
  dsimp only
  rw [if_pos hrest, hstr]

/-- The constant `null` is decoded. -/
theorem loads_null : loads toFloat (codePoints "null") = .ok .none := by
  have hvalue : ∃ scanned, scanOnce toFloat (codePoints "null") = .ok scanned ∧
      scanned.value = .none ∧ scanned.rest = [] := by
    change ∃ scanned, scanOnce toFloat (110 :: [117, 108, 108]) = .ok scanned ∧ _
    rw [scanOnce, if_neg (by decide), if_neg (by decide), if_neg (by decide)]
    split
    · rename_i found hfound
      obtain rfl := Option.some.inj
        (hfound.symm.trans (show _ = some (DataValue.none, ([] : CodePoints)) from rfl))
      exact ⟨_, rfl, rfl, rfl⟩
    · rename_i hnone
      cases hnone
  obtain ⟨scanned, hscanned, hvalue, hrest⟩ := hvalue
  replace hscanned : scanOnce toFloat (skipSpace (codePoints "null")) = .ok scanned := hscanned
  rw [loads, if_neg (by decide), hscanned]
  dsimp only
  rw [hrest, hvalue]
  rfl

end Values

end HetidaDesigner
