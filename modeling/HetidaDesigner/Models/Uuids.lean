import HetidaDesigner.Models.Io
import Mathlib.Data.List.DropRight
import Mathlib.Tactic.IntervalCases

/-!
# Texts of UUIDs

What `UUID` accepts and what `str` gives back. Many texts stand for one id: hyphens are dropped
wherever they are, so are braces around the text and what a URN begins with, and the 32 characters
that are left may be any number to the base 16 for `int`, with letters of either case, underscores
or a sign. Digits and whitespace outside of ASCII are read off Unicode tables.
-/

namespace HetidaDesigner

/-- The Unicode tables which `int` uses for characters outside of ASCII. -/
structure NumeralTables where
  digit : Char → Option ℕ
  isSpace : Char → Bool

section Texts

variable (tables : NumeralTables)

/-! ## Numbers to the base 16 -/

/-- The value of a digit. -/
def hexDigit (c : Char) : Option ℕ :=
  if c ∈ "0123456789".toList then some (c.toNat - '0'.toNat)
  else if c ∈ "abcdef".toList then some (c.toNat - 'a'.toNat + 10)
  else if c ∈ "ABCDEF".toList then some (c.toNat - 'A'.toNat + 10)
  else if 128 ≤ c.toNat then tables.digit c
  else none

/-- Further digits, each of them with an underscore in front or without. -/
def hexDigits (value : ℕ) : PyStr → Option ℕ
  | [] => some value
  | '_' :: c :: rest => (hexDigit tables c).bind fun d => hexDigits (16 * value + d) rest
  | c :: rest => (hexDigit tables c).bind fun d => hexDigits (16 * value + d) rest

/-- A number without prefix. -/
def hexNumeral : PyStr → Option ℕ
  | [] => none
  | c :: rest => (hexDigit tables c).bind fun d => hexDigits tables d rest

/-- A number without sign; an underscore may follow the prefix. -/
def hexUnsigned : PyStr → Option ℕ
  | '0' :: 'x' :: '_' :: rest => hexNumeral tables rest
  | '0' :: 'X' :: '_' :: rest => hexNumeral tables rest
  | '0' :: 'x' :: rest => hexNumeral tables rest
  | '0' :: 'X' :: rest => hexNumeral tables rest
  | text => hexNumeral tables text

/-- Whitespace around numbers. -/
def isSpace (c : Char) : Bool :=
  c ∈ [' ', '\t', '\n', '\x0b', '\x0c', '\r'] || (128 ≤ c.toNat && tables.isSpace c)

/-- The method `strip`, for characters with some property. -/
def strip (p : Char → Bool) (text : PyStr) : PyStr := (text.dropWhile p).rdropWhile p

/-- `int` to the base 16. -/
def intOfHex (text : PyStr) : Option ℤ :=
  match strip (isSpace tables) text with
  | '-' :: rest => (hexUnsigned tables rest).map fun value => -(value : ℤ)
  | '+' :: rest => (hexUnsigned tables rest).map fun value => (value : ℤ)
  | text => (hexUnsigned tables text).map fun value => (value : ℤ)

/-! ## UUIDs -/

/-- Replacing a pattern by nothing, after some characters which belong to an occurrence. -/
def removeAllFrom (pattern : PyStr) : ℕ → PyStr → PyStr
  | _, [] => []
  | skipped + 1, _ :: rest => removeAllFrom pattern skipped rest
  | 0, c :: rest =>
    if pattern.isPrefixOf (c :: rest) then removeAllFrom pattern (pattern.length - 1) rest
    else c :: removeAllFrom pattern 0 rest

/-- The method `replace` with the empty text. -/
def removeAll (pattern text : PyStr) : PyStr := removeAllFrom pattern 0 text

/-- `UUID` for texts. -/
def uuidOfText (text : PyStr) : Option UUID :=
  let hex := removeAll "uuid:".toList (removeAll "urn:".toList text)
  let hex := removeAll ['-'] (strip (fun c => c ∈ ['{', '}']) hex)
  if hex.length ≠ 32 then none
  else
    match intOfHex tables hex with
    | none => none
    | some value => if 0 ≤ value ∧ value < 2 ^ 128 then some value.toNat else none

end Texts

/-- The 32 digits of an id. -/
def hexOfUuid (id : UUID) : PyStr := (Nat.toDigits 16 id).leftpad 32 '0'

/-- `str` for UUIDs. -/
def uuidStr (id : UUID) : PyStr :=
  let hex := hexOfUuid id
  hex.take 8 ++ '-' :: (hex.drop 8).take 4 ++ '-' :: (hex.drop 12).take 4 ++
    '-' :: (hex.drop 16).take 4 ++ '-' :: hex.drop 20

/-! ## What `str` gives is read again -/

section RoundTrip

variable {tables : NumeralTables}

/-- The digits which `str` writes. -/
def lowerHex : PyStr := "0123456789abcdef".toList

/-- A written digit. -/
theorem digitChar_mem {d : ℕ} (h : d < 16) : d.digitChar ∈ lowerHex := by
  interval_cases d <;> decide

/-- A written digit is read again. -/
theorem hexDigit_digitChar {d : ℕ} (h : d < 16) : hexDigit tables d.digitChar = some d := by
  interval_cases d <;> rfl

/-- Reading one digit more. -/
theorem hexDigits_cons {c : Char} (hc : c ∈ lowerHex) (value : ℕ) (rest : PyStr) :
    hexDigits tables value (c :: rest) =
      (hexDigit tables c).bind fun d => hexDigits tables (16 * value + d) rest := by
  have hne : c ≠ '_' := fun h => absurd (h ▸ hc) (by decide)
  cases rest <;> simp [hexDigits, hne]

/-- Reading digits in two parts. -/
theorem hexDigits_append {digits : PyStr} (hdigits : ∀ c ∈ digits, c ∈ lowerHex) (value : ℕ)
    (rest : PyStr) :
    hexDigits tables value (digits ++ rest) =
      (hexDigits tables value digits).bind fun value => hexDigits tables value rest := by
  induction digits generalizing value with
  | nil => rfl
  | cons c digits ih =>
    obtain ⟨hc, hdigits⟩ := List.forall_mem_cons.mp hdigits
    rw [List.cons_append, hexDigits_cons hc, hexDigits_cons hc, Option.bind_assoc]
    congr 1
    funext d
    exact ih hdigits _

/-- Numbers are written with these digits. -/
theorem mem_lowerHex_of_toDigits (n : ℕ) : ∀ c ∈ Nat.toDigits 16 n, c ∈ lowerHex := by
  induction n using Nat.strong_induction_on with
  | _ n ih =>
    intro c hc
    rcases Nat.lt_or_ge n 16 with hn | hn
    · rw [Nat.toDigits_of_lt_base hn] at hc
      exact List.mem_singleton.mp hc ▸ digitChar_mem hn
    · rw [Nat.toDigits_of_base_le (by decide) hn] at hc
      rcases List.mem_append.mp hc with hc | hc
      · exact ih (n / 16) (Nat.div_lt_self (by omega) (by decide)) c hc
      · exact List.mem_singleton.mp hc ▸ digitChar_mem (Nat.mod_lt n (by decide))

/-- A written number is read again. -/
theorem hexDigits_toDigits (n : ℕ) : hexDigits tables 0 (Nat.toDigits 16 n) = some n := by
  induction n using Nat.strong_induction_on with
  | _ n ih =>
    rcases Nat.lt_or_ge n 16 with hn | hn
    · rw [Nat.toDigits_of_lt_base hn, hexDigits_cons (digitChar_mem hn), hexDigit_digitChar hn]
      simp [hexDigits]
    · have hmod : n % 16 < 16 := Nat.mod_lt n (by decide)
      rw [Nat.toDigits_of_base_le (by decide) hn, hexDigits_append (mem_lowerHex_of_toDigits _),
        ih (n / 16) (Nat.div_lt_self (by omega) (by decide)), Option.bind_some,
        hexDigits_cons (digitChar_mem hmod), hexDigit_digitChar hmod]
      simp only [Option.bind_some, hexDigits, Option.some.injEq]
      omega

/-- Zeros in front do not matter. -/
theorem hexDigits_replicate_zero (count : ℕ) (digits : PyStr) :
    hexDigits tables 0 (List.replicate count '0' ++ digits) = hexDigits tables 0 digits := by
  induction count with
  | zero => rfl
  | succ count ih =>
    rw [List.replicate_succ, List.cons_append, hexDigits_cons (by decide)]
    exact ih

/-- The digits of an id. -/
theorem mem_lowerHex_of_hexOfUuid (id : UUID) : ∀ c ∈ hexOfUuid id, c ∈ lowerHex := by
  intro c hc
  rcases List.mem_append.mp hc with hc | hc
  · rw [List.eq_of_mem_replicate hc]
    decide
  · exact mem_lowerHex_of_toDigits id c hc

/-- The digits of an id are read again. -/
theorem hexDigits_hexOfUuid (id : UUID) : hexDigits tables 0 (hexOfUuid id) = some id := by
  rw [hexOfUuid, List.leftpad, hexDigits_replicate_zero, hexDigits_toDigits]

/-- Removing a single character. -/
theorem removeAll_singleton (c : Char) (text : PyStr) :
    removeAll [c] text = text.filter (· ≠ c) := by
  unfold removeAll
  induction text with
  | nil => rfl
  | cons d rest ih =>
    by_cases h : c = d
    · subst h
      simp [removeAllFrom, ih]
    · simp [removeAllFrom, h, Ne.symm h, ih]

/-- Nothing is removed where the pattern cannot begin. -/
theorem removeAll_of_not_mem {first : Char} (pattern : PyStr) {text : PyStr} (h : first ∉ text) :
    removeAll (first :: pattern) text = text := by
  unfold removeAll
  induction text with
  | nil => rfl
  | cons c rest ih =>
    obtain ⟨hc, hrest⟩ := not_or.mp (fun hmem => h (List.mem_cons.mpr hmem))
    have hprefix : ¬ (first :: pattern).isPrefixOf (c :: rest) = true := by simp [hc]
    rw [removeAllFrom, if_neg hprefix, ih hrest]

/-- Digits in groups are the digits. -/
theorem take_append_groups (hex : PyStr) :
    hex.take 8 ++ ((hex.drop 8).take 4 ++ ((hex.drop 12).take 4 ++
      ((hex.drop 16).take 4 ++ hex.drop 20))) = hex := by
  have hgroup (start : ℕ) (rest : PyStr) (hrest : rest = (hex.drop start).drop 4) :
      (hex.drop start).take 4 ++ rest = hex.drop start := by
    rw [hrest, List.take_append_drop]
  rw [hgroup 16 _ (by rw [List.drop_drop]), hgroup 12 _ (by rw [List.drop_drop]),
    hgroup 8 _ (by rw [List.drop_drop]), List.take_append_drop]

/-- Without its hyphens the text of an id consists of the digits. -/
theorem removeAll_uuidStr (id : UUID) : removeAll ['-'] (uuidStr id) = hexOfUuid id := by
  have hkeep (part : PyStr) (hpart : part ⊆ hexOfUuid id) : part.filter (· ≠ '-') = part := by
    refine List.filter_eq_self.mpr fun c hc => decide_eq_true fun h => ?_
    exact absurd (h ▸ mem_lowerHex_of_hexOfUuid id c (hpart hc)) (by decide)
  have hmiddle (start : ℕ) : ((hexOfUuid id).drop start).take 4 ⊆ hexOfUuid id :=
    List.Subset.trans (List.take_subset _ _) (List.drop_subset _ _)
  have hhyphen (part : PyStr) : ('-' :: part).filter (· ≠ '-') = part.filter (· ≠ '-') :=
    List.filter_cons_of_neg (by simp)
  rw [removeAll_singleton, uuidStr]
  simp only [List.append_assoc, List.cons_append, List.filter_append, hhyphen]
  rw [hkeep _ (List.take_subset _ _), hkeep _ (hmiddle 8), hkeep _ (hmiddle 12),
    hkeep _ (hmiddle 16), hkeep _ (List.drop_subset _ _)]
  exact take_append_groups _

/-- Different ids have different texts. -/
theorem uuidStr_injective : Function.Injective uuidStr := by
  intro id id' h
  have hhex : hexOfUuid id = hexOfUuid id' := by
    rw [← removeAll_uuidStr, ← removeAll_uuidStr, h]
  have hvalue := @hexDigits_hexOfUuid ⟨fun _ => none, fun _ => false⟩ id
  rw [hhex, hexDigits_hexOfUuid] at hvalue
  exact (Option.some.inj hvalue).symm

/-- The characters of the text of an id. -/
theorem mem_of_uuidStr (id : UUID) : ∀ c ∈ uuidStr id, c = '-' ∨ c ∈ lowerHex := by
  intro c hc
  by_cases hhyphen : c = '-'
  · exact Or.inl hhyphen
  · have hkept : c ∈ removeAll ['-'] (uuidStr id) := by
      rw [removeAll_singleton]
      exact List.mem_filter.mpr ⟨hc, decide_eq_true hhyphen⟩
    rw [removeAll_uuidStr] at hkept
    exact Or.inr (mem_lowerHex_of_hexOfUuid id c hkept)

/-- Nothing is stripped from texts without such characters. -/
theorem strip_eq_self {p : Char → Bool} {text : PyStr} (h : ∀ c ∈ text, p c = false) :
    strip p text = text := by
  have hdrop : text.dropWhile p = text := by
    refine List.dropWhile_eq_self_iff.mpr fun hpos => ?_
    rw [h _ (List.getElem_mem hpos)]
    decide
  have hrdrop : text.rdropWhile p = text := by
    refine List.rdropWhile_eq_self_iff.mpr fun hne => ?_
    rw [h _ (List.getLast_mem hne)]
    decide
  rw [strip, hdrop, hrdrop]

/-- Whitespace is no digit. -/
theorem isSpace_of_mem_lowerHex {c : Char} (h : c ∈ lowerHex) : isSpace tables c = false := by
  have hascii : (lowerHex.all fun c =>
      c.toNat < 128 ∧ c ∉ [' ', '\t', '\n', '\x0b', '\x0c', '\r']) = true := by decide
  obtain ⟨hlow, hne⟩ := of_decide_eq_true (List.all_eq_true.mp hascii c h)
  simp [isSpace, hne, Nat.not_le.mpr hlow]

/-- Digits without a prefix. -/
theorem hexUnsigned_eq {digits : PyStr} (h : ∀ c ∈ digits, c ∈ lowerHex) (hne : digits ≠ []) :
    hexUnsigned tables digits = hexDigits tables 0 digits := by
  have hletter (c : Char) (hc : c ∈ digits) : c ≠ 'x' ∧ c ≠ 'X' :=
    ⟨fun heq => absurd (heq ▸ h c hc) (by decide), fun heq => absurd (heq ▸ h c hc) (by decide)⟩
  unfold hexUnsigned
  split
  · exact absurd rfl (hletter 'x' (by simp)).1
  · exact absurd rfl (hletter 'X' (by simp)).2
  · exact absurd rfl (hletter 'x' (by simp)).1
  · exact absurd rfl (hletter 'X' (by simp)).2
  · cases digits with
    | nil => exact absurd rfl hne
    | cons c rest =>
      rw [hexNumeral, hexDigits_cons (h c (List.mem_cons_self ..))]
      simp

/-- Digits are read as a number. -/
theorem intOfHex_hexOfUuid (id : UUID) : intOfHex tables (hexOfUuid id) = some (id : ℤ) := by
  have hchars := mem_lowerHex_of_hexOfUuid id
  have hne : hexOfUuid id ≠ [] := by simp [hexOfUuid, List.leftpad]
  have hunsigned := (@hexUnsigned_eq tables _ hchars hne).trans (hexDigits_hexOfUuid id)
  unfold intOfHex
  rw [strip_eq_self fun c hc => isSpace_of_mem_lowerHex (hchars c hc)]
  split
  · rename_i heq
    exact absurd (hchars '-' (heq ▸ List.mem_cons_self ..)) (by decide)
  · rename_i heq
    exact absurd (hchars '+' (heq ▸ List.mem_cons_self ..)) (by decide)
  · rw [hunsigned]
    rfl

/-- The text of an id is accepted and stands for that id. -/
theorem uuidOfText_uuidStr {id : UUID} (hid : id < 2 ^ 128) :
    uuidOfText tables (uuidStr id) = some id := by
  have hmem := mem_of_uuidStr id
  have hnot (c : Char) (hc : c ≠ '-' ∧ c ∉ lowerHex) : c ∉ uuidStr id := fun h =>
    (hmem c h).elim hc.1 hc.2
  have hlength : (hexOfUuid id).length = 32 := by
    have hdigits := (Nat.length_toDigits_le_iff (by decide) (by decide)).mpr
      (show id < 16 ^ 32 by omega)
    rw [hexOfUuid, List.length_leftpad]
    omega
  have hbraces : ∀ c ∈ uuidStr id, decide (c ∈ ['{', '}']) = false := fun c hc =>
    decide_eq_false fun h => by
      rcases List.mem_pair.mp h with rfl | rfl
      · exact hnot '{' (by decide) hc
      · exact hnot '}' (by decide) hc
  have hurn : removeAll "urn:".toList (uuidStr id) = uuidStr id :=
    removeAll_of_not_mem "rn:".toList (hnot 'u' (by decide))
  have huuid : removeAll "uuid:".toList (uuidStr id) = uuidStr id :=
    removeAll_of_not_mem "uid:".toList (hnot 'u' (by decide))
  simp only [uuidOfText, hurn, huuid, strip_eq_self hbraces, removeAll_uuidStr, hlength,
    intOfHex_hexOfUuid]
  rw [if_neg (by simp), if_pos ⟨by omega, by exact_mod_cast hid⟩, Int.toNat_natCast]

end RoundTrip

end HetidaDesigner
