import HetidaDesigner.Wirings.QueryStrings
import Mathlib.Data.List.SplitBy

/-!
# Url-encoded texts

`quote` and `urlencode`, and what `unquote` and `parse_qs` make of their results. Every text comes
back, and so do the entries of a dictionary of texts, apart from those whose value is empty.
-/

namespace HetidaDesigner

open KeyedList

/-! ## Encoding -/

/-- The bytes of a character. -/
def utf8Bytes (c : Char) : List ℕ :=
  let n := c.toNat
  if n < 0x80 then [n]
  else if n < 0x800 then [0xC0 + n / 0x40, 0x80 + n % 0x40]
  else if n < 0x10000 then [0xE0 + n / 0x1000, 0x80 + n / 0x40 % 0x40, 0x80 + n % 0x40]
  else [0xF0 + n / 0x40000, 0x80 + n / 0x1000 % 0x40, 0x80 + n / 0x40 % 0x40, 0x80 + n % 0x40]

/-- The digits to the base 16 in upper case. -/
def upperHexDigit (n : ℕ) : Char := if n < 10 then Char.ofNat (48 + n) else Char.ofNat (55 + n)

/-- The characters which are left as they are: letters, digits, four others and the given ones. -/
def isUrlSafe (safe : PyStr) (c : Char) : Bool :=
  c.isAlphanum || decide (c ∈ ['_', '.', '-', '~']) || (isAscii c && decide (c ∈ safe))

/-- A byte in an encoded text. -/
def quoteByte (safe : PyStr) (byte : ℕ) : PyStr :=
  if byte < 0x80 ∧ isUrlSafe safe (Char.ofNat byte) = true then [Char.ofNat byte]
  else ['%', upperHexDigit (byte / 16), upperHexDigit (byte % 16)]

/-- `quote` -/
def quote (safe text : PyStr) : PyStr := (text.flatMap utf8Bytes).flatMap (quoteByte safe)

/-- `quote_plus` -/
def quotePlus (text : PyStr) : PyStr :=
  (quote [' '] text).map fun c => if c = ' ' then '+' else c

/-- A part of a query. -/
def quotePair (pair : PyStr × PyStr) : PyStr := quotePlus pair.1 ++ '=' :: quotePlus pair.2

/-- `urlencode` -/
def urlencode (pairs : List (PyStr × PyStr)) : PyStr := ['&'].intercalate (pairs.map quotePair)

/-! ## Bytes -/

/-- Code points are no surrogates. -/
theorem toNat_valid (c : Char) : c.toNat < 0xD800 ∨ 0xDFFF < c.toNat ∧ c.toNat < 0x110000 := c.valid

/-- The code point of the character with a code point of seven bits. -/
theorem toNat_ofNat {n : ℕ} (h : n < 0x80) : (Char.ofNat n).toNat = n := by
  have hvalid : n.isValidChar := .inl (by omega)
  rw [Char.ofNat, dif_pos hvalid]
  rfl

/-- Bytes are less than 256. -/
theorem lt_of_mem_utf8Bytes {c : Char} {byte : ℕ} (h : byte ∈ utf8Bytes c) : byte < 256 := by
  have hvalid := toNat_valid c
  unfold utf8Bytes at h
  dsimp only at h
  split_ifs at h <;> simp only [List.mem_cons, List.not_mem_nil, or_false] at h <;> omega

/-- A byte with seven bits is a character. -/
theorem utf8Start_one {byte : ℕ} (h : byte < 0x80) : utf8Start byte = ([Char.ofNat byte], none) :=
  if_pos h

/-- The first of two bytes. -/
theorem utf8Start_two {byte : ℕ} (h₁ : 0xC2 ≤ byte) (h₂ : byte ≤ 0xDF) :
    utf8Start byte = ([], some ⟨1, 0x80, 0xBF, byte - 0xC0⟩) := by
  rw [utf8Start, if_neg (by omega), if_pos ⟨h₁, h₂⟩]

/-- The first of three bytes. -/
theorem utf8Start_three {byte : ℕ} (h₁ : 0xE0 ≤ byte) (h₂ : byte ≤ 0xEF) :
    utf8Start byte = ([], some ⟨2, if byte = 0xE0 then 0xA0 else 0x80,
      if byte = 0xED then 0x9F else 0xBF, byte - 0xE0⟩) := by
  rw [utf8Start, if_neg (by omega), if_neg (by omega), if_pos ⟨h₁, h₂⟩]

/-- The first of four bytes. -/
theorem utf8Start_four {byte : ℕ} (h₁ : 0xF0 ≤ byte) (h₂ : byte ≤ 0xF4) :
    utf8Start byte = ([], some ⟨3, if byte = 0xF0 then 0x90 else 0x80,
      if byte = 0xF4 then 0x8F else 0xBF, byte - 0xF0⟩) := by
  rw [utf8Start, if_neg (by omega), if_neg (by omega), if_neg (by omega), if_pos ⟨h₁, h₂⟩]

/-- Reading the first byte of a character. -/
theorem decodeUtf8_start {byte : ℕ} {pending : Utf8Pending} (h : utf8Start byte = ([], some pending))
    (rest : List ℕ) : decodeUtf8 none (byte :: rest) = decodeUtf8 (some pending) rest := by
  rw [decodeUtf8, h]
  rfl

/-- Reading a byte which is not the last one of a character. -/
theorem decodeUtf8_next {needed lower upper code byte : ℕ} (hneeded : needed ≠ 1)
    (h₁ : lower ≤ byte) (h₂ : byte ≤ upper) (rest : List ℕ) :
    decodeUtf8 (some ⟨needed, lower, upper, code⟩) (byte :: rest) =
      decodeUtf8 (some ⟨needed - 1, 0x80, 0xBF, 64 * code + (byte - 0x80)⟩) rest := by
  rw [decodeUtf8, if_pos ⟨h₁, h₂⟩]
  exact if_neg hneeded

/-- Reading the last byte of a character. -/
theorem decodeUtf8_last {needed lower upper code byte : ℕ} (hneeded : needed = 1)
    (h₁ : lower ≤ byte) (h₂ : byte ≤ upper) (rest : List ℕ) :
    decodeUtf8 (some ⟨needed, lower, upper, code⟩) (byte :: rest) =
      Char.ofNat (64 * code + (byte - 0x80)) :: decodeUtf8 none rest := by
  rw [decodeUtf8, if_pos ⟨h₁, h₂⟩]
  exact if_pos hneeded

/-- The bytes of a character are decoded to the character. -/
theorem decodeUtf8_utf8Bytes (c : Char) (rest : List ℕ) :
    decodeUtf8 none (utf8Bytes c ++ rest) = c :: decodeUtf8 none rest := by
  have hvalid := toNat_valid c
  have hc := Char.ofNat_toNat c
  unfold utf8Bytes
  generalize c.toNat = n at hvalid hc
  dsimp only
  split_ifs with h₁ h₂ h₃
  · rw [List.singleton_append, decodeUtf8, utf8Start_one h₁, hc]
    rfl
  · have hcode : 64 * (0xC0 + n / 0x40 - 0xC0) + (0x80 + n % 0x40 - 0x80) = n := by omega
    rw [List.cons_append, List.singleton_append,
      decodeUtf8_start (utf8Start_two (by omega) (by omega)),
      decodeUtf8_last rfl (by omega) (by omega), hcode, hc]
  · have hcode : 64 * (64 * (0xE0 + n / 0x1000 - 0xE0) + (0x80 + n / 0x40 % 0x40 - 0x80)) +
        (0x80 + n % 0x40 - 0x80) = n := by omega
    rw [List.cons_append, List.cons_append, List.singleton_append,
      decodeUtf8_start (utf8Start_three (by omega) (by omega)),
      decodeUtf8_next (by decide) (by split_ifs <;> omega) (by split_ifs <;> omega),
      decodeUtf8_last rfl (by omega) (by omega), hcode, hc]
  · have hcode : 64 * (64 * (64 * (0xF0 + n / 0x40000 - 0xF0) +
        (0x80 + n / 0x1000 % 0x40 - 0x80)) + (0x80 + n / 0x40 % 0x40 - 0x80)) +
        (0x80 + n % 0x40 - 0x80) = n := by omega
    rw [List.cons_append, List.cons_append, List.cons_append, List.singleton_append,
      decodeUtf8_start (utf8Start_four (by omega) (by omega)),
      decodeUtf8_next (by decide) (by split_ifs <;> omega) (by split_ifs <;> omega),
      decodeUtf8_next (by decide) (by omega) (by omega),
      decodeUtf8_last rfl (by omega) (by omega), hcode, hc]

/-- The bytes of a text are decoded to the text. -/
theorem decodeUtf8_flatMap (text : PyStr) : decodeUtf8 none (text.flatMap utf8Bytes) = text := by
  induction text with
  | nil => rfl
  | cons c rest ih => rw [List.flatMap_cons, decodeUtf8_utf8Bytes, ih]

/-! ## Quoting -/

/-- The value of a digit. -/
theorem hexValue_upperHexDigit {n : ℕ} (h : n < 16) : hexValue (upperHexDigit n) = some n := by
  have hall : ∀ n < 16, hexValue (upperHexDigit n) = some n := by decide
  exact hall n h

/-- Digits are letters or digits. -/
theorem isAlphanum_upperHexDigit {n : ℕ} (h : n < 16) : (upperHexDigit n).isAlphanum = true := by
  have hall : ∀ n < 16, (upperHexDigit n).isAlphanum = true := by decide
  exact hall n h

/-- Letters and digits have seven bits. -/
theorem isAscii_of_isAlphanum {c : Char} (h : c.isAlphanum = true) : isAscii c = true := by
  have hcases : ((decide (65 ≤ c.val ∧ c.val ≤ 90) || (97 ≤ c.val && c.val ≤ 122)) ||
      (48 ≤ c.val && c.val ≤ 57)) = true := h
  simp only [Bool.or_eq_true, Bool.and_eq_true, decide_eq_true_eq,
    UInt32.le_iff_toNat_le] at hcases
  change (65 ≤ c.toNat ∧ c.toNat ≤ 90 ∨ 97 ≤ c.toNat ∧ c.toNat ≤ 122) ∨
    48 ≤ c.toNat ∧ c.toNat ≤ 57 at hcases
  rw [isAscii, decide_eq_true_eq]
  omega

/-- Characters which are left as they are have seven bits. -/
theorem isAscii_of_isUrlSafe {safe : PyStr} {c : Char} (h : isUrlSafe safe c = true) :
    isAscii c = true := by
  rw [isUrlSafe, Bool.or_eq_true, Bool.or_eq_true, Bool.and_eq_true, decide_eq_true_eq] at h
  obtain (h | h) | h := h
  · exact isAscii_of_isAlphanum h
  · have hall : ['_', '.', '-', '~'].all isAscii = true := by decide
    exact List.all_eq_true.mp hall c h
  · exact h.1

/-- What an encoded byte consists of. -/
theorem mem_quoteByte {safe : PyStr} {byte : ℕ} (hbyte : byte < 256) {c : Char}
    (h : c ∈ quoteByte safe byte) : c = '%' ∨ isUrlSafe safe c = true := by
  unfold quoteByte at h
  split_ifs at h with hsafe
  · obtain rfl := List.mem_singleton.mp h
    exact .inr hsafe.2
  · have hdigit : ∀ n < 16, isUrlSafe safe (upperHexDigit n) = true := fun n hn => by
      rw [isUrlSafe, isAlphanum_upperHexDigit hn, Bool.true_or, Bool.true_or]
    simp only [List.mem_cons, List.not_mem_nil, or_false] at h
    obtain rfl | rfl | rfl := h
    · exact .inl rfl
    · exact .inr (hdigit _ (by omega))
    · exact .inr (hdigit _ (by omega))

/-- What an encoded text consists of. -/
theorem mem_quote {safe text : PyStr} {c : Char} (h : c ∈ quote safe text) :
    c = '%' ∨ isUrlSafe safe c = true := by
  obtain ⟨byte, hbyte, hc⟩ := List.mem_flatMap.mp h
  obtain ⟨d, -, hd⟩ := List.mem_flatMap.mp hbyte
  exact mem_quoteByte (lt_of_mem_utf8Bytes hd) hc

/-- Encoded texts have seven bits. -/
theorem isAscii_of_mem_quote {safe text : PyStr} {c : Char} (h : c ∈ quote safe text) :
    isAscii c = true := by
  obtain rfl | hsafe := mem_quote h
  · decide
  · exact isAscii_of_isUrlSafe hsafe

/-- Reading a character which is no sign for a byte. -/
theorem unquoteToBytes_cons {c : Char} (hc : c ≠ '%') (rest : PyStr) :
    unquoteToBytes (c :: rest) = c.toNat :: unquoteToBytes rest := by
  rw [unquoteToBytes.eq_def]
  split
  · rename_i h
    exact absurd (List.cons.inj h).1 hc
  · rename_i h
    obtain ⟨rfl, rfl⟩ := List.cons.inj h
    rfl
  · rename_i h
    exact absurd h (List.cons_ne_nil _ _)

/-- An encoded byte is read as the byte. -/
theorem unquoteToBytes_quoteByte {safe : PyStr} (hpercent : '%' ∉ safe) {byte : ℕ}
    (hbyte : byte < 256) (rest : PyStr) :
    unquoteToBytes (quoteByte safe byte ++ rest) = byte :: unquoteToBytes rest := by
  unfold quoteByte
  split_ifs with hsafe
  · have hne : Char.ofNat byte ≠ '%' := by
      intro h
      have hnot : isUrlSafe safe '%' = false := by simp [isUrlSafe, hpercent]
      rw [h, hnot] at hsafe
      exact Bool.false_ne_true hsafe.2
    rw [List.singleton_append, unquoteToBytes_cons hne, toNat_ofNat hsafe.1]
  · show unquoteToBytes ('%' :: _ :: _ :: rest) = _
    rw [unquoteToBytes, hexValue_upperHexDigit (by omega), hexValue_upperHexDigit (by omega)]
    show (16 * (byte / 16) + byte % 16) :: _ = _
    rw [Nat.div_add_mod]

/-- Encoded bytes are read as the bytes. -/
theorem unquoteToBytes_flatMap {safe : PyStr} (hpercent : '%' ∉ safe) {bytes : List ℕ}
    (h : ∀ byte ∈ bytes, byte < 256) : unquoteToBytes (bytes.flatMap (quoteByte safe)) = bytes := by
  induction bytes with
  | nil => rfl
  | cons byte rest ih =>
    obtain ⟨hbyte, hrest⟩ := List.forall_mem_cons.mp h
    rw [List.flatMap_cons, unquoteToBytes_quoteByte hpercent hbyte, ih hrest]

/-- Texts with seven bits are decoded as a whole. -/
theorem unquote_of_ascii {text : PyStr} (h : ∀ c ∈ text, isAscii c = true) :
    unquote text = decodeUtf8 none (unquoteToBytes text) := by
  cases text with
  | nil => rfl
  | cons c rest =>
    have hchain : (c :: rest).IsChain fun c d => (isAscii c == isAscii d) = true := by
      refine List.Pairwise.isChain (List.pairwise_of_forall_mem_list fun c hc d hd => ?_)
      rw [h c hc, h d hd]
      rfl
    rw [unquote, List.splitBy_of_isChain (List.cons_ne_nil _ _) hchain, List.flatMap_singleton,
      if_pos (List.all_eq_true.mpr h)]

/-- Every encoded text is decoded to the text. -/
theorem unquote_quote {safe : PyStr} (hpercent : '%' ∉ safe) (text : PyStr) :
    unquote (quote safe text) = text := by
  rw [unquote_of_ascii fun c => isAscii_of_mem_quote, quote,
    unquoteToBytes_flatMap hpercent fun byte hbyte => ?_, decodeUtf8_flatMap]
  obtain ⟨c, -, hc⟩ := List.mem_flatMap.mp hbyte
  exact lt_of_mem_utf8Bytes hc

/-! ## Texts which are left as they are -/

/-- Characters with seven bits are their own byte. -/
theorem utf8Bytes_of_ascii {c : Char} (h : isAscii c = true) : utf8Bytes c = [c.toNat] :=
  if_pos (of_decide_eq_true h)

/-- The bytes of a character are not empty, and the first one tells whether it has seven bits. -/
theorem exists_utf8Bytes (c : Char) :
    ∃ byte rest, utf8Bytes c = byte :: rest ∧ (byte < 0x80 → byte = c.toNat ∧ rest = []) := by
  unfold utf8Bytes
  dsimp only
  split_ifs
  · exact ⟨_, _, rfl, fun _ => ⟨rfl, rfl⟩⟩
  · exact ⟨_, _, rfl, fun h => by omega⟩
  · exact ⟨_, _, rfl, fun h => by omega⟩
  · exact ⟨_, _, rfl, fun h => by omega⟩

/-- A character which is left as it is. -/
theorem quote_cons_of_safe {safe : PyStr} {c : Char} (hc : isUrlSafe safe c = true) (rest : PyStr) :
    quote safe (c :: rest) = c :: quote safe rest := by
  have hascii := isAscii_of_isUrlSafe hc
  have hbyte : quoteByte safe c.toNat = [c] := by
    rw [quoteByte, Char.ofNat_toNat, if_pos ⟨of_decide_eq_true hascii, hc⟩]
  rw [quote, List.flatMap_cons, utf8Bytes_of_ascii hascii, List.singleton_append,
    List.flatMap_cons, hbyte]
  rfl

/-- A character which is not left as it is. -/
theorem exists_quote_cons {safe : PyStr} {c : Char} (hc : isUrlSafe safe c = false) (rest : PyStr) :
    ∃ before, 0 < before.length ∧ quote safe (c :: rest) = '%' :: before ++ quote safe rest := by
  obtain ⟨byte, bytes, hbytes, hbyte⟩ := exists_utf8Bytes c
  have hfirst : quoteByte safe byte =
      ['%', upperHexDigit (byte / 16), upperHexDigit (byte % 16)] := by
    refine if_neg fun ⟨hlt, hsafe⟩ => ?_
    rw [(hbyte hlt).1, Char.ofNat_toNat, hc] at hsafe
    exact Bool.false_ne_true hsafe
  refine ⟨upperHexDigit (byte / 16) :: upperHexDigit (byte % 16) ::
    bytes.flatMap (quoteByte safe), Nat.succ_pos _, ?_⟩
  rw [quote, List.flatMap_cons, hbytes, List.flatMap_append, List.flatMap_cons, hfirst]
  rfl

/-- Encoding does not make texts shorter. -/
theorem length_le_length_quote (safe text : PyStr) : text.length ≤ (quote safe text).length := by
  induction text with
  | nil => exact Nat.le_refl _
  | cons c rest ih =>
    cases hc : isUrlSafe safe c with
    | true =>
      rw [quote_cons_of_safe hc]
      exact Nat.succ_le_succ ih
    | false =>
      obtain ⟨before, -, hquote⟩ := exists_quote_cons hc rest
      rw [hquote, List.cons_append, List.length_cons, List.length_cons, List.length_append]
      omega

/-- Encoding changes nothing exactly if every character is left as it is. -/
theorem quote_eq_self_iff {safe text : PyStr} :
    quote safe text = text ↔ ∀ c ∈ text, isUrlSafe safe c = true := by
  induction text with
  | nil => exact iff_of_true rfl fun c hc => absurd hc List.not_mem_nil
  | cons c rest ih =>
    rw [List.forall_mem_cons]
    cases hc : isUrlSafe safe c with
    | true => rw [quote_cons_of_safe hc, List.cons_inj_right, ih, eq_self, true_and]
    | false =>
      obtain ⟨before, hbefore, hquote⟩ := exists_quote_cons hc rest
      refine iff_of_false (fun h => ?_) fun h => Bool.false_ne_true h.1
      have hlength := length_le_length_quote safe rest
      rw [hquote] at h
      have hsame := congrArg List.length h
      rw [List.cons_append, List.length_cons, List.length_cons, List.length_append] at hsame
      omega

/-- Only empty texts are empty when they are encoded. -/
theorem quote_eq_nil_iff {safe text : PyStr} : quote safe text = [] ↔ text = [] := by
  constructor
  · intro h
    have hlength := length_le_length_quote safe text
    rw [h] at hlength
    exact List.length_eq_zero_iff.mp (Nat.le_zero.mp hlength)
  · rintro rfl
    rfl

/-! ## Queries -/

section Queries

/-- What an encoded part of a query consists of. -/
theorem mem_quotePlus {text : PyStr} {c : Char} (h : c ∈ quotePlus text) :
    c = '+' ∨ c = '%' ∨ isUrlSafe [' '] c = true := by
  obtain ⟨d, hd, hc⟩ := List.mem_map.mp h
  split_ifs at hc
  · exact .inl hc.symm
  · obtain rfl := hc
    exact .inr (mem_quote hd)

/-- The characters with a meaning in queries do not occur in encoded parts. -/
theorem notMem_quotePlus {text : PyStr} {c : Char} (h : c = '=' ∨ c = '&') :
    c ∉ quotePlus text := by
  intro hmem
  obtain rfl | rfl := h
  · exact absurd (mem_quotePlus hmem) (by decide)
  · exact absurd (mem_quotePlus hmem) (by decide)

/-- Only empty texts are empty parts of a query. -/
theorem quotePlus_eq_nil_iff {text : PyStr} : quotePlus text = [] ↔ text = [] := by
  rw [quotePlus, List.map_eq_nil_iff, quote_eq_nil_iff]

/-- A part of a query is decoded to what has been encoded. -/
theorem unquote_quotePlus (text : PyStr) :
    unquote ((quotePlus text).map fun c => if c = '+' then ' ' else c) = text := by
  have hplus : isUrlSafe [' '] '+' = false := by decide
  have hback : (quotePlus text).map (fun c => if c = '+' then ' ' else c) = quote [' '] text := by
    rw [quotePlus, List.map_map]
    refine (List.map_congr_left fun c hc => ?_).trans (List.map_id _)
    rw [Function.comp_apply, id]
    by_cases hspace : c = ' '
    · rw [if_pos hspace, if_pos rfl, hspace]
    · rw [if_neg hspace, if_neg]
      rintro rfl
      obtain h | h := mem_quote hc
      · exact absurd h (by decide)
      · exact Bool.false_ne_true (hplus.symm.trans h)
  rw [hback, unquote_quote (by decide)]

/-- An encoded entry is read as the entry, unless its value is empty. -/
theorem queryPair_quotePair (pair : PyStr × PyStr) :
    queryPair (quotePair pair) = if pair.2 = [] then none else some pair := by
  have hname : ∀ c ∈ quotePlus pair.1, decide (c ≠ '=') = true := fun c hc =>
    decide_eq_true fun h => notMem_quotePlus (.inl h) hc
  have hdrop : (quotePair pair).dropWhile (· ≠ '=') = '=' :: quotePlus pair.2 := by
    rw [quotePair, List.dropWhile_append_of_pos hname]
    rfl
  have htake : (quotePair pair).takeWhile (· ≠ '=') = quotePlus pair.1 := by
    rw [quotePair, List.takeWhile_append_of_pos hname, List.takeWhile_cons_of_neg (by decide),
      List.append_nil]
  rw [queryPair, hdrop]
  cases hvalue : quotePlus pair.2 with
  | nil => rw [if_pos (quotePlus_eq_nil_iff.mp hvalue)]
  | cons c value =>
    have hne : pair.2 ≠ [] := fun h => by
      rw [quotePlus_eq_nil_iff.mpr h] at hvalue
      exact List.cons_ne_nil _ _ hvalue.symm
    dsimp only
    rw [if_neg hne, htake, ← hvalue, unquote_quotePlus, unquote_quotePlus]

/-- A query is split into its encoded entries. -/
theorem splitOn_urlencode {pairs : List (PyStr × PyStr)} (h : pairs ≠ []) :
    (urlencode pairs).splitOn '&' = pairs.map quotePair := by
  refine List.splitOn_intercalate '&' (fun part hpart hmem => ?_) (mt List.map_eq_nil_iff.mp h)
  obtain ⟨pair, -, rfl⟩ := List.mem_map.mp hpart
  obtain h | h := List.mem_append.mp hmem
  · exact notMem_quotePlus (.inr rfl) h
  · obtain h | h := List.mem_cons.mp h
    · exact absurd h (by decide)
    · exact notMem_quotePlus (.inr rfl) h

/-- The entries which a query keeps. -/
theorem filterMap_queryPair (pairs : List (PyStr × PyStr)) :
    ((urlencode pairs).splitOn '&').filterMap queryPair = pairs.filter fun pair => pair.2 ≠ [] := by
  by_cases h : pairs = []
  · rw [h]
    rfl
  · rw [splitOn_urlencode h, List.filterMap_map, ← List.filterMap_eq_filter]
    refine List.filterMap_congr fun pair _ => ?_
    rw [Function.comp_apply, queryPair_quotePair, Option.guard]
    by_cases hvalue : pair.2 = []
    · rw [if_pos hvalue, if_neg]
      simp [hvalue]
    · rw [if_neg hvalue, if_pos]
      simp [hvalue]

/-- Entries with different names are added as they are. -/
theorem foldl_addQueryValue {pairs : List (PyStr × PyStr)} (h : (pairs.map Prod.fst).Nodup) :
    pairs.foldl addQueryValue [] = pairs.map fun pair => (pair.1, [pair.2]) := by
  induction pairs using List.reverseRecOn with
  | nil => rfl
  | append_singleton pairs pair ih =>
    rw [List.map_append, List.nodup_append] at h
    obtain ⟨hnodup, -, hnew⟩ := h
    have hother : ∀ entry ∈ pairs.map fun pair => (pair.1, [pair.2]), entry.1 ≠ pair.1 := by
      intro entry hentry
      obtain ⟨p, hp, rfl⟩ := List.mem_map.mp hentry
      exact hnew _ (List.mem_map_of_mem hp) _ List.mem_cons_self
    have hany : ¬(pairs.map fun pair => (pair.1, [pair.2])).any fun entry => entry.1 = pair.1 := by
      rw [List.any_eq_true]
      rintro ⟨entry, hentry, hsame⟩
      exact hother entry hentry (of_decide_eq_true hsame)
    rw [List.foldl_append, List.foldl_cons, List.foldl_nil, ih hnodup, addQueryValue,
      lookup_eq_none.mpr hother, insertEntry, if_neg hany, List.map_append]
    rfl

/-- A query gives the entries back, apart from those whose value is empty. -/
theorem parseQs_urlencode {pairs : List (PyStr × PyStr)} (h : (pairs.map Prod.fst).Nodup) :
    parseQs (urlencode pairs) =
      (pairs.filter fun pair => pair.2 ≠ []).map fun pair => (pair.1, [pair.2]) := by
  rw [parseQs, filterMap_queryPair, foldl_addQueryValue (KeyedList.filter_nodup h _)]

end Queries

end HetidaDesigner
