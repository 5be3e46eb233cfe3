import Mathlib.Data.List.Basic
import Mathlib.Data.Nat.ModEq
import Mathlib.Tactic.IntervalCases
import Mathlib.Tactic.Ring

/-!
# Instants in ISO format

Python's `datetime` with a fixed offset from UTC or without one, the method `isoformat`, and
`datetime.fromisoformat` for the texts which `isoformat` writes. What else `fromisoformat` accepts
(week dates, texts without hyphens or seconds and so on) is left to a parameter.
-/

namespace IsoFormat

/-! ## Numbers with a fixed number of digits -/

/-- The last digits of a number, with zeros in front. -/
def padded : ℕ → ℕ → List Char
  | 0, _ => []
  | n + 1, value => (value / 10 ^ n % 10).digitChar :: padded n value

/-- Read a number of digits behind a value. -/
def numberFrom : ℕ → ℕ → List Char → Option (ℕ × List Char)
  | 0, value, text => some (value, text)
  | _ + 1, _, [] => none
  | n + 1, value, c :: rest =>
    if c.isDigit then numberFrom n (10 * value + (c.toNat - '0'.toNat)) rest else none

/-- Read a number with a fixed number of digits. -/
def number (n : ℕ) (text : List Char) : Option (ℕ × List Char) := numberFrom n 0 text

/-- Read a single character. -/
def skip (c : Char) : List Char → Option (List Char)
  | [] => none
  | d :: rest => if d = c then some rest else none

/-- A digit is written as such. -/
theorem isDigit_digitChar {d : ℕ} (h : d < 10) : d.digitChar.isDigit = true := by
  interval_cases d <;> rfl

/-- A written digit is read again. -/
theorem toNat_digitChar {d : ℕ} (h : d < 10) : d.digitChar.toNat - '0'.toNat = d := by
  interval_cases d <;> rfl

/-- Written digits are read again. -/
theorem numberFrom_padded (n value k : ℕ) (rest : List Char) :
    numberFrom n value (padded n k ++ rest) = some (10 ^ n * value + k % 10 ^ n, rest) := by
  induction n generalizing value with
  | zero => simp [padded, numberFrom, Nat.mod_one]
  | succ n ih =>
    have hdigit : k / 10 ^ n % 10 < 10 := Nat.mod_lt _ (by decide)
    rw [padded, List.cons_append, numberFrom, if_pos (isDigit_digitChar hdigit),
      toNat_digitChar hdigit, ih, Nat.mod_pow_succ]
    refine congrArg some (Prod.ext ?_ rfl)
    dsimp only
    ring

/-- A written number is read again. -/
theorem number_padded {n k : ℕ} (h : k < 10 ^ n) (rest : List Char) :
    number n (padded n k ++ rest) = some (k, rest) := by
  rw [number, numberFrom_padded, Nat.mod_eq_of_lt h, Nat.mul_zero, Nat.zero_add]

/-- Written numbers consist of digits. -/
theorem isDigit_of_mem_padded {n k : ℕ} {c : Char} (h : c ∈ padded n k) : c.isDigit = true := by
  induction n with
  | zero => exact absurd h List.not_mem_nil
  | succ n ih =>
    rcases List.mem_cons.mp h with rfl | h
    · exact isDigit_digitChar (Nat.mod_lt _ (by decide))
    · exact ih h

/-! ## Instants -/

/-- The number of days of a month. -/
def daysInMonth (year month : ℕ) : ℕ :=
  if month = 2 then
    if year % 4 = 0 ∧ (year % 100 ≠ 0 ∨ year % 400 = 0) then 29 else 28
  else if month ∈ [4, 6, 9, 11] then 30
  else 31

/-- A date and a time of the day, with the offset from UTC in microseconds if there is one. -/
structure DateTime where
  year : ℕ
  month : ℕ
  day : ℕ
  hour : ℕ
  minute : ℕ
  second : ℕ
  microsecond : ℕ
  utcoffset : Option ℤ
  date_valid : 1 ≤ year ∧ year ≤ 9999 ∧ 1 ≤ month ∧ month ≤ 12 ∧ 1 ≤ day ∧
    day ≤ daysInMonth year month
  time_valid : hour < 24 ∧ minute < 60 ∧ second < 60 ∧ microsecond < 1000000
  utcoffset_valid : ∀ offset ∈ utcoffset, offset.natAbs < 86400000000
  deriving DecidableEq

namespace DateTime

/-- The date in ISO format. -/
def isoDate (time : DateTime) : List Char :=
  padded 4 time.year ++ '-' :: (padded 2 time.month ++ '-' :: padded 2 time.day)

/-- An offset as `+HH:MM`, with seconds and microseconds if they are not zero. -/
def isoOffset (offset : ℤ) : List Char :=
  let size := offset.natAbs
  (if offset < 0 then '-' else '+') ::
    (padded 2 (size / 3600000000) ++ ':' :: (padded 2 (size / 60000000 % 60) ++
      if size % 60000000 = 0 then []
      else ':' :: (padded 2 (size / 1000000 % 60) ++
        if size % 1000000 = 0 then [] else '.' :: padded 6 (size % 1000000))))

/-- The time of the day in ISO format. -/
def isoTime (time : DateTime) : List Char :=
  padded 2 time.hour ++ ':' :: (padded 2 time.minute ++ ':' :: (padded 2 time.second ++
    ((if time.microsecond = 0 then [] else '.' :: padded 6 time.microsecond) ++
      match time.utcoffset with
      | none => []
      | some offset => isoOffset offset)))

/-- The method `isoformat` with the separator between date and time. -/
def isoformat (sep : Char) (time : DateTime) : List Char := time.isoDate ++ sep :: time.isoTime

/-- Microseconds behind a point, if there are any. -/
def parseFraction (text : List Char) : Option (ℕ × List Char) :=
  match skip '.' text with
  | none => some (0, text)
  | some text => number 6 text

/-- The size of an offset. -/
def parseOffsetSize (text : List Char) : Option ℕ := do
  let (hour, text) ← number 2 text
  let text ← skip ':' text
  let (minute, text) ← number 2 text
  let size := 3600000000 * hour + 60000000 * minute
  match skip ':' text with
  | none => if text = [] then some size else none
  | some text =>
    let (second, text) ← number 2 text
    let (microsecond, text) ← parseFraction text
    if text = [] then some (size + 1000000 * second + microsecond) else none

/-- An offset, which may be missing. -/
def parseOffset : List Char → Option (Option ℤ)
  | [] => some none
  | '+' :: text => (parseOffsetSize text).map fun size => some (size : ℤ)
  | '-' :: text => (parseOffsetSize text).map fun size => some (-(size : ℤ))
  | _ => none

/-- The instant with some data, if there is one. -/
def build (year month day hour minute second microsecond : ℕ) (utcoffset : Option ℤ) :
    Option DateTime :=
  if hvalid : (1 ≤ year ∧ year ≤ 9999 ∧ 1 ≤ month ∧ month ≤ 12 ∧ 1 ≤ day ∧
      day ≤ daysInMonth year month) ∧
      (hour < 24 ∧ minute < 60 ∧ second < 60 ∧ microsecond < 1000000) ∧
      ∀ offset ∈ utcoffset, offset.natAbs < 86400000000 then
    some ⟨year, month, day, hour, minute, second, microsecond, utcoffset, hvalid.1, hvalid.2.1,
      hvalid.2.2⟩
  else none

/-- Read what `isoformat` writes, with any separator. -/
def parseIsoformat (text : List Char) : Option DateTime := do
  let (year, text) ← number 4 text
  let text ← skip '-' text
  let (month, text) ← number 2 text
  let text ← skip '-' text
  let (day, text) ← number 2 text
  let text ← text.tail?
  let (hour, text) ← number 2 text
  let text ← skip ':' text
  let (minute, text) ← number 2 text
  let text ← skip ':' text
  let (second, text) ← number 2 text
  let (microsecond, text) ← parseFraction text
  let utcoffset ← parseOffset text
  build year month day hour minute second microsecond utcoffset

/-- `datetime.fromisoformat`, with what it makes of texts which `isoformat` does not write. -/
def fromisoformat (other : List Char → Option DateTime) (text : List Char) : Option DateTime :=
  (parseIsoformat text).or (other text)

end DateTime

/-! ## Reading what is written -/

section RoundTrip

variable {time : DateTime}

/-- The offset zero is read again. -/
theorem parseOffset_zero : DateTime.parseOffset (DateTime.isoOffset 0) = some (some 0) := by
  decide

/-- An instant is built of its data. -/
theorem build_eq_self (time : DateTime) :
    DateTime.build time.year time.month time.day time.hour time.minute time.second
      time.microsecond time.utcoffset = some time := by
  rw [DateTime.build, dif_pos ⟨time.date_valid, time.time_valid, time.utcoffset_valid⟩]

/-- A character which is there is read. -/
theorem skip_cons (c : Char) (rest : List Char) : skip c (c :: rest) = some rest := if_pos rfl

/-- The format of an instant in UTC without microseconds is read again. -/
theorem parseIsoformat_isoformat (hutc : time.utcoffset = some 0)
    (hseconds : time.microsecond = 0) (sep : Char) :
    DateTime.parseIsoformat (time.isoformat sep) = some time := by
  obtain ⟨hyear, hmonth, hday, hhour, hminute, hsecond⟩ : time.year < 10 ^ 4 ∧
      time.month < 10 ^ 2 ∧ time.day < 10 ^ 2 ∧ time.hour < 10 ^ 2 ∧ time.minute < 10 ^ 2 ∧
      time.second < 10 ^ 2 := by
    obtain ⟨-, hyear, -, hmonth, -, hday⟩ := time.date_valid
    obtain ⟨hhour, hminute, hsecond, -⟩ := time.time_valid
    have hdays : daysInMonth time.year time.month ≤ 31 := by
      unfold daysInMonth
      split_ifs <;> omega
    omega
  have hfraction : DateTime.parseFraction (DateTime.isoOffset 0) =
      some (0, DateTime.isoOffset 0) := by
    decide
  have hbuild := build_eq_self time
  rw [hutc, hseconds] at hbuild
  unfold DateTime.parseIsoformat DateTime.isoformat DateTime.isoDate DateTime.isoTime
  simp only [hutc, hseconds, if_true, List.append_assoc, List.cons_append, List.nil_append,
    number_padded hyear, number_padded hmonth, number_padded hday, number_padded hhour,
    number_padded hminute, number_padded hsecond, skip_cons, List.tail?_cons, Option.bind_eq_bind,
    Option.bind_some, hfraction, parseOffset_zero, hbuild]

/-- The format of an instant in UTC without microseconds stands for that instant. -/
theorem fromisoformat_isoformat (hutc : time.utcoffset = some 0) (hseconds : time.microsecond = 0)
    (other : List Char → Option DateTime) (sep : Char) :
    DateTime.fromisoformat other (time.isoformat sep) = some time := by
  rw [DateTime.fromisoformat, parseIsoformat_isoformat hutc hseconds, Option.some_or]

/-- The characters in the time of the day of an instant in UTC without microseconds. -/
theorem mem_isoTime (hutc : time.utcoffset = some 0) (hseconds : time.microsecond = 0) {c : Char}
    (h : c ∈ time.isoTime) : c.isDigit = true ∨ c ∈ ['-', ':', '+'] := by
  have hzero : ((DateTime.isoOffset 0).all fun c => c.isDigit || decide (c ∈ ['-', ':', '+'])) =
      true := by
    decide
  rw [DateTime.isoTime, hutc, hseconds, if_pos rfl, List.nil_append] at h
  simp only [List.mem_append, List.mem_cons] at h
  rcases h with h | rfl | h | rfl | h | h
  · exact Or.inl (isDigit_of_mem_padded h)
  · exact Or.inr (by decide)
  · exact Or.inl (isDigit_of_mem_padded h)
  · exact Or.inr (by decide)
  · exact Or.inl (isDigit_of_mem_padded h)
  · have hchar := List.all_eq_true.mp hzero c h
    rwa [Bool.or_eq_true, decide_eq_true_eq] at hchar

/-- The characters in a date. -/
theorem mem_isoDate {c : Char} (h : c ∈ time.isoDate) : c.isDigit = true ∨ c ∈ ['-', ':', '+'] := by
  simp only [DateTime.isoDate, List.mem_append, List.mem_cons] at h
  rcases h with h | rfl | h | rfl | h
  · exact Or.inl (isDigit_of_mem_padded h)
  · exact Or.inr (by decide)
  · exact Or.inl (isDigit_of_mem_padded h)
  · exact Or.inr (by decide)
  · exact Or.inl (isDigit_of_mem_padded h)

/-- Microseconds stand behind a point. -/
theorem microsecond_eq_zero {sep : Char} (h : '.' ∉ time.isoformat sep) : time.microsecond = 0 := by
  by_contra hne
  refine h (List.mem_append_right _ (List.mem_cons_of_mem _ ?_))
  rw [DateTime.isoTime, if_neg hne]
  simp

end RoundTrip

end IsoFormat
