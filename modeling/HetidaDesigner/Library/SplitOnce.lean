import Mathlib.Data.List.Basic
import Mathlib.Data.List.Count

/-!
# Splitting at one character

`splitOnce` is Python's `split(c, 1)` and `rsplitOnce` is `rsplit(c, 1)`, for texts that contain the
character. The part which cannot contain it any more determines the split. `splitMax` is Python's
`split(c, n)`: all parts but the last one do not contain the character.
-/

namespace SplitOnce

variable {α : Type*} [DecidableEq α]

/-- The text before and behind the first occurrence of a character. -/
def splitOnce (c : α) : List α → Option (List α × List α)
  | [] => none
  | d :: rest =>
    if d = c then some ([], rest)
    else (splitOnce c rest).map fun parts => (d :: parts.1, parts.2)

/-- The text before and behind the last occurrence of a character. -/
def rsplitOnce (c : α) (s : List α) : Option (List α × List α) :=
  (splitOnce c s.reverse).map fun parts => (parts.2.reverse, parts.1.reverse)

/-- The parts of a text which is split at the first occurrences of a character, of which at most the
given number are considered. -/
def splitMax (c : α) : ℕ → List α → List (List α)
  | 0, s => [s]
  | n + 1, s =>
    match splitOnce c s with
    | none => [s]
    | some parts => parts.1 :: splitMax c n parts.2

/-- Python's `rsplit(c, n)`. -/
def rsplitMax (c : α) (n : ℕ) (s : List α) : List (List α) :=
  ((splitMax c n s.reverse).map List.reverse).reverse

/-- A split is one where the first part does not contain the character. -/
theorem splitOnce_eq_some_iff {c : α} {s before after : List α} :
    splitOnce c s = some (before, after) ↔ s = before ++ c :: after ∧ c ∉ before := by
  induction s generalizing before with
  | nil => simp [splitOnce]
  | cons d rest ih =>
    rw [splitOnce]
    split
    · rename_i hd
      subst hd
      cases before with
      | nil => simp [eq_comm]
      | cons b before => simp +contextual
    · rename_i hd
      rw [Option.map_eq_some_iff]
      constructor
      · intro ⟨parts, hparts, heq⟩
        obtain ⟨rfl, rfl⟩ := Prod.mk.inj heq
        obtain ⟨hsplit, hnot⟩ := ih.mp hparts
        refine ⟨by rw [hsplit, List.cons_append], ?_⟩
        rw [List.mem_cons, not_or]
        exact ⟨Ne.symm hd, hnot⟩
      · intro ⟨hsplit, hnot⟩
        cases before with
        | nil => exact absurd (List.cons.inj hsplit).1 hd
        | cons b before =>
          obtain ⟨rfl, hrest⟩ := List.cons.inj hsplit
          rw [List.mem_cons, not_or] at hnot
          exact ⟨(before, after), ih.mpr ⟨hrest, hnot.2⟩, rfl⟩

/-- A text is split exactly if it contains the character. -/
theorem splitOnce_eq_none_iff {c : α} {s : List α} : splitOnce c s = none ↔ c ∉ s := by
  induction s with
  | nil => simp [splitOnce]
  | cons d rest ih =>
    rw [splitOnce]
    split
    · rename_i hd
      simp [hd]
    · rename_i hd
      rw [Option.map_eq_none_iff, ih, List.mem_cons, not_or]
      exact (and_iff_right (Ne.symm hd)).symm

/-- A split from the right is one where the second part does not contain the character. -/
theorem rsplitOnce_eq_some_iff {c : α} {s before after : List α} :
    rsplitOnce c s = some (before, after) ↔ s = before ++ c :: after ∧ c ∉ after := by
  rw [rsplitOnce, Option.map_eq_some_iff]
  constructor
  · intro ⟨parts, hparts, heq⟩
    obtain ⟨rfl, rfl⟩ := Prod.mk.inj heq
    obtain ⟨hsplit, hnot⟩ := splitOnce_eq_some_iff.mp hparts
    rw [List.mem_reverse]
    refine ⟨?_, hnot⟩
    rw [← List.reverse_reverse s, hsplit]
    simp
  · intro ⟨hsplit, hnot⟩
    refine ⟨(after.reverse, before.reverse), splitOnce_eq_some_iff.mpr ⟨?_, ?_⟩, by simp⟩
    · rw [hsplit]
      simp
    · rwa [List.mem_reverse]

/-- A text without the character is the only part. -/
theorem splitMax_succ_of_none {c : α} {n : ℕ} {s : List α} (h : splitOnce c s = none) :
    splitMax c (n + 1) s = [s] := by
  rw [splitMax, h]

/-- The first part ends at the first occurrence of the character. -/
theorem splitMax_succ_of_some {c : α} {n : ℕ} {s : List α} {parts : List α × List α}
    (h : splitOnce c s = some parts) :
    splitMax c (n + 1) s = parts.1 :: splitMax c n parts.2 := by
  rw [splitMax, h]

/-- There is at least one part. -/
theorem splitMax_ne_nil (c : α) (n : ℕ) (s : List α) : splitMax c n s ≠ [] := by
  cases n with
  | zero => exact List.cons_ne_nil _ _
  | succ n =>
    cases h : splitOnce c s with
    | none =>
      rw [splitMax_succ_of_none h]
      exact List.cons_ne_nil _ _
    | some parts =>
      rw [splitMax_succ_of_some h]
      exact List.cons_ne_nil _ _

/-- A single part is the whole text, which does not contain the character. -/
theorem splitMax_succ_eq_singleton_iff {c : α} {n : ℕ} {s part : List α} :
    splitMax c (n + 1) s = [part] ↔ s = part ∧ c ∉ s := by
  cases h : splitOnce c s with
  | none =>
    rw [splitMax_succ_of_none h]
    rw [splitOnce_eq_none_iff] at h
    simp [h]
  | some parts =>
    rw [splitMax_succ_of_some h]
    obtain ⟨hsplit, -⟩ := splitOnce_eq_some_iff.mp h
    simp [splitMax_ne_nil, hsplit]

/-- Two or more parts come from a split at the first occurrence of the character. -/
theorem splitMax_succ_eq_cons_cons_iff {c : α} {n : ℕ} {s first second : List α}
    {rest : List (List α)} : splitMax c (n + 1) s = first :: second :: rest ↔
      ∃ after, s = first ++ c :: after ∧ c ∉ first ∧ splitMax c n after = second :: rest := by
  constructor
  · intro h
    cases hsplit : splitOnce c s with
    | none =>
      rw [splitMax_succ_of_none hsplit] at h
      cases h
    | some parts =>
      rw [splitMax_succ_of_some hsplit] at h
      obtain ⟨rfl, hrest⟩ := List.cons.inj h
      obtain ⟨hs, hnot⟩ := splitOnce_eq_some_iff.mp hsplit
      exact ⟨parts.2, hs, hnot, hrest⟩
  · intro ⟨after, hs, hnot, hrest⟩
    rw [splitMax_succ_of_some (splitOnce_eq_some_iff.mpr ⟨hs, hnot⟩), hrest]

/-- The parts of a text which is split at the first two occurrences of a character. -/
theorem splitMax_two_eq_pair_iff {c : α} {s first second : List α} :
    splitMax c 2 s = [first, second] ↔ s = first ++ c :: second ∧ c ∉ first ∧ c ∉ second := by
  rw [splitMax_succ_eq_cons_cons_iff]
  constructor
  · intro ⟨after, hs, hfirst, hrest⟩
    obtain ⟨rfl, hsecond⟩ := splitMax_succ_eq_singleton_iff.mp hrest
    exact ⟨hs, hfirst, hsecond⟩
  · intro ⟨hs, hfirst, hsecond⟩
    exact ⟨second, hs, hfirst, splitMax_succ_eq_singleton_iff.mpr ⟨rfl, hsecond⟩⟩

/-- Three parts of a text which is split at the first two occurrences of a character. -/
theorem splitMax_two_eq_triple_iff {c : α} {s first second third : List α} :
    splitMax c 2 s = [first, second, third] ↔
      s = first ++ c :: (second ++ c :: third) ∧ c ∉ first ∧ c ∉ second := by
  rw [splitMax_succ_eq_cons_cons_iff]
  constructor
  · intro ⟨after, hs, hfirst, hrest⟩
    obtain ⟨last, hafter, hsecond, hlast⟩ := splitMax_succ_eq_cons_cons_iff.mp hrest
    obtain rfl : last = third := List.head_eq_of_cons_eq hlast
    exact ⟨hs.trans (by rw [hafter]), hfirst, hsecond⟩
  · intro ⟨hs, hfirst, hsecond⟩
    exact ⟨_, hs, hfirst, splitMax_succ_eq_cons_cons_iff.mpr ⟨third, rfl, hsecond, rfl⟩⟩

/-- Three parts of a text which is split at the last two occurrences of a character. -/
theorem rsplitMax_two_eq_triple_iff {c : α} {s first second third : List α} :
    rsplitMax c 2 s = [first, second, third] ↔
      s = first ++ c :: (second ++ c :: third) ∧ c ∉ second ∧ c ∉ third := by
  have hreverse : rsplitMax c 2 s = [first, second, third] ↔
      splitMax c 2 s.reverse = [third.reverse, second.reverse, first.reverse] := by
    rw [rsplitMax, List.reverse_eq_iff, ← List.map_id (splitMax c 2 s.reverse)]
    constructor
    · intro h
      have hmap := congrArg (List.map List.reverse) h
      simpa [Function.comp_def] using hmap
    · intro h
      rw [h]
      simp
  rw [hreverse, splitMax_two_eq_triple_iff, List.mem_reverse, List.mem_reverse,
    List.reverse_eq_iff]
  simp [and_comm]

/-- There is at most one part more than occurrences are considered. -/
theorem length_splitMax_le (c : α) (n : ℕ) (s : List α) : (splitMax c n s).length ≤ n + 1 := by
  induction n generalizing s with
  | zero => exact Nat.le_refl _
  | succ n ih =>
    cases h : splitOnce c s with
    | none =>
      rw [splitMax_succ_of_none h]
      exact Nat.succ_le_succ (Nat.zero_le _)
    | some parts =>
      rw [splitMax_succ_of_some h]
      exact Nat.succ_le_succ (ih _)

/-! ## Counted occurrences -/

/-- A text in which a character occurs once more than some number of times is split at its first
occurrence. -/
theorem exists_of_count_succ {c : α} {n : ℕ} {s : List α} (h : s.count c = n + 1) :
    ∃ before after, s = before ++ c :: after ∧ c ∉ before ∧ after.count c = n := by
  have hmem : c ∈ s := List.count_pos_iff.mp (by omega)
  obtain ⟨⟨before, after⟩, hsplit⟩ := Option.ne_none_iff_exists'.mp
    (mt splitOnce_eq_none_iff.mp (not_not.mpr hmem))
  obtain ⟨rfl, hnot⟩ := splitOnce_eq_some_iff.mp hsplit
  refine ⟨before, after, rfl, hnot, ?_⟩
  rw [List.count_append, List.count_eq_zero_of_not_mem hnot, List.count_cons_self] at h
  omega

end SplitOnce
