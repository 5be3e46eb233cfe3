import Mathlib.Data.List.Infix
import Mathlib.Data.List.Basic

/-!
# Replacing the occurrences of a text

`replaceAll` is Python's `replace`: the occurrences are looked for from left to right and do not
overlap. A text of which every occurrence is known is replaced piece by piece.
-/

namespace Replacements

variable {α : Type*} [DecidableEq α]

/-- Replace the occurrences of a text behind the characters which are still to be skipped. -/
def replaceFrom (old new : List α) : ℕ → List α → List α
  | _, [] => []
  | n + 1, _ :: rest => replaceFrom old new n rest
  | 0, c :: rest =>
    if old.isPrefixOf (c :: rest) then new ++ replaceFrom old new (old.length - 1) rest
    else c :: replaceFrom old new 0 rest

/-- Replace the occurrences of a nonempty text. -/
def replaceAll (old new s : List α) : List α := replaceFrom old new 0 s

/-- Nothing occurs in the empty text. -/
@[simp] theorem replaceAll_nil (old new : List α) : replaceAll old new [] = [] := rfl

/-- Characters to skip are left out. -/
theorem replaceFrom_length (old new skipped s : List α) :
    replaceFrom old new skipped.length (skipped ++ s) = replaceAll old new s := by
  induction skipped with
  | nil => rfl
  | cons c rest ih => exact ih

/-- An occurrence at the start is replaced. -/
theorem replaceAll_append {old : List α} (h : old ≠ []) (new s : List α) :
    replaceAll old new (old ++ s) = new ++ replaceAll old new s := by
  obtain ⟨c, rest, rfl⟩ := List.exists_cons_of_ne_nil h
  have hprefix : (c :: rest).isPrefixOf (c :: (rest ++ s)) = true :=
    List.isPrefixOf_iff_prefix.mpr (List.prefix_append (c :: rest) s)
  rw [List.cons_append, replaceAll, replaceFrom, if_pos hprefix]
  exact congrArg _ (replaceFrom_length (c :: rest) new rest s)

/-- A character at which no occurrence starts is kept. -/
theorem replaceAll_cons {old : List α} {c : α} {s : List α} (h : ¬ old <+: c :: s)
    (new : List α) : replaceAll old new (c :: s) = c :: replaceAll old new s := by
  rw [replaceAll, replaceFrom, if_neg (mt List.isPrefixOf_iff_prefix.mp h)]
  rfl

/-- A character which does not start the text is kept. -/
theorem replaceAll_cons_of_ne {a c : α} (hne : c ≠ a) (old new s : List α) :
    replaceAll (a :: old) new (c :: s) = c :: replaceAll (a :: old) new s := by
  refine replaceAll_cons (fun h => hne ?_) new
  exact (List.cons_prefix_cons.mp h).1.symm

/-- Replacing a character by a text. -/
theorem replaceAll_singleton (a : α) (new s : List α) :
    replaceAll [a] new s = s.flatMap fun c => if c = a then new else [c] := by
  induction s with
  | nil => rfl
  | cons c rest ih =>
    rw [List.flatMap_cons, ← ih]
    by_cases hc : c = a
    · subst hc
      rw [if_pos rfl]
      exact replaceAll_append (List.cons_ne_nil c []) new rest
    · rw [if_neg hc, replaceAll_cons_of_ne hc]
      rfl

end Replacements
