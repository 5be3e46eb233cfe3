import Mathlib.Data.List.Basic

/-!
# Overwriting a part of a list

Dropping the elements for which a test holds and appending new ones: two tests of which one implies
the other are compared, and so is overwriting twice with overwriting once.
-/

namespace Overwrites

variable {α : Type*}

/-- Drop the elements for which a test holds, and append new ones. -/
def overwrite (p : α → Bool) (l new : List α) : List α := l.filter (fun a => !p a) ++ new

/-- A weaker test drops the same elements exactly if it holds for no others. -/
theorem overwrite_perm_iff {p q : α → Bool} (hpq : ∀ a, p a = true → q a = true) {l new : List α} :
    (overwrite p l new).Perm (overwrite q l new) ↔ ∀ a ∈ l, q a = true → p a = true := by
  rw [overwrite, overwrite, List.perm_append_right_iff]
  constructor
  · intro h a ha hq
    by_contra hp
    have hmem : a ∈ l.filter fun a => !p a :=
      List.mem_filter.mpr ⟨ha, by simp [Bool.eq_false_iff.mpr hp]⟩
    simpa [hq] using (List.mem_filter.mp (h.mem_iff.mp hmem)).2
  · intro h
    refine .of_eq (List.filter_congr fun a ha => congrArg _ (Bool.eq_iff_iff.mpr ⟨hpq a, h a ha⟩))

/-- Overwriting twice leaves what overwriting once leaves exactly if the test holds for all new
elements. -/
theorem overwrite_overwrite_perm_iff {p : α → Bool} {l new : List α} :
    (overwrite p (overwrite p l new) new).Perm (overwrite p l new) ↔ ∀ a ∈ new, p a = true := by
  have htwice : overwrite p (overwrite p l new) new =
      l.filter (fun a => !p a) ++ (new.filter (fun a => !p a) ++ new) := by
    rw [overwrite, overwrite, List.filter_append, List.filter_filter, List.append_assoc]
    simp only [Bool.and_self]
  rw [htwice, overwrite, List.perm_append_left_iff]
  constructor
  · intro h a ha
    have hlength := h.length_eq
    rw [List.length_append] at hlength
    have hnil : new.filter (fun a => !p a) = [] := List.length_eq_zero_iff.mp (by omega)
    simpa using List.filter_eq_nil_iff.mp hnil a ha
  · intro h
    have hnil : new.filter (fun a => !p a) = [] :=
      List.filter_eq_nil_iff.mpr fun a ha => by simp [h a ha]
    rw [hnil]
    exact .refl _

end Overwrites
