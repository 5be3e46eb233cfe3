import Mathlib.Data.List.Basic
import Mathlib.Data.List.Defs
import Mathlib.Data.List.Nodup

/-!
# Lists in batches

A list which is split into batches of one size, the last of which may be smaller. Counting the
batches which have an element is counting its copies if no batch has two of them.
-/

namespace Batches

variable {A : Type}

/-- The loop puts what it has got so far before the rest. -/
theorem flatten_toChunks_go (n : ℕ) (xs : List A) (batch : Array A) (batches : Array (List A)) :
    (List.toChunks.go n xs batch batches).flatten =
      batches.toList.flatten ++ (batch.toList ++ xs) := by
  induction xs generalizing batch batches with
  | nil => simp [List.toChunks.go]
  | cons x xs ih =>
    rw [List.toChunks.go]
    split
    · rw [ih]
      simp
    · rw [ih]
      simp

/-- The batches of a list together are the list. -/
theorem flatten_toChunks (n : ℕ) (xs : List A) : (xs.toChunks n).flatten = xs := by
  cases xs with
  | nil => simp [List.toChunks]
  | cons x xs =>
    cases n with
    | zero => simp [List.toChunks]
    | succ n =>
      rw [List.toChunks, flatten_toChunks_go]
      · simp
      · omega

/-- With batches of one element the loop ends the current batch at each step. -/
theorem toChunks_one_go (xs : List A) (x : A) (batches : Array (List A)) :
    List.toChunks.go 1 xs #[x] batches = batches.toList ++ [x] :: xs.map fun x => [x] := by
  induction xs generalizing x batches with
  | nil => simp [List.toChunks.go]
  | cons y xs ih =>
    rw [List.toChunks.go, if_pos (by rfl)]
    have h := ih y (batches.push [x])
    simpa using h

/-- Batches of one element. -/
theorem toChunks_one (xs : List A) : xs.toChunks 1 = xs.map fun x => [x] := by
  cases xs with
  | nil => rfl
  | cons x xs =>
    have h := toChunks_one_go xs x #[]
    simpa [List.toChunks] using h

/-- What the loop makes of the batch it is at and the rest. -/
theorem toChunks_go_eq {n : ℕ} (hn : 0 < n) (xs : List A) (batch : Array A)
    (batches : Array (List A)) (hbatch : batch.size ≤ n) :
    List.toChunks.go n xs batch batches = batches.toList ++
      (batch.toList ++ xs).take n :: ((batch.toList ++ xs).drop n).toChunks n := by
  induction xs generalizing batch batches with
  | nil =>
    have hlength : batch.toList.length ≤ n := hbatch
    rw [List.append_nil, List.take_of_length_le hlength, List.drop_eq_nil_of_le hlength]
    simp [List.toChunks.go, List.toChunks]
  | cons x xs ih =>
    have hcons : (x :: xs).toChunks n = (x :: xs).take n :: ((x :: xs).drop n).toChunks n := by
      obtain ⟨m, rfl⟩ := Nat.exists_eq_succ_of_ne_zero (Nat.ne_of_gt hn)
      have h := ih #[x] #[] (by simp)
      simpa [List.toChunks] using h
    rw [List.toChunks.go]
    split
    · rename_i hfull
      have hlength : batch.toList.length = n := of_decide_eq_true hfull
      rw [ih _ _ (by simp; omega), List.take_left' hlength, List.drop_left' hlength, hcons]
      simp
    · rename_i hfull
      have hsize : batch.size ≠ n := of_decide_eq_false (Bool.eq_false_iff.mpr hfull)
      rw [ih _ _ (by simp; omega)]
      simp

/-- The first batch and the batches of the rest. -/
theorem toChunks_cons {n : ℕ} (hn : 0 < n) (x : A) (xs : List A) :
    (x :: xs).toChunks n = (x :: xs).take n :: ((x :: xs).drop n).toChunks n := by
  obtain ⟨m, rfl⟩ := Nat.exists_eq_succ_of_ne_zero (Nat.ne_of_gt hn)
  have h := toChunks_go_eq hn xs #[x] #[] (by simp)
  simpa [List.toChunks] using h

/-- Induction over the batches of a list. -/
theorem chunks_induction {n : ℕ} (hn : 0 < n) {P : List A → Prop} (nil : P [])
    (cons : ∀ x xs, P ((x :: xs).drop n) → P (x :: xs)) (xs : List A) : P xs := by
  induction hlength : xs.length using Nat.strongRecOn generalizing xs with
  | ind length ih =>
    cases xs with
    | nil => exact nil
    | cons x xs =>
      refine cons x xs (ih _ ?_ _ rfl)
      rw [List.length_drop, ← hlength, List.length_cons]
      omega

/-- No batch has more elements than the size. -/
theorem length_le_of_mem_toChunks {n : ℕ} (hn : 0 < n) {xs batch : List A}
    (h : batch ∈ xs.toChunks n) : batch.length ≤ n := by
  induction xs using chunks_induction hn with
  | nil => simp [List.toChunks] at h
  | cons x xs ih =>
    rw [toChunks_cons hn] at h
    obtain rfl | h := List.mem_cons.mp h
    · exact List.length_take_le _ _
    · exact ih h

/-- The longest batch has as many elements as the size allows. -/
theorem exists_longest_batch {n : ℕ} (hn : 0 < n) {xs : List A} (hxs : xs ≠ []) :
    ∃ batch ∈ xs.toChunks n, batch.length = min n xs.length := by
  obtain ⟨x, rest, rfl⟩ := List.exists_cons_of_ne_nil hxs
  exact ⟨_, by rw [toChunks_cons hn]; exact List.mem_cons_self, List.length_take⟩

/-- Batches are without repetition exactly if equal elements are in different batches. -/
theorem nodup_toChunks_iff {n : ℕ} (hn : 0 < n) {xs : List A} :
    (∀ batch ∈ xs.toChunks n, batch.Nodup) ↔
      ∀ i j (hi : i < xs.length) (hj : j < xs.length), i < j → i / n = j / n → xs[i] ≠ xs[j] := by
  induction xs using chunks_induction hn with
  | nil => simp [List.toChunks]
  | cons x xs ih =>
    rw [toChunks_cons hn, List.forall_mem_cons, ih]
    generalize x :: xs = ys
    constructor
    · rintro ⟨hfirst, hrest⟩ i j hi hj hlt hsame
      by_cases hjn : j < n
      · have hne := List.pairwise_iff_getElem.mp hfirst i j (by rw [List.length_take]; omega)
          (by rw [List.length_take]; omega) hlt
        rwa [List.getElem_take, List.getElem_take] at hne
      · have hin : n ≤ i := by
          by_contra hin
          rw [Nat.div_eq_of_lt (Nat.not_le.mp hin)] at hsame
          exact hjn ((Nat.div_eq_zero_iff_lt hn).mp hsame.symm)
        have hdivi := Nat.div_eq_sub_div hn hin
        have hdivj := Nat.div_eq_sub_div hn (Nat.not_lt.mp hjn)
        have hne := hrest (i - n) (j - n) (by rw [List.length_drop]; omega)
          (by rw [List.length_drop]; omega) (by omega) (by omega)
        rw [List.getElem_drop, List.getElem_drop] at hne
        simpa [Nat.add_sub_cancel' hin, Nat.add_sub_cancel' (Nat.not_lt.mp hjn)] using hne
    · intro h
      constructor
      · refine List.pairwise_iff_getElem.mpr fun i j hi hj hlt => ?_
        rw [List.length_take] at hi hj
        rw [List.getElem_take, List.getElem_take]
        refine h i j (by omega) (by omega) hlt ?_
        rw [Nat.div_eq_of_lt (by omega), Nat.div_eq_of_lt (by omega)]
      · intro i j hi hj hlt hsame
        rw [List.length_drop] at hi hj
        rw [List.getElem_drop, List.getElem_drop]
        refine h (n + i) (n + j) (by omega) (by omega) (by omega) ?_
        rw [Nat.add_div_left _ hn, Nat.add_div_left _ hn, hsame]

/-- At most as many batches have an element as there are copies of it, and as many exactly if no
batch has two copies. -/
theorem countP_mem_le [DecidableEq A] (batches : List (List A)) (a : A) :
    (batches.countP fun batch => a ∈ batch) ≤ batches.flatten.count a ∧
      ((batches.countP fun batch => a ∈ batch) = batches.flatten.count a ↔
        ∀ batch ∈ batches, batch.count a ≤ 1) := by
  induction batches with
  | nil => simp
  | cons batch rest ih =>
    obtain ⟨hle, heq⟩ := ih
    rw [List.countP_cons, List.flatten_cons, List.count_append, List.forall_mem_cons, ← heq]
    by_cases hmem : a ∈ batch
    · have hpos := List.count_pos_iff.mpr hmem
      simp only [hmem, decide_true, if_true]
      omega
    · have hzero := List.count_eq_zero.mpr hmem
      simp only [hmem, decide_false, Bool.false_eq_true, if_false, hzero]
      omega

/-- As many batches have an element as there are copies of it exactly if no batch has two copies. -/
theorem countP_eq_count_flatten_iff [DecidableEq A] {batches : List (List A)} :
    (∀ a ∈ batches.flatten, (batches.countP fun batch => a ∈ batch) = batches.flatten.count a) ↔
      ∀ batch ∈ batches, batch.Nodup := by
  constructor
  · intro h batch hbatch
    refine List.nodup_iff_count_le_one.mpr fun a => ?_
    by_cases hmem : a ∈ batch
    · exact (countP_mem_le batches a).2.mp (h a (List.mem_flatten.mpr ⟨batch, hbatch, hmem⟩))
        batch hbatch
    · rw [List.count_eq_zero.mpr hmem]
      exact Nat.zero_le 1
  · intro h a _
    exact (countP_mem_le batches a).2.mpr fun batch hbatch =>
      List.nodup_iff_count_le_one.mp (h batch hbatch) a

end Batches
