import Mathlib.Data.List.Nodup

/-!
# Dictionaries built by a comprehension

A dictionary comprehension over a list keeps, for each key, the last element that has it.
`lastEntry` is the lookup in that dictionary, and `entries` lists all elements with the key;
the lookup fails exactly when there is none.
-/

namespace LastEntry

variable {κ β : Type*} [DecidableEq κ]

/-- All elements of the list which have the given key, in list order. -/
def entries (key : β → κ) (l : List β) (k : κ) : List β := l.filter fun b => key b = k

/-- The entry under a key of the dictionary comprehension over the list. -/
def lastEntry (key : β → κ) (l : List β) (k : κ) : Option β := (entries key l k).getLast?

/-- Entries are the elements with the key. -/
@[simp] theorem mem_entries {key : β → κ} {l : List β} {k : κ} {b : β} :
    b ∈ entries key l k ↔ b ∈ l ∧ key b = k := by
  simp [entries]

/-- A looked-up element is in the list and has the key. -/
theorem mem_of_lastEntry {key : β → κ} {l : List β} {k : κ} {b : β}
    (h : lastEntry key l k = some b) : b ∈ l ∧ key b = k :=
  mem_entries.mp (List.mem_of_getLast? h)

/-- The lookup fails exactly on keys which no element has. -/
theorem lastEntry_eq_none {key : β → κ} {l : List β} {k : κ} :
    lastEntry key l k = none ↔ ∀ b ∈ l, key b ≠ k := by
  simp [lastEntry, entries]

/-- The lookup in a longer dictionary prefers later elements. -/
theorem lastEntry_cons (key : β → κ) (b : β) (l : List β) (k : κ) :
    lastEntry key (b :: l) k = (lastEntry key l k).or (if key b = k then some b else none) := by
  unfold lastEntry entries
  rw [List.filter_cons]
  by_cases h : key b = k
  · rw [if_pos (by simpa using h), if_pos h, List.getLast?_cons]
    cases (l.filter fun b => key b = k).getLast? <;> rfl
  · rw [if_neg (by simpa using h), if_neg h, Option.or_none]

/-- A key which some element has is found. -/
theorem exists_lastEntry (key : β → κ) {l : List β} {b : β} (hb : b ∈ l) :
    ∃ c, lastEntry key l (key b) = some c := by
  cases h : lastEntry key l (key b) with
  | none => exact absurd rfl (lastEntry_eq_none.mp h b hb)
  | some c => exact ⟨c, rfl⟩

/-- Dropping elements from the list drops the same elements from the entries. -/
theorem entries_filter (key : β → κ) (l : List β) (p : β → Bool) (k : κ) :
    entries key (l.filter p) k = (entries key l k).filter p := by
  simp only [entries, List.filter_filter]
  exact List.filter_congr fun _ _ => Bool.and_comm _ _

/-- A filter which keeps the last entry keeps the lookup. -/
theorem lastEntry_filter_of_keep {key : β → κ} {l : List β} {p : β → Bool} {k : κ} {b : β}
    (h : lastEntry key l k = some b) (hp : p b = true) : lastEntry key (l.filter p) k = some b := by
  have hsplit := List.getLast?_eq_some_iff.mp h
  obtain ⟨pre, hpre⟩ := hsplit
  rw [lastEntry, entries_filter, hpre, List.filter_append]
  simp [hp]

/-- Entries of a mapped list whose keys are those of the original. -/
theorem entries_map {γ : Type*} {key : β → κ} {key' : γ → κ} {f : γ → β}
    (hkey : ∀ c, key (f c) = key' c) (l : List γ) (k : κ) :
    entries key (l.map f) k = (entries key' l k).map f := by
  simp only [entries, List.filter_map]
  congr 1
  exact List.filter_congr fun c _ => by simp [hkey]

/-- Lookup in a mapped list whose keys are those of the original. -/
theorem lastEntry_map {γ : Type*} (key : β → κ) {key' : γ → κ} {f : γ → β}
    (hkey : ∀ c, key (f c) = key' c) (l : List γ) (k : κ) :
    lastEntry key (l.map f) k = (lastEntry key' l k).map f := by
  rw [lastEntry, lastEntry, entries_map hkey, List.getLast?_map]

/-- Elements without the key do not matter to the lookup. -/
theorem lastEntry_append_of_ne {key : β → κ} {l l' : List β} {k : κ} (h : ∀ b ∈ l', key b ≠ k) :
    lastEntry key (l ++ l') k = lastEntry key l k := by
  have hnil : entries key l' k = [] := by
    simpa [entries, List.filter_eq_nil_iff] using h
  rw [lastEntry, lastEntry, entries, List.filter_append, ← entries, ← entries, hnil,
    List.append_nil]

/-- What is found in the later elements is found. -/
theorem lastEntry_append_of_some {key : β → κ} {l l' : List β} {k : κ} {b : β}
    (h : lastEntry key l' k = some b) : lastEntry key (l ++ l') k = some b := by
  have happend : entries key (l ++ l') k = entries key l k ++ entries key l' k :=
    List.filter_append ..
  rw [lastEntry] at h
  rw [lastEntry, happend, List.getLast?_append, h]
  rfl

/-- Elements before the others do not matter to the lookup if they do not have the key. -/
theorem lastEntry_append_of_ne_left {key : β → κ} {l l' : List β} {k : κ}
    (h : ∀ b ∈ l, key b ≠ k) : lastEntry key (l ++ l') k = lastEntry key l' k := by
  have hnil : entries key l k = [] := by
    simpa [entries, List.filter_eq_nil_iff] using h
  rw [lastEntry, lastEntry, entries, List.filter_append, ← entries, ← entries, hnil,
    List.nil_append]

/-- The last element is found under its key. -/
theorem lastEntry_concat (key : β → κ) (l : List β) (b : β) (k : κ) :
    lastEntry key (l ++ [b]) k = if key b = k then some b else lastEntry key l k := by
  split
  · rename_i hkey
    apply lastEntry_append_of_some
    rw [lastEntry_cons, if_pos hkey]
    rfl
  · rename_i hkey
    exact lastEntry_append_of_ne (by simpa using hkey)

/-- Lookup among the elements of several lists, only one of which has elements with the key. -/
theorem lastEntry_flatMap {α : Type*} {key : β → κ} {f : α → List β} {as : List α} {a : α} {k : κ}
    (hnodup : as.Nodup) (ha : a ∈ as) (hothers : ∀ b ∈ as, b ≠ a → ∀ c ∈ f b, key c ≠ k) :
    lastEntry key (as.flatMap f) k = lastEntry key (f a) k := by
  obtain ⟨before, after, rfl⟩ := List.append_of_mem ha
  rw [List.nodup_middle, List.nodup_cons] at hnodup
  have hne (b : α) (hb : b ∈ before ++ after) : ∀ c ∈ f b, key c ≠ k := by
    refine hothers b ?_ fun heq => hnodup.1 (heq ▸ hb)
    exact (List.perm_middle.mem_iff).mpr (List.mem_cons_of_mem _ hb)
  rw [List.flatMap_append, List.flatMap_cons, lastEntry_append_of_ne_left, lastEntry_append_of_ne]
  · intro c hc
    obtain ⟨b, hb, hc⟩ := List.mem_flatMap.mp hc
    exact hne b (List.mem_append_right _ hb) c hc
  · intro c hc
    obtain ⟨b, hb, hc⟩ := List.mem_flatMap.mp hc
    exact hne b (List.mem_append_left _ hb) c hc

/-- Lookup under keys which are written in another way. -/
theorem lastEntry_of_injective {κ' : Type*} [DecidableEq κ'] {g : κ → κ'}
    (hg : Function.Injective g) (key : β → κ) (l : List β) (k : κ) :
    lastEntry (fun b => g (key b)) l (g k) = lastEntry key l k := by
  rw [lastEntry, lastEntry, entries, entries]
  congr 1
  exact List.filter_congr fun b _ => by rw [decide_eq_decide, hg.eq_iff]

/-- If keys are distinct each element is found under its own. -/
theorem lastEntry_of_nodup {key : β → κ} {l : List β} (hnodup : (l.map key).Nodup) {b : β}
    (hb : b ∈ l) : lastEntry key l (key b) = some b := by
  obtain ⟨c, hc⟩ := exists_lastEntry key hb
  obtain ⟨hmem, hkey⟩ := mem_of_lastEntry hc
  rwa [List.inj_on_of_nodup_map hnodup hmem hb hkey] at hc

end LastEntry
