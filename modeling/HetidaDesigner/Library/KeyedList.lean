import HetidaDesigner.Library.LastEntry
import Mathlib.Data.List.Induction
import Mathlib.Data.List.Nodup
import Mathlib.Data.List.Lattice

/-!
# Lists with distinct keys

Dictionaries in insertion order and the tables of a store are lists whose elements have
distinct keys. The lemmas describe lookup and membership after the usual changes.
-/

namespace KeyedList

variable {A K : Type*}

/-! ## Distinct keys -/

section Distinct

variable {key : A → K}

/-- A new key keeps keys distinct. -/
theorem append_nodup {entries : List A} (h : (entries.map key).Nodup) {a : A}
    (hnew : ∀ b ∈ entries, key b ≠ key a) : ((entries ++ [a]).map key).Nodup := by
  rw [List.map_append, List.nodup_append]
  refine ⟨h, by simp, ?_⟩
  rintro k hk k' hk' rfl
  obtain ⟨b, hb, hbk⟩ := List.mem_map.mp hk
  have hka : k = key a := by simpa using hk'
  exact hnew b hb (hbk.trans hka)

/-- Leaving out elements keeps keys distinct. -/
theorem filter_nodup {entries : List A} (h : (entries.map key).Nodup) (p : A → Bool) :
    ((entries.filter p).map key).Nodup :=
  h.sublist (List.filter_sublist.map key)

/-- Distinct keys identify elements. -/
theorem eq_of_key_eq {entries : List A} (h : (entries.map key).Nodup) {a b : A}
    (ha : a ∈ entries) (hb : b ∈ entries) (hkey : key a = key b) : a = b :=
  List.inj_on_of_nodup_map h ha hb hkey

/-- Of elements with one key there is only one. -/
theorem filter_eq_singleton {entries : List A} (h : (entries.map key).Nodup) {a : A}
    (ha : a ∈ entries) {p : A → Bool} (hp : p a = true)
    (honly : ∀ b ∈ entries, p b = true → key b = key a) : entries.filter p = [a] := by
  apply List.perm_singleton.mp
  rw [List.perm_ext_iff_of_nodup (filter_nodup h _).of_map (List.nodup_singleton a)]
  intro b
  rw [List.mem_filter, List.mem_singleton]
  constructor
  · intro ⟨hb, hpb⟩
    exact eq_of_key_eq h hb ha (honly b hb hpb)
  · rintro rfl
    exact ⟨ha, hp⟩

/-- With distinct keys an entry is found exactly if it is there. -/
theorem lookup_eq_some_iff_mem {B : Type*} [BEq K] [LawfulBEq K] {entries : List (K × B)}
    (h : (entries.map Prod.fst).Nodup) {k : K} {b : B} :
    entries.lookup k = some b ↔ (k, b) ∈ entries := by
  rw [List.lookup_eq_some_iff]
  constructor
  · rintro ⟨before, after, rfl, -⟩
    simp
  · intro hmem
    obtain ⟨before, after, rfl⟩ := List.append_of_mem hmem
    refine ⟨before, after, rfl, fun entry hentry => ?_⟩
    rw [List.map_append, List.nodup_append] at h
    have hne := h.2.2 entry.1 (List.mem_map_of_mem hentry) k (by simp)
    simpa using hne.symm

end Distinct

/-- What is found is there. -/
theorem mem_of_lookup_eq_some {B : Type*} [BEq K] [LawfulBEq K] {entries : List (K × B)} {k : K}
    {b : B} (h : entries.lookup k = some b) : (k, b) ∈ entries := by
  obtain ⟨before, after, rfl, -⟩ := List.lookup_eq_some_iff.mp h
  simp

/-- Nothing is found exactly under other keys. -/
theorem lookup_eq_none_iff_notMem {B : Type*} [BEq K] [LawfulBEq K] {entries : List (K × B)}
    {k : K} : entries.lookup k = none ↔ k ∉ entries.map Prod.fst := by
  rw [List.lookup_eq_none_iff, List.mem_map, not_exists]
  refine forall_congr' fun entry => ?_
  rw [not_and]
  refine imp_congr_right fun _ => ?_
  rw [bne_iff_ne, ne_comm]

/-! ## Changes -/

section Changes

variable [DecidableEq K] (key : A → K)

/-- The first element with a key. -/
def lookup (k : K) (entries : List A) : Option A := entries.find? fun a => key a = k

/-- Put an element in the place of the one with its key. -/
def replace (entries : List A) (a : A) : List A :=
  entries.map fun b => if key b = key a then a else b

/-- Enter an element; a known key keeps its place. -/
def insertEntry (entries : List A) (a : A) : List A :=
  if entries.any fun b => key b = key a then replace key entries a else entries ++ [a]

variable {key}

/-- Replacing leaves the keys alone. -/
theorem map_key_replace (entries : List A) (a : A) :
    (replace key entries a).map key = entries.map key := by
  rw [replace, List.map_map]
  refine List.map_congr_left fun b _ => ?_
  simp only [Function.comp_apply]
  split <;> simp [*]

/-- Entering an element keeps keys distinct. -/
theorem insertEntry_nodup {entries : List A} (h : (entries.map key).Nodup) (a : A) :
    ((insertEntry key entries a).map key).Nodup := by
  unfold insertEntry
  split
  · rwa [map_key_replace]
  · rename_i hnew
    refine append_nodup h fun b hb heq => hnew ?_
    exact List.any_eq_true.mpr ⟨b, hb, by simpa using heq⟩

/-- An element was there before or has been put in the place of one. -/
theorem mem_replace {entries : List A} {a b : A} (h : b ∈ replace key entries a) :
    (b ∈ entries ∧ key b ≠ key a) ∨ (b = a ∧ ∃ c ∈ entries, key c = key a) := by
  obtain ⟨c, hc, rfl⟩ := List.mem_map.mp h
  split
  · exact Or.inr ⟨rfl, c, hc, by assumption⟩
  · exact Or.inl ⟨hc, by assumption⟩

/-- An element after entering one is that or has another key and was there before. -/
theorem mem_insertEntry_iff {entries : List A} {a b : A} :
    b ∈ insertEntry key entries a ↔ b = a ∨ (b ∈ entries ∧ key b ≠ key a) := by
  unfold insertEntry
  split
  · rename_i hany
    obtain ⟨c, hc, hkey⟩ := List.any_eq_true.mp hany
    replace hkey : key c = key a := by simpa using hkey
    constructor
    · intro h
      rcases mem_replace h with h | ⟨rfl, -⟩
      · exact Or.inr h
      · exact Or.inl rfl
    · rintro (rfl | ⟨hb, hne⟩)
      · exact List.mem_map.mpr ⟨c, hc, if_pos hkey⟩
      · exact List.mem_map.mpr ⟨b, hb, if_neg hne⟩
  · rename_i hany
    have hnew : ∀ c ∈ entries, key c ≠ key a := fun c hc heq =>
      hany (List.any_eq_true.mpr ⟨c, hc, by simpa using heq⟩)
    rw [List.mem_append, List.mem_singleton]
    constructor
    · rintro (hb | rfl)
      · exact Or.inr ⟨hb, hnew b hb⟩
      · exact Or.inl rfl
    · rintro (rfl | ⟨hb, -⟩)
      · exact Or.inr rfl
      · exact Or.inl hb

/-- Elements of which none has the key of an entered element stay in order. -/
theorem filter_insertEntry {entries : List A} {a : A} {p : A → Bool}
    (hp : ∀ b, key b = key a → p b = false) :
    (insertEntry key entries a).filter p = entries.filter p := by
  unfold insertEntry
  split
  · clear * - hp
    induction entries with
    | nil => rfl
    | cons b rest ih =>
      rw [replace, List.map_cons, ← replace]
      by_cases hb : key b = key a
      · rw [if_pos hb, List.filter_cons_of_neg (by simp [hp a rfl]), ih,
          List.filter_cons_of_neg (by simp [hp b hb])]
      · rw [if_neg hb, List.filter_cons, List.filter_cons, ih]
  · rw [List.filter_append, List.filter_singleton, hp a rfl]
    simp

/-! ## Lookup -/

/-- An element which is found is in the list and has the key. -/
theorem lookup_eq_some {k : K} {entries : List A} {a : A} (h : lookup key k entries = some a) :
    a ∈ entries ∧ key a = k :=
  ⟨List.mem_of_find?_eq_some h, by simpa using List.find?_some h⟩

/-- With distinct keys every element is found under its key. -/
theorem lookup_of_mem {entries : List A} (h : (entries.map key).Nodup) {a : A}
    (ha : a ∈ entries) : lookup key (key a) entries = some a := by
  cases hb : lookup key (key a) entries with
  | none =>
    have hnone := List.find?_eq_none.mp hb a ha
    simp at hnone
  | some b =>
    obtain ⟨hmem, hkey⟩ := lookup_eq_some hb
    rw [eq_of_key_eq h hmem ha hkey]

/-- Nothing is found exactly for keys which no element has. -/
theorem lookup_eq_none {k : K} {entries : List A} :
    lookup key k entries = none ↔ ∀ a ∈ entries, key a ≠ k := by
  simp [lookup, List.find?_eq_none]

/-- Lookup after replacing. -/
theorem lookup_replace (k : K) (entries : List A) (a : A) :
    lookup key k (replace key entries a) =
      if k = key a then (lookup key k entries).map fun _ => a else lookup key k entries := by
  induction entries with
  | nil => simp [lookup, replace]
  | cons b rest ih =>
    simp only [lookup, replace, List.map_cons, List.find?_cons] at ih ⊢
    by_cases hk : k = key a
    · subst hk
      by_cases hb : key b = key a
      · simp [hb]
      · simpa [hb] using ih
    · by_cases hb : key b = key a
      · simpa [hb, hk, Ne.symm hk] using ih
      · by_cases hbk : key b = k
        · simp [hbk, hk]
        · simpa [hb, hbk, hk] using ih

/-- Lookup after appending an element with a new key. -/
theorem lookup_append {entries : List A} {a : A} (hnew : ∀ b ∈ entries, key b ≠ key a) (k : K) :
    lookup key k (entries ++ [a]) = if k = key a then some a else lookup key k entries := by
  rw [lookup, List.find?_append]
  split
  · rename_i hk
    have hnone : entries.find? (fun b => key b = k) = none :=
      List.find?_eq_none.mpr fun b hb => by simpa [hk] using hnew b hb
    rw [hnone, hk]
    simp
  · rename_i hk
    simp [Ne.symm hk, lookup]

/-- Lookup after entering an element. -/
theorem lookup_insertEntry (k : K) (entries : List A) (a : A) :
    lookup key k (insertEntry key entries a) =
      if k = key a then some a else lookup key k entries := by
  unfold insertEntry
  split
  · rename_i hany
    obtain ⟨b, hb, hkey⟩ := List.any_eq_true.mp hany
    rw [lookup_replace]
    split
    · rename_i hk
      cases hlookup : lookup key k entries with
      | none => exact absurd ((of_decide_eq_true hkey).trans hk.symm) (lookup_eq_none.mp hlookup b hb)
      | some c => rfl
    · rfl
  · rename_i hany
    refine lookup_append (fun b hb heq => hany ?_) k
    exact List.any_eq_true.mpr ⟨b, hb, decide_eq_true heq⟩

/-- What is found under a key is what belongs to the entry with it. -/
theorem list_lookup_eq {B : Type*} [BEq K] [LawfulBEq K] (entries : List (K × B)) (k : K) :
    entries.lookup k = (lookup Prod.fst k entries).map Prod.snd := by
  induction entries with
  | nil => rfl
  | cons entry rest ih =>
    rw [List.lookup_cons, lookup, List.find?_cons, ← lookup]
    by_cases hk : entry.1 = k
    · simp [hk]
    · have hbeq : (k == entry.1) = false := beq_eq_false_iff_ne.mpr (Ne.symm hk)
      rw [hbeq, decide_eq_false hk]
      exact ih

/-- What is found after entering an entry. -/
theorem list_lookup_insertEntry {B : Type*} [BEq K] [LawfulBEq K] (entries : List (K × B))
    (entry : K × B) (k : K) :
    (insertEntry Prod.fst entries entry).lookup k =
      if k = entry.1 then some entry.2 else entries.lookup k := by
  rw [list_lookup_eq, lookup_insertEntry, list_lookup_eq]
  split <;> rfl

/-- Entering an element which is there changes nothing. -/
theorem insertEntry_self {entries : List A} (h : (entries.map key).Nodup) {a : A}
    (ha : a ∈ entries) : insertEntry key entries a = entries := by
  have hany : (entries.any fun b => key b = key a) = true :=
    List.any_eq_true.mpr ⟨a, ha, decide_eq_true rfl⟩
  rw [insertEntry, if_pos hany, replace]
  refine (List.map_congr_left fun b hb => ?_).trans (List.map_id _)
  split
  · rename_i hkey
    exact eq_of_key_eq h ha hb hkey.symm
  · rfl

/-- Lookup after a change which keeps keys. -/
theorem lookup_map {f : A → A} (hf : ∀ a, key (f a) = key a) (k : K) (entries : List A) :
    lookup key k (entries.map f) = (lookup key k entries).map f := by
  rw [lookup, lookup, List.find?_map]
  congr 2
  funext a
  simp [hf]

/-- Entering an element and a change which keeps keys. -/
theorem map_insertEntry {f : A → A} (hf : ∀ a, key (f a) = key a) (entries : List A) (a : A) :
    (insertEntry key entries a).map f = insertEntry key (entries.map f) (f a) := by
  have hany : (entries.map f).any (fun b => decide (key b = key (f a))) =
      entries.any fun b => decide (key b = key a) := by
    rw [List.any_map]
    congr 1
    funext b
    simp [hf]
  rw [insertEntry, insertEntry, hany]
  split
  · rw [replace, replace, List.map_map, List.map_map]
    refine List.map_congr_left fun b _ => ?_
    rw [Function.comp_apply, Function.comp_apply, hf, hf]
    exact apply_ite f _ _ _
  · exact List.map_append

/-- Lookup after removing what has some key. -/
theorem lookup_filter_ne (k k' : K) (entries : List A) :
    lookup key k (entries.filter fun a => key a ≠ k') =
      if k = k' then none else lookup key k entries := by
  induction entries with
  | nil => simp [lookup]
  | cons a rest ih =>
    simp only [lookup] at ih ⊢
    by_cases ha : key a = k'
    · by_cases hk : k = k'
      · simp [hk]
      · simpa [ha, hk, Ne.symm hk] using ih
    · by_cases hk : k = k'
      · simp [hk]
      · by_cases hak : key a = k
        · simp [hak, hk]
        · simpa [ha, hk, hak] using ih

end Changes

/-! ## Merging dictionaries -/

section Merge

variable [DecidableEq K] (key : A → K)

/-- Enter elements one after the other. -/
def insertAll (entries updates : List A) : List A := updates.foldl (insertEntry key) entries

/-- An element which is alone with its key. -/
def OnlyEntry (entries : List A) (a : A) : Prop := a ∈ entries ∧ ∀ b ∈ entries, key b = key a → b = a

variable {key}

/-- Entering one more element. -/
theorem insertAll_concat (entries updates : List A) (a : A) :
    insertAll key entries (updates ++ [a]) = insertEntry key (insertAll key entries updates) a := by
  rw [insertAll, List.foldl_append]
  rfl

/-- What is in a merged dictionary: the updates as a dictionary, and what they leave alone. -/
theorem mem_insertAll_iff {entries updates : List A} {a : A} :
    a ∈ insertAll key entries updates ↔
      a ∈ insertAll key [] updates ∨ (a ∈ entries ∧ ∀ b ∈ updates, key b ≠ key a) := by
  induction updates using List.reverseRecOn with
  | nil => simp [insertAll]
  | append_singleton updates u ih =>
    rw [insertAll_concat, insertAll_concat, mem_insertEntry_iff, mem_insertEntry_iff, ih]
    simp only [List.mem_append, List.mem_singleton, or_imp, forall_and, forall_eq]
    constructor
    · rintro (rfl | ⟨hold | ⟨hmem, hothers⟩, hne⟩)
      · exact Or.inl (Or.inl rfl)
      · exact Or.inl (Or.inr ⟨hold, hne⟩)
      · exact Or.inr ⟨hmem, hothers, hne.symm⟩
    · rintro ((rfl | ⟨hold, hne⟩) | ⟨hmem, hothers, hne⟩)
      · exact Or.inl rfl
      · exact Or.inr ⟨Or.inl hold, hne⟩
      · exact Or.inr ⟨Or.inr ⟨hmem, hothers⟩, hne.symm⟩

/-- A dictionary has the last element with each key. -/
theorem mem_insertAll_nil_iff {updates : List A} {a : A} :
    a ∈ insertAll key [] updates ↔ LastEntry.lastEntry key updates (key a) = some a := by
  induction updates using List.reverseRecOn with
  | nil => simp [insertAll, LastEntry.lastEntry, LastEntry.entries]
  | append_singleton updates u ih =>
    rw [insertAll_concat, mem_insertEntry_iff, LastEntry.lastEntry_concat, ih]
    split
    · rename_i hkey
      simp [hkey, eq_comm]
    · rename_i hkey
      have hne : a ≠ u := fun heq => hkey (heq ▸ rfl)
      simp [hne, Ne.symm hkey]

/-- A merged dictionary keeps distinct keys. -/
theorem insertAll_nodup {entries : List A} (h : (entries.map key).Nodup) (updates : List A) :
    ((insertAll key entries updates).map key).Nodup := by
  induction updates using List.reverseRecOn with
  | nil => exact h
  | append_singleton updates u ih =>
    rw [insertAll_concat]
    exact insertEntry_nodup ih u

/-- A dictionary has distinct keys. -/
theorem insertAll_nil_nodup (updates : List A) : ((insertAll key [] updates).map key).Nodup :=
  insertAll_nodup (show (([] : List A).map key).Nodup from List.nodup_nil) updates

/-- The keys after merging. -/
theorem mem_map_insertAll_iff {entries updates : List A} {k : K} :
    k ∈ (insertAll key entries updates).map key ↔ k ∈ entries.map key ∨ k ∈ updates.map key := by
  induction updates using List.reverseRecOn with
  | nil => simp [insertAll]
  | append_singleton updates update ih =>
    rw [insertAll_concat, List.map_append, List.mem_append, ← or_assoc, ← ih]
    simp only [List.mem_map, mem_insertEntry_iff, List.mem_singleton, exists_eq_left]
    constructor
    · rintro ⟨entry, rfl | ⟨hentry, -⟩, rfl⟩
      · exact Or.inr rfl
      · exact Or.inl ⟨entry, hentry, rfl⟩
    · rintro (⟨entry, hentry, rfl⟩ | rfl)
      · by_cases hkey : key entry = key update
        · exact ⟨update, Or.inl rfl, hkey.symm⟩
        · exact ⟨entry, Or.inr ⟨hentry, hkey⟩, rfl⟩
      · exact ⟨update, Or.inl rfl, rfl⟩

/-- The keys of a dictionary. -/
theorem mem_map_insertAll_nil_iff {updates : List A} {k : K} :
    k ∈ (insertAll key [] updates).map key ↔ k ∈ updates.map key := by
  rw [mem_map_insertAll_iff, List.map_nil, or_iff_right List.not_mem_nil]

/-- Entries with new keys, no two of them the same, are appended. -/
theorem insertAll_of_nodup {entries updates : List A}
    (h : ((entries ++ updates).map key).Nodup) :
    insertAll key entries updates = entries ++ updates := by
  induction updates using List.reverseRecOn with
  | nil => rw [List.append_nil, insertAll, List.foldl_nil]
  | append_singleton updates u ih =>
    rw [← List.append_assoc, List.map_append, List.nodup_append] at h
    obtain ⟨hfirst, -, hnew⟩ := h
    have hne : ((entries ++ updates).any fun b => key b = key u) = false := by
      rw [List.any_eq_false]
      intro b hb heq
      have hkey : key b = key u := of_decide_eq_true heq
      exact hnew (key b) (List.mem_map_of_mem hb) (key u) (by simp) hkey
    rw [insertAll_concat, ih hfirst, insertEntry, hne, List.append_assoc]
    rfl

/-- A dictionary takes its elements from the list. -/
theorem mem_of_mem_insertAll_nil {updates : List A} {a : A} (h : a ∈ insertAll key [] updates) :
    a ∈ updates := by
  induction updates using List.reverseRecOn with
  | nil => exact absurd h List.not_mem_nil
  | append_singleton updates u ih =>
    rw [insertAll_concat] at h
    rcases mem_insertEntry_iff.mp h with rfl | ⟨h, -⟩
    · exact List.mem_append_right _ (List.mem_singleton_self _)
    · exact List.mem_append_left _ (ih h)

/-- Updates are entered, or others with their keys are. -/
theorem exists_mem_insertAll {updates : List A} {a : A} (ha : a ∈ updates) (entries : List A) :
    ∃ b ∈ insertAll key entries updates, key b = key a := by
  induction updates using List.reverseRecOn with
  | nil => exact absurd ha List.not_mem_nil
  | append_singleton updates u ih =>
    rw [insertAll_concat]
    by_cases hkey : key a = key u
    · exact ⟨u, mem_insertEntry_iff.mpr (Or.inl rfl), hkey.symm⟩
    · rcases List.mem_append.mp ha with ha | ha
      · obtain ⟨b, hb, hba⟩ := ih ha
        exact ⟨b, mem_insertEntry_iff.mpr (Or.inr ⟨hb, hba ▸ hkey⟩), hba⟩
      · rw [List.mem_singleton.mp ha] at hkey
        exact absurd rfl hkey

/-- Updates of known keys change elements in their places. -/
theorem insertAll_of_keys {entries updates : List A}
    (h : ∀ a ∈ updates, ∃ b ∈ entries, key b = key a) :
    insertAll key entries updates =
      entries.map fun b => (lookup key (key b) (insertAll key [] updates)).getD b := by
  induction updates using List.reverseRecOn with
  | nil => simp [insertAll, lookup]
  | append_singleton updates u ih =>
    have hfirst := ih fun a ha => h a (List.mem_append_left _ ha)
    have hkeys (b : A) : key ((lookup key (key b) (insertAll key [] updates)).getD b) = key b := by
      cases hb : lookup key (key b) (insertAll key [] updates) with
      | none => rfl
      | some c => exact (lookup_eq_some hb).2
    obtain ⟨b, hb, hbu⟩ := h u (List.mem_append_right _ (List.mem_singleton_self u))
    have hany : ((entries.map fun b =>
        (lookup key (key b) (insertAll key [] updates)).getD b).any
          fun b => key b = key u) = true := by
      rw [List.any_map]
      exact List.any_eq_true.mpr ⟨b, hb, decide_eq_true ((hkeys b).trans hbu)⟩
    rw [insertAll_concat, insertAll_concat, hfirst, insertEntry, if_pos hany, replace, List.map_map]
    refine List.map_congr_left fun c _ => ?_
    rw [Function.comp_apply, hkeys, lookup_insertEntry]
    split <;> rfl

/-- Updates of known keys keep the keys in their places. -/
theorem map_key_insertAll_of_keys {entries updates : List A}
    (h : ∀ a ∈ updates, ∃ b ∈ entries, key b = key a) :
    (insertAll key entries updates).map key = entries.map key := by
  rw [insertAll_of_keys h, List.map_map]
  refine List.map_congr_left fun b _ => ?_
  rw [Function.comp_apply]
  cases hb : lookup key (key b) (insertAll key [] updates) with
  | none => rfl
  | some c => exact (lookup_eq_some hb).2

/-- Merging changes nothing exactly if each update is there already, alone with its key. -/
theorem insertAll_eq_self_iff {entries updates : List A} :
    insertAll key entries updates = entries ↔
      ∀ a ∈ insertAll key [] updates, OnlyEntry key entries a := by
  constructor
  · intro h a ha
    have hmem : a ∈ entries := h ▸ mem_insertAll_iff.mpr (Or.inl ha)
    refine ⟨hmem, fun b hb hkey => ?_⟩
    rw [← h] at hb
    rcases mem_insertAll_iff.mp hb with hb | ⟨-, hothers⟩
    · have hnodup : ((insertAll key [] updates).map key).Nodup :=
        insertAll_nodup (by simp) updates
      exact eq_of_key_eq hnodup hb ha hkey
    · exact absurd hkey.symm (hothers a (mem_of_mem_insertAll_nil ha))
  · intro h
    have hkeys : ∀ a ∈ updates, ∃ b ∈ entries, key b = key a := by
      intro a ha
      obtain ⟨b, hb, hkey⟩ := @exists_mem_insertAll _ _ _ key _ _ ha []
      exact ⟨b, (h b hb).1, hkey⟩
    rw [insertAll_of_keys hkeys]
    refine (List.map_congr_left fun b hb => ?_).trans (List.map_id _)
    cases hlookup : lookup key (key b) (insertAll key [] updates) with
    | none => rfl
    | some a =>
      obtain ⟨ha, hkey⟩ := lookup_eq_some hlookup
      exact ((h a ha).2 b hb hkey.symm).symm

/-- What is found under a key of the updates after merging. -/
theorem lookup_insertAll_of_mem {entries updates : List A} {a : A}
    (ha : a ∈ insertAll key [] updates) :
    lookup key (key a) (insertAll key entries updates) = some a := by
  have hmem : a ∈ insertAll key entries updates := mem_insertAll_iff.mpr (Or.inl ha)
  cases hfound : lookup key (key a) (insertAll key entries updates) with
  | none => exact absurd rfl (lookup_eq_none.mp hfound a hmem)
  | some b =>
    obtain ⟨hb, hkey⟩ := lookup_eq_some hfound
    rcases mem_insertAll_iff.mp hb with hb | ⟨-, hothers⟩
    · rw [eq_of_key_eq (insertAll_nil_nodup updates) hb ha hkey]
    · exact absurd hkey.symm (hothers a (mem_of_mem_insertAll_nil ha))

/-- What is found under another key after merging. -/
theorem lookup_insertAll_of_notMem {entries updates : List A} {k : K}
    (h : ∀ a ∈ updates, key a ≠ k) :
    lookup key k (insertAll key entries updates) = lookup key k entries := by
  induction updates using List.reverseRecOn with
  | nil => rfl
  | append_singleton updates u ih =>
    rw [insertAll_concat, lookup_insertEntry, if_neg (Ne.symm (h u (by simp)))]
    exact ih fun a ha => h a (List.mem_append_left _ ha)

/-- Merging and a change which keeps keys. -/
theorem map_insertAll {f : A → A} (hf : ∀ a, key (f a) = key a) (entries updates : List A) :
    (insertAll key entries updates).map f = insertAll key (entries.map f) (updates.map f) := by
  induction updates using List.reverseRecOn with
  | nil => rfl
  | append_singleton updates u ih =>
    rw [insertAll_concat, map_insertEntry hf, ih, List.map_append, List.map_singleton,
      insertAll_concat]

/-- What is found in a merged dictionary: the update if there is one. -/
theorem list_lookup_insertAll {B : Type*} [BEq K] [LawfulBEq K] {entries updates : List (K × B)}
    (h : (updates.map Prod.fst).Nodup) (k : K) :
    (insertAll Prod.fst entries updates).lookup k = (updates.lookup k).or (entries.lookup k) := by
  induction updates using List.reverseRecOn with
  | nil => rfl
  | append_singleton updates entry ih =>
    rw [List.map_append, List.nodup_append] at h
    obtain ⟨hfirst, -, hnew⟩ := h
    rw [insertAll_concat, list_lookup_insertEntry, ih hfirst, List.lookup_append]
    by_cases hk : k = entry.1
    · have hnone : updates.lookup k = none := lookup_eq_none_iff_notMem.mpr fun hmem =>
        hnew k hmem entry.1 (List.mem_singleton_self _) hk
      rw [if_pos hk, hnone, hk, List.lookup_cons, beq_self_eq_true]
      rfl
    · have hbeq : (k == entry.1) = false := beq_eq_false_iff_ne.mpr hk
      rw [if_neg hk, List.lookup_cons, hbeq]
      simp

/-- What is found in a dictionary is the last entry with the key. -/
theorem list_lookup_insertAll_nil {B : Type*} [BEq K] [LawfulBEq K] (updates : List (K × B))
    (k : K) : (insertAll Prod.fst [] updates).lookup k =
      (LastEntry.lastEntry Prod.fst updates k).map Prod.snd := by
  apply Option.ext
  intro b
  rw [lookup_eq_some_iff_mem (insertAll_nil_nodup updates), mem_insertAll_nil_iff,
    Option.map_eq_some_iff]
  constructor
  · exact fun h => ⟨_, h, rfl⟩
  · rintro ⟨⟨k', b'⟩, h, rfl⟩
    obtain rfl := (LastEntry.mem_of_lastEntry h).2
    exact h

omit [DecidableEq K] in
/-- What is found after changing the values. -/
theorem list_lookup_map {B C : Type*} [BEq K] [LawfulBEq K] (entries : List (K × B))
    (f : K → B → C) (k : K) :
    (entries.map fun entry => (entry.1, f entry.1 entry.2)).lookup k =
      (entries.lookup k).map (f k) := by
  induction entries with
  | nil => rfl
  | cons entry rest ih =>
    rw [List.map_cons, List.lookup_cons, List.lookup_cons, ih]
    cases hk : k == entry.1 with
    | true => rw [eq_of_beq hk]; rfl
    | false => rfl

/-- Merging twice is merging once. -/
theorem insertAll_idem (entries updates : List A) :
    insertAll key (insertAll key entries updates) updates = insertAll key entries updates := by
  refine insertAll_eq_self_iff.mpr fun a ha => ⟨mem_insertAll_iff.mpr (Or.inl ha), ?_⟩
  intro b hb hkey
  have hnodup : ((insertAll key [] updates).map key).Nodup := insertAll_nodup (by simp) updates
  rcases mem_insertAll_iff.mp hb with hb | ⟨-, hothers⟩
  · exact eq_of_key_eq hnodup hb ha hkey
  · exact absurd hkey.symm (hothers a (mem_of_mem_insertAll_nil ha))

/-- An element stays alone with its key unless another one is entered under the key. -/
theorem onlyEntry_insertAll_iff {entries updates : List A} {a : A} (h : OnlyEntry key entries a) :
    OnlyEntry key (insertAll key entries updates) a ↔
      ∀ b ∈ insertAll key [] updates, key b = key a → b = a := by
  constructor
  · exact fun honly b hb => honly.2 b (mem_insertAll_iff.mpr (Or.inl hb))
  · intro hupdates
    constructor
    · refine mem_insertAll_iff.mpr ?_
      by_cases hin : ∃ b ∈ updates, key b = key a
      · obtain ⟨b, hb, hkey⟩ := hin
        obtain ⟨c, hc, hcb⟩ := @exists_mem_insertAll _ _ _ key _ _ hb []
        exact Or.inl (hupdates c hc (hcb.trans hkey) ▸ hc)
      · exact Or.inr ⟨h.1, fun b hb hkey => hin ⟨b, hb, hkey⟩⟩
    · intro b hb hkey
      rcases mem_insertAll_iff.mp hb with hb | ⟨hb, -⟩
      · exact hupdates b hb hkey
      · exact h.2 b hb hkey

/-- Leaving out updates changes nothing exactly if they are there already, alone with their keys. -/
theorem insertAll_filter_eq_iff {entries updates : List A} (h : (updates.map key).Nodup)
    (p : A → Bool) :
    insertAll key entries (updates.filter p) = insertAll key entries updates ↔
      ∀ a ∈ updates, p a = false → OnlyEntry key entries a := by
  constructor
  · intro heq a ha hp
    have hothers : ∀ c ∈ updates.filter p, key c ≠ key a := by
      intro c hc hkey
      rw [eq_of_key_eq h (List.mem_of_mem_filter hc) ha hkey, List.mem_filter, hp] at hc
      exact Bool.false_ne_true hc.2
    have honly : ∀ b ∈ insertAll key entries updates, key b = key a → b = a := by
      intro b hb hkey
      rcases mem_insertAll_iff.mp hb with hb | ⟨-, hnone⟩
      · exact eq_of_key_eq h (mem_of_mem_insertAll_nil hb) ha hkey
      · exact absurd hkey.symm (hnone a ha)
    have hentries : ∀ b ∈ entries, key b = key a → b = a := by
      intro b hb hkey
      refine honly b ?_ hkey
      rw [← heq]
      exact mem_insertAll_iff.mpr (Or.inr ⟨hb, fun c hc => hkey ▸ hothers c hc⟩)
    obtain ⟨b, hb, hkey⟩ := @exists_mem_insertAll _ _ _ key _ _ ha entries
    rw [honly b hb hkey, ← heq] at hb
    rcases mem_insertAll_iff.mp hb with hb | ⟨hb, -⟩
    · exact absurd rfl (hothers a (mem_of_mem_insertAll_nil hb))
    · exact ⟨hb, hentries⟩
  · intro hall
    induction updates using List.reverseRecOn with
    | nil => rfl
    | append_singleton updates u ih =>
      rw [List.map_append, List.nodup_append] at h
      obtain ⟨hnodup, -, hnew⟩ := h
      have hfirst := ih hnodup fun a ha => hall a (List.mem_append_left _ ha)
      rw [List.filter_append, insertAll_concat, ← hfirst]
      cases hp : p u with
      | true => rw [List.filter_cons_of_pos hp, List.filter_nil, insertAll_concat]
      | false =>
        have honly := hall u (List.mem_append_right _ (List.mem_singleton_self u)) hp
        have hstill : OnlyEntry key (insertAll key entries updates) u := by
          refine (onlyEntry_insertAll_iff honly).mpr fun b hb hkey => ?_
          have hb := mem_of_mem_insertAll_nil hb
          exact absurd hkey (hnew _ (List.mem_map_of_mem hb) _ (by simp))
        have hsame : insertAll key (insertAll key entries updates) [u] =
            insertAll key entries updates := by
          refine insertAll_eq_self_iff.mpr fun a ha => ?_
          rw [List.mem_singleton.mp (mem_of_mem_insertAll_nil ha)]
          exact hstill
        rw [List.filter_cons_of_neg (by simp [hp]), List.filter_nil, List.append_nil, hfirst]
        exact hsame.symm

end Merge

section Groups

variable [DecidableEq K] (key : A → K)

/-- Elements by their keys, in the order in which the keys occur first. -/
def groupBy (entries : List A) : List (K × List A) :=
  entries.foldl (fun groups a =>
    insertEntry Prod.fst groups (key a, (groups.lookup (key a)).getD [] ++ [a])) []

variable {key}

/-- Entering one more element. -/
theorem groupBy_concat (entries : List A) (a : A) :
    groupBy key (entries ++ [a]) = insertEntry Prod.fst (groupBy key entries)
      (key a, ((groupBy key entries).lookup (key a)).getD [] ++ [a]) := by
  rw [groupBy, List.foldl_append]
  rfl

/-- There is one group for a key. -/
theorem groupBy_nodup (entries : List A) : ((groupBy key entries).map Prod.fst).Nodup := by
  induction entries using List.reverseRecOn with
  | nil => exact List.nodup_nil
  | append_singleton entries a ih =>
    rw [groupBy_concat]
    exact insertEntry_nodup ih _

/-- The groups have the elements. -/
theorem exists_mem_groupBy_iff {entries : List A} {a : A} :
    (∃ group ∈ groupBy key entries, a ∈ group.2) ↔ a ∈ entries := by
  induction entries using List.reverseRecOn with
  | nil => simp [groupBy]
  | append_singleton entries b ih =>
    have hgroup : a ∈ ((groupBy key entries).lookup (key b)).getD [] ↔
        ∃ group ∈ groupBy key entries, group.1 = key b ∧ a ∈ group.2 := by
      cases hlookup : (groupBy key entries).lookup (key b) with
      | none =>
        rw [lookup_eq_none_iff_notMem] at hlookup
        refine iff_of_false List.not_mem_nil fun ⟨group, hgroup, hkey, _⟩ => hlookup ?_
        exact hkey ▸ List.mem_map_of_mem hgroup
      | some elements =>
        rw [lookup_eq_some_iff_mem (groupBy_nodup entries)] at hlookup
        refine ⟨fun h => ⟨_, hlookup, rfl, h⟩, fun ⟨group, hgroup, hkey, h⟩ => ?_⟩
        obtain rfl := eq_of_key_eq (groupBy_nodup entries) hgroup hlookup hkey
        exact h
    rw [groupBy_concat, List.mem_append, ← ih, List.mem_singleton]
    simp only [mem_insertEntry_iff]
    constructor
    · rintro ⟨group, rfl | ⟨hold, hkey⟩, ha⟩
      · rcases List.mem_append.mp ha with ha | ha
        · obtain ⟨group, hold, -, ha⟩ := hgroup.mp ha
          exact Or.inl ⟨group, hold, ha⟩
        · exact Or.inr (List.mem_singleton.mp ha)
      · exact Or.inl ⟨group, hold, ha⟩
    · rintro (⟨group, hold, ha⟩ | rfl)
      · by_cases hkey : group.1 = key b
        · refine ⟨_, Or.inl rfl, List.mem_append_left _ ?_⟩
          exact hgroup.mpr ⟨group, hold, hkey, ha⟩
        · exact ⟨group, Or.inr ⟨hold, hkey⟩, ha⟩
      · exact ⟨_, Or.inl rfl, List.mem_append_right _ (List.mem_singleton_self _)⟩

/-- A group has the elements with its key, in their order. -/
theorem eq_filter_of_mem_groupBy {entries : List A} {group : K × List A}
    (h : group ∈ groupBy key entries) : group.2 = entries.filter fun a => key a = group.1 := by
  induction entries using List.reverseRecOn generalizing group with
  | nil => exact absurd h List.not_mem_nil
  | append_singleton entries b ih =>
    rw [groupBy_concat] at h
    rcases mem_insertEntry_iff.mp h with rfl | ⟨hold, hkey⟩
    · rw [List.filter_append, List.filter_cons_of_pos (by simp), List.filter_nil]
      refine congrArg (· ++ [b]) ?_
      cases hlookup : (groupBy key entries).lookup (key b) with
      | some elements => exact ih (mem_of_lookup_eq_some hlookup)
      | none =>
        rw [lookup_eq_none_iff_notMem] at hlookup
        refine (List.filter_eq_nil_iff.mpr fun a ha hkey => ?_).symm
        obtain ⟨group, hgroup, hmem⟩ := (@exists_mem_groupBy_iff _ _ _ key _ _).mpr ha
        rw [ih hgroup, List.mem_filter] at hmem
        refine hlookup (List.mem_map.mpr ⟨group, hgroup, ?_⟩)
        exact (of_decide_eq_true hmem.2).symm.trans (of_decide_eq_true hkey)
    · rw [List.filter_append, List.filter_cons_of_neg (by simpa using Ne.symm hkey),
        List.filter_nil, List.append_nil]
      exact ih hold

/-- Sorting elements into groups keeps each of them once. -/
theorem flatMap_filter_perm {keys : List K} (hnodup : keys.Nodup) {entries : List A}
    (hkeys : ∀ a ∈ entries, key a ∈ keys) :
    (keys.flatMap fun k => entries.filter fun a => key a = k).Perm entries := by
  induction keys generalizing entries with
  | nil =>
    have hnil : entries = [] := List.eq_nil_iff_forall_not_mem.mpr fun a ha =>
      List.not_mem_nil (hkeys a ha)
    rw [hnil]
    exact .refl _
  | cons k keys ih =>
    obtain ⟨hk, hnodup⟩ := List.nodup_cons.mp hnodup
    have hothers : ∀ a ∈ entries.filter fun a => !decide (key a = k), key a ∈ keys := by
      intro a ha
      obtain ⟨ha, hne⟩ := List.mem_filter.mp ha
      exact (List.mem_cons.mp (hkeys a ha)).resolve_left (by simpa using hne)
    have hrest := ih hnodup hothers
    have hsame : (keys.flatMap fun k' => (entries.filter fun a => !decide (key a = k)).filter
        fun a => key a = k') = keys.flatMap fun k' => entries.filter fun a => key a = k' := by
      refine List.flatMap_congr fun k' hk' => ?_
      rw [List.filter_filter]
      refine List.filter_congr fun a _ => ?_
      by_cases ha : key a = k'
      · have hne : key a ≠ k := fun heq => hk (heq ▸ ha ▸ hk')
        simp [ha, ha ▸ hne]
      · simp [ha]
    rw [hsame] at hrest
    rw [List.flatMap_cons]
    exact (hrest.append_left _).trans (List.filter_append_perm _ _)

/-- No group is empty. -/
theorem ne_nil_of_mem_groupBy {entries : List A} {group : K × List A}
    (h : group ∈ groupBy key entries) : group.2 ≠ [] := by
  induction entries using List.reverseRecOn with
  | nil => exact absurd h List.not_mem_nil
  | append_singleton entries a ih =>
    rw [groupBy_concat] at h
    rcases mem_insertEntry_iff.mp h with rfl | ⟨hold, -⟩
    · exact List.append_ne_nil_of_right_ne_nil _ (List.cons_ne_nil _ _)
    · exact ih hold

/-- The groups together have each element once. -/
theorem flatMap_groupBy_perm (entries : List A) :
    ((groupBy key entries).flatMap Prod.snd).Perm entries := by
  have hkeys : ∀ a ∈ entries, key a ∈ (groupBy key entries).map Prod.fst := by
    intro a ha
    obtain ⟨group, hgroup, hmem⟩ := (@exists_mem_groupBy_iff _ _ _ key _ _).mpr ha
    rw [eq_filter_of_mem_groupBy hgroup, List.mem_filter, decide_eq_true_eq] at hmem
    exact List.mem_map.mpr ⟨group, hgroup, hmem.2.symm⟩
  have hgroups : (groupBy key entries).flatMap Prod.snd =
      ((groupBy key entries).map Prod.fst).flatMap fun k => entries.filter fun a => key a = k := by
    rw [List.flatMap_map]
    exact List.flatMap_congr fun group hgroup => eq_filter_of_mem_groupBy hgroup
  rw [hgroups]
  exact flatMap_filter_perm (groupBy_nodup entries) hkeys

end Groups

/-! ## Appending what is missing -/

section Missing

variable [DecidableEq K] (key : A → K)

/-- Append an element unless there is one with its key. -/
def appendNew (entries : List A) (a : A) : List A :=
  if key a ∈ entries.map key then entries else entries ++ [a]

/-- Append elements one after the other, each key at most once. -/
def appendAllNew (entries news : List A) : List A := news.foldl (appendNew key) entries

variable {key}

/-- The keys after appending an element. -/
theorem mem_map_appendNew_iff {entries : List A} {a : A} {k : K} :
    k ∈ (appendNew key entries a).map key ↔ k ∈ entries.map key ∨ k = key a := by
  unfold appendNew
  split
  · rename_i hkey
    exact ⟨Or.inl, fun h => h.elim id fun heq => heq ▸ hkey⟩
  · rw [List.map_append, List.mem_append, List.map_singleton, List.mem_singleton]

/-- The keys after appending elements. -/
theorem mem_map_appendAllNew_iff {entries news : List A} {k : K} :
    k ∈ (appendAllNew key entries news).map key ↔ k ∈ entries.map key ∨ k ∈ news.map key := by
  induction news generalizing entries with
  | nil => simp [appendAllNew]
  | cons a rest ih =>
    change k ∈ (appendAllNew key (appendNew key entries a) rest).map key ↔ _
    rw [ih, mem_map_appendNew_iff, List.map_cons, List.mem_cons, or_assoc]

/-- Nothing but the given elements is there. -/
theorem mem_of_mem_appendAllNew {entries news : List A} {a : A}
    (h : a ∈ appendAllNew key entries news) : a ∈ entries ∨ a ∈ news := by
  induction news generalizing entries with
  | nil => exact Or.inl h
  | cons b rest ih =>
    rcases ih h with hfirst | hrest
    · unfold appendNew at hfirst
      split at hfirst
      · exact Or.inl hfirst
      · rcases List.mem_append.mp hfirst with hold | hnew
        · exact Or.inl hold
        · exact Or.inr (List.mem_singleton.mp hnew ▸ List.mem_cons_self)
    · exact Or.inr (List.mem_cons_of_mem _ hrest)

/-- Keys stay distinct. -/
theorem appendAllNew_nodup {entries : List A} (h : (entries.map key).Nodup) (news : List A) :
    ((appendAllNew key entries news).map key).Nodup := by
  induction news generalizing entries with
  | nil => exact h
  | cons a rest ih =>
    refine ih ?_
    unfold appendNew
    split
    · exact h
    · rename_i hkey
      exact append_nodup h fun b hb heq => hkey (List.mem_map.mpr ⟨b, hb, heq⟩)

end Missing

end KeyedList
