import HetidaDesigner.Library.Checks
import Mathlib.Data.Finset.Card

/-!
# Filling a dictionary level by level

Keys which a dictionary does not have yet are loaded, and what is loaded asks for further keys;
this goes on until a level asks for nothing. A filled dictionary has what it was filled with and
whatever its new entries ask for, and nothing else. If only finitely many keys can be asked for, a
bounded number of levels suffices.
-/

namespace Collecting

open Checks

variable {K A E : Type} [DecidableEq K] (load : K → Except E A) (asks : A → Except E (List K))

/-- The keys of some dictionary entries. -/
def keys (entries : List (K × A)) : List K := entries.map Prod.fst

/-- The keys which a dictionary does not have, each of them once. -/
def missing (wanted : List K) (entries : List (K × A)) : List K :=
  (wanted.filter fun key => key ∉ keys entries).eraseDups

/-- An entry for a key. -/
def loadEntry (key : K) : Except E (K × A) := (load key).map fun a => (key, a)

/-- One level: the dictionary with the missing entries, and what these ask for. -/
def level (wanted : List K) (entries : List (K × A)) :
    Except E (List (K × A) × List K) := do
  let new ← (missing wanted entries).mapM (loadEntry load)
  let asked ← new.mapM fun entry => asks entry.2
  return (entries ++ new, asked.flatten)

/-- Fill a dictionary; nothing if the levels do not suffice. -/
def fill : ℕ → List K → List (K × A) → Option (Except E (List (K × A)))
  | 0, _, _ => none
  | levels + 1, wanted, entries =>
    match level load asks wanted entries with
    | .error error => some (.error error)
    | .ok (entries, []) => some (.ok entries)
    | .ok (entries, asked) => fill levels asked entries

/-- What one level does. -/
structure LevelSpec (wanted : List K) (entries result : List (K × A)) (asked : List K) : Prop where
  old : entries ⊆ result
  complete : ∀ key ∈ wanted, key ∈ keys result
  new : ∀ entry ∈ result, entry ∈ entries ∨ entry.1 ∈ missing wanted entries ∧
    load entry.1 = .ok entry.2 ∧ ∃ asked', asks entry.2 = .ok asked' ∧ asked' ⊆ asked
  origin : ∀ key ∈ asked, ∃ entry ∈ result, entry.1 ∈ missing wanted entries ∧
    load entry.1 = .ok entry.2 ∧ ∃ asked', asks entry.2 = .ok asked' ∧ key ∈ asked'

variable {load asks}

/-- Missing keys are wanted ones which the dictionary does not have. -/
@[simp] theorem mem_missing {key : K} {wanted : List K} {entries : List (K × A)} :
    key ∈ missing wanted entries ↔ key ∈ wanted ∧ key ∉ keys entries := by
  simp [missing, List.mem_eraseDups]

omit [DecidableEq K] in
/-- A loaded entry. -/
theorem loadEntry_eq_ok {key : K} {entry : K × A} :
    loadEntry load key = .ok entry ↔ entry.1 = key ∧ load key = .ok entry.2 := by
  rw [loadEntry, map_eq_ok]
  constructor
  · rintro ⟨a, hload, rfl⟩
    exact ⟨rfl, hload⟩
  · rintro ⟨hkey, hload⟩
    exact ⟨entry.2, hload, Prod.ext hkey.symm rfl⟩

/-- Another level is needed if something is asked for. -/
theorem fill_succ (levels : ℕ) (wanted : List K) (entries : List (K × A)) :
    fill load asks (levels + 1) wanted entries =
      match level load asks wanted entries with
      | .error error => some (.error error)
      | .ok (entries, asked) =>
        if asked = [] then some (.ok entries) else fill load asks levels asked entries := by
  rw [fill]
  cases level load asks wanted entries with
  | error error => rfl
  | ok result =>
    obtain ⟨entries, asked⟩ := result
    cases asked <;> rfl

/-- A successful level does that. -/
theorem levelSpec {wanted : List K} {entries : List (K × A)} {result : List (K × A)}
    {asked : List K} (h : level load asks wanted entries = .ok (result, asked)) :
    LevelSpec load asks wanted entries result asked := by
  obtain ⟨new, hnew, h⟩ := bind_eq_ok.mp h
  obtain ⟨lists, hlists, h⟩ := bind_eq_ok.mp h
  obtain ⟨rfl, rfl⟩ := Prod.mk.inj (return_eq_ok.mp h)
  have hloaded : ∀ entry ∈ new, entry.1 ∈ missing wanted entries ∧
      load entry.1 = .ok entry.2 := by
    intro entry hentry
    obtain ⟨key, hkey, hload⟩ := exists_argument_of_mapM hnew hentry
    obtain ⟨rfl, hload⟩ := loadEntry_eq_ok.mp hload
    exact ⟨hkey, hload⟩
  refine ⟨List.subset_append_left _ _, fun key hkey => ?_, fun entry hentry => ?_,
    fun key hkey => ?_⟩
  · by_cases hold : key ∈ keys entries
    · exact List.map_subset _ (List.subset_append_left _ _) hold
    · obtain ⟨entry, hentry, hload⟩ := exists_of_mapM hnew (mem_missing.mpr ⟨hkey, hold⟩)
      obtain ⟨rfl, -⟩ := loadEntry_eq_ok.mp hload
      exact List.mem_map_of_mem (List.mem_append_right _ hentry)
  · rcases List.mem_append.mp hentry with hold | hentry
    · exact Or.inl hold
    · obtain ⟨hmissing, hload⟩ := hloaded entry hentry
      obtain ⟨asked', hasked', hasks⟩ := exists_of_mapM hlists hentry
      exact Or.inr ⟨hmissing, hload, asked', hasks,
        fun key hkey => List.mem_flatten.mpr ⟨asked', hasked', hkey⟩⟩
  · obtain ⟨asked', hasked', hkey⟩ := List.mem_flatten.mp hkey
    obtain ⟨entry, hentry, hasks⟩ := exists_argument_of_mapM hlists hasked'
    obtain ⟨hmissing, hload⟩ := hloaded entry hentry
    exact ⟨entry, List.mem_append_right _ hentry, hmissing, hload, asked', hasks, hkey⟩

omit [DecidableEq K] in
/-- Erasing repetitions leaves none. -/
theorem nodup_eraseDups [BEq K] [LawfulBEq K] (ks : List K) : ks.eraseDups.Nodup := by
  induction hlength : ks.length using Nat.strong_induction_on generalizing ks with
  | h n ih =>
    cases ks with
    | nil => exact List.nodup_nil
    | cons k rest =>
      rw [List.eraseDups_cons, List.nodup_cons]
      refine ⟨fun h => ?_, ih _ ?_ _ rfl⟩
      · have hfilter := (List.mem_filter.mp (List.mem_eraseDups.mp h)).2
        simp at hfilter
      · rw [← hlength, List.length_cons]
        exact Nat.lt_succ_of_le (List.length_filter_le _ _)

/-- A level enters each key once. -/
theorem keys_nodup_of_level {wanted : List K} {entries result : List (K × A)} {asked : List K}
    (h : level load asks wanted entries = .ok (result, asked)) (hkeys : (keys entries).Nodup) :
    (keys result).Nodup := by
  obtain ⟨new, hnew, h⟩ := bind_eq_ok.mp h
  obtain ⟨lists, -, h⟩ := bind_eq_ok.mp h
  obtain ⟨rfl, -⟩ := Prod.mk.inj (return_eq_ok.mp h)
  have hnewKeys : keys new = missing wanted entries := by
    have hsame := @map_eq_of_mapM _ _ _ _ _ id Prod.fst _ _ hnew fun key entry hload =>
      (loadEntry_eq_ok.mp hload).1
    rwa [List.map_id] at hsame
  have hresult : keys (entries ++ new) = keys entries ++ missing wanted entries := by
    rw [← hnewKeys]
    exact List.map_append
  rw [hresult, List.nodup_append]
  refine ⟨hkeys, nodup_eraseDups _, ?_⟩
  rintro key hold key' hmissing rfl
  exact (mem_missing.mp hmissing).2 hold

/-- A filled dictionary has each key once. -/
theorem keys_nodup_of_fill {levels : ℕ} {wanted : List K} {entries result : List (K × A)}
    (h : fill load asks levels wanted entries = some (.ok result)) (hkeys : (keys entries).Nodup) :
    (keys result).Nodup := by
  induction levels generalizing wanted entries with
  | zero => exact absurd h (by simp [fill])
  | succ levels ih =>
    rw [fill_succ] at h
    split at h
    · exact absurd h (by simp)
    · rename_i filled asked hlevel
      have hfilled := keys_nodup_of_level hlevel hkeys
      split at h
      · obtain rfl := Except.ok.inj (Option.some.inj h)
        exact hfilled
      · exact ih h hfilled

/-- A result has what was there before and all that was wanted. -/
theorem subset_of_fill {levels : ℕ} {wanted : List K} {entries result : List (K × A)}
    (h : fill load asks levels wanted entries = some (.ok result)) :
    entries ⊆ result ∧ ∀ key ∈ wanted, key ∈ keys result := by
  induction levels generalizing wanted entries with
  | zero => exact absurd h (by simp [fill])
  | succ levels ih =>
    rw [fill_succ] at h
    split at h
    · exact absurd h (by simp)
    · rename_i filled asked hlevel
      have hspec := levelSpec hlevel
      split at h
      · obtain rfl := Except.ok.inj (Option.some.inj h)
        exact ⟨hspec.old, hspec.complete⟩
      · obtain ⟨hfilled, -⟩ := ih h
        exact ⟨List.Subset.trans hspec.old hfilled,
          fun key hkey => List.map_subset _ hfilled (hspec.complete key hkey)⟩

/-- New entries of a result are loaded, and the result has whatever they ask for. -/
theorem closed_of_fill {levels : ℕ} {wanted : List K} {entries result : List (K × A)}
    (h : fill load asks levels wanted entries = some (.ok result)) {entry : K × A}
    (hentry : entry ∈ result) :
    entry ∈ entries ∨ load entry.1 = .ok entry.2 ∧
      ∃ asked, asks entry.2 = .ok asked ∧ asked ⊆ keys result := by
  induction levels generalizing wanted entries with
  | zero => exact absurd h (by simp [fill])
  | succ levels ih =>
    rw [fill_succ] at h
    split at h
    · exact absurd h (by simp)
    · rename_i filled asked hlevel
      have hspec := levelSpec hlevel
      split at h
      · rename_i hnothing
        obtain rfl := Except.ok.inj (Option.some.inj h)
        rcases hspec.new entry hentry with hold | ⟨-, hload, asked', hasks, hsub⟩
        · exact Or.inl hold
        · refine Or.inr ⟨hload, asked', hasks, fun key hkey => ?_⟩
          exact absurd (hnothing ▸ hsub hkey) List.not_mem_nil
      · rcases ih h with hfilled | hnew
        · rcases hspec.new entry hfilled with hold | ⟨-, hload, asked', hasks, hsub⟩
          · exact Or.inl hold
          · exact Or.inr ⟨hload, asked', hasks, fun key hkey =>
              (subset_of_fill h).2 key (hsub hkey)⟩
        · exact Or.inr hnew

section Property

variable {P : K → Prop}
  (hasks : ∀ key, P key → ∀ a, load key = .ok a → ∀ asked, asks a = .ok asked →
    ∀ key' ∈ asked, P key')

include hasks

/-- What a level asks for has a property which passes from keys to what they ask for. -/
theorem LevelSpec.asked_property {wanted : List K} {entries result : List (K × A)}
    {asked : List K} (h : LevelSpec load asks wanted entries result asked)
    (hwanted : ∀ key ∈ wanted, P key) : ∀ key ∈ asked, P key := by
  intro key hkey
  obtain ⟨entry, -, hmissing, hload, asked', hasked', hin⟩ := h.origin key hkey
  exact hasks _ (hwanted _ (mem_missing.mp hmissing).1) _ hload _ hasked' key hin

/-- New entries have a property of what is wanted which passes to what is asked for. -/
theorem property_of_fill {levels : ℕ} {wanted : List K} {entries result : List (K × A)}
    (h : fill load asks levels wanted entries = some (.ok result))
    (hwanted : ∀ key ∈ wanted, P key) {entry : K × A} (hentry : entry ∈ result) :
    entry ∈ entries ∨ P entry.1 := by
  induction levels generalizing wanted entries with
  | zero => exact absurd h (by simp [fill])
  | succ levels ih =>
    rw [fill_succ] at h
    split at h
    · exact absurd h (by simp)
    · rename_i filled asked hlevel
      have hspec := levelSpec hlevel
      have hnew (hin : entry ∈ filled) : entry ∈ entries ∨ P entry.1 := by
        rcases hspec.new entry hin with hold | ⟨hmissing, -⟩
        · exact Or.inl hold
        · exact Or.inr (hwanted _ (mem_missing.mp hmissing).1)
      split at h
      · obtain rfl := Except.ok.inj (Option.some.inj h)
        exact hnew hentry
      · rcases ih h (hspec.asked_property hasks hwanted) with hin | hin
        · exact hnew hin
        · exact Or.inr hin

end Property

section Ends

variable {P : K → Prop}
  (hload : ∀ key, P key → ∃ a asked, load key = .ok a ∧ asks a = .ok asked ∧
    ∀ key' ∈ asked, P key')

include hload

/-- A level succeeds if all that is wanted can be loaded. -/
theorem exists_level {wanted : List K} (hwanted : ∀ key ∈ wanted, P key)
    (entries : List (K × A)) :
    ∃ result, level load asks wanted entries = .ok result := by
  have hloads : ∀ key ∈ missing wanted entries, ∃ entry, loadEntry load key = .ok entry := by
    intro key hkey
    obtain ⟨a, -, hok, -⟩ := hload key (hwanted key (mem_missing.mp hkey).1)
    exact ⟨(key, a), loadEntry_eq_ok.mpr ⟨rfl, hok⟩⟩
  obtain ⟨new, hnew⟩ := exists_mapM hloads
  have hasks : ∀ entry ∈ new, ∃ asked, asks entry.2 = .ok asked := by
    intro entry hentry
    obtain ⟨key, hkey, hentryLoad⟩ := exists_argument_of_mapM hnew hentry
    obtain ⟨rfl, hok⟩ := loadEntry_eq_ok.mp hentryLoad
    obtain ⟨a, asked, hok', hasked, -⟩ := hload _ (hwanted _ (mem_missing.mp hkey).1)
    obtain rfl := Except.ok.inj (hok.symm.trans hok')
    exact ⟨asked, hasked⟩
  obtain ⟨lists, hlists⟩ := exists_mapM hasks
  exact ⟨_, bind_eq_ok.mpr ⟨new, hnew, bind_eq_ok.mpr ⟨lists, hlists, rfl⟩⟩⟩

/-- If finitely many keys can be asked for, and all of these can be loaded, filling a dictionary
succeeds: each level but the last one enters a new key. -/
theorem exists_fill {possible : Finset K} (hfinite : ∀ key, P key → key ∈ possible) {levels : ℕ}
    {wanted : List K} {entries : List (K × A)} (hwanted : ∀ key ∈ wanted, P key)
    (hlevels : (possible.filter fun key => key ∉ keys entries).card < levels) :
    ∃ result, fill load asks levels wanted entries = some (.ok result) := by
  induction levels generalizing wanted entries with
  | zero => exact absurd hlevels (Nat.not_lt_zero _)
  | succ levels ih =>
    obtain ⟨⟨filled, asked⟩, hlevel⟩ := exists_level hload hwanted entries
    have hspec := levelSpec hlevel
    rw [fill_succ, hlevel]
    dsimp only
    split
    · exact ⟨filled, rfl⟩
    · rename_i hasked
      obtain ⟨key, hkey⟩ := List.exists_mem_of_ne_nil asked hasked
      obtain ⟨entry, hentry, hmissing, -⟩ := hspec.origin key hkey
      obtain ⟨hentryWanted, hentryNew⟩ := mem_missing.mp hmissing
      have hfewer : (possible.filter fun key => key ∉ keys filled) ⊂
          possible.filter fun key => key ∉ keys entries := by
        refine Finset.ssubset_iff_of_subset (fun key hkey => ?_) |>.mpr ⟨entry.1, ?_, fun h => ?_⟩
        · obtain ⟨hpossible, hnot⟩ := Finset.mem_filter.mp hkey
          exact Finset.mem_filter.mpr ⟨hpossible,
            fun hold => hnot (List.map_subset _ hspec.old hold)⟩
        · exact Finset.mem_filter.mpr ⟨hfinite _ (hwanted _ hentryWanted), hentryNew⟩
        · exact (Finset.mem_filter.mp h).2 (List.mem_map_of_mem hentry)
      refine ih (hspec.asked_property (fun key hP a hok asked' hasks => ?_) hwanted) ?_
      · obtain ⟨a', asked'', hok', hasks', hall⟩ := hload key hP
        obtain rfl := Except.ok.inj (hok.symm.trans hok')
        obtain rfl := Except.ok.inj (hasks.symm.trans hasks')
        exact hall
      · exact Nat.lt_of_lt_of_le (Finset.card_lt_card hfewer) (Nat.le_of_lt_succ hlevels)

end Ends

end Collecting
