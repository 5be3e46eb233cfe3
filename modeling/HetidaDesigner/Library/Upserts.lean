import HetidaDesigner.Library.KeyedList

/-!
# Upserts

Writing rows into a table: a row whose key is there is merged into the stored one, any other is
appended. With distinct keys among the rows written, each ends up merged with what was stored
before, and writing rows which merging does not change leaves the table as it is.
-/

namespace Upserts

open KeyedList

variable {A K : Type*} [DecidableEq K] (key : A → K) (merge : A → A → A)

/-- A row merged into the stored row of its key, if there is one. -/
def merged (rows : List A) (new : A) : A :=
  match lookup key (key new) rows with
  | none => new
  | some old => merge old new

/-- Write one row. -/
def upsert (rows : List A) (new : A) : List A := insertEntry key rows (merged key merge rows new)

/-- Write a list of rows. -/
def upsertAll (rows news : List A) : List A := news.foldl (upsert key merge) rows

variable {key merge}

section Merge

variable (hmerge : ∀ old new, key old = key new → key (merge old new) = key new)

include hmerge

/-- Merging keeps the key. -/
theorem key_merged (rows : List A) (new : A) : key (merged key merge rows new) = key new := by
  unfold merged
  split
  · rfl
  · rename_i old hold
    exact hmerge old new (lookup_eq_some hold).2

/-- Lookup after writing one row. -/
theorem lookup_upsert (k : K) (rows : List A) (new : A) :
    lookup key k (upsert key merge rows new) =
      if k = key new then some (merged key merge rows new) else lookup key k rows := by
  rw [upsert, lookup_insertEntry, key_merged hmerge]

/-- Rows with other keys stay as they are. -/
theorem lookup_upsertAll_of_ne {k : K} {news : List A} (h : ∀ new ∈ news, key new ≠ k)
    (rows : List A) : lookup key k (upsertAll key merge rows news) = lookup key k rows := by
  induction news generalizing rows with
  | nil => rfl
  | cons new rest ih =>
    obtain ⟨hnew, hrest⟩ := List.forall_mem_cons.mp h
    rw [upsertAll, List.foldl_cons, ← upsertAll, ih hrest, lookup_upsert hmerge, if_neg hnew.symm]

/-- Each row written is found, merged with what was stored before. -/
theorem lookup_upsertAll {news : List A} (hnodup : (news.map key).Nodup) {new : A}
    (hnew : new ∈ news) (rows : List A) :
    lookup key (key new) (upsertAll key merge rows news) = some (merged key merge rows new) := by
  induction news generalizing rows with
  | nil => exact absurd hnew List.not_mem_nil
  | cons first rest ih =>
    obtain ⟨hfirst, hrest⟩ := List.nodup_cons.mp hnodup
    rw [upsertAll, List.foldl_cons, ← upsertAll]
    rcases List.mem_cons.mp hnew with rfl | hnew
    · have hothers : ∀ other ∈ rest, key other ≠ key new := fun other hother heq =>
        hfirst (heq ▸ List.mem_map_of_mem hother)
      rw [lookup_upsertAll_of_ne hmerge hothers, lookup_upsert hmerge, if_pos rfl]
    · have hne : key new ≠ key first := fun heq =>
        hfirst (heq ▸ List.mem_map_of_mem hnew)
      rw [ih hrest hnew, merged, lookup_upsert hmerge, if_neg hne]
      rfl

omit hmerge in
/-- Writing keeps keys distinct. -/
theorem upsertAll_nodup {rows : List A} (h : (rows.map key).Nodup) (news : List A) :
    ((upsertAll key merge rows news).map key).Nodup := by
  induction news generalizing rows with
  | nil => exact h
  | cons new rest ih => exact ih (insertEntry_nodup h _)

omit hmerge in
/-- Writing rows which merging makes the stored ones changes nothing. -/
theorem upsertAll_self {rows : List A} (h : (rows.map key).Nodup) {news : List A}
    (hstored : ∀ new ∈ news, ∃ row ∈ rows, key row = key new ∧ merge row new = row) :
    upsertAll key merge rows news = rows := by
  induction news with
  | nil => rfl
  | cons new rest ih =>
    obtain ⟨⟨row, hrow, hkey, hself⟩, hrest⟩ := List.forall_mem_cons.mp hstored
    have hmerged : merged key merge rows new = row := by
      rw [merged, ← hkey, lookup_of_mem h hrow]
      exact hself
    rw [upsertAll, List.foldl_cons, ← upsertAll, upsert, hmerged, insertEntry_self h hrow]
    exact ih hrest

/-- Writing rows twice is as good as once, if merging is. -/
theorem upsertAll_idem (hself : ∀ new, merge new new = new)
    (hidem : ∀ old new, merge (merge old new) new = merge old new) {rows news : List A}
    (hrows : (rows.map key).Nodup) (hnews : (news.map key).Nodup) :
    upsertAll key merge (upsertAll key merge rows news) news = upsertAll key merge rows news := by
  refine upsertAll_self (upsertAll_nodup hrows news) fun new hnew => ?_
  obtain ⟨hmem, hkey⟩ := lookup_eq_some (lookup_upsertAll hmerge hnews hnew rows)
  refine ⟨_, hmem, hkey, ?_⟩
  unfold merged
  split
  · exact hself new
  · exact hidem _ new

end Merge

end Upserts
