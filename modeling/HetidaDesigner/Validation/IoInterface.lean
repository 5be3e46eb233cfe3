import HetidaDesigner.Models.Transformation
import Mathlib.Data.List.Perm.Basic

/-!
# The fitted io interface

After fitting, the entries of an io interface are exactly those generated from the content ios,
one for each id, in some order. Fitting such an interface once more changes nothing.
-/

namespace HetidaDesigner

open KeyedList

variable {A B : Type}

section Dict

variable {key : A → UUID}

/-- The dictionary has distinct keys. -/
theorem dictById_nodup (key : A → UUID) (l : List A) : ((dictById key l).map key).Nodup := by
  have hfold (l : List A) : ∀ dict : List A, (dict.map key).Nodup →
      ((l.foldl (insertEntry key) dict).map key).Nodup := by
    induction l with
    | nil => exact fun dict h => h
    | cons a rest ih => exact fun dict h => ih _ (insertEntry_nodup h a)
  exact hfold l [] List.nodup_nil

/-- The dictionary takes its elements from the list. -/
theorem mem_of_mem_dictById {l : List A} {a : A} (h : a ∈ dictById key l) : a ∈ l := by
  have hfold (l : List A) : ∀ dict : List A, ∀ b ∈ l.foldl (insertEntry key) dict,
      b ∈ dict ∨ b ∈ l := by
    induction l with
    | nil => exact fun dict b hb => Or.inl hb
    | cons a rest ih =>
      intro dict b hb
      rcases ih _ b hb with hb | hb
      · rcases mem_insertEntry_iff.mp hb with rfl | ⟨hb, -⟩
        · exact Or.inr (List.mem_cons_self ..)
        · exact Or.inl hb
      · exact Or.inr (List.mem_cons_of_mem _ hb)
  rcases hfold l [] a h with h | h
  · simp at h
  · exact h

/-- Each key of the list is in the dictionary. -/
theorem exists_mem_dictById {l : List A} {a : A} (h : a ∈ l) :
    ∃ b ∈ dictById key l, key b = key a := by
  have hfold (l : List A) : ∀ dict : List A,
      ((∃ b ∈ dict, key b = key a) ∨ a ∈ l) → ∃ b ∈ l.foldl (insertEntry key) dict, key b = key a := by
    induction l with
    | nil => exact fun dict h => h.resolve_right List.not_mem_nil
    | cons first rest ih =>
      intro dict h
      refine ih _ ?_
      by_cases hfirst : key a = key first
      · exact Or.inl ⟨first, mem_insertEntry_iff.mpr (Or.inl rfl), hfirst.symm⟩
      · rcases h with ⟨b, hb, hkey⟩ | h
        · exact Or.inl ⟨b, mem_insertEntry_iff.mpr (Or.inr ⟨hb, fun heq =>
            hfirst (hkey.symm.trans heq)⟩), hkey⟩
        · refine Or.inr ((List.mem_cons.mp h).resolve_left fun heq => hfirst (heq ▸ rfl))
  exact hfold l [] (Or.inr h)

end Dict

section Fit

variable {key : A → UUID} {key' : B → UUID} {fits : A → B → Bool} {toEntry : A → B}

/-- Deleting the entry found in a dictionary leaves the others. -/
theorem perm_cons_filter_key {dict : List A} (hnodup : (dict.map key).Nodup) {a : A}
    (ha : a ∈ dict) : dict.Perm (a :: dict.filter fun b => key b ≠ key a) := by
  induction dict with
  | nil => simp at ha
  | cons b rest ih =>
    rw [List.map_cons, List.nodup_cons] at hnodup
    obtain ⟨hb, hrest⟩ := hnodup
    rcases List.mem_cons.mp ha with rfl | ha
    · have hkeep : rest.filter (fun b => key b ≠ key a) = rest := by
        refine List.filter_eq_self.mpr fun c hc => ?_
        have hne : key c ≠ key a := fun heq => hb (heq ▸ List.mem_map_of_mem hc)
        simpa using hne
      simp only [ne_eq, decide_not, List.filter_cons, decide_true, Bool.not_true,
        Bool.false_eq_true, if_false]
      simp only [ne_eq, decide_not] at hkeep
      rw [hkeep]
    · have hne : key b ≠ key a := fun heq => hb (heq ▸ List.mem_map_of_mem ha)
      rw [List.filter_cons_of_pos (by simpa using hne)]
      exact ((ih hrest ha).cons b).trans (List.Perm.swap _ _ _)

/-- An adjusted entry is the one generated from its content io. -/
theorem adjusted_eq (hfits : ∀ a entry, fits a entry = true ↔ entry = toEntry a) (a : A)
    (entry : B) : (if fits a entry then entry else toEntry a) = toEntry a := by
  split
  · rename_i h
    exact (hfits a entry).mp h
  · rfl

/-- The loop leaves the surplus entries and those generated from the content ios it has used
up. -/
theorem adjustEntries_spec (key' : B → UUID)
    (hfits : ∀ a entry, fits a entry = true ↔ entry = toEntry a)
    (dict : List A) (entries : List B) (hnodup : (dict.map key).Nodup) :
    ∃ used : List A,
      dict.Perm (used ++ (adjustEntries key key' fits toEntry dict entries).2.2) ∧
        (adjustEntries key key' fits toEntry dict entries).1.Perm
          ((adjustEntries key key' fits toEntry dict entries).2.1 ++ used.map toEntry) := by
  induction entries generalizing dict with
  | nil => exact ⟨[], .refl _, .refl _⟩
  | cons entry rest ih =>
    unfold adjustEntries
    cases hfind : dict.find? fun a => key a = key' entry with
    | none =>
      obtain ⟨used, hdict, hentries⟩ := ih dict hnodup
      exact ⟨used, hdict, hentries.cons entry⟩
    | some a =>
      have ha := List.mem_of_find?_eq_some hfind
      have hkey : key a = key' entry := by simpa using List.find?_some hfind
      have hsub : (dict.filter fun b => key b ≠ key' entry).map key |>.Nodup :=
        hnodup.sublist (List.filter_sublist.map key)
      obtain ⟨used, hdict, hentries⟩ := ih _ hsub
      refine ⟨a :: used, ?_, ?_⟩
      · have hperm := perm_cons_filter_key hnodup ha
        rw [hkey] at hperm
        exact hperm.trans (hdict.cons a)
      · simp only [adjusted_eq hfits, List.map_cons]
        exact (hentries.cons (toEntry a)).trans List.perm_middle.symm

/-- Removing a first part again leaves the rest. -/
theorem foldl_erase_append [DecidableEq B] (surplus rest : List B) :
    surplus.foldl List.erase (surplus ++ rest) = rest := by
  induction surplus with
  | nil => rfl
  | cons b surplus ih => simpa using ih

/-- A fitted interface consists of the entries generated from the dictionary of content ios. -/
theorem fitEntries_perm [DecidableEq B]
    (hfits : ∀ a entry, fits a entry = true ↔ entry = toEntry a) (ios : List A)
    (entries : List B) :
    (fitEntries key key' fits toEntry ios entries).Perm ((dictById key ios).map toEntry) := by
  obtain ⟨used, hdict, hentries⟩ :=
    adjustEntries_spec key' hfits (dictById key ios) entries (dictById_nodup key ios)
  unfold fitEntries
  have herased := List.Perm.diff_right
    (adjustEntries key key' fits toEntry (dictById key ios) entries).2.1 hentries
  rw [List.diff_eq_foldl, List.diff_eq_foldl, foldl_erase_append] at herased
  refine (herased.append_right _).trans ?_
  rw [← List.map_append]
  exact (hdict.map toEntry).symm

/-- The loop changes nothing on an interface which already fits, and uses up the dictionary. -/
theorem adjustEntries_of_perm (hfits : ∀ a entry, fits a entry = true ↔ entry = toEntry a)
    (hkey : ∀ a, key' (toEntry a) = key a) {dict : List A} {entries : List B}
    (hnodup : (dict.map key).Nodup) (hperm : entries.Perm (dict.map toEntry)) :
    adjustEntries key key' fits toEntry dict entries = (entries, [], []) := by
  induction entries generalizing dict with
  | nil =>
    have hnil : dict = [] := by simpa using hperm.symm.length_eq
    rw [hnil]
    rfl
  | cons entry rest ih =>
    obtain ⟨a, ha, hentry⟩ := List.mem_map.mp (hperm.subset (List.mem_cons_self ..))
    subst hentry
    have hfind : dict.find? (fun b => key b = key' (toEntry a)) = some a := by
      obtain ⟨b, hb⟩ := Option.isSome_iff_exists.mp
        (List.find?_isSome.mpr ⟨a, ha, by simp [hkey]⟩ :
          (dict.find? fun b => key b = key' (toEntry a)).isSome)
      have hkeys : key b = key a := by simpa [hkey] using List.find?_some hb
      have hba := List.inj_on_of_nodup_map hnodup (List.mem_of_find?_eq_some hb) ha hkeys
      rw [hb, hba]
    have hdict := perm_cons_filter_key hnodup ha
    have hrest : rest.Perm ((dict.filter fun b => key b ≠ key a).map toEntry) :=
      (List.perm_cons (toEntry a)).mp (hperm.trans (hdict.map toEntry))
    have hsub : ((dict.filter fun b => key b ≠ key a).map key).Nodup :=
      hnodup.sublist (List.filter_sublist.map key)
    unfold adjustEntries
    rw [hfind]
    simp only [hkey, ih hsub hrest, adjusted_eq hfits]

/-- Fitting an interface which already fits changes nothing. -/
theorem fitEntries_of_perm [DecidableEq B]
    (hfits : ∀ a entry, fits a entry = true ↔ entry = toEntry a)
    (hkey : ∀ a, key' (toEntry a) = key a) {ios : List A} {entries : List B}
    (hperm : entries.Perm ((dictById key ios).map toEntry)) :
    fitEntries key key' fits toEntry ios entries = entries := by
  unfold fitEntries
  rw [adjustEntries_of_perm hfits hkey (dictById_nodup key ios) hperm]
  simp

end Fit

variable {V : Type} [DecidableEq V]

/-- Fitting twice is fitting once. -/
theorem fitIoInterface_idem (content : WorkflowContent V) (ioInterface : IOInterface V) :
    fitIoInterface content (fitIoInterface content ioInterface) =
      fitIoInterface content ioInterface := by
  refine congrArg₂ IOInterface.mk ?_ ?_
  · refine fitEntries_of_perm matchesTrafoInput_iff ?_ (fitEntries_perm matchesTrafoInput_iff _ _)
    exact fun _ => rfl
  · refine fitEntries_of_perm matchesTrafoOutput_iff ?_
      (fitEntries_perm matchesTrafoOutput_iff _ _)
    exact fun _ => rfl

omit [DecidableEq V] in
/-- Elements of a list with unique names are the same if their ios are named alike. -/
theorem eq_of_namesEmptyOrUnique {io : A → Io} {ios : List A}
    (h : namesEmptyOrUnique io ios = true) {a b : A} (ha : a ∈ ios) (hb : b ∈ ios)
    (hnamed : (io a).named = true) (hname : (io a).name = (io b).name) : a = b := by
  have hnodup : (((ios.map io).filter Io.named).map Io.name).Nodup := of_decide_eq_true h
  rw [List.filter_map, List.map_map] at hnodup
  have hnamed' : (io b).named = true := by
    unfold Io.named at hnamed ⊢
    rwa [← hname]
  exact List.inj_on_of_nodup_map hnodup (List.mem_filter.mpr ⟨ha, hnamed⟩)
    (List.mem_filter.mpr ⟨hb, hnamed'⟩) hname

/-- Entries generated from the ios of a content have unique names if those do. -/
theorem namesEmptyOrUnique_of_perm {io : A → Io} {io' : B → Io} {toEntry : A → B}
    (hio : ∀ a, io' (toEntry a) = io a) {ios : List A} {entries : List B}
    (hperm : entries.Perm ((dictById (fun a => (io a).id) ios).map toEntry))
    (h : namesEmptyOrUnique io ios = true) : namesEmptyOrUnique io' entries = true := by
  have hids := dictById_nodup (fun a => (io a).id) ios
  have hperm' : ((entries.map io').filter Io.named).Perm
      (((dictById (fun a => (io a).id) ios).map io).filter Io.named) := by
    have hmap := hperm.map io'
    rw [List.map_map, show io' ∘ toEntry = io from funext hio] at hmap
    exact hmap.filter _
  refine decide_eq_true ((hperm'.map Io.name).nodup_iff.mpr ?_)
  have hnodup : ((dictById (fun a => (io a).id) ios).map io).Nodup := by
    refine List.Nodup.of_map Io.id ?_
    rwa [List.map_map]
  refine List.Nodup.map_on ?_ (hnodup.filter _)
  intro x hx y hy hname
  obtain ⟨hx, hnamed⟩ := List.mem_filter.mp hx
  obtain ⟨a, ha, rfl⟩ := List.mem_map.mp hx
  obtain ⟨b, hb, rfl⟩ := List.mem_map.mp (List.mem_filter.mp hy).1
  rw [eq_of_namesEmptyOrUnique h (mem_of_mem_dictById ha) (mem_of_mem_dictById hb) hnamed hname]

/-- A fitted interface has unique names on each side if the content has. -/
theorem fitIoInterface_ioNamesUnique (content : WorkflowContent V) (ioInterface : IOInterface V)
    (hinputs : namesEmptyOrUnique (fun wfInput => wfInput.toIo) content.inputs = true)
    (houtputs : namesEmptyOrUnique (fun wfOutput => wfOutput.toIo) content.outputs = true) :
    (fitIoInterface content ioInterface).ioNamesUnique = true := by
  refine decide_eq_true ⟨?_, ?_⟩
  · refine namesEmptyOrUnique_of_perm ?_ (fitEntries_perm matchesTrafoInput_iff _ _) hinputs
    exact fun _ => rfl
  · refine namesEmptyOrUnique_of_perm ?_ (fitEntries_perm matchesTrafoOutput_iff _ _) houtputs
    exact fun _ => rfl

end HetidaDesigner
