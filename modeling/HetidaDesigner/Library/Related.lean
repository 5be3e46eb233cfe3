import HetidaDesigner.Library.KeyedList
import Mathlib.Data.List.Forall2

/-!
# Related lists and options

Two representations of the same data are lists whose elements are related one by one. What is found
in the one is related to what is found in the other, and functions which respect the relation lead
from related options to related options.
-/

namespace Related

variable {A B C K K' : Type*} {R : A → B → Prop}

/-! ## Lists -/

/-- Each element on the right is related to one on the left. -/
theorem exists_left {as : List A} {bs : List B} (h : List.Forall₂ R as bs) {b : B} (hb : b ∈ bs) :
    ∃ a ∈ as, R a b := by
  induction h with
  | nil => cases hb
  | cons hfirst _ ih =>
    rcases List.mem_cons.mp hb with rfl | hb
    · exact ⟨_, List.mem_cons_self, hfirst⟩
    · obtain ⟨a, ha, hrelated⟩ := ih hb
      exact ⟨a, List.mem_cons_of_mem _ ha, hrelated⟩

/-- Each element on the left is related to one on the right. -/
theorem exists_right {as : List A} {bs : List B} (h : List.Forall₂ R as bs) {a : A} (ha : a ∈ as) :
    ∃ b ∈ bs, R a b :=
  exists_left h.flip ha

/-- Related elements are elements of the lists. -/
theorem and_mem {as : List A} {bs : List B} (h : List.Forall₂ R as bs) :
    List.Forall₂ (fun a b => (a ∈ as ∧ b ∈ bs) ∧ R a b) as bs := by
  have hleft : List.Forall₂ (fun a b => a ∈ as ∧ R a b) as bs :=
    (List.forall₂_and_left _ _).mpr ⟨fun _ ha => ha, h⟩
  have hright : List.Forall₂ (fun b a => b ∈ bs ∧ a ∈ as ∧ R a b) bs as :=
    (List.forall₂_and_left _ _).mpr ⟨fun _ hb => hb, hleft.flip⟩
  refine List.Forall₂.flip (hright.imp ?_)
  rintro b a ⟨hb, ha, hrelated⟩
  exact ⟨⟨ha, hb⟩, hrelated⟩

/-- Related elements have the same values in the same order. -/
theorem map_eq {f : A → C} {g : B → C} {as : List A} {bs : List B}
    (h : List.Forall₂ (fun a b => g b = f a) as bs) : bs.map g = as.map f := by
  induction h with
  | nil => rfl
  | cons hfirst _ ih => rw [List.map_cons, List.map_cons, hfirst, ih]

/-- Conditions which agree on related elements hold of all on both sides or of none. -/
theorem all_eq {p : A → Bool} {q : B → Bool} {as : List A} {bs : List B}
    (h : List.Forall₂ (fun a b => q b = p a) as bs) : bs.all q = as.all p := by
  induction h with
  | nil => rfl
  | cons hfirst _ ih => rw [List.all_cons, List.all_cons, hfirst, ih]

/-- Steps which agree on related elements have the same results. -/
theorem mapM_eq {f : A → Option C} {g : B → Option C} {as : List A} {bs : List B}
    (h : List.Forall₂ (fun a b => g b = f a) as bs) : bs.mapM g = as.mapM f := by
  induction h with
  | nil => rfl
  | cons hfirst _ ih => rw [List.mapM_cons, List.mapM_cons, hfirst, ih]

/-! ## What is found -/

/-- With conditions which agree related elements are found. -/
theorem rel_find {p : A → Bool} {q : B → Bool} {as : List A} {bs : List B}
    (h : List.Forall₂ (fun a b => q b = p a ∧ R a b) as bs) :
    Option.Rel R (as.find? p) (bs.find? q) := by
  induction h with
  | nil => exact .none
  | @cons a b _ _ hfirst _ ih =>
    rw [List.find?_cons, List.find?_cons, hfirst.1]
    cases p a with
    | true => exact .some hfirst.2
    | false => exact ih

/-- Under related keys related elements are found. -/
theorem rel_lookup [DecidableEq K] [DecidableEq K'] {key : A → K} {key' : B → K'} {f : K → K'}
    (hf : Function.Injective f) {as : List A} {bs : List B}
    (h : List.Forall₂ (fun a b => key' b = f (key a) ∧ R a b) as bs) (k : K) :
    Option.Rel R (KeyedList.lookup key k as) (KeyedList.lookup key' (f k) bs) := by
  refine rel_find (h.imp fun a b hboth => ⟨?_, hboth.2⟩)
  rw [hboth.1]
  exact decide_eq_decide.mpr hf.eq_iff

/-! ## Options -/

/-- Steps which respect a relation. -/
theorem rel_bind {A' B' : Type*} {S : A' → B' → Prop} {x : Option A} {y : Option B}
    (h : Option.Rel R x y) {f : A → Option A'} {g : B → Option B'}
    (hstep : ∀ a b, R a b → Option.Rel S (f a) (g b)) : Option.Rel S (x.bind f) (y.bind g) := by
  cases h with
  | some h => exact hstep _ _ h
  | none => exact .none

/-- Steps which agree on related elements. -/
theorem bind_eq {x : Option A} {y : Option B} (h : Option.Rel R x y) {f : A → Option C}
    {g : B → Option C} (hstep : ∀ a b, R a b → g b = f a) : y.bind g = x.bind f := by
  cases h with
  | some h => exact hstep _ _ h
  | none => rfl

end Related
