import Mathlib.Data.List.Forall2

/-!
# Computations which stop at the first failing check

A chain of checks in `Except` succeeds exactly if each of them does. The lemmas take such a
chain apart from the front, one step at a time.
-/

namespace Checks

variable {ε α β : Type}

/-- Stop with an error unless a condition holds. -/
def require (condition : Bool) (error : ε) : Except ε Unit :=
  if condition then .ok () else .error error

/-- A sequence succeeds exactly if both parts do. -/
theorem bind_eq_ok {x : Except ε α} {f : α → Except ε β} {b : β} :
    (x >>= f) = .ok b ↔ ∃ a, x = .ok a ∧ f a = .ok b := by
  cases x <;> simp [bind, Except.bind]

/-- A sequence fails exactly if one of its parts does. -/
theorem bind_eq_error {x : Except ε α} {f : α → Except ε β} {e : ε} :
    (x >>= f) = .error e ↔ x = .error e ∨ ∃ a, x = .ok a ∧ f a = .error e := by
  cases x <;> simp [bind, Except.bind]

/-- A check passes exactly on its condition. -/
theorem require_eq_ok {condition : Bool} {error : ε} {u : Unit} :
    require condition error = .ok u ↔ condition = true := by
  cases condition <;> simp [require]

/-- A sequence behind a check succeeds exactly if the condition holds and the rest succeeds. -/
theorem require_bind_eq_ok {condition : Bool} {error : ε} {f : Unit → Except ε β} {b : β} :
    (require condition error >>= f) = .ok b ↔ condition = true ∧ f () = .ok b := by
  rw [bind_eq_ok]
  exact ⟨fun ⟨_, h, hf⟩ => ⟨require_eq_ok.mp h, hf⟩, fun ⟨h, hf⟩ => ⟨(), require_eq_ok.mpr h, hf⟩⟩

/-- A sequence behind a check without result succeeds exactly if both do. -/
theorem check_bind_eq_ok {check : Except ε Unit} {f : Unit → Except ε β} {b : β} :
    (check >>= f) = .ok b ↔ check = .ok () ∧ f () = .ok b := by
  rw [bind_eq_ok]
  exact ⟨fun ⟨(), h, hf⟩ => ⟨h, hf⟩, fun ⟨h, hf⟩ => ⟨(), h, hf⟩⟩

/-- A passed check leaves the rest. -/
theorem require_bind_of {condition : Bool} {error : ε} {f : Unit → Except ε β}
    (h : condition = true) : (require condition error >>= f) = f () := by
  rw [h]
  rfl

/-- A failing check is the result. -/
theorem require_bind_of_not {condition : Bool} {error : ε} {f : Unit → Except ε β}
    (h : condition = false) : (require condition error >>= f) = .error error := by
  rw [h]
  rfl

/-- A result is returned as it is. -/
theorem return_eq_ok {a b : α} : (pure a : Except ε α) = .ok b ↔ a = b :=
  ⟨fun h => Except.ok.inj h, fun h => h ▸ rfl⟩

/-- A change of the result keeps success. -/
theorem map_eq_ok {x : Except ε α} {f : α → β} {b : β} :
    x.map f = .ok b ↔ ∃ a, x = .ok a ∧ f a = b := by
  cases x <;> simp [Except.map]

/-- A change of the error keeps results. -/
theorem mapError_eq_ok {ε' : Type} {f : ε → ε'} {x : Except ε α} {a : α} :
    x.mapError f = .ok a ↔ x = .ok a := by
  cases x <;> simp [Except.mapError]

/-- A loop over a list succeeds exactly if each step does, and collects the results. -/
theorem mapM_eq_ok {f : α → Except ε β} {xs : List α} {ys : List β} :
    xs.mapM f = .ok ys ↔ List.Forall₂ (fun x y => f x = .ok y) xs ys := by
  induction xs generalizing ys with
  | nil =>
    rw [List.mapM_nil, return_eq_ok, List.forall₂_nil_left_iff]
    exact eq_comm
  | cons x rest ih =>
    rw [List.mapM_cons, bind_eq_ok, List.forall₂_cons_left_iff]
    refine exists_congr fun y => ?_
    rw [bind_eq_ok]
    constructor
    · rintro ⟨hy, zs, hzs, heq⟩
      exact ⟨zs, hy, ih.mp hzs, (return_eq_ok.mp heq).symm⟩
    · rintro ⟨zs, hy, hzs, rfl⟩
      exact ⟨hy, zs, ih.mpr hzs, return_eq_ok.mpr rfl⟩

/-- Functions which agree along a computation agree on its arguments and results. -/
theorem map_eq_of_mapM {γ : Type*} {f : α → Except ε β} {g : α → γ} {g' : β → γ} {xs : List α}
    {ys : List β} (h : xs.mapM f = .ok ys) (hf : ∀ x y, f x = .ok y → g' y = g x) :
    ys.map g' = xs.map g := by
  have hall := mapM_eq_ok.mp h
  clear h
  induction hall with
  | nil => rfl
  | cons hfirst _ ih => rw [List.map_cons, List.map_cons, hf _ _ hfirst, ih]

/-- A loop whose steps return what they are given returns the list. -/
theorem eq_of_mapM {f : α → Except ε α} {xs ys : List α} (h : xs.mapM f = .ok ys)
    (hf : ∀ x ∈ xs, ∀ y, f x = .ok y → y = x) : ys = xs := by
  have hall := mapM_eq_ok.mp h
  clear h
  induction hall with
  | nil => rfl
  | cons hfirst _ ih =>
    obtain ⟨hx, hrest⟩ := List.forall_mem_cons.mp hf
    rw [hx _ hfirst, ih hrest]

/-- A loop succeeds if each step does. -/
theorem exists_mapM {f : α → Except ε β} {xs : List α} (h : ∀ x ∈ xs, ∃ y, f x = .ok y) :
    ∃ ys, xs.mapM f = .ok ys := by
  induction xs with
  | nil => exact ⟨[], mapM_eq_ok.mpr .nil⟩
  | cons x rest ih =>
    obtain ⟨⟨y, hy⟩, hrest⟩ := List.forall_mem_cons.mp h
    obtain ⟨ys, hys⟩ := ih hrest
    exact ⟨y :: ys, mapM_eq_ok.mpr (.cons hy (mapM_eq_ok.mp hys))⟩

/-- A loop whose steps succeed under a condition with results known in advance. -/
theorem mapM_eq_ok_iff_of_forall {f : α → Except ε β} {p : α → Prop} {g : α → β} {xs : List α}
    (h : ∀ x ∈ xs, ∀ y, f x = .ok y ↔ p x ∧ g x = y) {ys : List β} :
    xs.mapM f = .ok ys ↔ (∀ x ∈ xs, p x) ∧ xs.map g = ys := by
  induction xs generalizing ys with
  | nil =>
    rw [List.mapM_nil, return_eq_ok, List.map_nil, and_iff_right (List.forall_mem_nil _)]
  | cons x rest ih =>
    obtain ⟨hx, hrest⟩ := List.forall_mem_cons.mp h
    rw [List.mapM_cons, bind_eq_ok, List.forall_mem_cons, List.map_cons]
    simp only [bind_eq_ok, hx, ih hrest, return_eq_ok]
    constructor
    · rintro ⟨_, ⟨hp, rfl⟩, _, ⟨hall, rfl⟩, rfl⟩
      exact ⟨⟨hp, hall⟩, rfl⟩
    · rintro ⟨⟨hp, hall⟩, rfl⟩
      exact ⟨_, ⟨hp, rfl⟩, _, ⟨hall, rfl⟩, rfl⟩

/-- Each element has its result among those of a successful loop. -/
theorem exists_of_mapM {f : α → Except ε β} {xs : List α} {ys : List β} (h : xs.mapM f = .ok ys)
    {x : α} (hx : x ∈ xs) : ∃ y ∈ ys, f x = .ok y := by
  have hall := mapM_eq_ok.mp h
  clear h
  induction hall with
  | nil => exact absurd hx List.not_mem_nil
  | cons hfirst _ ih =>
    rcases List.mem_cons.mp hx with rfl | hx
    · exact ⟨_, List.mem_cons_self .., hfirst⟩
    · obtain ⟨y, hy, hok⟩ := ih hx
      exact ⟨y, List.mem_cons_of_mem _ hy, hok⟩

/-- A loop fails where one of its steps does. -/
theorem exists_of_mapM_error {f : α → Except ε β} {xs : List α} {e : ε}
    (h : xs.mapM f = .error e) : ∃ x ∈ xs, f x = .error e := by
  induction xs with
  | nil => cases h
  | cons x rest ih =>
    rw [List.mapM_cons] at h
    cases hx : f x with
    | error e' =>
      rw [hx] at h
      obtain rfl := Except.error.inj h
      exact ⟨x, List.mem_cons_self, hx⟩
    | ok y =>
      cases hrest : rest.mapM f with
      | error e' =>
        rw [hx, hrest] at h
        obtain rfl := Except.error.inj h
        obtain ⟨x', hx', herror⟩ := ih hrest
        exact ⟨x', List.mem_cons_of_mem _ hx', herror⟩
      | ok ys =>
        rw [hx, hrest] at h
        cases h

/-- Each result of a successful loop is that of some element. -/
theorem exists_argument_of_mapM {f : α → Except ε β} {xs : List α} {ys : List β}
    (h : xs.mapM f = .ok ys) {y : β} (hy : y ∈ ys) : ∃ x ∈ xs, f x = .ok y := by
  have hall := mapM_eq_ok.mp h
  clear h
  induction hall with
  | nil => exact absurd hy List.not_mem_nil
  | cons hfirst _ ih =>
    rcases List.mem_cons.mp hy with rfl | hy
    · exact ⟨_, List.mem_cons_self .., hfirst⟩
    · obtain ⟨x, hx, hok⟩ := ih hy
      exact ⟨x, List.mem_cons_of_mem _ hx, hok⟩

/-- The results of a loop are those of the arguments. -/
theorem mem_iff_of_mapM {f : α → Except ε β} {xs : List α} {ys : List β} (h : xs.mapM f = .ok ys)
    {y : β} : y ∈ ys ↔ ∃ x ∈ xs, f x = .ok y := by
  constructor
  · exact exists_argument_of_mapM h
  · rintro ⟨x, hx, hy⟩
    obtain ⟨y', hmem, hy'⟩ := exists_of_mapM h hx
    obtain rfl := Except.ok.inj (hy.symm.trans hy')
    exact hmem

/-- The combinations of arguments with their results. -/
theorem mem_zipWith_iff_of_mapM {γ : Type*} {f : α → Except ε β} {g : α → β → γ} {xs : List α}
    {ys : List β} (h : xs.mapM f = .ok ys) {c : γ} :
    c ∈ List.zipWith g xs ys ↔ ∃ x ∈ xs, ∃ y, f x = .ok y ∧ g x y = c := by
  have hall := mapM_eq_ok.mp h
  clear h
  induction hall with
  | nil => simp
  | @cons x y xs ys hxy _ ih =>
    rw [List.zipWith_cons_cons, List.mem_cons, List.exists_mem_cons_iff]
    refine or_congr ⟨fun hc => ⟨y, hxy, hc.symm⟩, ?_⟩ ih
    rintro ⟨y', hy', rfl⟩
    rw [Except.ok.inj (hxy.symm.trans hy')]

/-- In a successful loop with an accumulator the step for each element has succeeded. -/
theorem exists_of_foldlM {f : β → α → Except ε β} {xs : List α} {s s' : β}
    (h : xs.foldlM f s = .ok s') {x : α} (hx : x ∈ xs) : ∃ t t', f t x = .ok t' := by
  induction xs generalizing s with
  | nil => exact absurd hx List.not_mem_nil
  | cons y rest ih =>
    rw [List.foldlM_cons, bind_eq_ok] at h
    obtain ⟨t, ht, hrest⟩ := h
    rcases List.mem_cons.mp hx with rfl | hx
    · exact ⟨s, t, ht⟩
    · exact ih hrest hx

/-- Relations which agree on the entries of the first list relate it to the same lists. -/
theorem forall₂_iff_of_left {R S : α → β → Prop} {xs : List α}
    (h : ∀ x ∈ xs, ∀ y, R x y ↔ S x y) (ys : List β) :
    List.Forall₂ R xs ys ↔ List.Forall₂ S xs ys := by
  induction xs generalizing ys with
  | nil => rw [List.forall₂_nil_left_iff, List.forall₂_nil_left_iff]
  | cons x xs ih =>
    obtain ⟨hx, hxs⟩ := List.forall_mem_cons.mp h
    rw [List.forall₂_cons_left_iff, List.forall₂_cons_left_iff]
    apply exists_congr
    intro y
    apply exists_congr
    intro later
    exact and_congr (hx y) (and_congr_left' (ih hxs later))

/-- A relation between elements and results which is a property of the element holds along two
lists exactly if every element has the property. -/
theorem forall₂_iff_forall {S R : α → β → Prop} {P : α → Prop} {xs : List α} {ys : List β}
    (h : List.Forall₂ S xs ys) (hstep : ∀ x ∈ xs, ∀ y, S x y → (R x y ↔ P x)) :
    List.Forall₂ R xs ys ↔ ∀ x ∈ xs, P x := by
  induction h with
  | nil => exact ⟨fun _ x hx => absurd hx List.not_mem_nil, fun _ => .nil⟩
  | cons hfirst _ ih =>
    have hrest := ih fun x hx => hstep x (List.mem_cons_of_mem _ hx)
    rw [List.forall₂_cons, List.forall_mem_cons, hstep _ (List.mem_cons_self ..) _ hfirst, hrest]

/-- The results of a loop which has them for part of the list only, next to that part. -/
theorem forall₂_filter_of_mapM {f : α → Except ε (Option β)} {p : α → Bool}
    (hpart : ∀ x y, f x = .ok y → y.isSome = p x) {xs : List α} {ys : List (Option β)}
    (h : xs.mapM f = .ok ys) :
    List.Forall₂ (fun x y => f x = .ok (some y)) (xs.filter p) (ys.filterMap id) := by
  have hall := mapM_eq_ok.mp h
  clear h
  induction hall with
  | nil => exact .nil
  | @cons x y xs ys hfirst _ ih =>
    have hp := hpart x y hfirst
    cases y with
    | some z =>
      rw [List.filter_cons_of_pos hp.symm]
      exact .cons hfirst ih
    | none =>
      rw [List.filter_cons_of_neg (by simp [← hp])]
      exact ih

/-- A sequence of steps of which each may also end without any outcome has a result exactly if both
parts do. -/
theorem run_bind_eq_ok {x : ExceptT ε Option α} {f : α → ExceptT ε Option β} {b : β} :
    (x >>= f).run = some (.ok b) ↔ ∃ a, x.run = some (.ok a) ∧ (f a).run = some (.ok b) := by
  rw [ExceptT.run_bind]
  cases x.run with
  | none => simp
  | some result => cases result <;> simp

/-- What is left of an outcome without its error. -/
theorem toOption_eq_some {x : Except ε α} {a : α} :
    x.toOption = some a ↔ x = .ok a := by
  cases x <;> simp [Except.toOption]

/-- A loop over steps of which each may also end without any outcome has results exactly if each step
has one. -/
theorem run_mapM_eq_ok {f : α → ExceptT ε Option β} {xs : List α} {ys : List β} :
    (xs.mapM f).run = some (.ok ys) ↔
      List.Forall₂ (fun x y => (f x).run = some (.ok y)) xs ys := by
  induction xs generalizing ys with
  | nil =>
    rw [List.mapM_nil, List.forall₂_nil_left_iff]
    exact ⟨fun h => (Except.ok.inj (Option.some.inj h)).symm, fun h => h ▸ rfl⟩
  | cons x rest ih =>
    rw [List.mapM_cons, run_bind_eq_ok, List.forall₂_cons_left_iff]
    refine exists_congr fun y => ?_
    rw [run_bind_eq_ok]
    constructor
    · rintro ⟨hfirst, zs, hrest, hys⟩
      obtain rfl := Except.ok.inj (Option.some.inj hys)
      exact ⟨zs, hfirst, ih.mp hrest, rfl⟩
    · rintro ⟨zs, hfirst, hrest, rfl⟩
      exact ⟨hfirst, zs, ih.mpr hrest, rfl⟩

/-- A loop without results succeeds exactly if each step does. -/
theorem forM_eq_ok {f : α → Except ε Unit} {xs : List α} {u : Unit} :
    xs.forM f = .ok u ↔ ∀ x ∈ xs, f x = .ok () := by
  induction xs with
  | nil => exact ⟨fun _ x hx => absurd hx (List.not_mem_nil), fun _ => rfl⟩
  | cons x rest ih =>
    have hcons : (x :: rest).forM f = (f x >>= fun _ => rest.forM f) := rfl
    rw [hcons, bind_eq_ok, List.forall_mem_cons]
    constructor
    · rintro ⟨v, hx, hrest⟩
      exact ⟨hx, ih.mp hrest⟩
    · rintro ⟨hx, hrest⟩
      exact ⟨(), hx, ih.mpr hrest⟩

end Checks
