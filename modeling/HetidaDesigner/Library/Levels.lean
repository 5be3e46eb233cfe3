import Mathlib.Data.List.Nodup
import Mathlib.Data.List.Perm.Subperm
import Mathlib.Data.List.Flatten
import Mathlib.Data.List.Pairwise
import Mathlib.Logic.Relation

/-!
# Listing a hierarchy level by level

A traversal starts with a list of roots and continues with the children of a level, in the order
of the level, until a level is empty. What it lists is the roots followed by the children of all
it lists. If no two elements share a child and no root is a child, nothing is listed twice; then
each element stands behind all of which it is a child.
-/

namespace Levels

variable {α : Type*} (children : α → List α)

/-- The levels from a given one on, for a bounded number of rounds; `none` if the last round
leaves a level that is not empty. -/
def traverse : ℕ → List α → Option (List α)
  | _, [] => some []
  | 0, _ :: _ => none
  | rounds + 1, level => (traverse rounds (level.flatMap children)).map (level ++ ·)

/-- The elements of a number of levels. -/
def reached : ℕ → List α → List α
  | 0, level => level
  | rounds + 1, level => level ++ reached rounds (level.flatMap children)

variable {children}

/-- A traversal lists the first level and the children of all it lists. -/
theorem traverse_eq {rounds : ℕ} {level listed : List α}
    (h : traverse children rounds level = some listed) :
    listed = level ++ listed.flatMap children := by
  induction rounds generalizing level listed with
  | zero =>
    cases level with
    | nil =>
      obtain rfl := Option.some.inj h
      rfl
    | cons a rest => exact absurd h (by simp [traverse])
  | succ rounds ih =>
    cases level with
    | nil =>
      obtain rfl := Option.some.inj h
      rfl
    | cons a rest =>
      obtain ⟨deeper, hdeeper, rfl⟩ := Option.map_eq_some_iff.mp h
      rw [List.flatMap_append, ← ih hdeeper]

/-- Of elements listed once, none stands before one of which it is a child. -/
theorem pairwise_of_traverse {rounds : ℕ} {level listed : List α}
    (h : traverse children rounds level = some listed) (hnodup : listed.Nodup) :
    listed.Pairwise fun a b => a ∉ children b := by
  induction rounds generalizing level listed with
  | zero =>
    cases level with
    | nil =>
      obtain rfl := Option.some.inj h
      exact .nil
    | cons a rest => exact absurd h (by simp [traverse])
  | succ rounds ih =>
    cases level with
    | nil =>
      obtain rfl := Option.some.inj h
      exact .nil
    | cons a rest =>
      have heq := traverse_eq h
      obtain ⟨deeper, hdeeper, rfl⟩ := Option.map_eq_some_iff.mp h
      have hfirst : ∀ b ∈ a :: rest, ∀ c ∈ (a :: rest) ++ deeper, b ∉ children c := by
        intro b hb c hc hchild
        rw [heq] at hnodup
        exact List.disjoint_of_nodup_append hnodup hb (List.mem_flatMap.mpr ⟨c, hc, hchild⟩)
      have hrest : deeper.Nodup := (List.nodup_append.mp hnodup).2.1
      refine List.pairwise_append.mpr ⟨?_, ih hdeeper hrest, fun b hb c hc => ?_⟩
      · exact List.pairwise_of_forall_mem_list fun b hb c hc =>
          hfirst b hb c (List.mem_append_left _ hc)
      · exact hfirst b hb c (List.mem_append_right _ hc)

/-- One more level adds the children of what has been reached. -/
theorem reached_succ (rounds : ℕ) (level : List α) :
    reached children (rounds + 1) level =
      level ++ (reached children rounds level).flatMap children := by
  induction rounds generalizing level with
  | zero => rfl
  | succ rounds ih =>
    rw [reached, ih, reached, List.flatMap_append]

/-- A traversal which is not finished has reached an element in each round. -/
theorem lt_length_reached {rounds : ℕ} {level : List α}
    (h : traverse children rounds level = none) :
    rounds < (reached children rounds level).length := by
  induction rounds generalizing level with
  | zero =>
    cases level with
    | nil => exact absurd h (by simp [traverse])
    | cons a rest => simp [reached]
  | succ rounds ih =>
    cases level with
    | nil => exact absurd h (by simp [traverse])
    | cons a rest =>
      have hdeeper := ih (Option.map_eq_none_iff.mp h)
      rw [reached, List.length_append, List.length_cons]
      omega

/-- A finished traversal has listed what is reached in its rounds. -/
theorem reached_eq_of_traverse {rounds : ℕ} {level listed : List α}
    (h : traverse children rounds level = some listed) :
    reached children rounds level = listed := by
  induction rounds generalizing level listed with
  | zero =>
    cases level with
    | nil => exact Option.some.inj h
    | cons a rest => exact absurd h (by simp [traverse])
  | succ rounds ih =>
    cases level with
    | nil =>
      obtain rfl := Option.some.inj h
      rw [reached, List.flatMap_nil, List.nil_append]
      refine ih ?_
      cases rounds <;> rfl
    | cons a rest =>
      obtain ⟨deeper, hdeeper, rfl⟩ := Option.map_eq_some_iff.mp h
      rw [reached, ih hdeeper]

/-- Elements with their roots and children: each element has its children once, shares none of
them, and no root is a child. -/
structure Branches (children : α → List α) (elements roots : List α) : Prop where
  roots_sub : ∀ a ∈ roots, a ∈ elements
  children_sub : ∀ a ∈ elements, ∀ b ∈ children a, b ∈ elements
  roots_nodup : roots.Nodup
  children_nodup : ∀ a ∈ elements, (children a).Nodup
  root_no_child : ∀ a ∈ elements, ∀ b ∈ children a, b ∉ roots
  one_parent : ∀ a ∈ elements, ∀ a' ∈ elements, ∀ b ∈ children a, b ∈ children a' → a = a'

section Branches

variable {elements roots : List α} (h : Branches children elements roots)

include h

/-- Nothing is reached twice. -/
theorem Branches.reached_nodup (rounds : ℕ) :
    (reached children rounds roots).Nodup ∧
      ∀ a ∈ reached children rounds roots, a ∈ elements := by
  induction rounds with
  | zero => exact ⟨h.roots_nodup, h.roots_sub⟩
  | succ rounds ih =>
    obtain ⟨hnodup, hsub⟩ := ih
    rw [reached_succ]
    constructor
    · refine List.Nodup.append h.roots_nodup (List.nodup_flatMap.mpr ⟨?_, ?_⟩) ?_
      · exact fun a ha => h.children_nodup a (hsub a ha)
      · refine hnodup.imp_of_mem fun {a a'} ha ha' hne b hb hb' => hne ?_
        exact h.one_parent a (hsub a ha) a' (hsub a' ha') b hb hb'
      · intro b hroot hb
        obtain ⟨a, ha, hb⟩ := List.mem_flatMap.mp hb
        exact h.root_no_child a (hsub a ha) b hb hroot
    · intro b hb
      rcases List.mem_append.mp hb with hroot | hb
      · exact h.roots_sub b hroot
      · obtain ⟨a, ha, hb⟩ := List.mem_flatMap.mp hb
        exact h.children_sub a (hsub a ha) b hb

/-- As many rounds as there are elements suffice. -/
theorem Branches.exists_traverse {rounds : ℕ} (hrounds : elements.length ≤ rounds) :
    ∃ listed, traverse children rounds roots = some listed := by
  obtain ⟨hnodup, hsub⟩ := h.reached_nodup rounds
  cases htraverse : traverse children rounds roots with
  | some listed => exact ⟨listed, rfl⟩
  | none =>
    have hlt := lt_length_reached htraverse
    have hle := (List.subperm_of_subset hnodup hsub).length_le
    omega

/-- If all elements descend from roots, each of them is listed once. -/
theorem Branches.traverse_perm {rounds : ℕ} {listed : List α}
    (htraverse : traverse children rounds roots = some listed) (helements : elements.Nodup)
    (hdescend : ∀ a ∈ elements, a ∉ roots → ∃ b ∈ elements, a ∈ children b)
    (hwf : WellFounded fun b a => b ∈ elements ∧ a ∈ children b) : listed.Perm elements := by
  obtain ⟨hnodup, hsub⟩ := h.reached_nodup rounds
  rw [reached_eq_of_traverse htraverse] at hnodup hsub
  refine (List.perm_ext_iff_of_nodup hnodup helements).mpr fun a => ⟨hsub a, ?_⟩
  induction a using hwf.induction with
  | _ a ih =>
    intro ha
    rw [traverse_eq htraverse]
    by_cases hroot : a ∈ roots
    · exact List.mem_append_left _ hroot
    · obtain ⟨b, hb, hchild⟩ := hdescend a ha hroot
      exact List.mem_append_right _ (List.mem_flatMap.mpr ⟨b, ih b ⟨hb, hchild⟩ hb, hchild⟩)

end Branches

/-- Elements which are listed share no child if nothing is listed twice. -/
theorem one_parent_of_traverse {rounds : ℕ} {roots listed : List α}
    (h : traverse children rounds roots = some listed) (hnodup : listed.Nodup) {a a' b : α}
    (ha : a ∈ listed) (ha' : a' ∈ listed) (hb : b ∈ children a) (hb' : b ∈ children a') :
    a = a' := by
  by_contra hne
  rw [traverse_eq h] at hnodup
  have hpairwise := (List.nodup_flatMap.mp (List.nodup_append.mp hnodup).2.1).2
  have : Std.Symm (Function.onFun List.Disjoint children) :=
    ⟨fun _ _ hdisjoint _ hb hb' => hdisjoint hb' hb⟩
  exact hpairwise.forall ha ha' hne hb hb'

end Levels
