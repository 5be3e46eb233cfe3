import Mathlib.Data.List.Pairwise
import Mathlib.Logic.Function.Basic
import Mathlib.Logic.Relation
import Mathlib.Order.Lattice

/-!
# Depths in directed graphs

Nodes of a graph are leaves or have children; of some nothing is known. A leaf has depth zero, and
another node is one deeper than the deepest of its children. Nodes have a depth only if neither a
cycle nor a node of which nothing is known can be reached from them. A sweep through nodes in
which no node comes after one of its children marks all that can be reached from marked nodes.
-/

namespace Depths

variable {α : Type*}

/-! ## Depths -/

/-- What is known of a node. -/
inductive Node (α : Type*)
  | leaf
  | inner (children : List α)

/-- The greatest of some depths. -/
def greatest (depths : α → ℕ) (nodes : List α) : ℕ :=
  nodes.foldl (fun deepest node => max deepest (depths node)) 0

section Depth

variable (view : α → Option (Node α))

/-- A node has another one as a child. -/
def Child (a b : α) : Prop := ∃ children, view a = some (.inner children) ∧ b ∈ children

/-- The depth of a node. -/
inductive HasDepth : α → ℕ → Prop
  | leaf {a : α} (h : view a = some .leaf) : HasDepth a 0
  | inner {a : α} {children : List α} (h : view a = some (.inner children)) {depths : α → ℕ}
      (hdepths : ∀ b ∈ children, HasDepth b (depths b)) :
      HasDepth a (greatest depths children + 1)

variable {view}

/-- The greatest depth, from a given one on. -/
theorem foldl_max_eq (depths : α → ℕ) (nodes : List α) (start : ℕ) :
    nodes.foldl (fun deepest node => max deepest (depths node)) start =
      max start (greatest depths nodes) := by
  induction nodes generalizing start with
  | nil => rw [greatest, List.foldl_nil, List.foldl_nil, Nat.max_zero]
  | cons node rest ih =>
    rw [greatest, List.foldl_cons, List.foldl_cons, ih, ih, Nat.zero_max, Nat.max_assoc]

/-- The greatest of one more depth. -/
theorem greatest_cons (depths : α → ℕ) (a : α) (rest : List α) :
    greatest depths (a :: rest) = max (depths a) (greatest depths rest) := by
  rw [greatest, List.foldl_cons, foldl_max_eq, Nat.zero_max]

/-- No depth is above the greatest. -/
theorem le_greatest {depths : α → ℕ} {nodes : List α} {a : α} (ha : a ∈ nodes) :
    depths a ≤ greatest depths nodes := by
  induction nodes with
  | nil => exact absurd ha List.not_mem_nil
  | cons node rest ih =>
    rw [greatest_cons]
    rcases List.mem_cons.mp ha with rfl | ha
    · exact Nat.le_max_left _ _
    · exact (ih ha).trans (Nat.le_max_right _ _)

/-- The greatest depth only depends on the depths of the nodes. -/
theorem greatest_congr {depths depths' : α → ℕ} {nodes : List α}
    (h : ∀ a ∈ nodes, depths a = depths' a) : greatest depths nodes = greatest depths' nodes := by
  induction nodes with
  | nil => rfl
  | cons node rest ih =>
    rw [greatest_cons, greatest_cons, h node List.mem_cons_self,
      ih fun a ha => h a (List.mem_cons_of_mem _ ha)]

/-- A node has one depth. -/
theorem HasDepth.unique {a : α} {n m : ℕ} (hn : HasDepth view a n) (hm : HasDepth view a m) :
    n = m := by
  induction hn generalizing m with
  | leaf h =>
    cases hm with
    | leaf => rfl
    | inner h' => cases Option.some.inj (h.symm.trans h')
  | @inner a children h depths _ ih =>
    cases hm with
    | leaf h' => cases Option.some.inj (h.symm.trans h')
    | @inner _ children' h' depths' hdepths' =>
      obtain rfl := Node.inner.inj (Option.some.inj (h.symm.trans h'))
      rw [greatest_congr fun b hb => ih b hb (hdepths' b hb)]

/-- Children have depths, and they are smaller. -/
theorem HasDepth.child {a b : α} {n : ℕ} (h : HasDepth view a n) (hab : Child view a b) :
    ∃ m < n, HasDepth view b m := by
  obtain ⟨children, hview, hb⟩ := hab
  cases h with
  | leaf h => cases Option.some.inj (h.symm.trans hview)
  | @inner _ children' h depths hdepths =>
    obtain rfl := Node.inner.inj (Option.some.inj (h.symm.trans hview))
    exact ⟨depths b, Nat.lt_succ_of_le (le_greatest hb), hdepths b hb⟩

/-- What can be reached from a node with a depth has a depth which is not greater. -/
theorem HasDepth.reach {a b : α} {n : ℕ} (h : HasDepth view a n)
    (hab : Relation.ReflTransGen (Child view) a b) : ∃ m ≤ n, HasDepth view b m := by
  induction hab with
  | refl => exact ⟨n, le_rfl, h⟩
  | tail _ hbc ih =>
    obtain ⟨m, hm, hb⟩ := ih
    obtain ⟨k, hk, hc⟩ := hb.child hbc
    exact ⟨k, hk.le.trans hm, hc⟩

/-- No cycle leads through a node with a depth. -/
theorem HasDepth.not_cyclic {a : α} {n : ℕ} (h : HasDepth view a n) :
    ¬ Relation.TransGen (Child view) a a := by
  intro hcycle
  obtain ⟨b, hab, hba⟩ := Relation.TransGen.head'_iff.mp hcycle
  obtain ⟨m, hm, hb⟩ := h.child hab
  obtain ⟨k, hk, ha⟩ := hb.reach hba
  have hkn : k = n := ha.unique h
  omega

/-- Something is known of a node with a depth. -/
theorem HasDepth.known {a : α} {n : ℕ} (h : HasDepth view a n) : view a ≠ none := by
  cases h with
  | leaf h => exact h ▸ Option.some_ne_none _
  | inner h => exact h ▸ Option.some_ne_none _

variable (view)

open Classical in
/-- The depth of a node, zero if it has none. -/
noncomputable def depth (a : α) : ℕ := if h : ∃ n, HasDepth view a n then h.choose else 0

variable {view}

/-- The depth of a node which has one. -/
theorem HasDepth.depth_eq {a : α} {n : ℕ} (h : HasDepth view a n) : depth view a = n := by
  have hexists : ∃ m, HasDepth view a m := ⟨n, h⟩
  rw [depth, dif_pos hexists]
  exact hexists.choose_spec.unique h

/-- A node whose children have depths has one. -/
theorem HasDepth.of_children {a : α} {children : List α} (h : view a = some (.inner children))
    (hchildren : ∀ b ∈ children, ∃ n, HasDepth view b n) :
    HasDepth view a (greatest (depth view) children + 1) := by
  refine .inner h fun b hb => ?_
  obtain ⟨n, hn⟩ := hchildren b hb
  rwa [hn.depth_eq]

end Depth

/-! ## Sweeps -/

section Sweep

variable [DecidableEq α] (children : α → List α)

/-- Mark the children of a marked node. -/
def markChildren (marks : α → Bool) (a : α) : α → Bool :=
  if marks a then (children a).foldl (fun marks b => Function.update marks b true) marks else marks

/-- Mark the children of marked nodes, one node after the other. -/
def sweep (marks : α → Bool) (nodes : List α) : α → Bool := nodes.foldl (markChildren children) marks

variable {children}

/-- What is marked after several nodes have been marked. -/
theorem foldl_update_eq_true (marks : α → Bool) (nodes : List α) (x : α) :
    nodes.foldl (fun marks b => Function.update marks b true) marks x = true ↔
      marks x = true ∨ x ∈ nodes := by
  induction nodes generalizing marks with
  | nil => simp
  | cons b rest ih =>
    rw [List.foldl_cons, ih, List.mem_cons, Function.update_apply]
    by_cases hx : x = b <;> simp [hx]

/-- What is marked after one step. -/
theorem markChildren_eq_true (marks : α → Bool) (a x : α) :
    markChildren children marks a x = true ↔
      marks x = true ∨ (marks a = true ∧ x ∈ children a) := by
  unfold markChildren
  split
  · rename_i ha
    rw [foldl_update_eq_true, ha]
    simp
  · rename_i ha
    simp [ha]

/-- Marks stay. -/
theorem sweep_of_marked {marks : α → Bool} {x : α} (h : marks x = true) (nodes : List α) :
    sweep children marks nodes x = true := by
  induction nodes generalizing marks with
  | nil => exact h
  | cons a rest ih => exact ih ((markChildren_eq_true marks a x).mpr (Or.inl h))

/-- Marks spread to what can be reached from marked nodes. -/
theorem reachable_of_sweep {marks : α → Bool} {nodes : List α} {x : α}
    (h : sweep children marks nodes x = true) :
    ∃ s, marks s = true ∧ Relation.ReflTransGen (fun a b => b ∈ children a) s x := by
  induction nodes generalizing marks with
  | nil => exact ⟨x, h, .refl⟩
  | cons a rest ih =>
    obtain ⟨s, hs, hreach⟩ := ih h
    rcases (markChildren_eq_true marks a s).mp hs with hs | ⟨ha, hchild⟩
    · exact ⟨s, hs, hreach⟩
    · exact ⟨a, ha, hreach.head hchild⟩

/-- A node gets no mark while nodes are visited of which it is no child. -/
theorem marked_of_sweep {marks : α → Bool} {nodes : List α} {x : α}
    (hnodes : ∀ a ∈ nodes, x ∉ children a) (h : sweep children marks nodes x = true) :
    marks x = true := by
  induction nodes generalizing marks with
  | nil => exact h
  | cons a rest ih =>
    have hstep := ih (fun b hb => hnodes b (List.mem_cons_of_mem _ hb)) h
    rcases (markChildren_eq_true marks a x).mp hstep with hmarked | ⟨-, hchild⟩
    · exact hmarked
    · exact absurd hchild (hnodes a List.mem_cons_self)

/-- What a sweep marks: what has been marked, and the children of the last nodes of chains which
start at a marked node and along which the nodes are visited one after the other. -/
theorem sweep_eq_true_iff_chain {marks : α → Bool} {nodes : List α} {x : α} :
    sweep children marks nodes x = true ↔ marks x = true ∨
      ∃ first rest, List.Sublist (first :: rest) nodes ∧ marks first = true ∧
        List.IsChain (fun a b => b ∈ children a) (first :: rest ++ [x]) := by
  induction nodes generalizing marks with
  | nil => simp [sweep]
  | cons a nodes ih =>
    change sweep children (markChildren children marks a) nodes x = true ↔ _
    rw [ih, markChildren_eq_true]
    constructor
    · rintro ((hmarked | ⟨ha, hchild⟩) | ⟨first, rest, hsub, hfirst, hchain⟩)
      · exact Or.inl hmarked
      · exact Or.inr ⟨a, [], (List.nil_sublist _).cons_cons a, ha, by simpa using hchild⟩
      · rcases (markChildren_eq_true marks a first).mp hfirst with hfirst | ⟨ha, hchild⟩
        · exact Or.inr ⟨first, rest, hsub.cons a, hfirst, hchain⟩
        · exact Or.inr ⟨a, first :: rest, hsub.cons_cons a, ha, hchain.cons_cons hchild⟩
    · rintro (hmarked | ⟨first, rest, hsub, hfirst, hchain⟩)
      · exact Or.inl (Or.inl hmarked)
      · have hstep {b : α} (hb : marks b = true) : markChildren children marks a b = true :=
          (markChildren_eq_true marks a b).mpr (Or.inl hb)
        cases hsub with
        | cons _ hsub => exact Or.inr ⟨first, rest, hsub, hstep hfirst, hchain⟩
        | cons_cons _ hsub =>
          cases rest with
          | nil => exact Or.inl (Or.inr ⟨hfirst, by simpa using hchain⟩)
          | cons second rest =>
            have hsecond := List.isChain_cons_cons.mp hchain
            exact Or.inr ⟨second, rest, hsub,
              (markChildren_eq_true marks a second).mpr (Or.inr ⟨hfirst, hsecond.1⟩), hsecond.2⟩

/-- If no node comes after one of its children, then the children of marked nodes are marked. -/
theorem sweep_closed {marks : α → Bool} {nodes : List α}
    (horder : nodes.Pairwise fun a b => a ∉ children b) (hself : ∀ a ∈ nodes, a ∉ children a)
    {a b : α} (ha : a ∈ nodes) (hmarked : sweep children marks nodes a = true)
    (hab : b ∈ children a) : sweep children marks nodes b = true := by
  obtain ⟨before, after, rfl⟩ := List.append_of_mem ha
  have hsplit : sweep children marks (before ++ a :: after) =
      sweep children (markChildren children (sweep children marks before) a) after := by
    rw [sweep, List.foldl_append, List.foldl_cons]
    rfl
  rw [hsplit] at hmarked ⊢
  have hafter : ∀ c ∈ after, a ∉ children c :=
    (List.pairwise_cons.mp (List.pairwise_append.mp horder).2.1).1
  have hstep := (markChildren_eq_true _ a a).mp (marked_of_sweep hafter hmarked)
  have hbefore : sweep children marks before a = true :=
    hstep.resolve_right fun h => hself a ha h.2
  exact sweep_of_marked ((markChildren_eq_true _ a b).mpr (Or.inr ⟨hbefore, hab⟩)) _

/-- If no node comes after one of its children, then a sweep through all nodes with children marks
all that can be reached from marked nodes. -/
theorem sweep_eq_true_iff {marks : α → Bool} {nodes : List α}
    (horder : nodes.Pairwise fun a b => a ∉ children b) (hself : ∀ a ∈ nodes, a ∉ children a)
    (hall : ∀ a, children a ≠ [] → a ∈ nodes) (x : α) :
    sweep children marks nodes x = true ↔
      ∃ s, marks s = true ∧ Relation.ReflTransGen (fun a b => b ∈ children a) s x := by
  constructor
  · exact reachable_of_sweep
  rintro ⟨s, hs, hreach⟩
  induction hreach with
  | refl => exact sweep_of_marked hs _
  | @tail a b _ hab ih =>
    exact sweep_closed horder hself (hall a (List.ne_nil_of_mem hab)) ih hab

end Sweep

end Depths
