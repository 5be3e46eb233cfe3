import Mathlib.Data.List.Basic
import Mathlib.Tactic.TypeStar

/-!
# Rose trees

Trees in which every node has a label and any number of subtrees, and forests of them: their
labels in the order in which a node comes before its subtrees, the labels of their leaves, and
relations between the label of each node and that of its parent.
-/

/-- A label and the subtrees below it. -/
inductive RoseTree (α : Type*)
  | node (label : α) (children : List (RoseTree α))

namespace RoseTree

variable {α β γ : Type*}

mutual

/-- A tree with other labels. -/
def map (f : α → β) : RoseTree α → RoseTree β
  | node label children => node (f label) (mapForest f children)

/-- A forest with other labels. -/
def mapForest (f : α → β) : List (RoseTree α) → List (RoseTree β)
  | [] => []
  | tree :: forest => tree.map f :: mapForest f forest

end

mutual

/-- All labels of a tree. -/
def labels : RoseTree α → List α
  | node label children => label :: labelsForest children

/-- All labels of a forest. -/
def labelsForest : List (RoseTree α) → List α
  | [] => []
  | tree :: forest => tree.labels ++ labelsForest forest

end

mutual

/-- The labels of the leaves of a tree. -/
def leaves : RoseTree α → List α
  | node label [] => [label]
  | node _ (child :: children) => child.leaves ++ leavesForest children

/-- The labels of the leaves of a forest. -/
def leavesForest : List (RoseTree α) → List α
  | [] => []
  | tree :: forest => tree.leaves ++ leavesForest forest

end

mutual

/-- The number of levels of a tree. -/
def depth : RoseTree α → ℕ
  | node _ children => 1 + depthForest children

/-- The number of levels of a forest. -/
def depthForest : List (RoseTree α) → ℕ
  | [] => 0
  | tree :: forest => max tree.depth (depthForest forest)

end

mutual

/-- Each label is related to that of its parent. -/
def Linked (R : Option α → α → Prop) (parent : Option α) : RoseTree α → Prop
  | node label children => R parent label ∧ LinkedForest R (some label) children

/-- The labels of a forest are related to those of their parents. -/
def LinkedForest (R : Option α → α → Prop) (parent : Option α) : List (RoseTree α) → Prop
  | [] => True
  | tree :: forest => tree.Linked R parent ∧ LinkedForest R parent forest

end

/-- The leaves of a node with subtrees are those of the subtrees. -/
theorem leaves_node {label : α} {children : List (RoseTree α)} (h : children ≠ []) :
    (node label children).leaves = leavesForest children := by
  cases children with
  | nil => exact absurd rfl h
  | cons child children => rw [leaves, leavesForest]

/-- A forest with other labels is empty only if the forest is. -/
theorem mapForest_eq_nil_iff {f : α → β} {forest : List (RoseTree α)} :
    mapForest f forest = [] ↔ forest = [] := by
  cases forest with
  | nil => simp [mapForest]
  | cons tree forest => simp [mapForest]

end RoseTree
