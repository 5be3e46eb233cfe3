import Mathlib.Logic.Relation

/-!
# Containment and paths

Nodes contain elements, each of which refers to a node again. A path goes from a node through
one of its elements to the node this refers to and so on. The lemmas say what happens to paths
and to reachability if the elements of one node are exchanged.
-/

namespace NestedPaths

variable {N E : Type*} (target : E → N)

/-- A path from a node: a first element and further ones, each in the node which the one before
refers to. -/
def IsPath (contains : N → E → Prop) : N → E → List E → Prop
  | n, first, [] => contains n first
  | n, first, next :: rest => contains n first ∧ IsPath contains (target first) next rest

variable {target} {contains contains' : N → E → Prop}

/-- Paths depend on nothing but what nodes contain. -/
theorem isPath_congr (h : ∀ n e, contains n e ↔ contains' n e) {n : N} {first : E}
    {rest : List E} : IsPath target contains n first rest ↔ IsPath target contains' n first rest := by
  have heq : contains = contains' := by
    funext n e
    exact propext (h n e)
  rw [heq]

/-- Paths which start elsewhere stay if the elements of a node are exchanged to which no other
node refers. -/
theorem isPath_of_unreferred {w : N} (hother : ∀ n e, n ≠ w → (contains n e ↔ contains' n e))
    (hunreferred : ∀ n e, n ≠ w → contains n e → target e ≠ w) {n : N} (hn : n ≠ w) {first : E}
    {rest : List E} : IsPath target contains n first rest ↔ IsPath target contains' n first rest := by
  induction rest generalizing n first with
  | nil => exact hother n first hn
  | cons next rest ih =>
    constructor
    · rintro ⟨hfirst, hrest⟩
      exact ⟨(hother n first hn).mp hfirst, (ih (hunreferred n first hn hfirst)).mp hrest⟩
    · rintro ⟨hfirst, hrest⟩
      have hfirst' := (hother n first hn).mpr hfirst
      exact ⟨hfirst', (ih (hunreferred n first hn hfirst')).mpr hrest⟩

/-! ## Relations which differ at one point -/

section Redirect

variable {R R' : N → N → Prop} {w x y : N}

/-- A walk either keeps away from the point or it reaches it on the old way. -/
theorem reflTransGen_or_reaches (hother : ∀ n n', n ≠ w → (R' n n' ↔ R n n'))
    (h : Relation.ReflTransGen R' x y) :
    Relation.ReflTransGen R x y ∨ Relation.ReflTransGen R x w := by
  induction h with
  | refl => exact Or.inl .refl
  | @tail b c _ hbc ih =>
    rcases ih with hxb | hxw
    · by_cases hb : b = w
      · exact Or.inr (hb ▸ hxb)
      · exact Or.inl (hxb.tail ((hother b c hb).mp hbc))
    · exact Or.inr hxw

/-- A walk either keeps away from the point or goes on from it, for the last time, on the old
way. -/
theorem reflTransGen_or_from (hother : ∀ n n', n ≠ w → (R' n n' ↔ R n n'))
    (h : Relation.ReflTransGen R' x y) :
    Relation.ReflTransGen R x y ∨ y = w ∨ ∃ z, R' w z ∧ Relation.ReflTransGen R z y := by
  induction h with
  | refl => exact Or.inl .refl
  | @tail b c _ hbc ih =>
    by_cases hb : b = w
    · exact Or.inr (Or.inr ⟨c, hb ▸ hbc, .refl⟩)
    · have hbc' := (hother b c hb).mp hbc
      rcases ih with hxb | hbw | ⟨z, hz, hzb⟩
      · exact Or.inl (hxb.tail hbc')
      · exact absurd hbw hb
      · exact Or.inr (Or.inr ⟨z, hz, hzb.tail hbc'⟩)

/-- A cycle which is not an old one comes back to the point from one of its new successors. -/
theorem transGen_self_cases (hother : ∀ n n', n ≠ w → (R' n n' ↔ R n n'))
    (h : Relation.TransGen R' x x) :
    Relation.TransGen R x x ∨ ∃ z, R' w z ∧ Relation.ReflTransGen R z w := by
  obtain ⟨b, hxb, hbx⟩ := Relation.TransGen.head'_iff.mp h
  by_cases hx : x = w
  · subst hx
    exact Or.inr ⟨b, hxb, (reflTransGen_or_reaches hother hbx).elim id id⟩
  · have hxb' := (hother x b hx).mp hxb
    rcases reflTransGen_or_from hother hbx with hold | hxw | ⟨z, hz, hzx⟩
    · exact Or.inl (.head' hxb' hold)
    · exact absurd hxw hx
    · have hreach : Relation.ReflTransGen R b x ∨ Relation.ReflTransGen R b w :=
        reflTransGen_or_reaches hother hbx
      rcases hreach with hbx' | hbw
      · exact Or.inl (.head' hxb' hbx')
      · exact Or.inr ⟨z, hz, hzx.trans (hbw.head hxb')⟩

end Redirect

end NestedPaths
