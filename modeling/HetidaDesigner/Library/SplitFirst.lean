import Mathlib.Data.List.Infix

/-!
# Splitting at the first occurrence of a separator

`splitFirst` is Python's `split(sep, 1)` when it yields two parts. Where the first occurrence
lies depends on the text up to its end only, so the parts behind it can be exchanged.
-/

namespace SplitFirst

variable {α : Type*} [DecidableEq α]

/-- The text before and behind the first occurrence of a separator. -/
def splitFirst (sep : List α) : List α → Option (List α × List α)
  | [] => if sep = [] then some ([], []) else none
  | c :: rest =>
    if sep.isPrefixOf (c :: rest) then some ([], (c :: rest).drop sep.length)
    else (splitFirst sep rest).map fun parts => (c :: parts.1, parts.2)

/-- Python's `split(sep, n)`. -/
def splitMax (sep : List α) : ℕ → List α → List (List α)
  | 0, s => [s]
  | n + 1, s =>
    match splitFirst sep s with
    | none => [s]
    | some parts => parts.1 :: splitMax sep n parts.2

/-- Python's `split(sep)` for a nonempty separator. -/
def splitAll (sep s : List α) : List (List α) := splitMax sep s.length s

/-- Python's `rsplit(sep, n)`. -/
def rsplitMax (sep : List α) (n : ℕ) (s : List α) : List (List α) :=
  ((splitMax sep.reverse n s.reverse).map List.reverse).reverse

/-- The parts and the separator make up the text. -/
theorem splitFirst_eq_some {sep s before after : List α}
    (h : splitFirst sep s = some (before, after)) : s = before ++ sep ++ after := by
  induction s generalizing before with
  | nil =>
    unfold splitFirst at h
    split at h
    · obtain ⟨rfl, rfl⟩ := Prod.mk.inj (Option.some.inj h)
      simp_all
    · cases h
  | cons c rest ih =>
    unfold splitFirst at h
    split at h
    · rename_i hprefix
      obtain ⟨rfl, rfl⟩ := Prod.mk.inj (Option.some.inj h)
      obtain ⟨suffix, hsuffix⟩ := List.isPrefixOf_iff_prefix.mp hprefix
      rw [← hsuffix, List.drop_left, List.nil_append]
    · obtain ⟨parts, hparts, heq⟩ := Option.map_eq_some_iff.mp h
      obtain ⟨rfl, rfl⟩ := Prod.mk.inj heq
      rw [ih hparts, List.cons_append, List.cons_append]

/-- A text that begins with the separator is split at its start. -/
theorem splitFirst_at_start (sep rest : List α) : splitFirst sep (sep ++ rest) = some ([], rest) := by
  cases sep with
  | nil => cases rest <;> simp [splitFirst]
  | cons c sep =>
    rw [List.cons_append, splitFirst, if_pos, ← List.cons_append, List.drop_left]
    rw [List.isPrefixOf_iff_prefix, ← List.cons_append]
    exact List.prefix_append _ _

/-- A separator fits at the start of a text according to as many characters as it has. -/
theorem isPrefixOf_append {sep s : List α} (hlength : sep.length ≤ s.length) (t : List α) :
    sep.isPrefixOf (s ++ t) = sep.isPrefixOf s := by
  rw [Bool.eq_iff_iff, List.isPrefixOf_iff_prefix, List.isPrefixOf_iff_prefix]
  constructor
  · intro h
    exact List.prefix_of_prefix_length_le h (List.prefix_append s t) hlength
  · intro h
    exact h.trans (List.prefix_append s t)

/-- Text appended behind goes to the part behind. -/
theorem splitFirst_append {sep s before after : List α}
    (h : splitFirst sep s = some (before, after)) (t : List α) :
    splitFirst sep (s ++ t) = some (before, after ++ t) := by
  induction s generalizing before with
  | nil =>
    obtain ⟨rfl, rfl, rfl⟩ : before = [] ∧ sep = [] ∧ after = [] := by
      have hnil := splitFirst_eq_some h
      simpa [and_assoc] using hnil.symm
    exact splitFirst_at_start [] t
  | cons c rest ih =>
    have hlength : sep.length ≤ (c :: rest).length := by
      have hsplit := congrArg List.length (splitFirst_eq_some h)
      simp only [List.length_append] at hsplit
      omega
    have hsame := isPrefixOf_append hlength t
    unfold splitFirst at h
    rw [List.cons_append, splitFirst, ← List.cons_append, hsame]
    split at h
    · rename_i hprefix
      obtain ⟨rfl, rfl⟩ := Prod.mk.inj (Option.some.inj h)
      rw [if_pos hprefix, List.drop_append_of_le_length hlength]
    · rename_i hprefix
      obtain ⟨parts, hparts, heq⟩ := Option.map_eq_some_iff.mp h
      obtain ⟨rfl, rfl⟩ := Prod.mk.inj heq
      rw [if_neg hprefix, ih hparts, Option.map_some]

/-- What follows the first occurrence does not matter for where it is. -/
theorem splitFirst_exchange {sep before after : List α}
    (h : splitFirst sep (before ++ sep ++ after) = some (before, after)) (other : List α) :
    splitFirst sep (before ++ sep ++ other) = some (before, other) := by
  have hshort : splitFirst sep (before ++ sep) = some (before, []) := by
    clear other
    induction before with
    | nil => simpa using splitFirst_at_start sep []
    | cons c rest ih =>
      have hlength : sep.length ≤ (c :: (rest ++ sep)).length := by simp; omega
      have hsame := isPrefixOf_append hlength after
      rw [List.cons_append, List.cons_append] at h
      rw [List.cons_append, splitFirst]
      rw [splitFirst] at h
      rw [← List.cons_append, hsame] at h
      split at h
      · cases h
      · rename_i hprefix
        obtain ⟨parts, hparts, heq⟩ := Option.map_eq_some_iff.mp h
        obtain ⟨hbefore, hafter⟩ := Prod.mk.inj heq
        have hrest := ih (hparts.trans (congrArg some (Prod.ext (List.cons.inj hbefore).2 hafter)))
        rw [if_neg hprefix, hrest]
        rfl
  have happend := splitFirst_append hshort other
  rwa [List.nil_append] at happend

/-- No separator stands before the first one. -/
theorem length_le_of_splitFirst {sep s before after : List α}
    (h : splitFirst sep s = some (before, after)) {b a : List α} (heq : s = b ++ sep ++ a) :
    before.length ≤ b.length := by
  induction b generalizing s before with
  | nil =>
    rw [heq, List.nil_append, splitFirst_at_start] at h
    rw [← (Prod.mk.inj (Option.some.inj h)).1]
  | cons c b ih =>
    rw [heq, List.cons_append, List.cons_append, splitFirst] at h
    split at h
    · rw [← (Prod.mk.inj (Option.some.inj h)).1]
      exact Nat.zero_le _
    · obtain ⟨⟨start, final⟩, hparts, hpair⟩ := Option.map_eq_some_iff.mp h
      obtain ⟨rfl, rfl⟩ := Prod.mk.inj hpair
      exact Nat.succ_le_succ (ih hparts rfl)

/-- A text with a separator is split. -/
theorem exists_splitFirst {sep s b a : List α} (heq : s = b ++ sep ++ a) :
    ∃ parts, splitFirst sep s = some parts := by
  induction b generalizing s with
  | nil => exact ⟨_, by rw [heq, List.nil_append, splitFirst_at_start]⟩
  | cons c b ih =>
    obtain ⟨parts, hparts⟩ := ih rfl
    rw [heq, List.cons_append, List.cons_append, splitFirst]
    split
    · exact ⟨_, rfl⟩
    · exact ⟨_, Option.map_eq_some_iff.mpr ⟨parts, hparts, rfl⟩⟩

/-- A text without one of the characters of the separator has no separator. -/
theorem splitFirst_eq_none {sep s : List α} {c : α} (hc : c ∈ sep) (h : c ∉ s) :
    splitFirst sep s = none := by
  cases hsplit : splitFirst sep s with
  | none => rfl
  | some parts =>
    refine absurd ?_ h
    rw [splitFirst_eq_some hsplit]
    exact List.mem_append_left _ (List.mem_append_right _ hc)

/-- No separator reaches across a character which it does not have. -/
theorem splitFirst_append_cons {sep s : List α} (h : splitFirst sep s = none) {c : α}
    (hc : c ∉ sep) (t : List α) :
    splitFirst sep (s ++ c :: t) = (splitFirst sep t).map fun parts => (s ++ c :: parts.1, parts.2) := by
  have hfar {s : List α} (hs : splitFirst sep s = none) :
      sep.isPrefixOf (s ++ c :: t) = false := by
    rw [Bool.eq_false_iff, Ne, List.isPrefixOf_iff_prefix]
    intro hprefix
    rcases Nat.lt_or_ge s.length sep.length with hlt | hle
    · have hc' : s ++ [c] <+: sep := by
        refine List.prefix_of_prefix_length_le ⟨t, by simp⟩ hprefix ?_
        rw [List.length_append]
        exact hlt
      exact hc (hc'.subset (by simp))
    · obtain ⟨rest, rfl⟩ := List.prefix_of_prefix_length_le hprefix (List.prefix_append s _) hle
      rw [splitFirst_at_start] at hs
      cases hs
  induction s with
  | nil =>
    have hnil : sep.isPrefixOf (c :: t) = false := hfar h
    rw [List.nil_append, splitFirst, hnil]
    rfl
  | cons d s ih =>
    have hrest : splitFirst sep s = none := by
      rw [splitFirst] at h
      split at h
      · cases h
      · exact Option.map_eq_none_iff.mp h
    rw [List.cons_append, splitFirst, ← List.cons_append, hfar h, if_neg Bool.false_ne_true,
      ih hrest, Option.map_map]
    rfl

/-- Characters with which the separator does not begin go to the part in front. -/
theorem splitFirst_append_of_notMem {first : α} {before : List α} (h : first ∉ before)
    (sep s : List α) :
    splitFirst (first :: sep) (before ++ s) =
      (splitFirst (first :: sep) s).map fun parts => (before ++ parts.1, parts.2) := by
  induction before with
  | nil => simp
  | cons c rest ih =>
    obtain ⟨hc, hrest⟩ := not_or.mp (fun hmem => h (List.mem_cons.mpr hmem))
    have hprefix : ¬ (first :: sep) <+: c :: (rest ++ s) := fun hprefix =>
      hc (List.cons_prefix_cons.mp hprefix).1
    rw [List.cons_append, splitFirst, if_neg (mt List.isPrefixOf_iff_prefix.mp hprefix), ih hrest,
      Option.map_map]
    rfl

/-! ## Separators of the form `xyx` -/

section Marked

/-- Each occurrence of a character is followed by another one than a given one. -/
def FollowedByOther (x y : α) (s : List α) : Prop :=
  ∀ before after, s = before ++ x :: after → ∃ c, after.head? = some c ∧ c ≠ y

variable {x y : α}

omit [DecidableEq α] in
/-- A text without the character. -/
theorem followedByOther_of_notMem {s : List α} (h : x ∉ s) : FollowedByOther x y s :=
  fun _ _ heq => absurd (heq ▸ List.mem_append_right _ List.mem_cons_self) h

omit [DecidableEq α] in
/-- A text in which the character occurs once. -/
theorem followedByOther_append {before after : List α} (hbefore : x ∉ before) (hafter : x ∉ after)
    {c : α} (hhead : after.head? = some c) (hc : c ≠ y) :
    FollowedByOther x y (before ++ x :: after) := by
  intro start final heq
  have hsame : after = final := by
    rcases List.append_eq_append_iff.mp heq with ⟨between, hstart, hfinal⟩ | ⟨between, hbef, hfin⟩
    · cases between with
      | nil => exact (List.cons.inj hfinal).2
      | cons d between =>
        obtain ⟨-, hrest⟩ := List.cons.inj hfinal
        exact absurd (hrest ▸ List.mem_append_right _ List.mem_cons_self) hafter
    · cases between with
      | nil => exact (List.cons.inj hfin).2.symm
      | cons d between =>
        obtain ⟨rfl, -⟩ := List.cons.inj hfin
        exact absurd (hbef ▸ List.mem_append_right _ List.mem_cons_self) hbefore
  exact ⟨c, hsame ▸ hhead, hc⟩

/-- The separator does not occur before the end of such a text. -/
theorem splitFirst_marked {s : List α} (h : FollowedByOther x y s) (t : List α) :
    splitFirst [x, y, x] (s ++ [x, y, x] ++ t) = some (s, t) := by
  induction s with
  | nil => exact splitFirst_at_start [x, y, x] t
  | cons c rest ih =>
    have hrest : FollowedByOther x y rest := fun before after heq =>
      h (c :: before) after (by rw [heq, List.cons_append])
    have hprefix : ¬ [x, y, x] <+: c :: (rest ++ [x, y, x] ++ t) := by
      intro hprefix
      obtain ⟨rfl, hyx⟩ := List.cons_prefix_cons.mp hprefix
      obtain ⟨d, hd, hne⟩ := h [] rest rfl
      cases rest with
      | nil => cases hd
      | cons e rest =>
        obtain rfl : e = d := Option.some.inj hd
        exact hne (List.cons_prefix_cons.mp hyx).1.symm
    rw [List.cons_append, List.cons_append, splitFirst,
      if_neg (mt List.isPrefixOf_iff_prefix.mp hprefix), ih hrest]
    rfl

/-- The separator does not occur in such a text. -/
theorem splitFirst_marked_eq_none {s : List α} (h : FollowedByOther x y s) :
    splitFirst [x, y, x] s = none := by
  cases hsplit : splitFirst [x, y, x] s with
  | none => rfl
  | some parts =>
    obtain ⟨c, hc, hne⟩ := h parts.1 (y :: x :: parts.2) (by
      rw [splitFirst_eq_some hsplit, List.append_assoc]
      rfl)
    exact absurd (Option.some.inj hc).symm hne

/-- Three parts without the separator. -/
theorem splitMax_marked {first second third : List α} (hfirst : FollowedByOther x y first)
    (hsecond : FollowedByOther x y second) {n : ℕ} (hn : n = 0 ∨ FollowedByOther x y third) :
    splitMax [x, y, x] (n + 2) (first ++ [x, y, x] ++ (second ++ [x, y, x] ++ third)) =
      [first, second, third] := by
  rw [splitMax, splitFirst_marked hfirst]
  dsimp only
  rw [splitMax, splitFirst_marked hsecond]
  dsimp only
  cases n with
  | zero => rfl
  | succ n =>
    have hthird := splitFirst_marked_eq_none (hn.resolve_left (Nat.succ_ne_zero n))
    rw [splitMax, hthird]

/-- Three parts without the separator, split at each occurrence. -/
theorem splitAll_marked {first second third : List α} (hfirst : FollowedByOther x y first)
    (hsecond : FollowedByOther x y second) (hthird : FollowedByOther x y third) :
    splitAll [x, y, x] (first ++ [x, y, x] ++ (second ++ [x, y, x] ++ third)) =
      [first, second, third] := by
  have hlength : (first ++ [x, y, x] ++ (second ++ [x, y, x] ++ third)).length =
      (first.length + second.length + third.length + 4) + 2 := by
    simp only [List.length_append, List.length_cons, List.length_nil]
    omega
  rw [splitAll, hlength]
  exact splitMax_marked hfirst hsecond (Or.inr hthird)

/-- Three parts without the separator, split from the right. -/
theorem rsplitMax_marked {first second third : List α}
    (hsecond : FollowedByOther x y second.reverse) (hthird : FollowedByOther x y third.reverse) :
    rsplitMax [x, y, x] 2 (first ++ [x, y, x] ++ (second ++ [x, y, x] ++ third)) =
      [first, second, third] := by
  have hreverse : (first ++ [x, y, x] ++ (second ++ [x, y, x] ++ third)).reverse =
      third.reverse ++ [x, y, x] ++ (second.reverse ++ [x, y, x] ++ first.reverse) := by
    simp
  have hsplit : splitMax [x, y, x] (0 + 2) (third.reverse ++ [x, y, x] ++
      (second.reverse ++ [x, y, x] ++ first.reverse)) = _ :=
    splitMax_marked hthird hsecond (Or.inl rfl)
  rw [rsplitMax, hreverse]
  change ((splitMax [x, y, x] (0 + 2) _).map List.reverse).reverse = _
  rw [hsplit]
  simp

end Marked

/-! ## Separators that occur once -/

/-- A separator occurs at exactly one place of a text. -/
def OccursOnce (sep text : List α) : Prop :=
  ∃! before, ∃ after, text = before ++ sep ++ after

/-- The first occurrence is where the only one is. -/
theorem OccursOnce.splitFirst {sep before after : List α}
    (h : OccursOnce sep (before ++ sep ++ after)) :
    splitFirst sep (before ++ sep ++ after) = some (before, after) := by
  obtain ⟨⟨first, rest⟩, hsplit⟩ := @exists_splitFirst _ _ sep _ before after rfl
  obtain ⟨only, -, hunique⟩ := h
  have htext := splitFirst_eq_some hsplit
  have hfirst : first = before :=
    (hunique first ⟨rest, htext⟩).trans (hunique before ⟨after, rfl⟩).symm
  subst hfirst
  rw [hsplit, List.append_cancel_left htext]

/-- The first occurrence is the only one if there is none from its second character on. -/
theorem occursOnce_of_splitFirst {sep text before after : List α}
    (h : splitFirst sep text = some (before, after))
    (hlast : splitFirst sep (sep ++ after).tail = none) : OccursOnce sep text := by
  have htext := splitFirst_eq_some h
  refine ⟨before, ⟨after, htext⟩, fun b ⟨a, hb⟩ => ?_⟩
  obtain ⟨between, rfl⟩ : before <+: b := by
    have hbefore : before <+: text := ⟨sep ++ after, by rw [htext, List.append_assoc]⟩
    have hprefix : b <+: text := ⟨sep ++ a, by rw [hb, List.append_assoc]⟩
    exact List.prefix_of_prefix_length_le hbefore hprefix (length_le_of_splitFirst h hb)
  cases between with
  | nil => exact List.append_nil before
  | cons c between =>
    have hrest : sep ++ after = c :: (between ++ sep ++ a) := by
      have heq := htext.symm.trans hb
      simp only [List.append_assoc] at heq
      simpa using List.append_cancel_left heq
    obtain ⟨parts, hparts⟩ := @exists_splitFirst _ _ sep _ between a rfl
    rw [hrest, List.tail_cons, hparts] at hlast
    cases hlast

/-- No separator begins where one of its characters is still to come for the first time. -/
theorem splitFirst_of_notMem {sep s : List α} {c : α} (hc : c ∈ sep) (h : c ∉ s) (t : List α) :
    splitFirst sep (s ++ sep ++ t) = some (s, t) := by
  obtain ⟨first, final, rfl, hfirst⟩ := List.eq_append_cons_of_mem hc
  induction s with
  | nil => exact splitFirst_at_start _ t
  | cons d s ih =>
    have hfar : ¬ (first ++ c :: final).isPrefixOf (d :: s ++ (first ++ c :: final) ++ t) := by
      rw [List.isPrefixOf_iff_prefix]
      rintro ⟨rest, hrest⟩
      -- the separator up to the character would lie within text without it
      have hshort : first ++ [c] <+: d :: s ++ first := by
        refine List.prefix_of_prefix_length_le ⟨final ++ rest, ?_⟩
          ⟨c :: final ++ t, (List.append_assoc _ _ _).symm⟩ ?_
        · simpa using hrest
        · simp
      have hmem := hshort.subset (List.mem_append_right first (List.mem_singleton.mpr rfl))
      rcases List.mem_append.mp hmem with hmem | hmem
      · exact h hmem
      · exact hfirst hmem
    rw [List.cons_append, List.cons_append] at hfar ⊢
    rw [splitFirst, if_neg hfar, ih fun hmem => h (List.mem_cons_of_mem _ hmem)]
    rfl

/-- A separator occurs once behind text without one of its characters. -/
theorem occursOnce_append {sep s : List α} {c : α} (hc : c ∈ sep) (h : c ∉ s) :
    OccursOnce sep (s ++ sep) := by
  have hsplit := splitFirst_of_notMem hc h []
  rw [List.append_nil] at hsplit
  refine occursOnce_of_splitFirst hsplit ?_
  cases hrest : splitFirst sep (sep ++ []).tail with
  | none => rfl
  | some parts =>
    have hlength := congrArg List.length (splitFirst_eq_some hrest)
    have hpos := List.length_pos_of_mem hc
    simp only [List.append_nil, List.length_tail, List.length_append] at hlength
    omega

end SplitFirst
