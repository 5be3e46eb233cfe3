import HetidaDesigner.Models.Operator
import Mathlib.Data.List.Nodup

/-!
# When validated operator names are distinct

The two validators number the operators of each seed and set or remove one draft mark. Names of
different seeds can meet: a seed may end in a number itself, and the mark may be there already. So
names are distinct and show the states of operators only under a condition on the given names.
-/

namespace HetidaDesigner

/-- The method `removeprefix` for the draft mark. -/
def removeDraftPrefix (name : PyStr) : PyStr :=
  if draftPrefix.isPrefixOf name then name.drop draftPrefix.length else name

/-- The part of a name before its running number and without draft mark: the first operator of a
seed has the plain seed, later ones have a blank behind it. -/
def nameStem (seed : PyStr) (index : ℕ) : PyStr :=
  removeDraftPrefix (if index = 0 then seed else seed ++ [' '])

/-- The running number of a name; the first operator of a seed has none. -/
def runningNumber (index : ℕ) : PyStr :=
  if index = 0 then [] else '(' :: Nat.toDigits 10 (index + 1) ++ [')']

/-- Two operators, each with its seed and its position among the operators of that seed, get the
same name up to draft marks. -/
inductive NamesClash : PyStr × ℕ → PyStr × ℕ → Prop
  | sameStem {seed seed' : PyStr} {index : ℕ} (stems : nameStem seed index = nameStem seed' index) :
      NamesClash (seed, index) (seed', index)
  | firstNumbered {seed seed' : PyStr} {index : ℕ} (later : index ≠ 0)
      (stems : nameStem seed 0 = nameStem seed' index ++ runningNumber index) :
      NamesClash (seed, 0) (seed', index)
  | secondNumbered {seed seed' : PyStr} {index : ℕ} (later : index ≠ 0)
      (stems : nameStem seed index ++ runningNumber index = nameStem seed' 0) :
      NamesClash (seed, index) (seed', 0)

section Names

variable {V : Type}

/-- Operators with their seeds and their positions among the operators of the same seed. -/
def seedPositions (earlier : List PyStr) : List (Operator V) → List (Operator V × PyStr × ℕ)
  | [] => []
  | operator :: rest =>
    let seed := operatorNameSeed operator.name
    (operator, seed, earlier.count seed) :: seedPositions (earlier ++ [seed]) rest

/-- Names are pairwise different, and exactly those of drafts have a draft mark. -/
structure NamesInOrder (operators : List (Operator V)) : Prop where
  unique : (operators.map fun operator => operator.name).Nodup
  marked : ∀ operator ∈ operators, operator.state = .draft ↔ draftPrefix <+: operator.name

/-- Given names which the validators turn into distinct ones: no operator but drafts has a stem
with a draft mark, and no two operators which are both drafts or both none clash. -/
structure NamesDistinguishable (operators : List (Operator V)) : Prop where
  unmarked : ∀ entry ∈ seedPositions [] operators, entry.1.state ≠ .draft →
    ¬ draftPrefix <+: nameStem entry.2.1 entry.2.2
  apart : (seedPositions [] operators).Pairwise fun entry entry' =>
    (entry.1.state = .draft ↔ entry'.1.state = .draft) → ¬ NamesClash entry.2 entry'.2

end Names

/-! ## Stems and running numbers -/

/-- A draft mark is removed. -/
@[simp] theorem removeDraftPrefix_append (name : PyStr) :
    removeDraftPrefix (draftPrefix ++ name) = name := by
  have hprefix : draftPrefix.isPrefixOf (draftPrefix ++ name) = true :=
    List.isPrefixOf_iff_prefix.mpr (List.prefix_append _ _)
  rw [removeDraftPrefix, if_pos hprefix, List.drop_left]

/-- A name without draft mark stays. -/
theorem removeDraftPrefix_of_not {name : PyStr} (h : ¬ draftPrefix <+: name) :
    removeDraftPrefix name = name := by
  rw [removeDraftPrefix, if_neg]
  rwa [List.isPrefixOf_iff_prefix]

/-- What follows a blank does not matter for the draft mark, which has its only blank at the end. -/
theorem draftPrefix_prefix_append_iff (name rest : PyStr) :
    draftPrefix <+: (name ++ [' ']) ++ rest ↔ draftPrefix <+: name ++ [' '] := by
  constructor
  · intro h
    rcases List.prefix_or_prefix_of_prefix h (List.prefix_append _ _) with hprefix | ⟨more, hmore⟩
    · exact hprefix
    · have hnil : more = [] := by
        by_contra hne
        have hlast : more.getLast? = some ' ' := by
          rw [← List.getLast?_append_of_ne_nil _ hne, hmore]
          rfl
        have hcount : 0 < more.count ' ' :=
          List.count_pos_iff.mpr (List.mem_of_getLast? hlast)
        have hblanks : draftPrefix.count ' ' = 1 := by decide
        rw [← hmore, List.count_append, List.count_append, List.count_singleton_self] at hblanks
        omega
      rw [hnil, List.append_nil] at hmore
      exact ⟨[], (List.append_nil _).trans hmore.symm⟩
  · intro h
    exact h.trans (List.prefix_append _ _)

/-- There is no draft mark in a running number. -/
theorem not_draftPrefix_prefix_runningNumber (index : ℕ) :
    ¬ draftPrefix <+: runningNumber index := by
  intro h
  have hmark : 'D' ∈ draftPrefix := by decide
  have hnone : (runningNumber index).count 'D' = 0 := by
    unfold runningNumber
    split
    · rfl
    · simp [count_toDigits_D]
  exact List.count_eq_zero.mp hnone (h.subset hmark)

/-- The draft mark of a numbered name is removed from its stem. -/
theorem removeDraftPrefix_numberedName (seed : PyStr) (index : ℕ) :
    removeDraftPrefix (numberedName seed index) = nameStem seed index ++ runningNumber index := by
  by_cases hindex : index = 0
  · rw [numberedName, nameStem, runningNumber, if_pos hindex, if_pos hindex, if_pos hindex,
      List.append_nil]
  · have hname : numberedName seed index = (seed ++ [' ']) ++ runningNumber index := by
      rw [numberedName, runningNumber, if_neg hindex, if_neg hindex]
      simp
    rw [hname, nameStem, if_neg hindex]
    by_cases hmark : draftPrefix <+: seed ++ [' ']
    · obtain ⟨stem, hstem⟩ := hmark
      rw [← hstem, List.append_assoc, removeDraftPrefix_append, removeDraftPrefix_append]
    · rw [removeDraftPrefix_of_not hmark, removeDraftPrefix_of_not]
      rwa [draftPrefix_prefix_append_iff]

/-- A running number adds no draft mark to a stem. -/
theorem draftPrefix_prefix_numbered_iff (seed : PyStr) (index : ℕ) :
    draftPrefix <+: nameStem seed index ++ runningNumber index ↔
      draftPrefix <+: nameStem seed index := by
  by_cases hindex : index = 0
  · rw [runningNumber, if_pos hindex, List.append_nil]
  · have hstem : nameStem seed index = [] ∨ ∃ stem, nameStem seed index = stem ++ [' '] := by
      rw [nameStem, if_neg hindex]
      by_cases hmark : draftPrefix <+: seed ++ [' ']
      · obtain ⟨stem, hstem⟩ := hmark
        rw [← hstem, removeDraftPrefix_append]
        rcases List.eq_nil_or_concat' stem with hnil | ⟨rest, last, rfl⟩
        · exact Or.inl hnil
        · rw [← List.append_assoc] at hstem
          rw [List.append_inj_right' hstem rfl]
          exact Or.inr ⟨rest, rfl⟩
      · exact Or.inr ⟨seed, removeDraftPrefix_of_not hmark⟩
    rcases hstem with hnil | ⟨stem, hstem⟩
    · rw [hnil, List.nil_append]
      have hshort : ¬ draftPrefix <+: ([] : PyStr) := by decide
      exact iff_of_false (not_draftPrefix_prefix_runningNumber index) hshort
    · rw [hstem]
      exact draftPrefix_prefix_append_iff stem _

/-- A text up to a bracket and a number in brackets are determined by the whole. -/
theorem eq_of_append_bracketed_eq {stem stem' digits digits' : PyStr} (h : '(' ∉ digits)
    (h' : '(' ∉ digits') (heq : stem ++ '(' :: digits = stem' ++ '(' :: digits') :
    stem = stem' ∧ digits = digits' := by
  rcases List.append_eq_append_iff.mp heq with ⟨more, rfl, hmore⟩ | ⟨more, rfl, hmore⟩
  · cases more with
    | nil => exact ⟨(List.append_nil _).symm, (List.cons.inj hmore).2⟩
    | cons c more =>
      have hdigits := (List.cons.inj hmore).2
      exact absurd (hdigits ▸ List.mem_append_right _ List.mem_cons_self) h
  · cases more with
    | nil => exact ⟨List.append_nil _, (List.cons.inj hmore).2.symm⟩
    | cons c more =>
      have hdigits := (List.cons.inj hmore).2
      exact absurd (hdigits ▸ List.mem_append_right _ List.mem_cons_self) h'

/-- Digits contain no bracket. -/
theorem bracket_not_mem_toDigits (n : ℕ) : '(' ∉ Nat.toDigits 10 n := by
  intro h
  exact absurd (Nat.isDigit_of_mem_toDigits (by decide) (by decide) h) (by decide)

/-- Numbers with the same digits are the same. -/
theorem eq_of_toDigits_eq {m n : ℕ} (h : Nat.toDigits 10 m = Nat.toDigits 10 n) : m = n := by
  rw [← Nat.ofDigitChars_toDigits (b := 10) (by decide) (by decide) (n := m), h]
  exact Nat.ofDigitChars_toDigits (by decide) (by decide)

/-- Stems with their numbers are the same exactly if they clash. -/
theorem numbered_eq_iff_namesClash {seed seed' : PyStr} {index index' : ℕ} :
    nameStem seed index ++ runningNumber index = nameStem seed' index' ++ runningNumber index' ↔
      NamesClash (seed, index) (seed', index') := by
  have hfirst : runningNumber 0 = [] := rfl
  constructor
  · intro h
    by_cases hindex : index = 0
    · subst hindex
      rw [hfirst, List.append_nil] at h
      by_cases hindex' : index' = 0
      · subst hindex'
        rw [hfirst, List.append_nil] at h
        exact .sameStem h
      · exact .firstNumbered hindex' h
    · by_cases hindex' : index' = 0
      · subst hindex'
        rw [hfirst, List.append_nil] at h
        exact .secondNumbered hindex h
      · rw [runningNumber, runningNumber, if_neg hindex, if_neg hindex', ← List.append_assoc,
          ← List.append_assoc] at h
        have hopen := List.append_inj_left' h rfl
        obtain ⟨hstems, hdigits⟩ := eq_of_append_bracketed_eq (bracket_not_mem_toDigits _)
          (bracket_not_mem_toDigits _) hopen
        obtain rfl : index = index' := by
          have hsucc := eq_of_toDigits_eq hdigits
          omega
        exact .sameStem hstems
  · intro h
    cases h with
    | sameStem stems => rw [stems]
    | firstNumbered later stems => rw [hfirst, List.append_nil, stems]
    | secondNumbered later stems => rw [hfirst, List.append_nil, stems]

/-! ## The validators -/

section Validators

variable {V : Type}

/-- The name of an operator after both validators. -/
def validatedName (entry : Operator V × PyStr × ℕ) : PyStr :=
  if entry.1.state = .draft then
    draftPrefix ++ (nameStem entry.2.1 entry.2.2 ++ runningNumber entry.2.2)
  else nameStem entry.2.1 entry.2.2 ++ runningNumber entry.2.2

/-- A draft has the mark, and from other operators one mark is removed. -/
theorem nameRepresentingState_eq (operator : Operator V) : nameRepresentingState operator =
    if operator.state = .draft then draftPrefix ++ removeDraftPrefix operator.name
    else removeDraftPrefix operator.name := by
  unfold nameRepresentingState
  split
  · by_cases hmark : draftPrefix <+: operator.name
    · obtain ⟨name, hname⟩ := hmark
      rw [← hname, removeDraftPrefix_append, if_pos]
      exact List.isPrefixOf_iff_prefix.mpr (List.prefix_append _ _)
    · rw [removeDraftPrefix_of_not hmark, if_neg]
      rwa [List.isPrefixOf_iff_prefix]
  · rfl

/-- The operators after both validators. -/
theorem renameOperators_eq_map (operators : List (Operator V)) :
    renameOperators operators = (seedPositions [] operators).map fun entry =>
      { entry.1 with name := validatedName entry } := by
  have hall (earlier : List PyStr) :
      operatorNamesRepresentState (numberOperators earlier operators) =
        (seedPositions earlier operators).map fun entry =>
          { entry.1 with name := validatedName entry } := by
    induction operators generalizing earlier with
    | nil => rfl
    | cons operator rest ih =>
      have hrest := ih (earlier ++ [operatorNameSeed operator.name])
      rw [operatorNamesRepresentState] at hrest ⊢
      rw [numberOperators, seedPositions, List.map_cons, List.map_cons, hrest]
      rw [nameRepresentingState_eq]
      dsimp only
      rw [removeDraftPrefix_numberedName]
      rfl
  exact hall []

/-- Exactly the validated names of drafts have a mark if no other stem has one. -/
theorem marked_validatedName_iff (entry : Operator V × PyStr × ℕ) :
    (entry.1.state = .draft ↔ draftPrefix <+: validatedName entry) ↔
      (entry.1.state ≠ .draft → ¬ draftPrefix <+: nameStem entry.2.1 entry.2.2) := by
  unfold validatedName
  by_cases hdraft : entry.1.state = .draft
  · simp [hdraft]
  · rw [if_neg hdraft, draftPrefix_prefix_numbered_iff]
    simp [hdraft]

/-- If a name without mark has to be one of an operator which is no draft, validated names are
different unless the operators clash. -/
theorem validatedName_ne_iff {entry entry' : Operator V × PyStr × ℕ}
    (h : entry.1.state ≠ .draft → ¬ draftPrefix <+: nameStem entry.2.1 entry.2.2)
    (h' : entry'.1.state ≠ .draft → ¬ draftPrefix <+: nameStem entry'.2.1 entry'.2.2) :
    validatedName entry ≠ validatedName entry' ↔
      ((entry.1.state = .draft ↔ entry'.1.state = .draft) → ¬ NamesClash entry.2 entry'.2) := by
  rw [← marked_validatedName_iff] at h h'
  by_cases hsame : entry.1.state = .draft ↔ entry'.1.state = .draft
  · rw [← numbered_eq_iff_namesClash]
    unfold validatedName
    by_cases hdraft : entry.1.state = .draft
    · rw [if_pos hdraft, if_pos (hsame.mp hdraft)]
      simp [hsame.mp hdraft, hdraft]
    · rw [if_neg hdraft, if_neg (mt hsame.mpr hdraft)]
      simp [mt hsame.mpr hdraft, hdraft]
  · refine iff_of_true ?_ fun h => absurd h hsame
    intro heq
    rw [heq] at h
    exact hsame (h.trans h'.symm)

/-- After both validators names are distinct and show which operators are drafts exactly if the
given names are distinguishable. -/
theorem namesInOrder_iff (operators : List (Operator V)) :
    NamesInOrder (renameOperators operators) ↔ NamesDistinguishable operators := by
  have hmarked : (∀ operator ∈ renameOperators operators,
      operator.state = .draft ↔ draftPrefix <+: operator.name) ↔
        ∀ entry ∈ seedPositions [] operators, entry.1.state ≠ .draft →
          ¬ draftPrefix <+: nameStem entry.2.1 entry.2.2 := by
    rw [renameOperators_eq_map, List.forall_mem_map]
    exact forall₂_congr fun entry _ => marked_validatedName_iff entry
  have hunique (h : ∀ entry ∈ seedPositions [] operators, entry.1.state ≠ .draft →
      ¬ draftPrefix <+: nameStem entry.2.1 entry.2.2) :
      ((renameOperators operators).map fun operator => operator.name).Nodup ↔
        (seedPositions [] operators).Pairwise fun entry entry' =>
          (entry.1.state = .draft ↔ entry'.1.state = .draft) →
            ¬ NamesClash entry.2 entry'.2 := by
    rw [renameOperators_eq_map, List.map_map, List.Nodup, List.pairwise_map]
    exact List.Pairwise.iff_of_mem fun hentry hentry' =>
      validatedName_ne_iff (h _ hentry) (h _ hentry')
  constructor
  · intro h
    have hunmarked := hmarked.mp h.marked
    exact ⟨hunmarked, (hunique hunmarked).mp h.unique⟩
  · intro h
    exact ⟨(hunique h.unmarked).mpr h.apart, hmarked.mpr h.unmarked⟩

end Validators

/-! ## Names with several numbers -/

/-- An operator without inputs and outputs. -/
def namedOperator (id : UUID) (name : PyStr) (state : State) : Operator ℤ where
  id := id
  revisionGroupId := id
  name := name
  type := .component
  state := state
  versionTag := ['1']
  transformationId := id
  inputs := []
  outputs := []
  position := .origin

/-- Three operators, the last of which has two running numbers in its name. -/
def severalNumbers : List (Operator ℤ) :=
  [namedOperator 1 "A".toList .released, namedOperator 2 "A".toList .released,
    namedOperator 3 "A (2) (2)".toList .released]

/-- Two of them get the same name. -/
theorem severalNumbers_not_namesInOrder :
    (severalNumbers.all fun operator => @nonEmptyValidStr ⟨fun _ => false, fun _ => false⟩
      operator.name) = true ∧ ¬ NamesInOrder (renameOperators severalNumbers) := by
  constructor
  · decide
  · intro h
    exact absurd h.unique (by decide)

end HetidaDesigner
