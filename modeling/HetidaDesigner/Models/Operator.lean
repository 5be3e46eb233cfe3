import HetidaDesigner.Models.Io
import Mathlib.Data.Nat.Digits.Defs
import Mathlib.Data.List.Count
import Mathlib.Data.List.TakeWhile

/-!
# Operators and their names

The data of `persistence/models/operator.py`, the string types of `models/code.py` and the
two validators of `WorkflowContent` which rewrite operator names.

Python's `\w` is fixed on ASCII characters; which further characters are word characters is
left to the Unicode tables, a parameter. In both regular expressions `$` also matches just
before a final newline.
-/

namespace HetidaDesigner

/-- The Unicode tables, as far as they decide on word characters and whitespace outside of
ASCII. -/
class UnicodeData where
  isWord : Char → Bool
  isSpace : Char → Bool

/-- The character class `ALLOWED_CHARS_RAW_STRING`. -/
def allowedChar [UnicodeData] (c : Char) : Bool :=
  c.isAlphanum || c = '_' || (128 ≤ c.toNat && UnicodeData.isWord c) ||
    c ∈ [' ', ',', '.', '-', '(', ')', '&', '+', '=', '/']

/-- Strings accepted as `NonEmptyValidStr`. -/
def nonEmptyValidStr [UnicodeData] (s : PyStr) : Bool :=
  let body := if s.getLast? = some '\n' then s.dropLast else s
  body ≠ [] ∧ body.all allowedChar

/-- Strings accepted as `ShortNonEmptyValidStr`. -/
def shortNonEmptyValidStr [UnicodeData] (s : PyStr) : Bool := s.length ≤ 20 ∧ nonEmptyValidStr s

/-- A component or workflow used within a workflow. -/
structure Operator (V : Type) where
  id : UUID
  revisionGroupId : UUID
  name : PyStr
  type : TrafoType
  state : State
  versionTag : PyStr
  transformationId : UUID
  inputs : List (OperatorInput V)
  outputs : List OperatorOutput
  position : Position
  deriving DecidableEq

/-- Drop a final ` (number)` from a string. -/
def dropNumber (s : PyStr) : PyStr :=
  match s.reverse with
  | ')' :: rest =>
    match rest.dropWhile Char.isDigit with
    | '(' :: ' ' :: before => if rest.takeWhile Char.isDigit = [] then s else before.reverse
    | _ => s
  | _ => s

/-- The operator name without its running number. -/
def operatorNameSeed (name : PyStr) : PyStr :=
  if name.getLast? = some '\n' then dropNumber name.dropLast ++ ['\n'] else dropNumber name

/-- The name of the operator at an index of the group of operators with a common seed. -/
def numberedName (seed : PyStr) (index : ℕ) : PyStr :=
  if index = 0 then seed else seed ++ [' ', '('] ++ Nat.toDigits 10 (index + 1) ++ [')']

/-- Mark of operators which instantiate drafts. -/
def draftPrefix : PyStr := ['(', 'D', 'R', 'A', 'F', 'T', ')', ' ']

section Names

variable {V : Type}

/-- Number the operators of each seed in list order, given the seeds of the operators before.

The source groups the operators by seed first; the position in its group is the number of
earlier operators with the same seed, and a group of one gets its plain seed as well. -/
def numberOperators (earlier : List PyStr) : List (Operator V) → List (Operator V)
  | [] => []
  | operator :: rest =>
    let seed := operatorNameSeed operator.name
    { operator with name := numberedName seed (earlier.count seed) } ::
      numberOperators (earlier ++ [seed]) rest

/-- The validator which makes operator names unique. -/
def operatorNamesUnique (operators : List (Operator V)) : List (Operator V) :=
  numberOperators [] operators

/-- The name of an operator with the draft mark according to its state. -/
def nameRepresentingState (operator : Operator V) : PyStr :=
  if operator.state = .draft then
    if draftPrefix.isPrefixOf operator.name then operator.name else draftPrefix ++ operator.name
  else
    if draftPrefix.isPrefixOf operator.name then operator.name.drop draftPrefix.length
    else operator.name

/-- The validator which sets or removes the draft mark. -/
def operatorNamesRepresentState (operators : List (Operator V)) : List (Operator V) :=
  operators.map fun operator => { operator with name := nameRepresentingState operator }

/-- Both validators of the field `operators` in the order in which they run. -/
def renameOperators (operators : List (Operator V)) : List (Operator V) :=
  operatorNamesRepresentState (operatorNamesUnique operators)

/-- Names which the two validators leave as they are: each operator has its number within its
seed group, and the draft mark exactly if it is a draft. -/
def NamesSettled (operators : List (Operator V)) : Prop :=
  ∀ before operator after, operators = before ++ operator :: after →
    operator.name = numberedName (operatorNameSeed operator.name)
      ((before.map fun o => operatorNameSeed o.name).count (operatorNameSeed operator.name)) ∧
    (operator.state = .draft ↔ draftPrefix <+: operator.name)

/-- Numbering leaves alone whatever does not depend on names. -/
theorem numberOperators_map {B : Type*} (f : Operator V → B)
    (hf : ∀ operator name, f { operator with name := name } = f operator)
    (earlier : List PyStr) (operators : List (Operator V)) :
    (numberOperators earlier operators).map f = operators.map f := by
  induction operators generalizing earlier with
  | nil => rfl
  | cons operator rest ih => simp only [numberOperators, List.map_cons, ih, hf]

/-- The validators leave alone whatever does not depend on names. -/
theorem renameOperators_map {B : Type*} (f : Operator V → B)
    (hf : ∀ operator name, f { operator with name := name } = f operator)
    (operators : List (Operator V)) : (renameOperators operators).map f = operators.map f := by
  rw [renameOperators, operatorNamesRepresentState, List.map_map]
  refine Eq.trans (List.map_congr_left fun operator _ => ?_)
    (numberOperators_map f hf [] operators)
  exact hf operator _

end Names

/-! ## Settled names

Neither validator can undo a change of the other one: removing a running number never removes
a letter, whereas the draft mark contains a `D`. -/

/-- Digits contain no letter. -/
theorem count_toDigits_D (n : ℕ) : (Nat.toDigits 10 n).count 'D' = 0 := by
  rw [List.count_eq_zero]
  intro h
  exact absurd (Nat.isDigit_of_mem_toDigits (by decide) (by decide) h) (by decide)

/-- Dropping a running number drops no letter. -/
theorem count_dropNumber_D (s : PyStr) : (dropNumber s).count 'D' = s.count 'D' := by
  unfold dropNumber
  split
  · rename_i rest hs
    have hrest := List.takeWhile_append_dropWhile (p := Char.isDigit) (l := rest)
    have hdigits : (rest.takeWhile Char.isDigit).count 'D' = 0 := by
      rw [List.count_eq_zero]
      intro h
      exact absurd (List.mem_takeWhile_imp h) (by decide)
    split
    · rename_i before hbefore
      split
      · rfl
      · rw [← List.count_reverse (l := s), hs, ← hrest, hbefore]
        simp [hdigits]
    · rfl
  · rfl

/-- The seed of a name has as many letters `D` as the name. -/
theorem count_operatorNameSeed_D (name : PyStr) :
    (operatorNameSeed name).count 'D' = name.count 'D' := by
  unfold operatorNameSeed
  split
  · rename_i h
    obtain ⟨body, rfl⟩ := List.getLast?_eq_some_iff.mp h
    simp [count_dropNumber_D]
  · exact count_dropNumber_D name

/-- A running number adds no letter `D`. -/
theorem count_numberedName_D (seed : PyStr) (index : ℕ) :
    (numberedName seed index).count 'D' = seed.count 'D' := by
  unfold numberedName
  split
  · rfl
  · simp [count_toDigits_D]

section Settled

variable {V : Type}

/-- The draft validator keeps a name exactly if the mark already fits the state. -/
theorem nameRepresentingState_eq_iff (operator : Operator V) :
    nameRepresentingState operator = operator.name ↔
      (operator.state = .draft ↔ draftPrefix <+: operator.name) := by
  have hlong (s : PyStr) : draftPrefix ++ s ≠ s := by
    intro h
    have hlength := congrArg List.length h
    simp only [List.length_append, draftPrefix, List.length_cons, List.length_nil] at hlength
    omega
  unfold nameRepresentingState
  simp only [List.isPrefixOf_iff_prefix]
  split <;> rename_i hstate <;> split <;> rename_i hprefix
  · simp [hstate, hprefix]
  · simpa [hstate, hprefix] using hlong operator.name
  · obtain ⟨s, hs⟩ := hprefix
    simp only [← hs, List.drop_left, hstate, false_iff, List.prefix_append, not_true_eq_false,
      iff_false]
    exact fun h => hlong s h.symm
  · simp [hstate, hprefix]

/-- A change by the draft validator changes the number of letters `D`. -/
theorem nameRepresentingState_eq_of_count (operator : Operator V)
    (h : (nameRepresentingState operator).count 'D' = operator.name.count 'D') :
    nameRepresentingState operator = operator.name := by
  unfold nameRepresentingState at h ⊢
  simp only [List.isPrefixOf_iff_prefix] at h ⊢
  split <;> rename_i hstate <;> simp only [hstate, if_true, if_false] at h
  · split <;> rename_i hprefix
    · rfl
    · rw [if_neg hprefix] at h
      simp [draftPrefix] at h
  · split <;> rename_i hprefix
    · obtain ⟨s, hs⟩ := hprefix
      rw [← hs, if_pos (List.prefix_append _ _), List.drop_left] at h
      simp [draftPrefix] at h
    · rfl

/-- Both validators keep a name exactly if the numbering and the draft mark fit. -/
theorem rename_eq_iff (operator : Operator V) (index : ℕ) :
    nameRepresentingState
        { operator with name := numberedName (operatorNameSeed operator.name) index } =
          operator.name ↔
      operator.name = numberedName (operatorNameSeed operator.name) index ∧
        (operator.state = .draft ↔ draftPrefix <+: operator.name) := by
  let numbered : Operator V :=
    { operator with name := numberedName (operatorNameSeed operator.name) index }
  have hcount : numbered.name.count 'D' = operator.name.count 'D' := by
    rw [count_numberedName_D, count_operatorNameSeed_D]
  constructor
  · intro h
    have hkeep : nameRepresentingState numbered = numbered.name :=
      nameRepresentingState_eq_of_count numbered (by rw [hcount]; exact congrArg _ h)
    have hname : numbered.name = operator.name := hkeep.symm.trans h
    refine ⟨hname.symm, ?_⟩
    have hmark := (nameRepresentingState_eq_iff numbered).mp hkeep
    rwa [hname] at hmark
  · rintro ⟨hname, hmark⟩
    rw [← hname]
    exact (nameRepresentingState_eq_iff operator).mpr hmark

/-- The validators keep a list of operators, given the seeds before it, exactly if every
operator has its number and mark. -/
theorem representState_numberOperators_eq_iff (earlier : List PyStr)
    (operators : List (Operator V)) :
    operatorNamesRepresentState (numberOperators earlier operators) = operators ↔
      ∀ before operator after, operators = before ++ operator :: after →
        operator.name = numberedName (operatorNameSeed operator.name)
          ((earlier ++ before.map fun o => operatorNameSeed o.name).count
            (operatorNameSeed operator.name)) ∧
        (operator.state = .draft ↔ draftPrefix <+: operator.name) := by
  induction operators generalizing earlier with
  | nil => simp [operatorNamesRepresentState, numberOperators]
  | cons first rest ih =>
    have htail := ih (earlier ++ [operatorNameSeed first.name])
    have hhead := rename_eq_iff first (earlier.count (operatorNameSeed first.name))
    rw [operatorNamesRepresentState, numberOperators, List.map_cons, List.cons.injEq,
      ← operatorNamesRepresentState, htail]
    have hfirst : ∀ name : PyStr, { first with name := name } = first ↔ name = first.name :=
      fun name => ⟨congrArg Operator.name, fun h => by rw [h]⟩
    have hsame := hfirst (nameRepresentingState { first with
      name := numberedName (operatorNameSeed first.name)
        (earlier.count (operatorNameSeed first.name)) })
    rw [hsame, hhead]
    constructor
    · rintro ⟨hf, hr⟩ before operator after hsplit
      cases before with
      | nil =>
        obtain ⟨rfl, rfl⟩ := List.cons.inj hsplit
        simpa using hf
      | cons b before =>
        obtain ⟨rfl, hrest⟩ := List.cons.inj hsplit
        simpa using hr before operator after hrest
    · intro h
      refine ⟨by simpa using h [] first rest rfl, fun before operator after hrest => ?_⟩
      simpa using h (first :: before) operator after (by rw [hrest]; rfl)

/-- The two name validators change nothing exactly on settled names. -/
theorem renameOperators_eq_iff (operators : List (Operator V)) :
    renameOperators operators = operators ↔ NamesSettled operators := by
  rw [renameOperators, operatorNamesUnique, representState_numberOperators_eq_iff]
  simp only [List.nil_append, NamesSettled]

end Settled

end HetidaDesigner
