import Mathlib.Logic.Relation
import Mathlib.Data.List.Basic

/-!
# Runs of a request handler

A handler answers a request with a new state or fails and leaves the state alone. The states
which successful requests reach are the reflexive and transitive closure of its steps; what every
allowed step keeps is kept by every run. On concrete requests a run can be carried out.
-/

namespace Runs

variable {S A E : Type}

/-- A successful request out of those which are allowed in a state. -/
def Step (handle : S → A → Except E S) (allowed : S → A → Prop) (s s' : S) : Prop :=
  ∃ a, allowed s a ∧ handle s a = .ok s'

/-- Some run of allowed requests leads from one state to another. -/
def Reaches (handle : S → A → Except E S) (allowed : S → A → Prop) : S → S → Prop :=
  Relation.ReflTransGen (Step handle allowed)

variable {handle : S → A → Except E S} {allowed : S → A → Prop} {s s' : S}

/-- What holds at first and is kept by every allowed request holds after every run. -/
theorem Reaches.invariant {P : S → Prop} (h : Reaches handle allowed s s') (hs : P s)
    (hstep : ∀ s a s', P s → allowed s a → handle s a = .ok s' → P s') : P s' := by
  induction h with
  | refl => exact hs
  | tail _ hlast ih =>
    obtain ⟨a, ha, hok⟩ := hlast
    exact hstep _ a _ ih ha hok

/-- A run of allowed requests is a run under every weaker condition. -/
theorem Reaches.mono {allowed' : S → A → Prop} (h : Reaches handle allowed s s')
    (himp : ∀ s a, allowed s a → allowed' s a) : Reaches handle allowed' s s' := by
  induction h with
  | refl => exact .refl
  | tail _ hlast ih =>
    obtain ⟨a, ha, hok⟩ := hlast
    exact .tail ih ⟨a, himp _ a ha, hok⟩

/-- Carry out requests as long as they are allowed and succeed. -/
def run (handle : S → A → Except E S) (allowed : S → A → Prop) [∀ s a, Decidable (allowed s a)] :
    List A → S → Option S
  | [], s => some s
  | a :: rest, s =>
    if allowed s a then
      match handle s a with
      | .ok s' => run handle allowed rest s'
      | .error _ => none
    else none

/-- Requests which have been carried out are a run. -/
theorem Reaches.of_run [∀ s a, Decidable (allowed s a)] {valid : A → Prop} {requests : List A}
    (hvalid : ∀ a ∈ requests, valid a) (h : run handle allowed requests s = some s') :
    Reaches handle (fun s a => valid a ∧ allowed s a) s s' := by
  induction requests generalizing s with
  | nil =>
    obtain rfl := Option.some.inj h
    exact .refl
  | cons a rest ih =>
    rw [List.forall_mem_cons] at hvalid
    rw [run] at h
    split at h
    · rename_i hallowed
      split at h
      · rename_i mid hmid
        exact .head ⟨a, ⟨hvalid.1, hallowed⟩, hmid⟩ (ih hvalid.2 h)
      · cases h
    · cases h

/-- A test which is passed after requests have been carried out. -/
theorem exists_of_run (handle : S → A → Except E S) (allowed : S → A → Prop)
    [∀ s a, Decidable (allowed s a)] (requests : List A) (s : S) (P : S → Prop) [DecidablePred P]
    (h : ((run handle allowed requests s).any fun s' => decide (P s')) = true) :
    ∃ s', run handle allowed requests s = some s' ∧ P s' := by
  cases hrun : run handle allowed requests s with
  | none =>
    rw [hrun] at h
    cases h
  | some s' =>
    rw [hrun] at h
    exact ⟨s', rfl, of_decide_eq_true h⟩

end Runs
