import Mathlib.Data.Finset.Card

/-!
# Results computed on demand

Nodes compute results which are kept. Computing a result may demand results of other nodes. The
stack holds the nodes whose results are being computed, the innermost one first. An evaluation may
test whether to report a cycle when a result is demanded; it is compared with the process of demands
itself, which tests nothing.
-/

namespace Demands

/-- What computing a result does: it ends, or it demands the result of a node and goes on with it. -/
inductive Plan (A S D E : Type*)
  | done (outcome : Except E (D × S))
  | demand (a : A) (s : S) (next : D → S → Plan A S D E)

/-- Why there is no result. -/
inductive Interruption (E : Type*)
  | circular
  | raised (error : E)
  deriving DecidableEq

/-- Results which are kept, and how those of the nodes are computed. -/
structure System (A S D E : Type*) where
  cached : S → A → Option D
  store : S → A → D → S
  plan : A → S → Plan A S D E

variable {A S D E : Type*}

/-- Follow a plan, given how results are requested. -/
def Plan.run (request : A → S → Option (Except (Interruption E) (D × S))) :
    Plan A S D E → Option (Except (Interruption E) (D × S))
  | .done (.ok result) => some (.ok result)
  | .done (.error error) => some (.error (.raised error))
  | .demand a s next =>
    match request a s with
    | none => none
    | some (.error interruption) => some (.error interruption)
    | some (.ok (d, s')) => (next d s').run request

/-- Keep a computed result. -/
def System.finish (sys : System A S D E) (a : A) :
    Except (Interruption E) (D × S) → Except (Interruption E) (D × S) :=
  Except.map fun result => (result.1, sys.store result.2 a result.1)

/-- The result of a node. A demand for which the test holds is reported as a cycle. -/
def System.evaluate (sys : System A S D E) (test : List A → A → S → Bool) :
    ℕ → List A → A → S → Option (Except (Interruption E) (D × S))
  | 0, _, _, _ => none
  | fuel + 1, stack, a, s =>
    match sys.cached s a with
    | some d => some (.ok (d, s))
    | none =>
      ((sys.plan a s).run fun b t =>
        if test (a :: stack) b t then some (.error .circular)
        else evaluate sys test fuel (a :: stack) b t).map (sys.finish a)

/-- The demand of a result, which may be reported. -/
def System.request (sys : System A S D E) (test : List A → A → S → Bool) (fuel : ℕ)
    (stack : List A) (b : A) (t : S) : Option (Except (Interruption E) (D × S)) :=
  if test stack b t then some (.error .circular) else sys.evaluate test fuel stack b t

/-- Nothing is reported. -/
def never : List A → A → S → Bool := fun _ _ _ => false

/-! ## The process of demands -/

/-- A plan demands the result of a node, after its earlier demands have been answered. -/
inductive Plan.Asks (answers : A → S → D → S → Prop) : Plan A S D E → A → S → Prop
  | here (a : A) (s : S) (next : D → S → Plan A S D E) : Asks answers (.demand a s next) a s
  | later {a b : A} {s t s' : S} {d : D} {next : D → S → Plan A S D E}
      (hanswer : answers a s d s') (hdemand : Asks answers (next d s') b t) :
      Asks answers (.demand a s next) b t

section Process

variable (sys : System A S D E)

/-- A demand with a stack is answered. -/
def System.Answers (stack : List A) (a : A) (s : S) (d : D) (s' : S) : Prop :=
  ∃ fuel, sys.evaluate never fuel stack a s = some (.ok (d, s'))

/-- The first node of a stack is demanded by the second one and so on, in a state. -/
inductive System.Visits (a : A) (s : S) : List A → S → Prop
  | start : Visits a s [a] s
  | next {b c : A} {stack : List A} {t u : S} (hvisit : Visits a s (b :: stack) t)
      (hnew : sys.cached t b = none)
      (hdemand : (sys.plan b t).Asks (sys.Answers (b :: stack)) c u) :
      Visits a s (c :: b :: stack) u

/-- A node is demanded while its result is being computed. -/
def System.Reenters (a : A) (s : S) : Prop :=
  ∃ b stack t, sys.Visits a s (b :: stack) t ∧ b ∈ stack ∧ sys.cached t b = none

/-- A demand is reported by a test. -/
def System.Reports (test : List A → A → S → Bool) (a : A) (s : S) : Prop :=
  ∃ b stack t, sys.Visits a s (b :: stack) t ∧ stack ≠ [] ∧ test stack b t = true

end Process

/-- The test for a node whose result is being computed. -/
def System.reentry [DecidableEq A] (sys : System A S D E) (stack : List A) (b : A) (t : S) : Bool :=
  b ∈ stack && (sys.cached t b).isNone

/-- The states in a plan, its result and its error meet conditions, if the states with which it goes
on do. -/
def Plan.Meets (I : S → Prop) (Q : D → S → Prop) (P : E → Prop) : Plan A S D E → Prop
  | .done (.ok result) => Q result.1 result.2
  | .done (.error error) => P error
  | .demand _ s next => I s ∧ ∀ d s', I s' → (next d s').Meets I Q P

/-! ## Following plans -/

section Run

variable {request request' : A → S → Option (Except (Interruption E) (D × S))}
  {plan : Plan A S D E} {outcome : Except (Interruption E) (D × S)}

/-- A plan goes on only after its demand has been answered. -/
theorem Plan.run_demand_of_none {a : A} {s : S} {next : D → S → Plan A S D E}
    (h : request a s = none) : (Plan.demand a s next).run request = none := by
  rw [Plan.run, h]

/-- A plan is interrupted with its demand. -/
theorem Plan.run_demand_of_error {a : A} {s : S} {next : D → S → Plan A S D E}
    {interruption : Interruption E} (h : request a s = some (.error interruption)) :
    (Plan.demand a s next).run request = some (.error interruption) := by
  rw [Plan.run, h]

/-- A plan goes on with the answer to its demand. -/
theorem Plan.run_demand_of_ok {a : A} {s s' : S} {d : D} {next : D → S → Plan A S D E}
    (h : request a s = some (.ok (d, s'))) :
    (Plan.demand a s next).run request = (next d s').run request := by
  rw [Plan.run, h]

/-- If a plan has an outcome, its demand has been interrupted or answered. -/
theorem Plan.run_demand_cases {a : A} {s : S} {next : D → S → Plan A S D E}
    (hrun : (Plan.demand a s next).run request = some outcome) :
    (∃ interruption, request a s = some (.error interruption) ∧ outcome = .error interruption) ∨
      ∃ d s', request a s = some (.ok (d, s')) ∧ (next d s').run request = some outcome := by
  cases hrequest : request a s with
  | none =>
    rw [Plan.run_demand_of_none hrequest] at hrun
    cases hrun
  | some answer =>
    cases answer with
    | error interruption =>
      rw [Plan.run_demand_of_error hrequest] at hrun
      exact Or.inl ⟨interruption, rfl, (Option.some.inj hrun).symm⟩
    | ok result =>
      rw [Plan.run_demand_of_ok hrequest] at hrun
      exact Or.inr ⟨result.1, result.2, rfl, hrun⟩

/-- Requests which are answered more often lead to the same outcome. -/
theorem Plan.run_mono (h : ∀ a s outcome, request a s = some outcome →
    request' a s = some outcome) (hrun : plan.run request = some outcome) :
    plan.run request' = some outcome := by
  induction plan with
  | done result => cases result <;> exact hrun
  | demand a s next ih =>
    rcases Plan.run_demand_cases hrun with ⟨interruption, hrequest, rfl⟩ | ⟨d, s', hrequest, hrun⟩
    · exact Plan.run_demand_of_error (h a s _ hrequest)
    · rw [Plan.run_demand_of_ok (h a s _ hrequest)]
      exact ih d s' hrun

/-- Requests which report more often lead to the same outcome, or a cycle is reported. -/
theorem Plan.run_or_circular (h : ∀ a s outcome, request a s = some outcome →
    request' a s = some outcome ∨ request' a s = some (.error .circular))
    (hrun : plan.run request = some outcome) :
    plan.run request' = some outcome ∨ plan.run request' = some (.error .circular) := by
  induction plan with
  | done result => cases result <;> exact Or.inl hrun
  | demand a s next ih =>
    rcases Plan.run_demand_cases hrun with ⟨interruption, hrequest, rfl⟩ | ⟨d, s', hrequest, hrun⟩
    · rcases h a s _ hrequest with hsame | hcircular
      · exact Or.inl (Plan.run_demand_of_error hsame)
      · exact Or.inr (Plan.run_demand_of_error hcircular)
    · rcases h a s _ hrequest with hsame | hcircular
      · rw [Plan.run_demand_of_ok hsame]
        exact ih d s' hrun
      · exact Or.inr (Plan.run_demand_of_error hcircular)

/-- Requests which report less often lead to the same outcome, unless a cycle is reported. -/
theorem Plan.circular_or_run (h : ∀ a s outcome, request a s = some outcome →
    outcome = .error .circular ∨ request' a s = some outcome)
    (hrun : plan.run request = some outcome) :
    outcome = .error .circular ∨ plan.run request' = some outcome := by
  induction plan with
  | done result => cases result <;> exact Or.inr hrun
  | demand a s next ih =>
    rcases Plan.run_demand_cases hrun with ⟨interruption, hrequest, rfl⟩ | ⟨d, s', hrequest, hrun⟩
    · rcases h a s _ hrequest with hcircular | hsame
      · exact Or.inl hcircular
      · exact Or.inr (Plan.run_demand_of_error hsame)
    · rcases h a s _ hrequest with hcircular | hsame
      · cases hcircular
      · rw [Plan.run_demand_of_ok hsame]
        exact ih d s' hrun

/-- A reported cycle is reported by one of the requests. -/
theorem Plan.exists_of_run_circular (answers : A → S → D → S → Prop)
    (hanswers : ∀ a s d s', request a s = some (.ok (d, s')) → answers a s d s')
    (hrun : plan.run request = some (.error .circular)) :
    ∃ b t, plan.Asks answers b t ∧ request b t = some (.error .circular) := by
  induction plan with
  | done result =>
    cases result with
    | ok result => cases hrun
    | error error => cases hrun
  | demand a s next ih =>
    rcases Plan.run_demand_cases hrun with
      ⟨interruption, hrequest, hcircular⟩ | ⟨d, s', hrequest, hrun⟩
    · obtain rfl := Except.error.inj hcircular
      exact ⟨a, s, .here a s next, hrequest⟩
    · obtain ⟨b, t, hdemand, hcircular⟩ := ih d s' hrun
      exact ⟨b, t, .later (hanswers a s d s' hrequest) hdemand, hcircular⟩

/-- If a demand is reported from some amount of fuel on, so is the plan. -/
theorem Plan.run_circular_of_asks
    (requests : ℕ → A → S → Option (Except (Interruption E) (D × S)))
    {answers : A → S → D → S → Prop}
    (hanswers : ∀ a s d s', answers a s d s' → ∃ fuel, ∀ more ≥ fuel,
      requests more a s = some (.ok (d, s')) ∨ requests more a s = some (.error .circular))
    {b : A} {t : S} (hdemand : plan.Asks answers b t)
    (hcircular : ∃ fuel, ∀ more ≥ fuel, requests more b t = some (.error .circular)) :
    ∃ fuel, ∀ more ≥ fuel, plan.run (requests more) = some (.error .circular) := by
  induction hdemand with
  | here a s next =>
    obtain ⟨fuel, hfuel⟩ := hcircular
    exact ⟨fuel, fun more hmore => Plan.run_demand_of_error (hfuel more hmore)⟩
  | @later a b s t s' d next hanswer _ ih =>
    obtain ⟨fuel, hfuel⟩ := ih hcircular
    obtain ⟨fuel', hfuel'⟩ := hanswers a s d s' hanswer
    refine ⟨max fuel fuel', fun more hmore => ?_⟩
    rcases hfuel' more (le_trans (le_max_right _ _) hmore) with hok | hreported
    · rw [Plan.run_demand_of_ok hok]
      exact hfuel more (le_trans (le_max_left _ _) hmore)
    · exact Plan.run_demand_of_error hreported

/-- The result and the error of a plan meet the conditions, if what is requested does. -/
theorem Plan.run_meets {I : S → Prop} {Q : D → S → Prop} {P : E → Prop} (hplan : plan.Meets I Q P)
    (hrequest : ∀ a s, I s → (∀ d s', request a s = some (.ok (d, s')) → I s') ∧
      ∀ error, request a s = some (.error (.raised error)) → P error) :
    (∀ d s', plan.run request = some (.ok (d, s')) → Q d s') ∧
      ∀ error, plan.run request = some (.error (.raised error)) → P error := by
  induction plan with
  | done result =>
    cases result with
    | ok result =>
      refine ⟨fun d s' h => ?_, fun error h => nomatch h⟩
      obtain rfl := Except.ok.inj (Option.some.inj h)
      exact hplan
    | error error =>
      refine ⟨fun d s' h => (nomatch h), fun error' h => ?_⟩
      obtain rfl := Interruption.raised.inj (Except.error.inj (Option.some.inj h))
      exact hplan
  | demand a s next ih =>
    obtain ⟨hstate, hnext⟩ := hplan
    obtain ⟨hok, herror⟩ := hrequest a s hstate
    refine ⟨fun d s' hrun => ?_, fun error hrun => ?_⟩
    · rcases Plan.run_demand_cases hrun with ⟨interruption, -, heq⟩ | ⟨d', t, hanswer, hrun⟩
      · cases heq
      · exact (ih d' t (hnext d' t (hok d' t hanswer))).1 d s' hrun
    · rcases Plan.run_demand_cases hrun with
        ⟨interruption, hinterrupted, heq⟩ | ⟨d', t, hanswer, hrun⟩
      · rw [← Except.error.inj heq] at hinterrupted
        exact herror error hinterrupted
      · exact (ih d' t (hnext d' t (hok d' t hanswer))).2 error hrun

/-- Requests which are the same where the condition holds lead to the same. -/
theorem Plan.run_congr {I : S → Prop} {Q : D → S → Prop} {P : E → Prop} (hplan : plan.Meets I Q P)
    (hsame : ∀ a s, I s → request a s = request' a s)
    (hrequest : ∀ a s, I s → ∀ d s', request a s = some (.ok (d, s')) → I s') :
    plan.run request = plan.run request' := by
  induction plan with
  | done result => cases result <;> rfl
  | demand a s next ih =>
    obtain ⟨hstate, hnext⟩ := hplan
    have hother := (hsame a s hstate).symm
    cases hanswer : request a s with
    | none =>
      rw [Plan.run_demand_of_none hanswer, Plan.run_demand_of_none (hother.trans hanswer)]
    | some answer =>
      cases answer with
      | error interruption =>
        rw [Plan.run_demand_of_error hanswer, Plan.run_demand_of_error (hother.trans hanswer)]
      | ok result =>
        rw [Plan.run_demand_of_ok hanswer, Plan.run_demand_of_ok (hother.trans hanswer)]
        exact ih _ _ (hnext _ _ (hrequest a s hstate _ _ hanswer))

/-- If all requests have an outcome, so does the plan. -/
theorem Plan.run_ne_none (h : ∀ a s, request a s ≠ none) : plan.run request ≠ none := by
  induction plan with
  | done result => cases result <;> exact Option.some_ne_none _
  | demand a s next ih =>
    cases hanswer : request a s with
    | none => exact absurd hanswer (h a s)
    | some answer =>
      cases answer with
      | error interruption =>
        rw [Plan.run_demand_of_error hanswer]
        exact Option.some_ne_none _
      | ok result =>
        rw [Plan.run_demand_of_ok hanswer]
        exact ih _ _

end Run

/-! ## Evaluations with different tests -/

section Evaluate

variable {sys : System A S D E} {test test' : List A → A → S → Bool}

/-- Keeping a result does not change what is reported. -/
theorem System.finish_circular (a : A) :
    sys.finish a (.error .circular) = .error .circular := rfl

/-- The plan which is followed for a result that is not kept. -/
theorem System.evaluate_succ {fuel : ℕ} {stack : List A} {a : A} {s : S}
    (h : sys.cached s a = none) : sys.evaluate test (fuel + 1) stack a s =
      ((sys.plan a s).run (sys.request test fuel (a :: stack))).map (sys.finish a) := by
  rw [System.evaluate, h]
  rfl

/-- A result which is kept is not computed again. -/
theorem System.evaluate_cached {fuel : ℕ} {stack : List A} {a : A} {s : S} {d : D}
    (h : sys.cached s a = some d) :
    sys.evaluate test (fuel + 1) stack a s = some (.ok (d, s)) := by
  rw [System.evaluate, h]

/-- More fuel does not change an outcome. -/
theorem System.evaluate_mono {fuel more : ℕ} (hmore : fuel ≤ more) {stack : List A} {a : A} {s : S}
    {outcome : Except (Interruption E) (D × S)}
    (h : sys.evaluate test fuel stack a s = some outcome) :
    sys.evaluate test more stack a s = some outcome := by
  induction fuel generalizing more stack a s outcome with
  | zero => cases h
  | succ fuel ih =>
    obtain ⟨more, rfl⟩ := Nat.exists_eq_add_of_le' (Nat.lt_of_lt_of_le fuel.succ_pos hmore)
    cases hcached : sys.cached s a with
    | some d =>
      rw [System.evaluate_cached hcached] at h ⊢
      exact h
    | none =>
      rw [System.evaluate_succ hcached, Option.map_eq_some_iff] at h ⊢
      obtain ⟨computed, hrun, hfinish⟩ := h
      refine ⟨computed, Plan.run_mono (fun b t outcome hrequest => ?_) hrun, hfinish⟩
      unfold System.request at hrequest ⊢
      split at hrequest
      · rename_i htest
        rw [if_pos htest]
        exact hrequest
      · rename_i htest
        rw [if_neg htest]
        exact ih (Nat.le_of_succ_le_succ hmore) hrequest

/-- With a test that reports more, the outcome is the same or a cycle is reported. -/
theorem System.evaluate_or_circular
    (htest : ∀ stack b t, test stack b t = true → test' stack b t = true)
    {fuel : ℕ} {stack : List A} {a : A} {s : S} {outcome : Except (Interruption E) (D × S)}
    (h : sys.evaluate test fuel stack a s = some outcome) :
    sys.evaluate test' fuel stack a s = some outcome ∨
      sys.evaluate test' fuel stack a s = some (.error .circular) := by
  induction fuel generalizing stack a s outcome with
  | zero => cases h
  | succ fuel ih =>
    cases hcached : sys.cached s a with
    | some d =>
      rw [System.evaluate_cached hcached] at h ⊢
      exact Or.inl h
    | none =>
      rw [System.evaluate_succ hcached, Option.map_eq_some_iff] at h
      rw [System.evaluate_succ hcached]
      obtain ⟨computed, hrun, rfl⟩ := h
      have hsame : ∀ b t outcome, sys.request test fuel (a :: stack) b t = some outcome →
          sys.request test' fuel (a :: stack) b t = some outcome ∨
            sys.request test' fuel (a :: stack) b t = some (.error .circular) := by
        intro b t outcome hrequest
        unfold System.request at hrequest ⊢
        by_cases hreport : test' (a :: stack) b t = true
        · rw [if_pos hreport]
          exact Or.inr rfl
        · rw [if_neg hreport]
          rw [if_neg fun hearlier => hreport (htest _ _ _ hearlier)] at hrequest
          exact ih hrequest
      rcases Plan.run_or_circular hsame hrun with hrun' | hrun'
      · exact Or.inl (by rw [hrun', Option.map_some])
      · exact Or.inr (by rw [hrun', Option.map_some, System.finish_circular])

/-- With a test that reports less, the outcome is the same, unless a cycle is reported. -/
theorem System.circular_or_evaluate
    (htest : ∀ stack b t, test' stack b t = true → test stack b t = true)
    {fuel : ℕ} {stack : List A} {a : A} {s : S} {outcome : Except (Interruption E) (D × S)}
    (h : sys.evaluate test fuel stack a s = some outcome) :
    outcome = .error .circular ∨ sys.evaluate test' fuel stack a s = some outcome := by
  induction fuel generalizing stack a s outcome with
  | zero => cases h
  | succ fuel ih =>
    cases hcached : sys.cached s a with
    | some d =>
      rw [System.evaluate_cached hcached] at h ⊢
      exact Or.inr h
    | none =>
      rw [System.evaluate_succ hcached, Option.map_eq_some_iff] at h
      rw [System.evaluate_succ hcached]
      obtain ⟨computed, hrun, rfl⟩ := h
      have hsame : ∀ b t outcome, sys.request test fuel (a :: stack) b t = some outcome →
          outcome = .error .circular ∨
            sys.request test' fuel (a :: stack) b t = some outcome := by
        intro b t outcome hrequest
        unfold System.request at hrequest ⊢
        by_cases hreport : test (a :: stack) b t = true
        · rw [if_pos hreport] at hrequest
          exact Or.inl (Option.some.inj hrequest).symm
        · rw [if_neg hreport] at hrequest
          rw [if_neg fun hless => hreport (htest _ _ _ hless)]
          exact ih hrequest
      rcases Plan.circular_or_run hsame hrun with rfl | hrun'
      · exact Or.inl rfl
      · exact Or.inr (by rw [hrun', Option.map_some])

end Evaluate

/-! ## Reported cycles and the process of demands -/

section Reports

variable {sys : System A S D E} {test : List A → A → S → Bool} {a : A} {s : S}

/-- A result which is evaluated is the one of the process. -/
theorem System.answers_of_evaluate {fuel : ℕ} {stack : List A} {b : A} {t t' : S} {d : D}
    (h : sys.evaluate test fuel stack b t = some (.ok (d, t'))) : sys.Answers stack b t d t' := by
  have hless : ∀ stack b t, never stack b t = true → test stack b t = true :=
    fun _ _ _ hnever => absurd hnever Bool.false_ne_true
  exact ⟨fuel, (System.circular_or_evaluate hless h).resolve_left nofun⟩

/-- A result which is requested is the one of the process. -/
theorem System.answers_of_request {fuel : ℕ} {stack : List A} {b : A} {t t' : S} {d : D}
    (h : sys.request test fuel stack b t = some (.ok (d, t'))) : sys.Answers stack b t d t' := by
  unfold System.request at h
  split at h
  · cases Option.some.inj h
  · exact System.answers_of_evaluate h

/-- A cycle which is reported in the evaluation of a node that is visited is reported in the
process. -/
theorem System.reports_of_evaluate {fuel : ℕ} {stack : List A} {b : A} {t : S}
    (hvisit : sys.Visits a s (b :: stack) t)
    (h : sys.evaluate test fuel stack b t = some (.error .circular)) : sys.Reports test a s := by
  induction fuel generalizing stack b t with
  | zero => cases h
  | succ fuel ih =>
    cases hcached : sys.cached t b with
    | some d =>
      rw [System.evaluate_cached hcached] at h
      cases Option.some.inj h
    | none =>
      rw [System.evaluate_succ hcached, Option.map_eq_some_iff] at h
      obtain ⟨computed, hrun, hfinish⟩ := h
      obtain rfl : computed = .error .circular := by
        cases computed with
        | ok result => cases hfinish
        | error interruption => exact hfinish
      obtain ⟨c, u, hdemand, hrequest⟩ := Plan.exists_of_run_circular (sys.Answers (b :: stack))
        (fun _ _ _ _ hrequest => System.answers_of_request hrequest) hrun
      have hvisit' := hvisit.next hcached hdemand
      unfold System.request at hrequest
      split at hrequest
      · rename_i htest
        exact ⟨c, b :: stack, u, hvisit', List.cons_ne_nil _ _, htest⟩
      · exact ih hvisit' hrequest

/-- If a demand of a node is reported, then its evaluation reports a cycle. -/
theorem System.evaluate_circular_of_asks {b c : A} {stack : List A} {t u : S}
    (hnew : sys.cached t b = none)
    (hdemand : (sys.plan b t).Asks (sys.Answers (b :: stack)) c u)
    (h : ∃ fuel, sys.request test fuel (b :: stack) c u = some (.error .circular)) :
    ∃ fuel, sys.evaluate test fuel stack b t = some (.error .circular) := by
  have hmore : ∀ stack b t, never stack b t = true → test stack b t = true :=
    fun _ _ _ hnever => absurd hnever Bool.false_ne_true
  have hanswers : ∀ c u d u', sys.Answers (b :: stack) c u d u' → ∃ fuel, ∀ more ≥ fuel,
      sys.request test more (b :: stack) c u = some (.ok (d, u')) ∨
        sys.request test more (b :: stack) c u = some (.error .circular) := by
    intro c u d u' ⟨fuel, hfuel⟩
    refine ⟨fuel, fun more hle => ?_⟩
    unfold System.request
    split
    · exact Or.inr rfl
    · exact System.evaluate_or_circular hmore (System.evaluate_mono hle hfuel)
  have hcircular : ∃ fuel, ∀ more ≥ fuel,
      sys.request test more (b :: stack) c u = some (.error .circular) := by
    obtain ⟨fuel, hfuel⟩ := h
    refine ⟨fuel, fun more hle => ?_⟩
    unfold System.request at hfuel ⊢
    split
    · rfl
    · rename_i htest
      rw [if_neg htest] at hfuel
      exact System.evaluate_mono hle hfuel
  obtain ⟨fuel, hfuel⟩ := Plan.run_circular_of_asks
    (fun fuel => sys.request test fuel (b :: stack)) hanswers hdemand hcircular
  refine ⟨fuel + 1, ?_⟩
  rw [System.evaluate_succ hnew, hfuel fuel le_rfl]
  rfl

/-- A cycle which is reported from a visit on is reported in the whole evaluation. -/
theorem System.evaluate_circular_of_visits {b : A} {stack : List A} {t : S}
    (hvisit : sys.Visits a s (b :: stack) t)
    (h : ∃ fuel, sys.evaluate test fuel stack b t = some (.error .circular)) :
    ∃ fuel, sys.evaluate test fuel [] a s = some (.error .circular) := by
  generalize hpath : b :: stack = path at hvisit
  induction hvisit generalizing b stack with
  | start =>
    obtain ⟨rfl, rfl⟩ := List.cons.inj hpath
    exact h
  | @next c e rest u v hearlier hnew hdemand ih =>
    obtain ⟨rfl, rfl⟩ := List.cons.inj hpath
    refine ih (System.evaluate_circular_of_asks hnew hdemand ?_) rfl
    obtain ⟨fuel, hfuel⟩ := h
    refine ⟨fuel, ?_⟩
    unfold System.request
    split
    · rfl
    · exact hfuel

/-- An evaluation reports a cycle exactly if one is reported in the process. -/
theorem System.evaluate_circular_iff :
    (∃ fuel, sys.evaluate test fuel [] a s = some (.error .circular)) ↔ sys.Reports test a s := by
  constructor
  · intro ⟨fuel, h⟩
    exact System.reports_of_evaluate .start h
  · intro ⟨c, stack, u, hvisit, hne, htest⟩
    cases hvisit with
    | start => exact absurd rfl hne
    | @next b _ rest t _ hearlier hnew hdemand =>
      refine System.evaluate_circular_of_visits hearlier ?_
      exact System.evaluate_circular_of_asks hnew hdemand ⟨0, if_pos htest⟩

end Reports

/-! ## Invariants of evaluations -/

section Invariants

variable {sys : System A S D E} {test test' : List A → A → S → Bool} {J : List A → S → Prop}
  {P : E → Prop}

/-- If the plans keep an invariant, so does the evaluation. -/
theorem System.evaluate_meets
    (hplan : ∀ stack a s, J stack s → sys.cached s a = none →
      (sys.plan a s).Meets (J (a :: stack)) (fun d s' => J stack (sys.store s' a d)) P)
    {fuel : ℕ} {stack : List A} {a : A} {s : S} (h : J stack s) :
    (∀ d s', sys.evaluate test fuel stack a s = some (.ok (d, s')) → J stack s') ∧
      ∀ error, sys.evaluate test fuel stack a s = some (.error (.raised error)) → P error := by
  induction fuel generalizing stack a s with
  | zero => exact ⟨fun _ _ h => (nomatch h), fun _ h => nomatch h⟩
  | succ fuel ih =>
    cases hcached : sys.cached s a with
    | some d =>
      rw [System.evaluate_cached hcached]
      refine ⟨fun d' s' hsame => ?_, fun _ h => nomatch h⟩
      obtain ⟨rfl, rfl⟩ := Prod.mk.inj (Except.ok.inj (Option.some.inj hsame))
      exact h
    | none =>
      rw [System.evaluate_succ hcached]
      have hrequest : ∀ b t, J (a :: stack) t →
          (∀ d t', sys.request test fuel (a :: stack) b t = some (.ok (d, t')) →
            J (a :: stack) t') ∧
          ∀ error, sys.request test fuel (a :: stack) b t = some (.error (.raised error)) →
            P error := by
        intro b t ht
        unfold System.request
        split
        · exact ⟨fun _ _ h => (nomatch h), fun _ h => nomatch h⟩
        · exact ih ht
      obtain ⟨hok, herror⟩ := Plan.run_meets (hplan stack a s h hcached) hrequest
      refine ⟨fun d s' hfinished => ?_, fun error hfinished => ?_⟩
      · obtain ⟨computed, hrun, hfinish⟩ := Option.map_eq_some_iff.mp hfinished
        cases computed with
        | error interruption => cases hfinish
        | ok result =>
          obtain ⟨rfl, rfl⟩ := Prod.mk.inj (Except.ok.inj hfinish)
          exact hok _ _ hrun
      · obtain ⟨computed, hrun, hfinish⟩ := Option.map_eq_some_iff.mp hfinished
        cases computed with
        | error interruption =>
          obtain rfl := Except.error.inj hfinish
          exact herror error hrun
        | ok result => cases hfinish

/-- Tests which are the same where the invariant holds lead to the same. -/
theorem System.evaluate_congr
    (hplan : ∀ stack a s, J stack s → sys.cached s a = none →
      (sys.plan a s).Meets (J (a :: stack)) (fun d s' => J stack (sys.store s' a d)) P)
    (htest : ∀ a stack b t, J (a :: stack) t → test (a :: stack) b t = test' (a :: stack) b t)
    {fuel : ℕ} {stack : List A} {a : A} {s : S} (h : J stack s) :
    sys.evaluate test fuel stack a s = sys.evaluate test' fuel stack a s := by
  induction fuel generalizing stack a s with
  | zero => rfl
  | succ fuel ih =>
    cases hcached : sys.cached s a with
    | some d => rw [System.evaluate_cached hcached, System.evaluate_cached hcached]
    | none =>
      rw [System.evaluate_succ hcached, System.evaluate_succ hcached]
      congr 1
      refine Plan.run_congr (hplan stack a s h hcached) (fun b t ht => ?_) fun b t ht d t' hok => ?_
      · rw [System.request, System.request, htest a stack b t ht, ih ht]
      · unfold System.request at hok
        split at hok
        · cases Option.some.inj hok
        · exact (System.evaluate_meets hplan ht).1 d t' hok

end Invariants

/-! ## Termination -/

section Termination

variable [DecidableEq A] {sys : System A S D E} {nodes : Finset A}

/-- If every demand of a node whose result is being computed is reported, and there are finitely
many nodes with demands, then evaluations end. -/
theorem System.evaluate_reentry_ne_none
    (hnodes : ∀ a ∉ nodes, ∀ s, ∃ outcome, sys.plan a s = .done outcome)
    {fuel : ℕ} {stack : List A} {a : A} {s : S} (hnodup : stack.Nodup)
    (hstack : ∀ b ∈ stack, b ∈ nodes) (hnew : a ∈ stack → sys.cached s a ≠ none)
    (hfuel : nodes.card + 1 ≤ fuel + stack.length) :
    sys.evaluate sys.reentry fuel stack a s ≠ none := by
  induction fuel generalizing stack a s with
  | zero =>
    have hlength : stack.length ≤ nodes.card := by
      rw [← List.toFinset_card_of_nodup hnodup]
      exact Finset.card_le_card fun b hb => hstack b (List.mem_toFinset.mp hb)
    omega
  | succ fuel ih =>
    cases hcached : sys.cached s a with
    | some d =>
      rw [System.evaluate_cached hcached]
      exact Option.some_ne_none _
    | none =>
      have hout : a ∉ stack := fun hin => hnew hin hcached
      rw [System.evaluate_succ hcached, Ne, Option.map_eq_none_iff]
      by_cases hnode : a ∈ nodes
      · refine Plan.run_ne_none fun b t => ?_
        unfold System.request
        split
        · exact Option.some_ne_none _
        · rename_i htest
          apply ih (List.nodup_cons.mpr ⟨hout, hnodup⟩)
          · intro c hc
            rcases List.mem_cons.mp hc with rfl | hc
            · exact hnode
            · exact hstack c hc
          · intro hin hnone
            rw [System.reentry, hnone] at htest
            exact htest (by simpa using hin)
          · rw [List.length_cons]
            omega
      · obtain ⟨outcome, houtcome⟩ := hnodes a hnode s
        rw [houtcome]
        cases outcome <;> exact Option.some_ne_none _

/-- A node is demanded while its result is being computed exactly if this is reported by the test
for it. -/
theorem System.reenters_iff {a : A} {s : S} :
    sys.Reenters a s ↔ sys.Reports sys.reentry a s := by
  refine exists_congr fun b => exists_congr fun stack => exists_congr fun t =>
    and_congr_right fun _ => ?_
  rw [System.reentry, Bool.and_eq_true, decide_eq_true_eq, Option.isNone_iff_eq_none]
  constructor
  · intro ⟨hin, hnone⟩
    exact ⟨List.ne_nil_of_mem hin, hin, hnone⟩
  · intro ⟨_, h⟩
    exact h

/-- With a test for some of these demands, an evaluation ends and reports a cycle exactly if there is
one, if and only if such a demand is reported whenever there is a cycle. -/
theorem System.reports_cycles_iff {test : List A → A → S → Bool}
    (hnodes : ∀ a ∉ nodes, ∀ s, ∃ outcome, sys.plan a s = .done outcome)
    (htest : ∀ stack b t, test stack b t = true → sys.reentry stack b t = true) {a : A} {s : S} :
    ((∃ fuel outcome, sys.evaluate test fuel [] a s = some outcome) ∧
      ((∃ fuel, sys.evaluate test fuel [] a s = some (.error .circular)) ↔ sys.Reenters a s)) ↔
    (sys.Reenters a s → sys.Reports test a s) := by
  rw [System.evaluate_circular_iff]
  constructor
  · intro ⟨_, hreports⟩
    exact hreports.mpr
  · intro h
    have hreports : sys.Reports test a s ↔ sys.Reenters a s := by
      refine ⟨fun ⟨b, stack, t, hvisit, hne, ht⟩ => ?_, h⟩
      exact System.reenters_iff.mpr ⟨b, stack, t, hvisit, hne, htest _ _ _ ht⟩
    refine ⟨?_, hreports⟩
    have hends : sys.evaluate sys.reentry (nodes.card + 1) [] a s ≠ none :=
      System.evaluate_reentry_ne_none hnodes List.nodup_nil (fun _ hb => absurd hb List.not_mem_nil)
        (fun hin => absurd hin List.not_mem_nil) le_rfl
    obtain ⟨outcome, houtcome⟩ := Option.ne_none_iff_exists'.mp hends
    rcases System.circular_or_evaluate htest houtcome with rfl | hsame
    · have hreenters : sys.Reenters a s :=
        System.reenters_iff.mpr (System.evaluate_circular_iff.mp ⟨_, houtcome⟩)
      obtain ⟨fuel, hfuel⟩ := System.evaluate_circular_iff.mpr (h hreenters)
      exact ⟨fuel, _, hfuel⟩
    · exact ⟨_, _, hsame⟩

end Termination

end Demands
