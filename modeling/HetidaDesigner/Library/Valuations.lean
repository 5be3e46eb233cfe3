import HetidaDesigner.Library.Demands

/-!
# Evaluations and plain recursion

A system which keeps results and reports some demands computes the same as a recursion without
both, if its plans ask for what the recursion needs. The recursion is given by approximations: the
results of nodes with a bound on the depth.
-/

namespace Demands

variable {A S D E : Type*}

/-- A plan ends with a result that meets a condition, if the answers to its demands are right. -/
def Plan.Reaches (I : S → Prop) (value : A → Option D) (Q : D → S → Prop) : Plan A S D E → Prop
  | .done (.ok result) => Q result.1 result.2
  | .done (.error _) => False
  | .demand a s next => I s ∧ ∃ d, value a = some d ∧ ∀ s', I s' → (next d s').Reaches I value Q

/-- If a plan ends with a result and the answers to its demands are right, then the result meets a
condition. -/
def Plan.Keeps (I : S → Prop) (right : A → D → Prop) (Q : D → S → Prop) : Plan A S D E → Prop
  | .done (.ok result) => Q result.1 result.2
  | .done (.error _) => True
  | .demand a s next => I s ∧ ∀ d s', right a d → I s' → (next d s').Keeps I right Q

/-- A system follows a recursion: the plan of a node leads to its result by the results of the nodes
which the recursion needs, and results which are kept are right. -/
structure System.Follows (sys : System A S D E) (J : List A → S → Prop)
    (value : ℕ → A → Option D) : Prop where
  zero : ∀ a, value 0 a = none
  mono : ∀ {n a d}, value n a = some d → value (n + 1) a = some d
  cached : ∀ {stack s a d}, J stack s → sys.cached s a = some d → ∃ n, value n a = some d
  keeps : ∀ {stack s a}, J stack s → sys.cached s a = none →
    (sys.plan a s).Keeps (J (a :: stack)) (fun b d => ∃ n, value n b = some d)
      (fun d s' => (∃ n, value n a = some d) ∧ J stack (sys.store s' a d))
  reaches : ∀ {stack s a n d}, J stack s → sys.cached s a = none → value (n + 1) a = some d →
    (sys.plan a s).Reaches (J (a :: stack)) (value n)
      (fun d' s' => d' = d ∧ J stack (sys.store s' a d'))

/-! ## Plans -/

section Plans

variable {I : S → Prop} {Q : D → S → Prop} {plan : Plan A S D E}
  {request : A → S → Option (Except (Interruption E) (D × S))}

/-- A plan which reaches a result does so with requests that answer right. -/
theorem Plan.exists_run_of_reaches {value : A → Option D} (hplan : plan.Reaches I value Q)
    (hrequest : ∀ a s d, I s → value a = some d →
      ∃ s', request a s = some (.ok (d, s')) ∧ I s') :
    ∃ d s', plan.run request = some (.ok (d, s')) ∧ Q d s' := by
  induction plan with
  | done result =>
    cases result with
    | ok result => exact ⟨result.1, result.2, rfl, hplan⟩
    | error error => exact hplan.elim
  | demand a s next ih =>
    obtain ⟨hstate, d, hvalue, hnext⟩ := hplan
    obtain ⟨s', hanswer, hstate'⟩ := hrequest a s d hstate hvalue
    obtain ⟨d', s'', hrun, hresult⟩ := ih d s' (hnext s' hstate')
    exact ⟨d', s'', (Plan.run_demand_of_ok hanswer).trans hrun, hresult⟩

/-- What a plan returns meets the condition, if the requests answer right. -/
theorem Plan.run_of_keeps {right : A → D → Prop} (hplan : plan.Keeps I right Q)
    (hrequest : ∀ a s d s', I s → request a s = some (.ok (d, s')) → right a d ∧ I s')
    {d : D} {s' : S} (hrun : plan.run request = some (.ok (d, s'))) : Q d s' := by
  induction plan with
  | done result =>
    cases result with
    | ok result =>
      obtain rfl := Except.ok.inj (Option.some.inj hrun)
      exact hplan
    | error error => cases hrun
  | demand a s next ih =>
    obtain ⟨hstate, hnext⟩ := hplan
    rcases Plan.run_demand_cases hrun with ⟨interruption, -, heq⟩ | ⟨answer, state, hanswer, hrun⟩
    · cases heq
    · obtain ⟨hright, hstate'⟩ := hrequest a s answer state hstate hanswer
      exact ih answer state (hnext answer state hright hstate') hrun

end Plans

/-! ## Evaluations -/

section Evaluations

variable {sys : System A S D E} {J : List A → S → Prop} {value : ℕ → A → Option D}
  {test : List A → A → S → Bool}

/-- A larger bound on the depth does not change a result. -/
theorem System.Follows.le (h : sys.Follows J value) {n m : ℕ} (hle : n ≤ m) {a : A} {d : D}
    (hvalue : value n a = some d) : value m a = some d := by
  induction hle with
  | refl => exact hvalue
  | step _ ih => exact h.mono ih

/-- The results of a node with different bounds are the same. -/
theorem System.Follows.unique (h : sys.Follows J value) {n m : ℕ} {a : A} {d d' : D}
    (hvalue : value n a = some d) (hvalue' : value m a = some d') : d = d' := by
  have hd := h.le (le_max_left n m) hvalue
  have hd' := h.le (le_max_right n m) hvalue'
  exact Option.some.inj (hd.symm.trans hd')

/-- A node with a bound for which those on the stack have no result is not on the stack. -/
theorem System.Follows.value_eq_none (h : sys.Follows J value) {n : ℕ} {a : A}
    (hnone : value (n + 1) a = none) : value n a = none := by
  cases hvalue : value n a with
  | none => rfl
  | some d => rw [h.mono hvalue] at hnone; cases hnone

/-- A result of the recursion is returned by the evaluation. -/
theorem System.Follows.exists_evaluate (h : sys.Follows J value)
    (htest : ∀ stack b t, J stack t → test stack b t = true → b ∈ stack) {n : ℕ} {stack : List A}
    {a : A} {s : S} {d : D} (hstate : J stack s) (hstack : ∀ c ∈ stack, value n c = none)
    (hvalue : value n a = some d) :
    ∃ s', sys.evaluate test n stack a s = some (.ok (d, s')) ∧ J stack s' := by
  induction n generalizing stack a s d with
  | zero =>
    rw [h.zero] at hvalue
    cases hvalue
  | succ n ih =>
    cases hearlier : value n a with
    | some d' =>
      obtain rfl := h.unique hearlier hvalue
      obtain ⟨s', hevaluate, hstate'⟩ :=
        ih hstate (fun c hc => h.value_eq_none (hstack c hc)) hearlier
      exact ⟨s', System.evaluate_mono (Nat.le_succ n) hevaluate, hstate'⟩
    | none =>
      cases hcached : sys.cached s a with
      | some d' =>
        obtain ⟨m, hkept⟩ := h.cached hstate hcached
        obtain rfl := h.unique hkept hvalue
        exact ⟨s, System.evaluate_cached hcached, hstate⟩
      | none =>
        have hnone : ∀ c ∈ a :: stack, value n c = none := by
          intro c hc
          rcases List.mem_cons.mp hc with rfl | hc
          · exact hearlier
          · exact h.value_eq_none (hstack c hc)
        have hrequest : ∀ b t answer, J (a :: stack) t → value n b = some answer →
            ∃ t', sys.request test n (a :: stack) b t = some (.ok (answer, t')) ∧
              J (a :: stack) t' := by
          intro b t answer ht hanswer
          have hout : ¬ test (a :: stack) b t = true := fun htrue => by
            have hin := hnone b (htest (a :: stack) b t ht htrue)
            rw [hanswer] at hin
            cases hin
          rw [System.request, if_neg hout]
          exact ih ht hnone hanswer
        obtain ⟨d', s', hrun, rfl, hstate'⟩ :=
          Plan.exists_run_of_reaches (h.reaches hstate hcached hvalue) hrequest
        refine ⟨sys.store s' a d', ?_, hstate'⟩
        rw [System.evaluate_succ hcached, hrun]
        rfl

/-- What an evaluation returns is the result of the recursion. -/
theorem System.Follows.of_evaluate (h : sys.Follows J value) {fuel : ℕ} {stack : List A} {a : A}
    {s s' : S} {d : D} (hstate : J stack s)
    (hevaluate : sys.evaluate test fuel stack a s = some (.ok (d, s'))) :
    (∃ n, value n a = some d) ∧ J stack s' := by
  induction fuel generalizing stack a s s' d with
  | zero => cases hevaluate
  | succ fuel ih =>
    cases hcached : sys.cached s a with
    | some d' =>
      rw [System.evaluate_cached hcached] at hevaluate
      obtain ⟨rfl, rfl⟩ := Prod.mk.inj (Except.ok.inj (Option.some.inj hevaluate))
      exact ⟨h.cached hstate hcached, hstate⟩
    | none =>
      rw [System.evaluate_succ hcached, Option.map_eq_some_iff] at hevaluate
      obtain ⟨computed, hrun, hfinish⟩ := hevaluate
      cases computed with
      | error interruption => cases hfinish
      | ok result =>
        obtain ⟨rfl, rfl⟩ := Prod.mk.inj (Except.ok.inj hfinish)
        refine Plan.run_of_keeps (h.keeps hstate hcached) (fun b t answer t' ht hrequest => ?_) hrun
        unfold System.request at hrequest
        split at hrequest
        · cases hrequest
        · exact ih ht hrequest

/-- What an evaluation returns is kept. -/
theorem System.cached_of_evaluate (hstore : ∀ s a d, sys.cached (sys.store s a d) a = some d)
    {fuel : ℕ} {stack : List A} {a : A} {s s' : S} {d : D}
    (hevaluate : sys.evaluate test fuel stack a s = some (.ok (d, s'))) :
    sys.cached s' a = some d := by
  cases fuel with
  | zero => cases hevaluate
  | succ fuel =>
    cases hcached : sys.cached s a with
    | some d' =>
      rw [System.evaluate_cached hcached] at hevaluate
      obtain ⟨rfl, rfl⟩ := Prod.mk.inj (Except.ok.inj (Option.some.inj hevaluate))
      exact hcached
    | none =>
      rw [System.evaluate_succ hcached, Option.map_eq_some_iff] at hevaluate
      obtain ⟨computed, -, hfinish⟩ := hevaluate
      cases computed with
      | error interruption => cases hfinish
      | ok result =>
        obtain ⟨rfl, rfl⟩ := Prod.mk.inj (Except.ok.inj hfinish)
        exact hstore ..

/-- An evaluation returns exactly the results of the recursion. -/
theorem System.Follows.evaluate_iff (h : sys.Follows J value)
    (htest : ∀ stack b t, J stack t → test stack b t = true → b ∈ stack) {a : A} {s : S} {d : D}
    (hstate : J [] s) :
    (∃ fuel s', sys.evaluate test fuel [] a s = some (.ok (d, s'))) ↔ ∃ n, value n a = some d := by
  constructor
  · rintro ⟨fuel, s', hevaluate⟩
    exact (h.of_evaluate hstate hevaluate).1
  · rintro ⟨n, hvalue⟩
    obtain ⟨s', hevaluate, -⟩ :=
      h.exists_evaluate htest hstate (fun _ hc => absurd hc List.not_mem_nil) hvalue
    exact ⟨n, s', hevaluate⟩

end Evaluations

end Demands
