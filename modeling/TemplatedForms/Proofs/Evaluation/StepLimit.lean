import TemplatedForms.Proofs.Evaluation.FreeNames

namespace TemplatedForms

open Evaluation

theorem metered_eval (e : Expr) : Metered (fun _ ↦ True) (eval e) :=
  metered_of_alike fun scopes ↦ alike_eval e (bindAlike_refl e.freeNames scopes)

theorem metered_invoke (params : List String) (body : Expr) (args : List Value) :
    Metered (fun _ ↦ True) (invoke params (eval body) args) :=
  metered_of_alike fun _ ↦ alike_invoke (alike_eval body (bindAlike_refl body.freeNames _))

theorem run_takes (p : Program) :
    ∃ n r, (∀ limit, r ≠ .error (.stepLimit limit)) ∧ ∀ i : Interpreter, i.run p =
      if n ≤ i.stepLimit then (r, ⟨i.stepLimit, n, []⟩)
      else (.error (.stepLimit i.stepLimit), ⟨i.stepLimit, i.stepLimit + 1, []⟩) := by
  obtain ⟨n, r, htakes, hr⟩ := metered_eval p.body []
  refine ⟨n, r, hr.ne, fun i ↦ ?_⟩
  have hrun := htakes i.stepLimit 0 (Nat.zero_le _)
  rwa [Nat.zero_add] at hrun

theorem past_limit_iff (e : Expr) (i : Interpreter) (h : i.steps ≤ i.stepLimit) :
    i.stepLimit < (eval e i).2.steps ↔ (eval e i).1 = .error (.stepLimit i.stepLimit) := by
  obtain ⟨limit, steps, scopes⟩ := i
  obtain ⟨n, r, htakes, hr⟩ := metered_eval e scopes
  rw [htakes limit steps h]
  by_cases hn : steps + n ≤ limit
  · rw [if_pos hn]
    exact ⟨fun hlt ↦ absurd hn (Nat.not_le_of_lt hlt), fun he ↦ absurd he (hr.ne limit)⟩
  · rw [if_neg hn]
    exact ⟨fun _ ↦ rfl, fun _ ↦ Nat.lt_succ_self limit⟩

/-- A program takes a number of steps and has an outcome. Every limit of at least this number gives the
outcome, every smaller one only says that it is too small; so what one limit allows, every larger one
leaves as it is. At any place in any program, the counter has passed the limit exactly when the limit is
the error: nothing recovers from it, and nothing is evaluated after it. -/
theorem step_limit_only_cuts_off (p : Program) :
    (∃ n r, (∀ limit, r ≠ .error (.stepLimit limit)) ∧
      ∀ i : Interpreter, (i.run p).1 = if n ≤ i.stepLimit then r else .error (.stepLimit i.stepLimit)) ∧
    (∀ i j : Interpreter, i.stepLimit ≤ j.stepLimit → (∀ limit, (i.run p).1 ≠ .error (.stepLimit limit)) →
      (j.run p).1 = (i.run p).1) ∧
    ∀ (e : Expr) (i : Interpreter), i.steps ≤ i.stepLimit →
      (i.stepLimit < (eval e i).2.steps ↔ (eval e i).1 = .error (.stepLimit i.stepLimit)) := by
  obtain ⟨n, r, hr, hrun⟩ := run_takes p
  have hresult (i : Interpreter) :
      (i.run p).1 = if n ≤ i.stepLimit then r else .error (.stepLimit i.stepLimit) := by
    rw [hrun, apply_ite Prod.fst]
  refine ⟨⟨n, r, hr, hresult⟩, fun i j hij hi ↦ ?_, past_limit_iff⟩
  have hn : n ≤ i.stepLimit := by
    refine Nat.le_of_not_lt fun hn ↦ hi i.stepLimit ?_
    rw [hresult, if_neg (Nat.not_le_of_lt hn)]
  rw [hresult, hresult, if_pos hn, if_pos (Nat.le_trans hn hij)]

end TemplatedForms
