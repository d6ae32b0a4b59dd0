import TemplatedForms.Proofs.Evaluation.StepLimit

namespace TemplatedForms

open Evaluation

def EvalError.atLimit (limit : Nat) : EvalError → EvalError
  | .stepLimit _ => .stepLimit limit
  | e => e

theorem EvalError.atLimit_of_ne {e : EvalError} (h : ∀ limit, e ≠ .stepLimit limit) (limit : Nat) :
    e.atLimit limit = e := by
  unfold atLimit
  split
  · next own => exact absurd rfl (h own)
  · rfl

theorem Finishes.mapError_atLimit {α : Type} {Q : α → Prop} {r : Except EvalError α} (h : Finishes Q r)
    (limit : Nat) : r.mapError (EvalError.atLimit limit) = r := by
  cases r with
  | ok a => rfl
  | error e => exact congrArg Except.error (EvalError.atLimit_of_ne h limit)

/-- In a state a computation does what it does from a fresh start in the same scopes with as many steps as
are left, and the count goes on. -/
def Evaluation.Resumes {α : Type} (m : Evaluation α) (i : Interpreter) : Prop :=
  let fresh := m ⟨i.stepLimit - i.steps, 0, i.scopes⟩
  m i = (fresh.1.mapError (EvalError.atLimit i.stepLimit),
    ⟨i.stepLimit, i.steps + fresh.2.steps, i.scopes⟩)

theorem resumes_of_metered {α : Type} {Q : α → Prop} {m : Evaluation α}
    (h : Metered Q (tick >>= fun _ ↦ m)) (i : Interpreter) : (tick >>= fun _ ↦ m).Resumes i := by
  obtain ⟨limit, steps, scopes⟩ := i
  rw [Resumes]
  dsimp only
  rcases Nat.lt_or_ge limit steps with hpast | hleft
  · -- neither run gets beyond its first step
    have hlater : ¬steps + 1 ≤ limit := by omega
    have hfresh : ¬0 + 1 ≤ limit - steps := by omega
    simp only [bind_apply, tick, if_neg hlater, if_neg hfresh]
    rfl
  · obtain ⟨n, r, htakes, hr⟩ := h scopes
    rw [htakes limit steps hleft, htakes (limit - steps) 0 (Nat.zero_le _)]
    by_cases hn : steps + n ≤ limit
    · have hfresh : 0 + n ≤ limit - steps := by omega
      rw [if_pos hn, if_pos hfresh, hr.mapError_atLimit, Nat.zero_add]
    · have hfresh : ¬0 + n ≤ limit - steps := by omega
      have hstop : limit + 1 = steps + (limit - steps + 1) := by omega
      rw [if_neg hn, if_neg hfresh, ← hstop]
      rfl

theorem exists_eval_eq_tick (e : Expr) : ∃ m, eval e = tick >>= fun _ ↦ m := by
  cases e with
  | call callee args =>
    cases callee with
    | member | name =>
      rw [eval]
      exact ⟨_, rfl⟩
    | literal | array | object | index | call | unary | binary | logical | conditional | arrow =>
      exact ⟨_, eval_call (by simp) (by simp) args⟩
  | literal | name | array | object | member | index | unary | binary | logical | conditional | arrow =>
    rw [eval]
    exact ⟨_, rfl⟩

theorem eval_resumes (e : Expr) (i : Interpreter) : (eval e).Resumes i := by
  obtain ⟨m, hm⟩ := exists_eval_eq_tick e
  have hmetered := metered_eval e
  rw [hm] at hmetered ⊢
  exact resumes_of_metered hmetered i

theorem invoke_resumes (params : List String) (body : Expr) (args : List Value) (i : Interpreter) :
    (invoke params (eval body) args).Resumes i :=
  resumes_of_metered (metered_invoke params body args) i

namespace Interpreter

/-- What an interpreter can be asked to do. -/
inductive Call
  | run (p : Program)
  | eval (e : Expr)
  | invoke (params : List String) (body : Expr) (args : List Value)

def answer (i : Interpreter) : Call → Except EvalError Value × Interpreter
  | .run p => i.run p
  | .eval e => TemplatedForms.eval e i
  | .invoke params body args => TemplatedForms.invoke params (TemplatedForms.eval body) args i

def after (i : Interpreter) (call : Call) : Interpreter := (i.answer call).2

def afterAll (i : Interpreter) (calls : List Call) : Interpreter := calls.foldl after i

theorem after_scopes (i : Interpreter) (call : Call) (h : i.scopes = []) : (i.after call).scopes = [] := by
  cases call with
  | run p =>
    rw [after, answer, run, eval_resumes]
  | eval e =>
    rw [after, answer, eval_resumes e i]
    exact h
  | invoke params body args =>
    rw [after, answer, invoke_resumes params body args i]
    exact h

theorem after_stepLimit (i : Interpreter) (call : Call) : (i.after call).stepLimit = i.stepLimit := by
  cases call with
  | run p => rw [after, answer, run, eval_resumes]
  | eval e => rw [after, answer, eval_resumes e i]
  | invoke params body args => rw [after, answer, invoke_resumes params body args i]

theorem afterAll_scopes (i : Interpreter) (calls : List Call) (h : i.scopes = []) :
    (i.afterAll calls).scopes = [] := by
  induction calls generalizing i with
  | nil => exact h
  | cons call calls ih => exact ih (i.after call) (after_scopes i call h)

theorem afterAll_stepLimit (i : Interpreter) (calls : List Call) :
    (i.afterAll calls).stepLimit = i.stepLimit := by
  induction calls generalizing i with
  | nil => rfl
  | cons call calls ih => exact (ih (i.after call)).trans (after_stepLimit i call)

/-- After any calls on an interpreter, each answered with a value or an error, no scopes are left. A program
is run as by a new interpreter. An expression is evaluated, and a function is called, as by a new
interpreter with the steps that are left: with the same value or error, but for the limit that is named,
and with as many steps, which are added to those taken before. -/
theorem past_counts_by_its_steps (limit : Nat) (calls : List Call) :
    let i := (new limit).afterAll calls
    let fresh := new (limit - i.steps)
    i.scopes = [] ∧
      (∀ p, i.run p = (new limit).run p) ∧
      (∀ e, let (r, j) := TemplatedForms.eval e fresh
        TemplatedForms.eval e i =
          (r.mapError (EvalError.atLimit limit), ⟨limit, i.steps + j.steps, []⟩)) ∧
      ∀ params body args,
        let (r, j) := TemplatedForms.invoke params (TemplatedForms.eval body) args fresh
        TemplatedForms.invoke params (TemplatedForms.eval body) args i =
          (r.mapError (EvalError.atLimit limit), ⟨limit, i.steps + j.steps, []⟩) := by
  intro i fresh
  have hscopes : i.scopes = [] := afterAll_scopes (new limit) calls rfl
  have hlimit : i.stepLimit = limit := afterAll_stepLimit (new limit) calls
  have hstart : (⟨i.stepLimit - i.steps, 0, i.scopes⟩ : Interpreter) = fresh := by
    rw [hscopes, hlimit]
    rfl
  have hresumes {m : Evaluation Value} (h : m.Resumes i) :
      let (r, j) := m fresh
      m i = (r.mapError (EvalError.atLimit limit), ⟨limit, i.steps + j.steps, []⟩) := by
    rw [Resumes, hstart, hscopes, hlimit] at h
    exact h
  refine ⟨hscopes, fun p ↦ ?_, fun e ↦ hresumes (eval_resumes e i), fun params body args ↦ ?_⟩
  · rw [run, run, hlimit]
    rfl
  · exact hresumes (invoke_resumes params body args i)

end Interpreter

end TemplatedForms
