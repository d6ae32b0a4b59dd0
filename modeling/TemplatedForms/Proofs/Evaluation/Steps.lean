import TemplatedForms.Evaluation.Interpreter

namespace TemplatedForms

variable {α β : Type}

/-- A value with a property, or an error that no limit on the steps has caused. -/
def Finishes (Q : α → Prop) : Except EvalError α → Prop
  | .ok a => Q a
  | .error e => ∀ limit, e ≠ .stepLimit limit

@[simp] theorem finishes_ok {Q : α → Prop} (a : α) : Finishes Q (.ok a) ↔ Q a := Iff.rfl

@[simp] theorem finishes_pure {Q : α → Prop} (a : α) : Finishes Q (pure a) ↔ Q a := Iff.rfl

@[simp] theorem finishes_error {Q : α → Prop} (e : EvalError) :
    Finishes Q (.error e) ↔ ∀ limit, e ≠ .stepLimit limit := Iff.rfl

@[simp] theorem finishes_bind {Q : β → Prop} (r : Except EvalError α) (k : α → Except EvalError β) :
    Finishes Q (r >>= k) ↔ Finishes (fun a ↦ Finishes Q (k a)) r := by
  cases r <;> rfl

@[simp] theorem finishes_map {Q : β → Prop} (r : Except EvalError α) (f : α → β) :
    Finishes Q (f <$> r) ↔ Finishes (fun a ↦ Q (f a)) r := by
  cases r <;> rfl

theorem finishes_ite {Q : α → Prop} {c : Prop} [Decidable c] {r s : Except EvalError α} :
    Finishes Q (if c then r else s) ↔ (c → Finishes Q r) ∧ (¬c → Finishes Q s) := by
  split <;> simp_all

theorem Finishes.ne {Q : α → Prop} {r : Except EvalError α} (h : Finishes Q r) (limit : Nat) :
    r ≠ .error (.stepLimit limit) := by
  rintro rfl
  exact h limit rfl

namespace Evaluation

/-- In some scopes a computation takes a number of steps and has a result. A limit that it does not
keep to is the error instead. -/
def Takes (m : Evaluation α) (scopes : List (Entries Value)) (n : Nat) (r : Except EvalError α) : Prop :=
  ∀ limit steps, steps ≤ limit →
    m ⟨limit, steps, scopes⟩ =
      if steps + n ≤ limit then (r, ⟨limit, steps + n, scopes⟩)
      else (.error (.stepLimit limit), ⟨limit, limit + 1, scopes⟩)

variable {scopes : List (Entries Value)} {n n' : Nat} {m : Evaluation α} {k : α → Evaluation β}

theorem takes_ofExcept (r : Except EvalError α) (scopes : List (Entries Value)) :
    Takes (ofExcept r) scopes 0 r := by
  intro limit steps h
  rw [Nat.add_zero, if_pos h]
  rfl

theorem takes_pure (a : α) (scopes : List (Entries Value)) : Takes (pure a) scopes 0 (.ok a) :=
  takes_ofExcept (.ok a) scopes

theorem takes_tick (scopes : List (Entries Value)) : Takes tick scopes 1 (.ok ()) := by
  intro limit steps h
  rw [tick]
  by_cases hn : steps + 1 ≤ limit
  · simp only [if_pos hn]
  · obtain rfl : steps = limit := by omega
    simp only [if_neg hn]

theorem bind_apply (m : Evaluation α) (k : α → Evaluation β) (i : Interpreter) :
    (m >>= k) i = match m i with
      | (.ok a, i) => k a i
      | (.error e, i) => (.error e, i) := rfl

theorem ofRoutine_call (f : Function) (args : List Value) (next : Value → Routine Function α) :
    ofRoutine (.call f args next) = f args >>= fun v ↦ ofRoutine (next v) := by
  funext i
  simp only [bind_apply, ofRoutine]
  rcases f args i with ⟨_ | v, i⟩ <;> rfl

theorem ofRoutine_bind (r : Routine Function α) (k : α → Routine Function β) :
    ofRoutine (r >>= k) = ofRoutine r >>= fun a ↦ ofRoutine (k a) := by
  induction r with
  | done a => rfl
  | fail e => rfl
  | call f args next ih =>
    change ofRoutine (.call f args fun v ↦ next v >>= k) = _
    funext i
    rw [ofRoutine_call, ofRoutine_call, bind_apply, bind_apply, bind_apply]
    rcases f args i with ⟨_ | v, j⟩
    · rfl
    · exact congrFun (ih v) j

theorem ofRoutine_map (g : α → β) (r : Routine Function α) (i : Interpreter) :
    ofRoutine (g <$> r) i = ((ofRoutine r i).1.map g, (ofRoutine r i).2) := by
  change ofRoutine (r >>= fun a ↦ pure (g a)) i = _
  rw [ofRoutine_bind, bind_apply]
  rcases ofRoutine r i with ⟨_ | a, j⟩ <;> rfl

theorem Takes.bind {a : α} {r : Except EvalError β} (hm : Takes m scopes n (.ok a))
    (hk : Takes (k a) scopes n' r) : Takes (m >>= k) scopes (n + n') r := by
  intro limit steps h
  rw [bind_apply, hm limit steps h]
  by_cases hn : steps + n ≤ limit
  · have hrest := hk limit (steps + n) hn
    rw [if_pos hn]
    rwa [Nat.add_assoc] at hrest
  · rw [if_neg hn, if_neg (by omega)]

theorem Takes.bind_pure {a : α} (hm : Takes m scopes n (.ok a)) (f : α → β) :
    Takes (m >>= fun a ↦ pure (f a)) scopes n (.ok (f a)) := by
  have h := hm.bind (k := fun a ↦ pure (f a)) (takes_pure (f a) scopes)
  rwa [Nat.add_zero] at h

theorem Takes.after_tick {r : Except EvalError α} (hm : Takes m scopes n r) :
    Takes (tick >>= fun _ ↦ m) scopes (n + 1) r := by
  rw [Nat.add_comm]
  exact (takes_tick scopes).bind hm

theorem Takes.bind_error {e : EvalError} (hm : Takes m scopes n (.error e)) :
    Takes (m >>= k) scopes n (.error e) := by
  intro limit steps h
  rw [bind_apply, hm limit steps h]
  by_cases hn : steps + n ≤ limit
  · rw [if_pos hn, if_pos hn]
  · rw [if_neg hn, if_neg hn]

theorem Takes.within {scope : Entries Value} {r : Except EvalError α}
    (hm : Takes m (scope :: scopes) n r) : Takes (within scope m) scopes n r := by
  intro limit steps h
  have hm := hm limit steps h
  simp only [Evaluation.within, hm]
  by_cases hn : steps + n ≤ limit
  · simp only [if_pos hn, List.tail_cons]
  · simp only [if_neg hn, List.tail_cons]

theorem takes_inspect {f : Interpreter → α} {a : α} (hf : ∀ i : Interpreter, i.scopes = scopes → f i = a) :
    Takes (inspect f) scopes 0 (.ok a) := by
  intro limit steps h
  rw [inspect, hf _ rfl, Nat.add_zero, if_pos h]

theorem Takes.after_inspect {f : Interpreter → α} {k : α → Evaluation β} {a : α} {r : Except EvalError β}
    (hf : ∀ i : Interpreter, i.scopes = scopes → f i = a) (hk : Takes (k a) scopes n r) :
    Takes (inspect f >>= k) scopes n r := by
  rw [← Nat.zero_add n]
  exact (takes_inspect hf).bind hk

theorem takes_literal (l : Literal) : Takes (eval (.literal l)) scopes 1 (.ok l.value) := by
  rw [eval]
  exact (takes_pure l.value scopes).after_tick

theorem takes_evalAll_cons {e : Expr} {es : List Expr} {v : Value} {vs : List Value} {n k : Nat}
    (he : Takes (eval e) scopes n (.ok v)) (hes : Takes (evalAll es) scopes k (.ok vs)) :
    Takes (evalAll (e :: es)) scopes (n + k) (.ok (v :: vs)) := by
  rw [evalAll]
  exact he.bind (hes.bind_pure (v :: ·))

/-- A computation ends with a value that has a property or with an error of its own, after a number of
steps. -/
def Metered (Q : α → Prop) (m : Evaluation α) : Prop :=
  ∀ scopes, ∃ n r, Takes m scopes n r ∧ Finishes Q r

/-- In two stacks of scopes a computation comes to the same end after the same number of steps: to a value
that has a property, or to an error of its own. -/
def Alike (s t : List (Entries Value)) (Q : α → Prop) (m : Evaluation α) : Prop :=
  ∃ n r, Takes m s n r ∧ Takes m t n r ∧ Finishes Q r

theorem metered_of_alike {Q : α → Prop} (h : ∀ scopes, Alike scopes scopes Q m) : Metered Q m := by
  intro scopes
  obtain ⟨n, r, htakes, -, hr⟩ := h scopes
  exact ⟨n, r, htakes, hr⟩

variable {s t : List (Entries Value)} {Q : α → Prop} {R : β → Prop}

theorem alike_ofExcept {r : Except EvalError α} (h : Finishes Q r) : Alike s t Q (ofExcept r) :=
  ⟨0, r, takes_ofExcept r s, takes_ofExcept r t, h⟩

theorem alike_lift {r : Except EvalError α} (h : Finishes Q r) : Alike s t Q (liftM r : Evaluation α) :=
  alike_ofExcept h

theorem alike_pure {a : α} (h : Q a) : Alike s t Q (pure a) := alike_ofExcept (r := .ok a) h

theorem alike_fail {e : EvalError} (h : ∀ limit, e ≠ .stepLimit limit) : Alike s t Q (fail e) :=
  alike_ofExcept (r := .error e) h

theorem Alike.bind (hm : Alike s t Q m) (hk : ∀ a, Q a → Alike s t R (k a)) : Alike s t R (m >>= k) := by
  obtain ⟨n, r, hs, ht, hr⟩ := hm
  cases r with
  | ok a =>
    obtain ⟨n', r', hs', ht', hr'⟩ := hk a hr
    exact ⟨n + n', r', hs.bind hs', ht.bind ht', hr'⟩
  | error e => exact ⟨n, .error e, hs.bind_error, ht.bind_error, hr⟩

theorem Alike.within {scope : Entries Value} (hm : Alike (scope :: s) (scope :: t) Q m) :
    Alike s t Q (within scope m) := by
  obtain ⟨n, r, hs, ht, hr⟩ := hm
  exact ⟨n, r, hs.within, ht.within, hr⟩

theorem Alike.after_tick (hm : Alike s t Q m) : Alike s t Q (tick >>= fun _ ↦ m) := by
  obtain ⟨n, r, hs, ht, hr⟩ := hm
  exact ⟨n + 1, r, hs.after_tick, ht.after_tick, hr⟩

theorem alike_inspect {f : Interpreter → α} (h : ∀ i j, i.scopes = s → j.scopes = t → f i = f j) :
    Alike s t (fun _ ↦ True) (inspect f) := by
  refine ⟨0, .ok (f ⟨0, 0, t⟩), takes_inspect fun i hi ↦ h i _ hi rfl, takes_inspect fun j hj ↦ ?_, trivial⟩
  rw [← h ⟨0, 0, s⟩ j rfl hj, h ⟨0, 0, s⟩ ⟨0, 0, t⟩ rfl rfl]

end Evaluation

end TemplatedForms
