import TemplatedForms.Proofs.Evaluation.History

namespace TemplatedForms

open Evaluation

variable {s t : List (Entries Value)}

theorem Evaluation.Alike.same_end {α : Type} {Q : α → Prop} {m : Evaluation α} (h : Alike s t Q m)
    (hresumes : ∀ i, m.Resumes i) (limit steps : Nat) :
    ∃ r n, m ⟨limit, steps, s⟩ = (r, ⟨limit, n, s⟩) ∧ m ⟨limit, steps, t⟩ = (r, ⟨limit, n, t⟩) := by
  obtain ⟨n, r, hs, ht, -⟩ := h
  have hfresh := hs (limit - steps) 0 (Nat.zero_le _)
  have hfresh' := ht (limit - steps) 0 (Nat.zero_le _)
  rw [hresumes ⟨limit, steps, s⟩, hresumes ⟨limit, steps, t⟩]
  dsimp only
  rw [hfresh, hfresh']
  split <;> exact ⟨_, _, rfl, rfl⟩

theorem get?_bindParams {params : List String} {k : Nat} (hk : k < params.length)
    (hlast : params[k] ∉ params.drop (k + 1)) (args : List Value) :
    (Entries.ofPairs (bindParams params args)).get? params[k] = some (args.getD k .undefined) := by
  rw [Entries.get?_ofPairs]
  induction params generalizing k args with
  | nil => cases hk
  | cons p ps ih =>
    have hcons : bindParams (p :: ps) args = (p, args.headD .undefined) :: bindParams ps args.tail := by
      cases args <;> rfl
    rw [hcons, List.reverse_cons, Entries.get?_append]
    cases k with
    | zero =>
      have hnone : Entries.get? p (bindParams ps args.tail).reverse = none := by
        rw [Entries.get?_eq_none_iff, Entries.keys, List.map_reverse, List.mem_reverse, keys_bindParams]
        exact hlast
      rw [List.getElem_cons_zero, hnone, Option.none_or, Entries.get?_cons, if_pos rfl]
      cases args <;> rfl
    | succ k =>
      have hrest := ih (Nat.lt_of_succ_lt_succ hk) hlast args.tail
      rw [List.getElem_cons_succ, hrest, Option.some_or]
      cases args <;> simp

theorem invoke_apply (params : List String) (body : Expr) (args : List Value) (limit steps : Nat)
    (s : List (Entries Value)) :
    invoke params (eval body) args ⟨limit, steps, s⟩ =
      if steps + 1 ≤ limit then
        let (r, i) := eval body ⟨limit, steps + 1, Entries.ofPairs (bindParams params args) :: s⟩
        (r, ⟨limit, i.steps, s⟩)
      else (.error (.stepLimit limit), ⟨limit, steps + 1, s⟩) := by
  rw [invoke, bind_apply, tick]
  dsimp only
  by_cases hsteps : steps + 1 ≤ limit
  · rw [if_pos hsteps, if_pos hsteps]
    dsimp only [within]
    rw [eval_resumes body]
    rfl
  · rw [if_neg hsteps, if_neg hsteps]

/-- In two stacks of scopes that bind the free names of an expression alike, the expression comes to the same
value or error after the same number of steps, and leaves the scopes as they were. The same holds of a call
of an arrow function, whose parameters are none of its free names: they hide whatever has their names around
the function, be it a parameter, a namespace or a global function, and only while its body is evaluated. -/
theorem scopes_count_by_free_names (limit steps : Nat) (s t : List (Entries Value)) :
    (∀ e : Expr, BindAlike e.freeNames s t →
      ∃ r n, eval e ⟨limit, steps, s⟩ = (r, ⟨limit, n, s⟩) ∧ eval e ⟨limit, steps, t⟩ = (r, ⟨limit, n, t⟩)) ∧
    ∀ params body args,
      let inner := Entries.ofPairs (bindParams params args) :: s
      (BindAlike (Expr.arrow params body).freeNames s t →
        ∃ r n, invoke params (eval body) args ⟨limit, steps, s⟩ = (r, ⟨limit, n, s⟩) ∧
          invoke params (eval body) args ⟨limit, steps, t⟩ = (r, ⟨limit, n, t⟩)) ∧
      (invoke params (eval body) args ⟨limit, steps, s⟩ =
        if steps + 1 ≤ limit then
          let (r, i) := eval body ⟨limit, steps + 1, inner⟩
          (r, ⟨limit, i.steps, s⟩)
        else (.error (.stepLimit limit), ⟨limit, steps + 1, s⟩)) ∧
      (∀ k (hk : k < params.length), params[k] ∉ params.drop (k + 1) →
        boundTo inner params[k] = some (args.getD k .undefined)) ∧
      (∀ name ∈ params, (⟨limit, steps, inner⟩ : Interpreter).isBound name = true) ∧
      ∀ name ∉ params, boundTo inner name = boundTo s name := by
  refine ⟨fun e h ↦ (alike_eval e h).same_end (eval_resumes e) limit steps, fun params body args ↦ ?_⟩
  intro inner
  refine ⟨fun h ↦ ?_, invoke_apply params body args limit steps s, fun k hk hlast ↦ ?_, fun name hname ↦ ?_,
    fun name hname ↦ boundTo_of_notMem hname args s⟩
  · have hcall := alike_invoke (alike_eval body (h.within args))
    exact hcall.same_end (invoke_resumes params body args) limit steps
  · exact (boundTo_of_mem (List.getElem_mem hk) args s).trans (get?_bindParams hk hlast args)
  · rw [isBound_eq, boundTo_of_mem hname args s]
    exact isSome_get?_bindParams.mpr hname

/-- The program `['b'].map(x => x + y)`, around which `x` stands for something in one stack of scopes and for
nothing in the other. -/
theorem scopes_count_by_free_names_hidden_name :
    let body := Expr.binary .add (.name "x") (.name "y")
    let e := Expr.call (.member (.array [.literal (.string "b")]) "map") [.arrow ["x"] body]
    let s : List (Entries Value) := [[("x", .string "a")], [("y", .string "c")]]
    let t : List (Entries Value) := [[("y", .string "c")]]
    boundTo s "x" ≠ boundTo t "x" ∧
      (BindAlike e.freeNames s t ∧
        ∃ r n, eval e ⟨9, 0, s⟩ = (r, ⟨9, n, s⟩) ∧ eval e ⟨9, 0, t⟩ = (r, ⟨9, n, t⟩)) ∧
      (BindAlike (Expr.arrow ["x"] body).freeNames s t ∧
        ∃ r n, invoke ["x"] (eval body) [.string "b"] ⟨9, 0, s⟩ = (r, ⟨9, n, s⟩) ∧
          invoke ["x"] (eval body) [.string "b"] ⟨9, 0, t⟩ = (r, ⟨9, n, t⟩)) ∧
      boundTo (Entries.ofPairs (bindParams ["x"] [.string "b"]) :: s) "x" = some (.string "b") := by
  intro body e s t
  have harrow : BindAlike (Expr.arrow ["x"] body).freeNames s t := by
    intro name hname
    obtain rfl : name = "y" := by simpa [body, Expr.freeNames] using hname
    rfl
  have he : BindAlike e.freeNames s t := by
    simpa [e, Expr.freeNames, Expr.freeNamesOfAll] using harrow
  obtain ⟨heval, hinvoke⟩ := scopes_count_by_free_names 9 0 s t
  obtain ⟨hcall, -, hparam, -⟩ := hinvoke ["x"] body [.string "b"]
  refine ⟨nofun, ⟨he, heval e he⟩, ⟨harrow, hcall harrow⟩, ?_⟩
  exact hparam 0 (by decide) (by decide)

end TemplatedForms
