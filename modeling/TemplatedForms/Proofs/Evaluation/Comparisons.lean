import TemplatedForms.Proofs.Evaluation.History
import TemplatedForms.Proofs.Evaluation.Sorting

namespace TemplatedForms

open Evaluation

variable {α β : Type} {s : List (Entries Value)}

/-- The calls that a routine makes from a state, each with its arguments and what comes of it. There are none
after one that fails. -/
def Routine.trace : Routine Function α → Interpreter → List (List Value × Except EvalError Value)
  | .done _, _ | .fail _, _ => []
  | .call f args next, i =>
    match f args i with
    | (.ok v, i) => (args, .ok v) :: (next v).trace i
    | (.error e, _) => [(args, .error e)]

/-- A function may answer a call in some scopes with a value. -/
def Function.Answers (f : Function) (scopes : List (Entries Value)) (args : List Value) (v : Value) : Prop :=
  ∃ i j, i.scopes = scopes ∧ f args i = (.ok v, j)

/-- A comparison puts a value after another one: called with the two in some scopes, it answers with a
positive number. -/
def Function.PutsAfter (f : Function) (scopes : List (Entries Value)) (a b : Value) : Prop :=
  ∃ w, f.Answers scopes [a, b] w ∧ 0 < w.toNumber

/-- A routine makes only certain calls. Whatever they answer in some scopes, it does not fail by itself, and
its value has a property. -/
def Routine.Asks (scopes : List (Entries Value)) (A : Function → List Value → Prop) (Q : α → Prop) :
    Routine Function α → Prop
  | .done a => Q a
  | .fail _ => False
  | .call f args next => A f args ∧ ∀ v, f.Answers scopes args v → (next v).Asks scopes A Q

namespace Routine

variable {A : Function → List Value → Prop} {Q : α → Prop} {R : β → Prop}

theorem asks_bind (r : Routine Function α) (k : α → Routine Function β) :
    Asks s A R (r >>= k) ↔ Asks s A (fun a ↦ Asks s A R (k a)) r := by
  induction r with
  | done a => rfl
  | fail e => rfl
  | call f args next ih =>
    exact and_congr_right fun _ ↦ forall_congr' fun v ↦ imp_congr_right fun _ ↦ ih v

theorem asks_map (g : α → β) (r : Routine Function α) :
    Asks s A R (g <$> r) ↔ Asks s A (fun a ↦ R (g a)) r := asks_bind r _

theorem Asks.mono {r : Routine Function α} {Q' : α → Prop} (h : r.Asks s A Q) (hQ : ∀ a, Q a → Q' a) :
    r.Asks s A Q' := by
  induction r with
  | done a => exact hQ a h
  | fail e => exact h
  | call f args next ih => exact ⟨h.1, fun v hv ↦ ih v (h.2 v hv)⟩

theorem Asks.run {r : Routine Function α} (h : r.Asks s A Q)
    (hkeep : ∀ f args, A f args → ∀ i : Interpreter, (f args i).2.scopes = i.scopes) (i : Interpreter)
    (hi : i.scopes = s) :
    (∀ c ∈ r.trace i, ∃ f, A f c.1) ∧
      (((∀ c ∈ r.trace i, ∃ v, c.2 = .ok v) ∧ ∃ a, (ofRoutine r i).1 = .ok a ∧ Q a) ∨
        ∃ before args e, r.trace i = before ++ [(args, .error e)] ∧ (∀ c ∈ before, ∃ v, c.2 = .ok v) ∧
          (ofRoutine r i).1 = .error e) := by
  induction r generalizing i with
  | done a => exact ⟨List.forall_mem_nil _, .inl ⟨List.forall_mem_nil _, a, rfl, h⟩⟩
  | fail e => exact h.elim
  | call f args next ih =>
    rw [ofRoutine_call, bind_apply, trace]
    have hscopes := hkeep f args h.1 i
    rcases hcall : f args i with ⟨e | v, j⟩
    · exact ⟨List.forall_mem_singleton.mpr ⟨f, h.1⟩, .inr ⟨[], args, e, rfl, List.forall_mem_nil _, rfl⟩⟩
    · rw [hcall] at hscopes
      obtain ⟨hasked, hend⟩ := ih v (h.2 v ⟨i, j, hi, hcall⟩) j (hscopes.trans hi)
      refine ⟨List.forall_mem_cons.mpr ⟨⟨f, h.1⟩, hasked⟩, ?_⟩
      rcases hend with ⟨hall, hvalue⟩ | ⟨before, args', e, htrace, hbefore, hresult⟩
      · exact .inl ⟨List.forall_mem_cons.mpr ⟨⟨v, rfl⟩, hall⟩, hvalue⟩
      · refine .inr ⟨(args, .ok v) :: before, args', e, ?_, ?_, hresult⟩
        · exact congrArg ((args, .ok v) :: ·) htrace
        · exact List.forall_mem_cons.mpr ⟨⟨v, rfl⟩, hbefore⟩

end Routine

theorem eq_ok_of_takes {m : Evaluation α} {n : Nat} {r : Except EvalError α} (htakes : Takes m s n r)
    (hresumes : ∀ i, m.Resumes i) {i j : Interpreter} (hi : i.scopes = s) {a : α} (h : m i = (.ok a, j)) :
    r = .ok a := by
  have hrun := hresumes i
  rw [Resumes, h, hi] at hrun
  rw [htakes _ 0 (Nat.zero_le _)] at hrun
  have hresult := congrArg Prod.fst hrun
  split at hresult
  · cases r with
    | ok a' => cases hresult; rfl
    | error e => cases hresult
  · cases hresult

theorem answers_unique {params : List String} {body : Expr} {args : List Value} {v w : Value}
    (hv : Function.Answers (invoke params (eval body)) s args v)
    (hw : Function.Answers (invoke params (eval body)) s args w) : v = w := by
  obtain ⟨n, r, htakes, -⟩ := metered_invoke params body args s
  obtain ⟨i, i', hi, hrun⟩ := hv
  obtain ⟨j, j', hj, hrun'⟩ := hw
  have hresumes := invoke_resumes params body args
  exact Except.ok.inj ((eq_ok_of_takes htakes hresumes hi hrun).symm.trans
    (eq_ok_of_takes htakes hresumes hj hrun'))

theorem putsAfter_iff {params : List String} {body : Expr} {a b w : Value}
    (hw : Function.Answers (invoke params (eval body)) s [a, b] w) :
    Function.PutsAfter (invoke params (eval body)) s a b ↔ 0 < w.toNumber := by
  refine ⟨fun ⟨w', hw', hpositive⟩ ↦ ?_, fun hpositive ↦ ⟨w, hw, hpositive⟩⟩
  exact answers_unique hw' hw ▸ hpositive

namespace ListMethod

def Comparison (f : Function) (items : List Value) (g : Function) (args : List Value) : Prop :=
  g = f ∧ ∃ a ∈ items, ∃ b ∈ items, args = [a, b]

variable {f : Function} {after : Value → Value → Bool} {items : List Value}
  (hafter : ∀ a b w, f.Answers s [a, b] w → (0 < w.toNumber ↔ after a b = true))

include hafter

theorem asks_insertWith {item : Value} (hitem : item ∈ items) (passed : List Value) {vs : List Value}
    (hvs : vs ⊆ items) :
    (insertWith f item passed vs).Asks s (Comparison f items) (· = insertBy after item passed vs) := by
  induction vs generalizing passed with
  | nil => rfl
  | cons v vs ih =>
    obtain ⟨hv, hrest⟩ := List.cons_subset.mp hvs
    refine ⟨⟨rfl, v, hv, item, hitem, rfl⟩, fun w hw ↦ ?_⟩
    change Routine.Asks s _ _ (if 0 < w.toNumber then insertWith f item (v :: passed) vs
      else pure (passed.reverse ++ item :: v :: vs))
    rw [insertBy]
    by_cases hpositive : 0 < w.toNumber
    · rw [if_pos hpositive, if_pos ((hafter v item w hw).mp hpositive)]
      exact ih (v :: passed) hrest
    · rw [if_neg hpositive, if_neg (mt (hafter v item w hw).mpr hpositive)]
      rfl

theorem asks_sortWith {sorted vs : List Value} (hsorted : sorted ⊆ items) (hvs : vs ⊆ items) :
    (sortWith f sorted vs).Asks s (Comparison f items) (· = sortOnto after sorted vs) := by
  induction vs generalizing sorted with
  | nil => rfl
  | cons v vs ih =>
    obtain ⟨hv, hrest⟩ := List.cons_subset.mp hvs
    rw [sortWith, Routine.asks_bind]
    refine (asks_insertWith hafter hv [] hsorted).mono ?_
    rintro inserted rfl
    refine ih (fun w hw ↦ ?_) hrest
    rcases List.mem_cons.mp ((perm_insertBy after v sorted).mem_iff.mp hw) with rfl | hw
    · exact hv
    · exact hsorted hw

end ListMethod

open ListMethod

/-- Without a comparison, an array is sorted by the texts of its items, undefined ones last, and that is a total
preorder. With an arrow function, the sort calls it with two items at a time. Either all calls are answered,
and the result has the same items, those which the function puts after none of each other in the order that
they had, and none before an item that it puts after it, if what the function puts after what is a total
preorder; or a call fails, and the sort ends there with its error. -/
theorem sort_is_stable (items : List Value) :
    ((callMethod (φ := Function) (.array items) "sort" [] = .done (.array (sort items)) ∧
        ∀ rest, callMethod (φ := Function) (.array items) "sort" (.value .undefined :: rest) =
          .done (.array (sort items))) ∧
      TotalPreorderOn Value.LaterByText items ∧ StablySorted Value.LaterByText items (sort items)) ∧
    ∀ params body rest (i : Interpreter),
      let f := invoke params (eval body)
      let sorting := callMethod (.array items) "sort" (.function f :: rest)
      (∀ c ∈ sorting.trace i, ∃ a ∈ items, ∃ b ∈ items, c.1 = [a, b]) ∧
      (((∀ c ∈ sorting.trace i, ∃ w, c.2 = .ok w) ∧
          ∃ sorted, (ofRoutine sorting i).1 = .ok (.array sorted) ∧
            StablySorted (Function.PutsAfter f i.scopes) items sorted) ∨
        ∃ before args e, sorting.trace i = before ++ [(args, .error e)] ∧ (∀ c ∈ before, ∃ w, c.2 = .ok w) ∧
          (ofRoutine sorting i).1 = .error e) := by
  constructor
  · refine ⟨⟨rfl, fun rest ↦ rfl⟩, Value.laterByText_totalPreorderOn items, ?_⟩
    have hsorted := sortOnto_stablySorted (fun a b ↦ Value.defaultOrder a b == .gt) items
    simp only [beq_iff_eq, Value.defaultOrder_eq_gt_iff] at hsorted
    exact hsorted
  · intro params body rest i f sorting
    classical
    let after (a b : Value) : Bool := decide (Function.PutsAfter f i.scopes a b)
    have hafter (a b w : Value) (hw : Function.Answers f i.scopes [a, b] w) :
        0 < w.toNumber ↔ after a b = true := by
      rw [decide_eq_true_iff, putsAfter_iff hw]
    have hasks : sorting.Asks i.scopes (Comparison f items) (· = .array (sortOnto after [] items)) := by
      change Routine.Asks _ _ _ (Value.array <$> sortWith f [] items)
      rw [Routine.asks_map]
      exact (asks_sortWith hafter (List.nil_subset _) (List.Subset.refl _)).mono fun vs h ↦ congrArg _ h
    have hkeep (g : Function) (args : List Value) (hg : Comparison f items g args) (j : Interpreter) :
        (g args j).2.scopes = j.scopes := by
      rw [hg.1]
      exact congrArg (fun run ↦ run.2.scopes) (invoke_resumes params body args j)
    obtain ⟨hcalls, hend⟩ := hasks.run hkeep i rfl
    refine ⟨fun c hc ↦ ?_, hend.imp_left fun ⟨hall, v, hresult, hv⟩ ↦ ⟨hall, sortOnto after [] items, ?_, ?_⟩⟩
    · obtain ⟨g, -, hc⟩ := hcalls c hc
      exact hc
    · rw [hresult, hv]
    · simpa only [after, decide_eq_true_iff] using sortOnto_stablySorted after items

/-- Two letters are sorted by `(x, y) => x > y`. -/
theorem sort_is_stable_two_letters :
    let f := invoke ["x", "y"] (eval (.binary .gt (.name "x") (.name "y")))
    let items : List Value := [.string "b", .string "a"]
    let sorted : List Value := [.string "a", .string "b"]
    TotalPreorderOn (Function.PutsAfter f []) items ∧
      (ofRoutine (callMethod (.array items) "sort" [.function f]) (Interpreter.new 9)).1 = .ok (.array sorted) ∧
      StablySorted (Function.PutsAfter f []) items sorted ∧
      sorted.Pairwise fun a b ↦ ¬Function.PutsAfter f [] a b := by
  intro f items sorted
  have hpositive : (0 : Float) < (Value.bool true).toNumber := by decide
  have hzero : ¬(0 : Float) < (Value.bool false).toNumber := by decide
  have haa : ¬Function.PutsAfter f [] (.string "a") (.string "a") :=
    mt (putsAfter_iff ⟨Interpreter.new 9, _, rfl, rfl⟩).mp hzero
  have hab : ¬Function.PutsAfter f [] (.string "a") (.string "b") :=
    mt (putsAfter_iff ⟨Interpreter.new 9, _, rfl, rfl⟩).mp hzero
  have hbb : ¬Function.PutsAfter f [] (.string "b") (.string "b") :=
    mt (putsAfter_iff ⟨Interpreter.new 9, _, rfl, rfl⟩).mp hzero
  have hba : Function.PutsAfter f [] (.string "b") (.string "a") :=
    (putsAfter_iff ⟨Interpreter.new 9, _, rfl, rfl⟩).mpr hpositive
  have htotal : TotalPreorderOn (Function.PutsAfter f []) items :=
    ⟨by simp [items, haa, hab, hbb], by simp [items, haa, hab, hbb, hba]⟩
  have hrun : (ofRoutine (callMethod (.array items) "sort" [.function f]) (Interpreter.new 9)).1 =
      .ok (.array sorted) := by
    change (ofRoutine (.call f [.string "b", .string "a"] _) (Interpreter.new 9)).1 = _
    rw [ofRoutine_call, bind_apply]
    rfl
  obtain ⟨-, ⟨-, vs, hvs, hstable⟩ | ⟨_, _, e, -, -, hfails⟩⟩ :=
    (sort_is_stable items).2 ["x", "y"] (.binary .gt (.name "x") (.name "y")) [] (Interpreter.new 9)
  · cases hrun.symm.trans hvs
    exact ⟨htotal, hrun, hstable, hstable.ordered htotal⟩
  · cases hrun.symm.trans hfails

end TemplatedForms
