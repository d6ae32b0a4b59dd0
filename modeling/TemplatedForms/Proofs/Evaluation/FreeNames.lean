import TemplatedForms.Proofs.Entries
import TemplatedForms.Proofs.Evaluation.Methods

namespace TemplatedForms

open Evaluation

namespace Expr

mutual

/-- The names in an expression that are no parameters of an arrow function around them. -/
def freeNames : Expr → List String
  | .literal _ => []
  | .name s => [s]
  | .array items => freeNamesOfAll items
  | .object members => freeNamesOfMembers members
  | .member target _ => freeNames target
  | .index target key => freeNames target ++ freeNames key
  | .call callee args => freeNames callee ++ freeNamesOfAll args
  | .unary _ operand => freeNames operand
  | .binary _ left right => freeNames left ++ freeNames right
  | .logical _ left right => freeNames left ++ freeNames right
  | .conditional test consequent alternate =>
    freeNames test ++ freeNames consequent ++ freeNames alternate
  | .arrow params body => (freeNames body).filter (· ∉ params)

def freeNamesOfAll : List Expr → List String
  | [] => []
  | e :: es => freeNames e ++ freeNamesOfAll es

def freeNamesOfMembers : List (String × Expr) → List String
  | [] => []
  | (_, e) :: ms => freeNames e ++ freeNamesOfMembers ms

end

end Expr

/-- The value that a stack of scopes gives a name: that of the innermost scope that has the name. -/
def boundTo (scopes : List (Entries Value)) (name : String) : Option Value :=
  scopes.findSome? fun scope ↦ scope.get? name

/-- Two stacks of scopes give each of some names the same value, or both give it none. -/
def BindAlike (names : List String) (s t : List (Entries Value)) : Prop :=
  ∀ name ∈ names, boundTo s name = boundTo t name

variable {s t : List (Entries Value)} {names names' : List String}

theorem bindAlike_append : BindAlike (names ++ names') s t ↔ BindAlike names s t ∧ BindAlike names' s t :=
  List.forall_mem_append

theorem bindAlike_refl (names : List String) (s : List (Entries Value)) : BindAlike names s s :=
  fun _ _ ↦ rfl

theorem boundTo_cons (scope : Entries Value) (s : List (Entries Value)) (name : String) :
    boundTo (scope :: s) name = (scope.get? name).or (boundTo s name) := by
  rw [boundTo, List.findSome?_cons]
  cases scope.get? name <;> rfl

theorem isBound_eq (i : Interpreter) (name : String) : i.isBound name = (boundTo i.scopes name).isSome := by
  rw [Interpreter.isBound]
  induction i.scopes with
  | nil => rfl
  | cons scope scopes ih =>
    rw [List.any_cons, ih, boundTo_cons, Entries.contains_eq_isSome, Option.isSome_or]

theorem keys_bindParams (params : List String) (args : List Value) :
    (bindParams params args).map (·.1) = params := by
  induction params generalizing args with
  | nil => rfl
  | cons p ps ih =>
    cases args with
    | nil => exact congrArg (p :: ·) (ih [])
    | cons v vs => exact congrArg (p :: ·) (ih vs)

theorem isSome_get?_bindParams {params : List String} {args : List Value} {name : String} :
    ((Entries.ofPairs (bindParams params args)).get? name).isSome = true ↔ name ∈ params := by
  rw [Entries.get?_ofPairs, ← Entries.contains_eq_isSome, Entries.contains_iff, Entries.keys, List.map_reverse,
    List.mem_reverse, keys_bindParams]

theorem boundTo_of_notMem {params : List String} {name : String} (h : name ∉ params) (args : List Value)
    (s : List (Entries Value)) :
    boundTo (Entries.ofPairs (bindParams params args) :: s) name = boundTo s name := by
  have hnone : (Entries.ofPairs (bindParams params args)).get? name = none :=
    Option.not_isSome_iff_eq_none.mp (mt isSome_get?_bindParams.mp h)
  rw [boundTo_cons, hnone, Option.none_or]

theorem boundTo_of_mem {params : List String} {name : String} (h : name ∈ params) (args : List Value)
    (s : List (Entries Value)) :
    boundTo (Entries.ofPairs (bindParams params args) :: s) name =
      (Entries.ofPairs (bindParams params args)).get? name := by
  rw [boundTo_cons, Option.or_of_isSome (isSome_get?_bindParams.mpr h)]

theorem BindAlike.within {params : List String} {body : Expr}
    (h : BindAlike (Expr.arrow params body).freeNames s t) (args : List Value) :
    BindAlike body.freeNames (Entries.ofPairs (bindParams params args) :: s)
      (Entries.ofPairs (bindParams params args) :: t) := by
  intro name hname
  by_cases hparam : name ∈ params
  · rw [boundTo_of_mem hparam, boundTo_of_mem hparam]
  · rw [boundTo_of_notMem hparam, boundTo_of_notMem hparam]
    refine h name ?_
    rw [Expr.freeNames]
    exact List.mem_filter.mpr ⟨hname, decide_eq_true hparam⟩

section

variable {i j : Interpreter}

theorem isBound_congr {name : String} (h : boundTo i.scopes name = boundTo j.scopes name) :
    i.isBound name = j.isBound name := by
  rw [isBound_eq, isBound_eq, h]

theorem lookup?_congr {name : String} (h : boundTo i.scopes name = boundTo j.scopes name) :
    i.lookup? name = j.lookup? name := by
  unfold boundTo at h
  simp only [Interpreter.lookup?, h]

theorem namespaceOf?_congr {e : Expr} (h : BindAlike e.freeNames i.scopes j.scopes) :
    namespaceOf? e i = namespaceOf? e j := by
  unfold namespaceOf?
  split
  · next name => rw [isBound_congr (h name (by simp [Expr.freeNames]))]
  · rfl

theorem isUnresolvable_congr {e : Expr} (h : BindAlike e.freeNames i.scopes j.scopes) :
    isUnresolvable e i = isUnresolvable e j := by
  unfold isUnresolvable
  split
  · next name => rw [lookup?_congr (h name (by simp [Expr.freeNames]))]
  · rfl

end

theorem alike_lookup {name : String} (h : boundTo s name = boundTo t name) :
    Alike s t (fun _ ↦ True) (lookup name) := by
  have hlookup : lookup name =
      inspect (·.lookup? name) >>= fun v? ↦ v?.elim (fail (.undefinedVariable name)) pure := by
    funext i
    rw [bind_apply, lookup, inspect]
    cases i.lookup? name <;> rfl
  have hinspect : Alike s t (fun _ ↦ True) (inspect (·.lookup? name)) := by
    refine alike_inspect fun i j hi hj ↦ lookup?_congr ?_
    rwa [hi, hj]
  rw [hlookup]
  refine hinspect.bind fun v? _ ↦ ?_
  cases v? with
  | none => exact alike_fail (by simp)
  | some v => exact alike_pure trivial

/-- A function that does the same in both stacks of scopes, whatever its arguments. -/
def Function.IsAlike (s t : List (Entries Value)) (f : Function) : Prop :=
  ∀ args, Alike s t (fun _ ↦ True) (f args)

def AlikeArgs (s t : List (Entries Value)) (args : List (Arg Function)) : Prop :=
  ∀ f, .function f ∈ args → f.IsAlike s t

theorem alike_ofRoutine {r : Routine Function Value} (h : r.Calls (Function.IsAlike s t) fun _ ↦ True) :
    Alike s t (fun _ ↦ True) (ofRoutine r) := by
  induction r with
  | done v => exact alike_pure trivial
  | fail e => exact alike_fail h
  | call f args next ih =>
    rw [ofRoutine_call]
    exact (h.1 args).bind fun v _ ↦ ih v (h.2 v)

theorem alike_invoke {params : List String} {body : Evaluation Value} {args : List Value}
    (h : Alike (Entries.ofPairs (bindParams params args) :: s) (Entries.ofPairs (bindParams params args) :: t)
      (fun _ ↦ True) body) :
    Alike s t (fun _ ↦ True) (invoke params body args) :=
  h.within.after_tick

theorem finishes_property (v : Value) (name : String) : Finishes (fun _ ↦ True) (v.property name) := by
  unfold Value.property
  split <;> simp

theorem finishes_index (v key : Value) : Finishes (fun _ ↦ True) (v.index key) := by
  unfold Value.index
  dsimp only
  split
  · trivial
  · trivial
  · exact finishes_property v _

theorem finishes_boundedText (v : Value) : Finishes (fun _ ↦ True) (boundedText v) := by
  unfold boundedText
  split <;> simp

/-- What is neither a name nor a property is evaluated before it is found not to be a function. -/
theorem eval_call {callee : Expr} (hm : ∀ target property, callee ≠ .member target property)
    (hn : ∀ s, callee ≠ .name s) (args : List Expr) :
    eval (.call callee args) = tick >>= fun _ ↦ eval callee >>= fun v ↦ fail (.notCallable v.display) := by
  rw [eval]
  · exact hm
  · exact hn

theorem evalArgs_cons {e : Expr} (h : ∀ params body, e ≠ .arrow params body) (es : List Expr) :
    evalArgs (e :: es) = eval e >>= fun v ↦ evalArgs es >>= fun args ↦ pure (.value v :: args) := by
  rw [evalArgs]
  exact h

-- the stacks vary in the induction: the body of an arrow function is evaluated in longer ones
mutual

theorem alike_eval : (e : Expr) → {s t : List (Entries Value)} → BindAlike e.freeNames s t →
    Alike s t (fun _ ↦ True) (eval e)
  | .literal l, _, _, _ => by
    rw [eval]
    exact (alike_pure trivial).after_tick
  | .name name, _, _, h => by
    rw [eval]
    exact (alike_lookup (h name (by simp [Expr.freeNames]))).after_tick
  | .array items, _, _, h => by
    rw [Expr.freeNames] at h
    rw [eval]
    exact ((alike_evalAll items h).bind fun _ _ ↦ alike_pure trivial).after_tick
  | .object members, _, _, h => by
    rw [Expr.freeNames] at h
    rw [eval]
    exact ((alike_evalMembers members h).bind fun _ _ ↦ alike_pure trivial).after_tick
  | .member target property, _, _, h => by
    rw [Expr.freeNames] at h
    rw [eval]
    exact ((alike_eval target h).bind fun v _ ↦ alike_lift (finishes_property v property)).after_tick
  | .index target key, _, _, h => by
    rw [Expr.freeNames, bindAlike_append] at h
    rw [eval]
    refine ((alike_eval target h.1).bind fun v _ ↦ ?_).after_tick
    exact (alike_eval key h.2).bind fun k _ ↦ alike_lift (finishes_index v k)
  | .call callee args, s, t, h => by
    rw [Expr.freeNames, bindAlike_append] at h
    obtain ⟨hnames, hitems⟩ := h
    have hcallee := alike_eval callee hnames
    have hargs := alike_evalArgs args hitems
    match callee with
    | .member target property =>
      rw [Expr.freeNames] at hnames
      have hspace : Alike s t (fun _ ↦ True) (inspect (namespaceOf? target)) := by
        refine alike_inspect fun i j hi hj ↦ namespaceOf?_congr ?_
        rwa [hi, hj]
      rw [eval]
      refine (hspace.bind fun space _ ↦ ?_).after_tick
      split
      · exact hargs.bind fun args _ ↦ alike_lift (finishes_callGlobal _ _ args)
      · refine (alike_eval target hnames).bind fun v _ ↦ ?_
        exact hargs.bind fun args hfunctions ↦ alike_ofRoutine (calls_callMethod v property hfunctions)
    | .name name =>
      have hname : boundTo s name = boundTo t name := hnames name (by simp [Expr.freeNames])
      have hglobal : Alike s t (fun _ ↦ True) (inspect fun i ↦ !i.isBound name && isGlobalFunction name) := by
        refine alike_inspect fun i j hi hj ↦ ?_
        rw [isBound_congr (i := i) (j := j) (by rwa [hi, hj])]
      rw [eval]
      refine (hglobal.bind fun global _ ↦ ?_).after_tick
      split
      · exact hargs.bind fun args _ ↦ alike_lift (finishes_callGlobalFunction _ args)
      · exact (alike_lookup hname).bind fun _ _ ↦ alike_fail nofun
    | .literal _ | .array _ | .object _ | .index _ _ | .call _ _ | .unary _ _ | .binary _ _ _
    | .logical _ _ _ | .conditional _ _ _ | .arrow _ _ =>
      rw [eval_call (by simp) (by simp)]
      refine (hcallee.bind fun v _ ↦ ?_).after_tick
      exact alike_fail nofun
  | .unary op operand, s, t, h => by
    rw [Expr.freeNames] at h
    have hunresolvable :
        Alike s t (fun _ ↦ True) (inspect fun i ↦ op = .typeOf && isUnresolvable operand i) := by
      refine alike_inspect fun i j hi hj ↦ ?_
      rw [isUnresolvable_congr (i := i) (j := j) (by rwa [hi, hj])]
    rw [eval]
    refine (hunresolvable.bind fun unresolvable _ ↦ ?_).after_tick
    split
    · exact alike_pure trivial
    · exact (alike_eval operand h).bind fun _ _ ↦ alike_pure trivial
  | .binary op left right, _, _, h => by
    rw [Expr.freeNames, bindAlike_append] at h
    rw [eval]
    refine ((alike_eval left h.1).bind fun a _ ↦ ?_).after_tick
    exact (alike_eval right h.2).bind fun b _ ↦ alike_lift (finishes_boundedText _)
  | .logical op left right, _, _, h => by
    rw [Expr.freeNames, bindAlike_append] at h
    rw [eval]
    refine ((alike_eval left h.1).bind fun a _ ↦ ?_).after_tick
    split
    · exact alike_pure trivial
    · exact alike_eval right h.2
  | .conditional test consequent alternate, _, _, h => by
    rw [Expr.freeNames, bindAlike_append, bindAlike_append] at h
    rw [eval]
    refine ((alike_eval test h.1.1).bind fun c _ ↦ ?_).after_tick
    split
    · exact alike_eval consequent h.1.2
    · exact alike_eval alternate h.2
  | .arrow _ _, _, _, _ => by
    rw [eval]
    exact Alike.after_tick (alike_fail nofun)

theorem alike_evalAll : (es : List Expr) → {s t : List (Entries Value)} →
    BindAlike (Expr.freeNamesOfAll es) s t → Alike s t (fun _ ↦ True) (evalAll es)
  | [], _, _, _ => alike_pure trivial
  | e :: es, _, _, h => by
    rw [Expr.freeNamesOfAll, bindAlike_append] at h
    rw [evalAll]
    refine (alike_eval e h.1).bind fun v _ ↦ ?_
    exact (alike_evalAll es h.2).bind fun _ _ ↦ alike_pure trivial

theorem alike_evalMembers : (ms : List (String × Expr)) → {s t : List (Entries Value)} →
    BindAlike (Expr.freeNamesOfMembers ms) s t → Alike s t (fun _ ↦ True) (evalMembers ms)
  | [], _, _, _ => alike_pure trivial
  | (key, e) :: ms, _, _, h => by
    rw [Expr.freeNamesOfMembers, bindAlike_append] at h
    rw [evalMembers]
    refine (alike_eval e h.1).bind fun v _ ↦ ?_
    exact (alike_evalMembers ms h.2).bind fun _ _ ↦ alike_pure trivial

theorem alike_evalArgs : (es : List Expr) → {s t : List (Entries Value)} →
    BindAlike (Expr.freeNamesOfAll es) s t → Alike s t (AlikeArgs s t) (evalArgs es)
  | [], _, _, _ => by
    rw [evalArgs]
    exact alike_pure fun f hf ↦ by cases hf
  | e :: es, s, t, h => by
    rw [Expr.freeNamesOfAll, bindAlike_append] at h
    have hes := alike_evalArgs es h.2
    match e with
    | .arrow params body =>
      have hbody (args : List Value) := alike_eval body (h.1.within args)
      rw [evalArgs]
      refine hes.bind fun args hargs ↦ alike_pure fun f hf ↦ ?_
      rcases List.mem_cons.mp hf with hf | hf
      · cases hf
        exact fun args ↦ alike_invoke (hbody args)
      · exact hargs f hf
    | .literal _ | .name _ | .array _ | .object _ | .member _ _ | .index _ _ | .call _ _ | .unary _ _
    | .binary _ _ _ | .logical _ _ _ | .conditional _ _ _ =>
      rw [evalArgs_cons (by simp)]
      refine (alike_eval _ h.1).bind fun v _ ↦ hes.bind fun args hargs ↦ alike_pure fun f hf ↦ ?_
      rcases List.mem_cons.mp hf with hf | hf
      · cases hf
      · exact hargs f hf

end

end TemplatedForms
