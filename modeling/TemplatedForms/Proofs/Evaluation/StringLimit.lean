import TemplatedForms.Proofs.Evaluation.Bounded
import TemplatedForms.Proofs.Evaluation.StepLimit
import TemplatedForms.Proofs.Entries

namespace TemplatedForms

open Evaluation

open Value (Bounded)

def Expr.calledName? : Expr → Option String
  | .name s | .member _ s => some s
  | _ => none

namespace Expr

mutual

/-- No string literal of an expression is too long, and no call is by one of some names. What is said about
the keys of objects is up to `K`. -/
def Modest (names : List String) (K : String → Prop) : Expr → Prop
  | .literal (.string s) => s.utf8ByteSize ≤ maxStringLength
  | .literal _ | .name _ => True
  | .array items => ModestItems names K items
  | .object members => ModestMembers names K members
  | .member target _ => target.Modest names K
  | .index target key => target.Modest names K ∧ key.Modest names K
  | .call callee args =>
    (∀ name ∈ callee.calledName?, name ∉ names) ∧ callee.Modest names K ∧ ModestItems names K args
  | .unary _ operand => operand.Modest names K
  | .binary _ left right | .logical _ left right => left.Modest names K ∧ right.Modest names K
  | .conditional test consequent alternate =>
    test.Modest names K ∧ consequent.Modest names K ∧ alternate.Modest names K
  | .arrow _ body => body.Modest names K

def ModestItems (names : List String) (K : String → Prop) : List Expr → Prop
  | [] => True
  | e :: es => e.Modest names K ∧ ModestItems names K es

def ModestMembers (names : List String) (K : String → Prop) : List (String × Expr) → Prop
  | [] => True
  | (key, e) :: ms => (K key ∧ e.Modest names K) ∧ ModestMembers names K ms

end

end Expr

variable {α β : Type} {K : String → Prop}

theorem bounded_literal {l : Literal} {names : List String} (h : (Expr.literal l).Modest names K) :
    l.value.Bounded K := by
  cases l with
  | string s => simpa [Literal.value, Expr.Modest] using h
  | null => simp [Literal.value, Bounded]
  | _ => simp [Literal.value]

namespace Value

theorem bounded_itemAt {v : Value} (h : v.Bounded K) (i : Nat) : (v.itemAt i).Bounded K := by
  cases v with
  | array items =>
    rw [itemAt, List.getD_eq_getElem?_getD]
    cases hi : items[i]? with
    | none => simp
    | some w => exact bounded_array.mp h w (List.mem_of_getElem? hi)
  | string s =>
    rw [itemAt]
    cases s.toList[i]? <;> simp
  | _ => simp [itemAt]

theorem gives_property {v : Value} (h : v.Bounded K) (name : String) :
    Gives (Bounded K) (v.property name) := by
  unfold property
  split
  · exact gives_error _
  · exact gives_error _
  · next members =>
    refine (gives_ok _).mpr ?_
    cases hfound : members.lookup name with
    | none => simp
    | some w =>
      obtain ⟨e, he, rfl⟩ := Entries.mem_of_get? hfound
      exact (bounded_object.mp h e he).2
  · simp
  · simp
  all_goals
    rw [gives_ok]
    split
    · simp
    · cases position? name with
      | none => simp
      | some i => exact bounded_itemAt h i

theorem gives_index {v : Value} (h : v.Bounded K) (key : Value) : Gives (Bounded K) (v.index key) := by
  unfold index
  dsimp only
  split
  case h_3 => exact gives_property h _
  all_goals
    rw [gives_ok]
    split
    · exact bounded_itemAt h _
    · simp

end Value

theorem BinaryOp.bounded_or_string (op : BinaryOp) (a b : Value) :
    (∃ s, op.apply a b = .string s) ∨ (op.apply a b).Bounded K := by
  cases op with
  | add =>
    simp only [apply, Value.add]
    split <;> simp
  | lt | le | gt | ge => exact .inr (by simp [apply, Value.ordered])
  | _ => exact .inr (by simp [apply])

theorem gives_boundedText (op : BinaryOp) (a b : Value) : Gives (Bounded K) (boundedText (op.apply a b)) := by
  rcases op.bounded_or_string (K := K) a b with ⟨s, hs⟩ | hb
  · rw [hs, boundedText, gives_bind, gives_checkLength]
    exact fun h ↦ (gives_pure _).mpr (Value.bounded_string.mpr h)
  · unfold boundedText
    split
    · next s hs =>
      rw [gives_bind, gives_checkLength]
      exact fun _ ↦ (gives_pure _).mpr hb
    · exact (gives_pure _).mpr hb

theorem bounded_unary (op : UnaryOp) (v : Value) : (op.apply v).Bounded K := by
  cases op with
  | typeOf =>
    have hlength : v.typeName.length ≤ 9 := by
      unfold Value.typeName
      split <;> decide
    exact Value.bounded_of_length hlength (by decide)
  | _ => simp [UnaryOp.apply]

def Interpreter.Bounded (K : String → Prop) (i : Interpreter) : Prop :=
  ∀ scope ∈ i.scopes, ∀ e ∈ scope, e.2.Bounded K

/-- Where all values in scope are bounded, they still are after a computation, and its value has a
property. -/
def Keeps (K : String → Prop) (Q : α → Prop) (m : Evaluation α) : Prop :=
  ∀ i : Interpreter, i.Bounded K → (m i).2.Bounded K ∧ Gives Q (m i).1

def Function.Keeps (K : String → Prop) (f : Function) : Prop :=
  ∀ args : List Value, (∀ v ∈ args, v.Bounded K) → TemplatedForms.Keeps K (Value.Bounded K) (f args)

section

variable {Q : α → Prop} {R : β → Prop}

theorem keeps_ofExcept {r : Except EvalError α} (h : Gives Q r) : Keeps K Q (ofExcept r) :=
  fun _ hi ↦ ⟨hi, h⟩

theorem keeps_pure {a : α} (h : Q a) : Keeps K Q (pure a) := keeps_ofExcept ((gives_ok a).mpr h)

theorem keeps_fail (e : EvalError) : Keeps K Q (fail e) := keeps_ofExcept (gives_error e)

theorem keeps_inspect (f : Interpreter → α) : Keeps K (fun _ ↦ True) (inspect f) :=
  fun _ hi ↦ ⟨hi, gives_true _⟩

theorem keeps_tick : Keeps K (fun _ ↦ True) tick := fun _ hi ↦ ⟨hi, gives_true _⟩

theorem Keeps.bind {m : Evaluation α} {k : α → Evaluation β} (hm : Keeps K Q m)
    (hk : ∀ a, Q a → Keeps K R (k a)) : Keeps K R (m >>= k) := by
  intro i hi
  obtain ⟨hscopes, hgives⟩ := hm i hi
  rw [bind_apply]
  rcases hrun : m i with ⟨e | a, i'⟩
  · rw [hrun] at hscopes
    exact ⟨hscopes, gives_error e⟩
  · rw [hrun] at hscopes hgives
    exact hk a ((gives_ok a).mp hgives) i' hscopes

theorem Keeps.within {m : Evaluation α} (hm : Keeps K Q m) {scope : Entries Value}
    (hscope : ∀ e ∈ scope, e.2.Bounded K) : Keeps K Q (within scope m) := by
  intro i hi
  have hinner : Interpreter.Bounded K { i with scopes := scope :: i.scopes } :=
    List.forall_mem_cons.mpr ⟨hscope, hi⟩
  obtain ⟨hscopes, hgives⟩ := hm _ hinner
  exact ⟨fun s hs ↦ hscopes s (List.mem_of_mem_tail hs), hgives⟩

theorem Keeps.after_tick {m : Evaluation α} (hm : Keeps K Q m) : Keeps K Q (tick >>= fun _ ↦ m) :=
  keeps_tick.bind fun _ _ ↦ hm

end

theorem keeps_ofRoutine {Q : α → Prop} {r : Routine Function α}
    (h : r.Yields (Value.Bounded K) (Function.Keeps K) Q) : Keeps K Q (ofRoutine r) := by
  induction r with
  | done a => exact keeps_pure h
  | fail e => exact keeps_fail e
  | call f args next ih =>
    rw [ofRoutine_call]
    exact (h.1 args h.2.1).bind fun v hv ↦ ih v (h.2.2 v hv)

theorem Interpreter.Bounded.lookup? {i : Interpreter} (hi : i.Bounded K) {name : String} {v : Value}
    (h : i.lookup? name = some v) : v.Bounded K := by
  unfold Interpreter.lookup? at h
  split at h
  · next w hw =>
    obtain ⟨scope, hscope, hfound⟩ := List.exists_of_findSome?_eq_some hw
    obtain ⟨e, he, rfl⟩ := Entries.mem_of_get? hfound
    exact Option.some.inj h ▸ hi scope hscope e he
  · split at h
    case h_3 => cases h
    all_goals exact Option.some.inj h ▸ Value.bounded_number _

theorem keeps_lookup (name : String) : Keeps K (Value.Bounded K) (lookup name) := by
  intro i hi
  rw [lookup]
  split
  · next v hv => exact ⟨hi, (gives_ok v).mpr (hi.lookup? hv)⟩
  · exact ⟨hi, gives_error _⟩

theorem bounded_bindParams (params : List String) {args : List Value} (h : ∀ v ∈ args, v.Bounded K) :
    ∀ e ∈ bindParams params args, e.2.Bounded K := by
  induction params generalizing args with
  | nil => simp [bindParams]
  | cons p ps ih =>
    cases args with
    | nil => exact List.forall_mem_cons.mpr ⟨Value.bounded_undefined, ih (List.forall_mem_nil _)⟩
    | cons v vs =>
      obtain ⟨hv, hvs⟩ := List.forall_mem_cons.mp h
      exact List.forall_mem_cons.mpr ⟨hv, ih hvs⟩

theorem Function.keeps_invoke (params : List String) {body : Evaluation Value}
    (h : TemplatedForms.Keeps K (Value.Bounded K) body) : Function.Keeps K (invoke params body) := by
  intro args hargs
  have hscope : ∀ e ∈ Entries.ofPairs (bindParams params args), e.2.Bounded K :=
    fun e he ↦ bounded_bindParams params hargs e (Entries.mem_ofPairs he)
  exact (h.within hscope).after_tick

-- the induction carries the values in scope along: arrow functions bring computed values into it, and what
-- they do with them is settled where they stand as arguments
mutual

theorem keeps_eval : (e : Expr) → e.Modest uncheckedFunctions K → Keeps K (Value.Bounded K) (eval e)
  | .literal l, h => by
    rw [eval]
    exact (keeps_pure (bounded_literal h)).after_tick
  | .name s, _ => by
    rw [eval]
    exact (keeps_lookup s).after_tick
  | .array items, h => by
    rw [eval]
    rw [Expr.Modest] at h
    exact ((keeps_evalAll items h).bind fun vs hvs ↦ keeps_pure (Value.bounded_array.mpr hvs)).after_tick
  | .object members, h => by
    rw [eval]
    rw [Expr.Modest] at h
    refine ((keeps_evalMembers members h).bind fun es hes ↦ keeps_pure ?_).after_tick
    exact Value.bounded_object.mpr fun e he ↦ hes e (Entries.mem_ofPairs he)
  | .member target property, h => by
    rw [eval]
    rw [Expr.Modest] at h
    refine ((keeps_eval target h).bind fun v hv ↦ ?_).after_tick
    exact keeps_ofExcept (Value.gives_property hv property)
  | .index target key, h => by
    rw [Expr.Modest] at h
    rw [eval]
    refine ((keeps_eval target h.1).bind fun v hv ↦ ?_).after_tick
    exact (keeps_eval key h.2).bind fun k _ ↦ keeps_ofExcept (Value.gives_index hv k)
  | .call callee args, h => by
    rw [Expr.Modest] at h
    obtain ⟨hname, hmodest, hitems⟩ := h
    have hcallee := keeps_eval callee hmodest
    have hargs := keeps_evalArgs args hitems
    match callee with
    | .member target property =>
      rw [Expr.Modest] at hmodest
      rw [eval]
      refine ((keeps_inspect (namespaceOf? target)).bind fun space _ ↦ ?_).after_tick
      split
      · exact hargs.bind fun args hbounded ↦ keeps_ofExcept (gives_callGlobal (hname property rfl) hbounded)
      · refine (keeps_eval target hmodest).bind fun v hv ↦ ?_
        refine hargs.bind fun args hbounded ↦ ?_
        exact keeps_ofRoutine (yields_callMethod hv (hname property rfl) hbounded)
    | .name s =>
      rw [eval]
      refine ((keeps_inspect _).bind fun global _ ↦ ?_).after_tick
      split
      · exact hargs.bind fun args _ ↦ keeps_ofExcept (gives_callGlobalFunction (hname s rfl) args)
      · exact (keeps_lookup s).bind fun _ _ ↦ keeps_fail _
    | .literal _ | .array _ | .object _ | .index _ _ | .call _ _ | .unary _ _ | .binary _ _ _
    | .logical _ _ _ | .conditional _ _ _ | .arrow _ _ =>
      rw [eval_call (by simp) (by simp)]
      exact (hcallee.bind fun v _ ↦ keeps_fail _).after_tick
  | .unary op operand, h => by
    rw [Expr.Modest] at h
    rw [eval]
    refine ((keeps_inspect _).bind fun unresolvable _ ↦ ?_).after_tick
    split
    · exact keeps_pure (Value.bounded_of_length (n := 9) (by decide) (by decide))
    · exact (keeps_eval operand h).bind fun v _ ↦ keeps_pure (bounded_unary op v)
  | .binary op left right, h => by
    rw [Expr.Modest] at h
    rw [eval]
    refine ((keeps_eval left h.1).bind fun a _ ↦ ?_).after_tick
    exact (keeps_eval right h.2).bind fun b _ ↦ keeps_ofExcept (gives_boundedText op a b)
  | .logical op left right, h => by
    rw [Expr.Modest] at h
    rw [eval]
    refine ((keeps_eval left h.1).bind fun a ha ↦ ?_).after_tick
    split
    · exact keeps_pure ha
    · exact keeps_eval right h.2
  | .conditional test consequent alternate, h => by
    rw [Expr.Modest] at h
    rw [eval]
    refine ((keeps_eval test h.1).bind fun c _ ↦ ?_).after_tick
    split
    · exact keeps_eval consequent h.2.1
    · exact keeps_eval alternate h.2.2
  | .arrow _ _, _ => by
    rw [eval]
    exact (keeps_fail _).after_tick

theorem keeps_evalAll : (es : List Expr) → Expr.ModestItems uncheckedFunctions K es →
    Keeps K (fun vs ↦ ∀ v ∈ vs, v.Bounded K) (evalAll es)
  | [], _ => keeps_pure (List.forall_mem_nil _)
  | e :: es, h => by
    rw [Expr.ModestItems] at h
    rw [evalAll]
    refine (keeps_eval e h.1).bind fun v hv ↦ ?_
    exact (keeps_evalAll es h.2).bind fun vs hvs ↦ keeps_pure (List.forall_mem_cons.mpr ⟨hv, hvs⟩)

theorem keeps_evalMembers : (ms : List (String × Expr)) → Expr.ModestMembers uncheckedFunctions K ms →
    Keeps K (fun es ↦ ∀ e ∈ es, K e.1 ∧ e.2.Bounded K) (evalMembers ms)
  | [], _ => keeps_pure (List.forall_mem_nil _)
  | (key, e) :: ms, h => by
    rw [Expr.ModestMembers] at h
    rw [evalMembers]
    refine (keeps_eval e h.1.2).bind fun v hv ↦ ?_
    refine (keeps_evalMembers ms h.2).bind fun es hes ↦ keeps_pure ?_
    exact List.forall_mem_cons.mpr ⟨⟨h.1.1, hv⟩, hes⟩

theorem keeps_evalArgs : (es : List Expr) → Expr.ModestItems uncheckedFunctions K es →
    Keeps K (Args.Bounded K (Function.Keeps K)) (evalArgs es)
  | [], _ => keeps_pure ⟨nofun, nofun⟩
  | e :: es, h => by
    rw [Expr.ModestItems] at h
    have he := keeps_eval e h.1
    have hes := keeps_evalArgs es h.2
    match e with
    | .arrow params body =>
      have hbody := keeps_eval body (by simpa [Expr.Modest] using h.1)
      rw [evalArgs]
      exact hes.bind fun args hargs ↦ keeps_pure (hargs.cons_function (Function.keeps_invoke params hbody))
    | .literal _ | .name _ | .array _ | .object _ | .member _ _ | .index _ _ | .call _ _ | .unary _ _
    | .binary _ _ _ | .logical _ _ _ | .conditional _ _ _ =>
      rw [evalArgs_cons (by simp)]
      exact he.bind fun v hv ↦ hes.bind fun args hargs ↦ keeps_pure (hargs.cons_value hv)

end

section

variable {scopes : List (Entries Value)}

theorem takes_arg {e : Expr} {v : Value} {n : Nat} (he : ∀ params body, e ≠ .arrow params body)
    (h : Takes (eval e) scopes n (.ok v)) : Takes (evalArgs [e]) scopes n (.ok [.value v]) := by
  rw [evalArgs_cons he]
  exact h.bind_pure fun v ↦ [Arg.value v]

theorem takes_callMethod {e : Expr} {es : List Expr} {v w : Value} {args : List (Arg Function)} {name : String}
    {n k : Nat} (hspace : ∀ i, namespaceOf? e i = none) (he : Takes (eval e) scopes n (.ok v))
    (hes : Takes (evalArgs es) scopes k (.ok args)) (hmethod : callMethod v name args = .done w) :
    Takes (eval (.call (.member e name) es)) scopes (n + k + 1) (.ok w) := by
  have hrun : Takes (ofRoutine (callMethod v name args)) scopes 0 (.ok w) := by
    rw [hmethod]
    exact takes_pure w scopes
  have hargs := hes.bind (k := fun args ↦ ofRoutine (callMethod v name args)) hrun
  rw [eval]
  exact (Takes.after_inspect (fun i _ ↦ hspace i) (he.bind hargs)).after_tick

theorem TextMethod.repeated_eq_ok {s : String} (hs : s ≠ "") {n : Nat}
    (h : n * s.utf8ByteSize ≤ maxStringLength) : repeated s n = .ok (Text.repeated s n) := by
  rw [repeated, checkLength, if_pos h]
  split
  · next hempty =>
    obtain rfl : n = 0 := by simpa [hs] using hempty
    rfl
  · rfl

theorem callMethod_repeat {x : Float} {n : Nat} (hx : Number.Whole.ofFloat x = .int n) {s : String}
    (hs : s ≠ "") (h : n * s.utf8ByteSize ≤ maxStringLength) :
    callMethod (φ := Function) (.string s) "repeat" [.value (.number x)] =
      .done (.string (Text.repeated s n)) := by
  have hwhole : (⟨"repeat", [.value (.number x)]⟩ : Args Function).whole 0 (.int 0) = .ok (.int (.ofNat n)) :=
    congrArg Except.ok hx
  simp only [callMethod, textMethod?]
  rw [hwhole]
  exact congrArg (fun r ↦ Routine.ofExcept (r >>= fun t ↦ pure (Value.string t)))
    (TextMethod.repeated_eq_ok hs h)

variable (scopes) in
theorem takes_repeat {x : Float} {n : Nat} (hx : Number.Whole.ofFloat x = .int n) {s : String} (hs : s ≠ "")
    (h : n * s.utf8ByteSize ≤ maxStringLength) :
    Takes (eval (.call (.member (.literal (.string s)) "repeat") [.literal (.number x)])) scopes 3
      (.ok (.string (Text.repeated s n))) :=
  takes_callMethod (fun _ ↦ rfl) (takes_literal (.string s))
    (takes_arg (fun _ _ ↦ Expr.noConfusion) (takes_literal (.number x))) (callMethod_repeat hx hs h)

theorem takes_callString {e : Expr} {v : Value} {n : Nat} (he : ∀ params body, e ≠ .arrow params body)
    (h : Takes (eval e) [] n (.ok v)) :
    Takes (eval (.call (.name "String") [e])) [] (n + 1) (.ok (.string v.display)) := by
  have hglobal (i : Interpreter) (hi : i.scopes = []) :
      (!i.isBound "String" && isGlobalFunction "String") = true := by
    rw [Interpreter.isBound, hi]
    decide
  have hconvert := takes_ofExcept (callGlobalFunction (φ := Function) "String" [.value v]) []
  have hcall := (takes_arg he h).bind (k := fun args ↦ ofExcept (callGlobalFunction "String" args)) hconvert
  rw [eval]
  exact (Takes.after_inspect hglobal hcall).after_tick

end

/-- As long as no function is called whose texts are not checked, all strings in the value of a program keep
to the limit when its literals do. -/
theorem string_limit_bounds_values (p : Program) (hp : p.body.Modest uncheckedFunctions K) (i : Interpreter)
    {v : Value} (h : (i.run p).1 = .ok v) : v.Bounded K := by
  have hfresh : Interpreter.Bounded K { i with steps := 0, scopes := [] } := List.forall_mem_nil _
  exact (keeps_eval p.body hp _ hfresh).2 v h

theorem string_limit_bounds_values_greatest :
    ∃ s, ((Interpreter.new 3).run ⟨.call (.member (.literal (.string "a")) "repeat")
      [.literal (.number 16777216)], false⟩).1 = .ok (.string s) ∧ s.utf8ByteSize ≤ maxStringLength := by
  have hsize : "a".utf8ByteSize ≤ maxStringLength := by decide
  have hmodest : (Expr.call (.member (.literal (.string "a")) "repeat") [.literal (.number 16777216)]).Modest
      uncheckedFunctions fun _ ↦ False := by
    simp [Expr.Modest, Expr.ModestItems, Expr.calledName?, uncheckedFunctions, hsize]
  have hcount : Number.Whole.ofFloat 16777216 = .int maxStringLength := by decide +kernel
  have hrepeat := takes_repeat [] hcount (s := "a") (by decide) (Nat.mul_one maxStringLength).le
  have hrun := congrArg Prod.fst (hrepeat 3 0 (Nat.zero_le 3))
  have hbounded := string_limit_bounds_values ⟨_, false⟩ hmodest (Interpreter.new 3) hrun
  exact ⟨_, hrun, Value.bounded_string.mp hbounded⟩

/-- The program `String(['a'.repeat(x), ''])`. -/
def arrayText (x : Float) : Program :=
  ⟨.call (.name "String") [.array [.call (.member (.literal (.string "a")) "repeat") [.literal (.number x)],
    .literal (.string "")]], false⟩

theorem run_arrayText {x : Float} {n : Nat} (hx : Number.Whole.ofFloat x = .int n)
    (hn : n ≤ maxStringLength) :
    ∃ s, ((Interpreter.new 6).run (arrayText x)).1 = .ok (.string s) ∧ s.utf8ByteSize = n + 1 := by
  have hitems : Takes (eval (.array [.call (.member (.literal (.string "a")) "repeat") [.literal (.number x)],
      .literal (.string "")])) [] 5 (.ok (.array [.string (Text.repeated "a" n), .string ""])) := by
    have hrepeat := takes_repeat [] hx (s := "a") (by decide) ((Nat.mul_one n).trans_le hn)
    have hnone : Takes (evalAll []) [] 0 (.ok []) := takes_pure [] []
    have hempty := takes_evalAll_cons (takes_literal (.string "")) hnone
    rw [eval]
    exact ((takes_evalAll_cons hrepeat hempty).bind_pure Value.array).after_tick
  have hrun := takes_callString (fun _ _ ↦ Expr.noConfusion) hitems 6 0 (Nat.zero_le 6)
  refine ⟨_, congrArg Prod.fst hrun, ?_⟩
  have hsize : "a".utf8ByteSize = 1 ∧ ",".utf8ByteSize = 1 := by decide
  simp [Value.display, Value.displayItems, Text.utf8ByteSize_repeated, hsize]

theorem array_text_outgrows_string_limit :
    (arrayText 16777216).body.Modest [] (fun _ ↦ False) ∧
      ∃ s, ((Interpreter.new 6).run (arrayText 16777216)).1 = .ok (.string s) ∧
        maxStringLength < s.utf8ByteSize := by
  have hsize : "a".utf8ByteSize ≤ maxStringLength := by decide
  refine ⟨by simp [arrayText, Expr.Modest, Expr.ModestItems, Expr.calledName?, hsize], ?_⟩
  have hcount : Number.Whole.ofFloat 16777216 = .int maxStringLength := by decide +kernel
  obtain ⟨s, hrun, hs⟩ := run_arrayText hcount (Nat.le_refl _)
  exact ⟨s, hrun, Nat.lt_of_succ_le hs.ge⟩

end TemplatedForms
