import TemplatedForms.Proofs.Evaluation.Steps

namespace TemplatedForms

variable {φ α β : Type}

namespace Args

variable {args : Args φ} {Q : α → Prop}

@[simp] theorem finishes_invalid (reason : String) :
    Finishes Q (args.invalid reason : Except EvalError α) := nofun

@[simp] theorem finishes_value {Q : Value → Prop} (h : ∀ v, Q v) (i : Nat) : Finishes Q (args.value i) := by
  unfold value
  split <;> simp [h]

@[simp] theorem finishes_text {Q : String → Prop} (h : ∀ s, Q s) (i : Nat) : Finishes Q (args.text i) := by
  simp [text, h]

@[simp] theorem finishes_whole {Q : Number.Whole → Prop} (h : ∀ n, Q n) (i : Nat) (default : Number.Whole) :
    Finishes Q (args.whole i default) := by
  simp [whole, h, finishes_ite]

theorem finishes_mapM {f : β → Except EvalError α} (hf : ∀ b, Finishes (fun _ ↦ True) (f b))
    {Q : List α → Prop} (h : ∀ as, Q as) (bs : List β) : Finishes Q (bs.mapM f) := by
  induction bs generalizing Q with
  | nil => simp [h]
  | cons b bs ih =>
    rw [List.mapM_cons, finishes_bind]
    have hb := hf b
    cases hr : f b with
    | ok a => simp [h, ih]
    | error e => rwa [hr] at hb

@[simp] theorem finishes_values {Q : List Value → Prop} (h : ∀ vs, Q vs) : Finishes Q args.values :=
  finishes_mapM (fun i ↦ finishes_value (fun _ ↦ trivial) i) h _

theorem finishes_function {P : φ → Prop} (h : ∀ f, .function f ∈ args.items → P f) (i : Nat) :
    Finishes P (args.function i) := by
  unfold function
  split
  · next f hf => exact h f (List.mem_of_getElem? hf)
  · simp

end Args

@[simp] theorem finishes_checkLength {Q : Unit → Prop} (h : Q ()) (bytes : Nat) :
    Finishes Q (checkLength bytes) := by
  simp [checkLength, h, finishes_ite]

namespace Routine

/-- All functions that a routine calls have a property, whatever they return, and its value has another
one; a failure of its own is no limit on the steps. -/
def Calls (P : φ → Prop) (Q : α → Prop) : Routine φ α → Prop
  | .done a => Q a
  | .fail e => ∀ limit, e ≠ .stepLimit limit
  | .call f _ next => P f ∧ ∀ v, (next v).Calls P Q

variable {P : φ → Prop} {Q : α → Prop} {R : β → Prop}

@[simp] theorem calls_pure (a : α) : Calls P Q (pure a) ↔ Q a := Iff.rfl

@[simp] theorem calls_done (a : α) : Calls P Q (.done a) ↔ Q a := Iff.rfl

@[simp] theorem calls_fail (e : EvalError) :
    Calls P Q (.fail e) ↔ ∀ limit, e ≠ .stepLimit limit := Iff.rfl

@[simp] theorem calls_bind (r : Routine φ α) (k : α → Routine φ β) :
    Calls P R (r >>= k) ↔ Calls P (fun a ↦ Calls P R (k a)) r := by
  induction r with
  | done a => rfl
  | fail e => rfl
  | call f args next ih => exact and_congr_right fun _ ↦ forall_congr' ih

@[simp] theorem calls_map (f : α → β) (r : Routine φ α) :
    Calls P R (f <$> r) ↔ Calls P (fun a ↦ R (f a)) r := calls_bind r _

@[simp] theorem calls_ofExcept (r : Except EvalError α) : Calls P Q (ofExcept r) ↔ Finishes Q r := by
  cases r <;> rfl

@[simp] theorem calls_lift (r : Except EvalError α) :
    Calls P Q (liftM r : Routine φ α) ↔ Finishes Q r := calls_ofExcept r

@[simp] theorem calls_apply {Q : Value → Prop} (f : φ) (args : List Value) :
    Calls P Q (apply f args) ↔ P f ∧ ∀ v, Q v := Iff.rfl

theorem calls_ite {c : Prop} [Decidable c] {r s : Routine φ α} :
    Calls P Q (if c then r else s) ↔ (c → Calls P Q r) ∧ (¬c → Calls P Q s) := by
  split <;> simp_all

end Routine

open Routine

/-- A method calls no functions but those among its arguments. -/
def KeepsToArguments (method : Args φ → Routine φ Value) : Prop :=
  ∀ (P : φ → Prop) (args : Args φ), (∀ f, .function f ∈ args.items → P f) →
    (method args).Calls P fun _ ↦ True

section

variable {P : φ → Prop}

namespace ListMethod

variable {f : φ} (hf : P f)

include hf

theorem calls_mapOnto {Q : List Value → Prop} (hQ : ∀ vs, Q vs) (mapped : List Value) (i : Nat)
    (vs : List Value) : (mapOnto f mapped i vs).Calls P Q := by
  induction vs generalizing mapped i with
  | nil => exact hQ _
  | cons v vs ih => simp [mapOnto, hf, ih]

theorem calls_filterOnto {Q : List Value → Prop} (hQ : ∀ vs, Q vs) (kept : List Value) (i : Nat)
    (vs : List Value) : (filterOnto f kept i vs).Calls P Q := by
  induction vs generalizing kept i with
  | nil => exact hQ _
  | cons v vs ih => simp [filterOnto, hf, ih]

theorem calls_search {Q : Option Value → Prop} (hQ : ∀ v, Q v) (wanted : Bool) (i : Nat)
    (vs : List Value) : (search f wanted i vs).Calls P Q := by
  induction vs generalizing i with
  | nil => exact hQ _
  | cons v vs ih => simp [search, hf, ih, hQ, calls_ite]

theorem calls_insertWith {Q : List Value → Prop} (hQ : ∀ vs, Q vs) (item : Value) (passed vs : List Value) :
    (insertWith f item passed vs).Calls P Q := by
  induction vs generalizing passed with
  | nil => exact hQ _
  | cons v vs ih => simp [insertWith, hf, ih, hQ, calls_ite]

theorem calls_sortWith {Q : List Value → Prop} (hQ : ∀ vs, Q vs) (sorted vs : List Value) :
    (sortWith f sorted vs).Calls P Q := by
  induction vs generalizing sorted with
  | nil => exact hQ _
  | cons v vs ih =>
    rw [sortWith, calls_bind]
    exact calls_insertWith hf (fun sorted ↦ ih sorted) v [] sorted

omit hf

@[simp] theorem finishes_join {Q : String → Prop} (hQ : ∀ s, Q s) (separator : String)
    (items : List Value) : Finishes Q (join separator items) := by
  simp [join, hQ]

end ListMethod

open ListMethod

theorem listMethod_keepsToArguments {items : List Value} {name : String}
    {method : Args φ → Routine φ Value} (h : listMethod? items name = some method) :
    KeepsToArguments method := by
  intro P args hargs
  have hfunction {Q : φ → Prop} (hQ : ∀ f, P f → Q f) : Finishes Q (args.function 0) :=
    Args.finishes_function (fun f hf ↦ hQ f (hargs f hf)) 0
  unfold listMethod? at h
  split at h <;> cases h
  -- a sort takes its function only if there is one
  case h_15 =>
    dsimp only
    split
    · next f hf => simpa using calls_sortWith (hargs f (List.mem_of_head? hf)) (fun _ ↦ trivial) [] items
    all_goals simp
  all_goals
    simp +contextual [hfunction, calls_mapOnto, calls_filterOnto, calls_search]

namespace TextMethod

@[simp] theorem finishes_padding {Q : String → Prop} (hQ : ∀ s, Q s) (s fill : String) (target : Number.Whole) :
    Finishes Q (padding s fill target) := by
  unfold padding
  split
  · simp [hQ]
  · split <;> simp [hQ, finishes_ite]

@[simp] theorem finishes_repeated {Q : String → Prop} (hQ : ∀ s, Q s) (s : String) (n : Nat) :
    Finishes Q (repeated s n) := by
  simp [repeated, hQ, finishes_ite]

@[simp] theorem finishes_concat {Q : String → Prop} (hQ : ∀ s, Q s) (s : String) (vs : List Value) :
    Finishes Q (concat s vs) := by
  induction vs generalizing s with
  | nil => exact hQ s
  | cons v vs ih => simp [concat, ih]

@[simp] theorem finishes_joinOnto {Q : String → Prop} (hQ : ∀ s, Q s) (replacement out : String)
    (pieces : List (List Char)) : Finishes Q (joinOnto replacement out pieces) := by
  induction pieces generalizing out with
  | nil => exact hQ out
  | cons piece pieces ih => simp [joinOnto, ih]

theorem calls_fillOnto {f : φ} (hf : P f) {Q : String → Prop} (hQ : ∀ s, Q s) (pattern : String)
    (position : Nat) (out : String) (pieces : List (List Char)) :
    (fillOnto pattern f position out pieces).Calls P Q := by
  induction pieces generalizing position out with
  | nil => exact hQ out
  | cons piece pieces ih => simp [fillOnto, hf, ih]

theorem calls_replace {args : Args φ} (hargs : ∀ f, .function f ∈ args.items → P f) {Q : String → Prop}
    (hQ : ∀ s, Q s) (all : Bool) (s : String) : (replace all s args).Calls P Q := by
  rw [replace, calls_bind, calls_lift]
  refine Args.finishes_text (fun pattern ↦ ?_) 0
  split
  · exact hQ ""
  · split
    · next f hf => exact calls_fillOnto (hargs f (List.mem_of_getElem? hf)) hQ pattern _ _ _
    all_goals simp [hQ]

end TextMethod

open TextMethod

theorem textMethod_keepsToArguments {s name : String} {method : Args φ → Routine φ Value}
    (h : textMethod? s name = some method) : KeepsToArguments method := by
  intro P args hargs
  unfold textMethod? at h
  split at h <;> cases h
  -- a text is repeated only if the number of times is neither negative nor infinite
  case h_20 =>
    rw [calls_ofExcept, finishes_bind]
    refine Args.finishes_whole (fun n ↦ ?_) 0 _
    split <;> simp
  all_goals simp [calls_replace hargs]

theorem numberMethod_keepsToArguments {x : Float} {name : String} {method : Args φ → Routine φ Value}
    (h : numberMethod? x name = some method) : KeepsToArguments method := by
  intro P args _
  unfold numberMethod? at h
  split at h <;> cases h
  · rw [calls_ofExcept, finishes_bind]
    refine Args.finishes_whole (fun places ↦ ?_) 0 _
    split <;> simp [finishes_ite]
  · rw [calls_ofExcept, finishes_bind]
    refine Args.finishes_whole (fun radix ↦ ?_) 0 _
    split
    · rw [finishes_ite]
      refine ⟨fun _ ↦ ?_, fun _ ↦ Args.finishes_invalid _⟩
      split <;> simp
    · exact Args.finishes_invalid _

theorem calls_callMethod (target : Value) (name : String) {items : List (Arg φ)}
    (hargs : ∀ f, .function f ∈ items → P f) : (callMethod target name items).Calls P fun _ ↦ True := by
  unfold callMethod
  dsimp only
  split
  · next method h =>
    refine (?_ : KeepsToArguments method) P ⟨name, items⟩ hargs
    cases target with
    | undefined | null => cases h; intro P args _; simp
    | string s => exact textMethod_keepsToArguments h
    | array vs => exact listMethod_keepsToArguments h
    | number x => exact numberMethod_keepsToArguments h
    | bool b =>
      dsimp only at h
      split at h
      · cases h; intro P args _; simp
      · cases h
    | object members => cases h
  · simp

namespace GlobalFunction

theorem finishes_entries (part : String × Value → Value) (args : Args φ) :
    Finishes (fun _ ↦ True) (entries part args) := by
  rw [entries, finishes_bind]
  refine Args.finishes_value (fun v ↦ ?_) 0
  split <;> simp

theorem finishes_stringify (args : Args φ) : Finishes (fun _ ↦ True) (stringify args) := by
  simp [stringify, finishes_ite]

theorem finishes_parseJson (args : Args φ) : Finishes (fun _ ↦ True) (parseJson args) := by
  rw [parseJson, finishes_bind]
  refine Args.finishes_text (fun s ↦ ?_) 0
  split <;> simp

theorem finishes_extreme (better : Float → Float → Bool) (start : Float) (args : Args φ) :
    Finishes (fun _ ↦ True) (extreme better start args) := by
  simp [extreme, finishes_ite]

theorem finishes_onNumber (f : Float → Float) (args : Args φ) :
    Finishes (fun _ ↦ True) (onNumber f args) := by
  simp [onNumber]

end GlobalFunction

open GlobalFunction

theorem finishes_callGlobal (space name : String) (items : List (Arg φ)) :
    Finishes (fun _ ↦ True) (callGlobal space name items) := by
  unfold callGlobal
  dsimp only
  split <;>
    simp [finishes_entries, finishes_stringify, finishes_parseJson, finishes_extreme, finishes_onNumber]

theorem finishes_callGlobalFunction (name : String) (items : List (Arg φ)) :
    Finishes (fun _ ↦ True) (callGlobalFunction name items) := by
  rw [callGlobalFunction, finishes_bind]
  refine Args.finishes_value (fun v ↦ ?_) 0
  split <;> simp

end

end TemplatedForms
