import TemplatedForms.Evaluation.Interpreter
import TemplatedForms.Proofs.Text.Length

namespace TemplatedForms

variable {φ α β : Type}

namespace Value

mutual

/-- No string in a value is too long. What is said about the keys in it is up to `K`. -/
def Bounded (K : String → Prop) : Value → Prop
  | .undefined | .null | .bool _ | .number _ => True
  | .string s => s.utf8ByteSize ≤ maxStringLength
  | .array items => BoundedItems K items
  | .object members => BoundedMembers K members

def BoundedItems (K : String → Prop) : List Value → Prop
  | [] => True
  | v :: vs => Bounded K v ∧ BoundedItems K vs

def BoundedMembers (K : String → Prop) : List (String × Value) → Prop
  | [] => True
  | (key, v) :: ms => (K key ∧ Bounded K v) ∧ BoundedMembers K ms

end

variable {K : String → Prop}

theorem boundedItems_iff {vs : List Value} : BoundedItems K vs ↔ ∀ v ∈ vs, v.Bounded K := by
  induction vs with
  | nil => simp [BoundedItems]
  | cons v vs ih => rw [BoundedItems, ih, List.forall_mem_cons]

theorem boundedMembers_iff {ms : List (String × Value)} :
    BoundedMembers K ms ↔ ∀ m ∈ ms, K m.1 ∧ m.2.Bounded K := by
  induction ms with
  | nil => simp [BoundedMembers]
  | cons m ms ih => rw [BoundedMembers, ih, List.forall_mem_cons]

@[simp] theorem bounded_undefined : (undefined).Bounded K := by simp [Bounded]

@[simp] theorem bounded_bool (b : Bool) : (bool b).Bounded K := by simp [Bounded]

@[simp] theorem bounded_number (x : Float) : (number x).Bounded K := by simp [Bounded]

@[simp] theorem bounded_ofNat (n : Nat) : (ofNat n).Bounded K := bounded_number _

@[simp] theorem bounded_string {s : String} : (string s).Bounded K ↔ s.utf8ByteSize ≤ maxStringLength := by
  rw [Bounded]

@[simp] theorem bounded_array {vs : List Value} : (array vs).Bounded K ↔ ∀ v ∈ vs, v.Bounded K := by
  rw [Bounded, boundedItems_iff]

@[simp] theorem bounded_object {ms : List (String × Value)} :
    (object ms).Bounded K ↔ ∀ m ∈ ms, K m.1 ∧ m.2.Bounded K := by
  rw [Bounded, boundedMembers_iff]

theorem bounded_of_length {s : String} {n : Nat} (h : s.length ≤ n) (hn : 4 * n ≤ maxStringLength) :
    (string s).Bounded K :=
  bounded_string.mpr ((utf8ByteSize_le_of_length h).trans hn)

@[simp] theorem bounded_ofChar (c : Char) : (ofChar c).Bounded K :=
  bounded_of_length (n := 1) (by simp) (by decide)

end Value

open Value (Bounded)

def Gives (Q : α → Prop) (r : Except EvalError α) : Prop := ∀ a, r = .ok a → Q a

section Gives

variable {Q : α → Prop} {R : β → Prop}

@[simp] theorem gives_ok (a : α) : Gives Q (.ok a) ↔ Q a := by
  simp [Gives]

@[simp] theorem gives_pure (a : α) : Gives Q (pure a) ↔ Q a := gives_ok a

@[simp] theorem gives_error (e : EvalError) : Gives Q (.error e) := nofun

@[simp] theorem gives_true (r : Except EvalError α) : Gives (fun _ ↦ True) r := fun _ _ ↦ trivial

@[simp] theorem gives_bind (r : Except EvalError α) (k : α → Except EvalError β) :
    Gives R (r >>= k) ↔ Gives (fun a ↦ Gives R (k a)) r := by
  cases r <;> simp [bind, Except.bind]

@[simp] theorem gives_map (f : α → β) (r : Except EvalError α) :
    Gives R (f <$> r) ↔ Gives (fun a ↦ R (f a)) r := by
  cases r <;> simp [Functor.map, Except.map]

theorem gives_ite {c : Prop} [Decidable c] {r s : Except EvalError α} :
    Gives Q (if c then r else s) ↔ (c → Gives Q r) ∧ (¬c → Gives Q s) := by
  split <;> simp_all

theorem gives_of_forall (h : ∀ a, Q a) (r : Except EvalError α) : Gives Q r := fun a _ ↦ h a

theorem Gives.mono {r : Except EvalError α} {Q' : α → Prop} (h : Gives Q r) (hQ : ∀ a, Q a → Q' a) :
    Gives Q' r :=
  fun a ha ↦ hQ a (h a ha)

@[simp] theorem gives_checkLength {Q : Unit → Prop} {bytes : Nat} :
    Gives Q (checkLength bytes) ↔ (bytes ≤ maxStringLength → Q ()) := by
  rw [checkLength]
  split <;> simp_all

end Gives

namespace Routine

/-- A routine calls only functions with a property, with arguments that have another one. If the values of
these calls have it too, so has the result a third one. -/
def Yields (V : Value → Prop) (P : φ → Prop) (Q : α → Prop) : Routine φ α → Prop
  | .done a => Q a
  | .fail _ => True
  | .call f args next => P f ∧ (∀ v ∈ args, V v) ∧ ∀ v, V v → (next v).Yields V P Q

variable {V : Value → Prop} {P : φ → Prop} {Q : α → Prop} {R : β → Prop}

@[simp] theorem yields_pure (a : α) : Yields V P Q (pure a) ↔ Q a := Iff.rfl

@[simp] theorem yields_fail (e : EvalError) : Yields V P Q (.fail e) := trivial

@[simp] theorem yields_bind (r : Routine φ α) (k : α → Routine φ β) :
    Yields V P R (r >>= k) ↔ Yields V P (fun a ↦ Yields V P R (k a)) r := by
  induction r with
  | done a => rfl
  | fail e => rfl
  | call f args next ih =>
    exact and_congr_right fun _ ↦ and_congr_right fun _ ↦ forall_congr' fun v ↦ imp_congr_right fun _ ↦ ih v

@[simp] theorem yields_map (f : α → β) (r : Routine φ α) :
    Yields V P R (f <$> r) ↔ Yields V P (fun a ↦ R (f a)) r := yields_bind r _

@[simp] theorem yields_ofExcept (r : Except EvalError α) : Yields V P Q (ofExcept r) ↔ Gives Q r := by
  cases r <;> simp [ofExcept, Yields]

@[simp] theorem yields_lift (r : Except EvalError α) :
    Yields V P Q (liftM r : Routine φ α) ↔ Gives Q r := yields_ofExcept r

@[simp] theorem yields_apply {Q : Value → Prop} (f : φ) (args : List Value) :
    Yields V P Q (apply f args) ↔ P f ∧ (∀ v ∈ args, V v) ∧ ∀ v, V v → Q v := Iff.rfl

theorem Yields.mono {r : Routine φ α} {Q' : α → Prop} (h : r.Yields V P Q) (hQ : ∀ a, Q a → Q' a) :
    r.Yields V P Q' := by
  induction r with
  | done a => exact hQ a h
  | fail e => trivial
  | call f args next ih => exact ⟨h.1, h.2.1, fun v hv ↦ ih v (h.2.2 v hv)⟩

theorem yields_ite {c : Prop} [Decidable c] {r s : Routine φ α} :
    Yields V P Q (if c then r else s) ↔ (c → Yields V P Q r) ∧ (¬c → Yields V P Q s) := by
  split <;> simp_all

end Routine

open Routine

namespace Args

structure Bounded (K : String → Prop) (P : φ → Prop) (items : List (Arg φ)) : Prop where
  value : ∀ v, .value v ∈ items → v.Bounded K
  function : ∀ f, .function f ∈ items → P f

variable {K : String → Prop} {P : φ → Prop} {args : Args φ}

theorem Bounded.cons_value {items : List (Arg φ)} (h : Args.Bounded K P items) {v : Value}
    (hv : v.Bounded K) : Args.Bounded K P (.value v :: items) where
  value w hw := by
    rcases List.mem_cons.mp hw with hw | hw
    · cases hw
      exact hv
    · exact h.value w hw
  function f hf := h.function f ((List.mem_cons.mp hf).resolve_left nofun)

theorem Bounded.cons_function {items : List (Arg φ)} (h : Args.Bounded K P items) {f : φ} (hf : P f) :
    Args.Bounded K P (.function f :: items) where
  value v hv := h.value v ((List.mem_cons.mp hv).resolve_left nofun)
  function g hg := by
    rcases List.mem_cons.mp hg with hg | hg
    · cases hg
      exact hf
    · exact h.function g hg

@[simp] theorem gives_invalid {Q : α → Prop} (reason : String) :
    Gives Q (args.invalid reason : Except EvalError α) := gives_error _

theorem gives_value (h : Args.Bounded K P args.items) (i : Nat) : Gives (Value.Bounded K) (args.value i) := by
  unfold value
  split
  · simp
  · next v hv => simpa using h.value v (List.mem_of_getElem? hv)
  · simp

theorem gives_function (h : Args.Bounded K P args.items) (i : Nat) : Gives P (args.function i) := by
  unfold function
  split
  · next f hf => simpa using h.function f (List.mem_of_getElem? hf)
  · simp

theorem gives_mapM {f : β → Except EvalError α} {Q : α → Prop} (hf : ∀ b, Gives Q (f b)) (bs : List β) :
    Gives (fun as ↦ ∀ a ∈ as, Q a) (bs.mapM f) := by
  induction bs with
  | nil => simp
  | cons b bs ih =>
    rw [List.mapM_cons, gives_bind]
    refine (hf b).mono fun a ha ↦ ?_
    rw [gives_bind]
    exact ih.mono fun as has ↦ by simpa using ⟨ha, has⟩

theorem gives_values (h : Args.Bounded K P args.items) : Gives (fun vs ↦ ∀ v ∈ vs, v.Bounded K) args.values :=
  gives_mapM (gives_value h) _

end Args

/-- Functions whose texts are not checked, or only in part. -/
def uncheckedFunctions : List String :=
  ["String", "toString", "toLowerCase", "toUpperCase", "replace", "replaceAll", "stringify", "parse", "keys",
    "entries"]

/-- Given bounded arguments, a method calls functions with bounded arguments, and gives a bounded value as
long as these do. -/
def StaysBounded (K : String → Prop) (method : Args φ → Routine φ Value) : Prop :=
  ∀ (P : φ → Prop) (args : Args φ), Args.Bounded K P args.items →
    (method args).Yields (Value.Bounded K) P (Value.Bounded K)

section

variable {K : String → Prop} {P : φ → Prop}

namespace ListMethod

variable {items : List Value} (hitems : ∀ v ∈ items, v.Bounded K)

section Functions

variable {f : φ} (hf : P f)

include hf

theorem yields_mapOnto {mapped : List Value} (hmapped : ∀ v ∈ mapped, v.Bounded K) (i : Nat) {vs : List Value}
    (hvs : ∀ v ∈ vs, v.Bounded K) :
    (mapOnto f mapped i vs).Yields (Bounded K) P fun vs ↦ ∀ v ∈ vs, v.Bounded K := by
  induction vs generalizing mapped i with
  | nil => simpa [mapOnto] using hmapped
  | cons v vs ih =>
    obtain ⟨hv, hvs⟩ := List.forall_mem_cons.mp hvs
    rw [mapOnto, yields_bind, yields_apply]
    refine ⟨hf, by simp [hv], fun w hw ↦ ?_⟩
    exact ih (List.forall_mem_cons.mpr ⟨hw, hmapped⟩) (i + 1) hvs

theorem yields_filterOnto {kept : List Value} (hkept : ∀ v ∈ kept, v.Bounded K) (i : Nat) {vs : List Value}
    (hvs : ∀ v ∈ vs, v.Bounded K) :
    (filterOnto f kept i vs).Yields (Bounded K) P fun vs ↦ ∀ v ∈ vs, v.Bounded K := by
  induction vs generalizing kept i with
  | nil => simpa [filterOnto] using hkept
  | cons v vs ih =>
    obtain ⟨hv, hvs⟩ := List.forall_mem_cons.mp hvs
    rw [filterOnto, yields_bind, yields_apply]
    refine ⟨hf, by simp [hv], fun w _ ↦ ih ?_ (i + 1) hvs⟩
    split
    · exact List.forall_mem_cons.mpr ⟨hv, hkept⟩
    · exact hkept

theorem yields_search (wanted : Bool) (i : Nat) {vs : List Value} (hvs : ∀ v ∈ vs, v.Bounded K) :
    (search f wanted i vs).Yields (Bounded K) P fun v? ↦ ∀ v ∈ v?, v.Bounded K := by
  induction vs generalizing i with
  | nil => simp [search]
  | cons v vs ih =>
    obtain ⟨hv, hvs⟩ := List.forall_mem_cons.mp hvs
    rw [search, yields_bind, yields_apply]
    refine ⟨hf, by simp [hv], fun w _ ↦ ?_⟩
    rw [yields_ite]
    exact ⟨fun _ ↦ by simpa using hv, fun _ ↦ ih (i + 1) hvs⟩

theorem yields_insertWith {item : Value} (hitem : item.Bounded K) {passed vs : List Value}
    (hpassed : ∀ v ∈ passed, v.Bounded K) (hvs : ∀ v ∈ vs, v.Bounded K) :
    (insertWith f item passed vs).Yields (Bounded K) P fun vs ↦ ∀ v ∈ vs, v.Bounded K := by
  induction vs generalizing passed with
  | nil => simpa [insertWith, or_imp, forall_and] using ⟨hpassed, hitem⟩
  | cons v vs ih =>
    obtain ⟨hv, hvs'⟩ := List.forall_mem_cons.mp hvs
    rw [insertWith, yields_bind, yields_apply]
    refine ⟨hf, by simp [hv, hitem], fun w _ ↦ ?_⟩
    rw [yields_ite]
    refine ⟨fun _ ↦ ih (List.forall_mem_cons.mpr ⟨hv, hpassed⟩) hvs', fun _ ↦ ?_⟩
    simpa [or_imp, forall_and] using ⟨hpassed, hitem, hv, hvs'⟩

theorem yields_sortWith {sorted vs : List Value} (hsorted : ∀ v ∈ sorted, v.Bounded K)
    (hvs : ∀ v ∈ vs, v.Bounded K) :
    (sortWith f sorted vs).Yields (Bounded K) P fun vs ↦ ∀ v ∈ vs, v.Bounded K := by
  induction vs generalizing sorted with
  | nil => simpa [sortWith] using hsorted
  | cons v vs ih =>
    obtain ⟨hv, hvs⟩ := List.forall_mem_cons.mp hvs
    rw [sortWith, yields_bind]
    exact (yields_insertWith hf hv (List.forall_mem_nil _) hsorted).mono fun sorted hsorted ↦ ih hsorted hvs

end Functions

theorem gives_join (separator : String) (items : List Value) :
    Gives (fun s ↦ s.utf8ByteSize ≤ maxStringLength) (join separator items) := by
  simp [join, utf8ByteSize_intercalate]

include hitems

theorem bounded_slice (start stop : Number.Whole) : ∀ v ∈ slice items start stop, v.Bounded K :=
  fun v hv ↦ hitems v (List.mem_of_mem_take (List.mem_of_mem_drop hv))

theorem bounded_at? (i : Number.Whole) : ∀ v ∈ at? items i, v.Bounded K := by
  intro v hv
  obtain ⟨i, -, hi⟩ := Option.bind_eq_some_iff.mp hv
  exact hitems v (List.mem_of_getElem? hi)

theorem bounded_concat {vs : List Value} (hvs : ∀ v ∈ vs, v.Bounded K) :
    ∀ v ∈ concat items vs, v.Bounded K := by
  induction vs generalizing items with
  | nil => exact hitems
  | cons v vs ih =>
    obtain ⟨hv, hvs'⟩ := List.forall_mem_cons.mp hvs
    cases v with
    | array more => exact ih (List.forall_mem_append.mpr ⟨hitems, Value.bounded_array.mp hv⟩) hvs'
    | _ => exact ih (List.forall_mem_append.mpr ⟨hitems, List.forall_mem_singleton.mpr hv⟩) hvs'

theorem bounded_flatten (depth : Nat) : ∀ v ∈ flatten depth items, v.Bounded K := by
  induction depth generalizing items with
  | zero => exact hitems
  | succ depth ih =>
    intro v hv
    obtain ⟨w, hw, hv⟩ := List.mem_flatMap.mp hv
    have hbounded := hitems w hw
    cases w with
    | array inner => exact ih (Value.bounded_array.mp hbounded) v hv
    | _ => exact List.mem_singleton.mp hv ▸ hbounded

omit hitems in
mutual

theorem bounded_leaves : (vs : List Value) → (∀ v ∈ vs, v.Bounded K) → ∀ w ∈ leaves vs, w.Bounded K
  | [], _ => by simp [leaves]
  | v :: vs, h => by
    rw [leaves]
    obtain ⟨hv, hvs⟩ := List.forall_mem_cons.mp h
    exact List.forall_mem_append.mpr ⟨bounded_leavesOf v hv, bounded_leaves vs hvs⟩

theorem bounded_leavesOf : (v : Value) → v.Bounded K → ∀ w ∈ leavesOf v, w.Bounded K
  | .array inner, h => bounded_leaves inner (Value.bounded_array.mp h)
  | .undefined, h | .null, h | .bool _, h | .number _, h | .string _, h | .object _, h =>
    List.forall_mem_singleton.mpr h

end

theorem bounded_flat (depth : Number.Whole) : ∀ v ∈ flat items depth, v.Bounded K := by
  unfold flat
  split
  · exact bounded_flatten hitems _
  · exact bounded_leaves items hitems

omit hitems

theorem bounded_insertBy (after : Value → Value → Bool) {item : Value} (hitem : item.Bounded K)
    {passed vs : List Value} (hpassed : ∀ v ∈ passed, v.Bounded K) (hvs : ∀ v ∈ vs, v.Bounded K) :
    ∀ v ∈ insertBy after item passed vs, v.Bounded K := by
  induction vs generalizing passed with
  | nil => simpa [insertBy, or_imp, forall_and] using ⟨hpassed, hitem⟩
  | cons v vs ih =>
    obtain ⟨hv, hvs'⟩ := List.forall_mem_cons.mp hvs
    rw [insertBy]
    split
    · exact ih (List.forall_mem_cons.mpr ⟨hv, hpassed⟩) hvs'
    · simpa [or_imp, forall_and] using ⟨hpassed, hitem, hv, hvs'⟩

theorem bounded_sortOnto (after : Value → Value → Bool) {sorted vs : List Value}
    (hsorted : ∀ v ∈ sorted, v.Bounded K) (hvs : ∀ v ∈ vs, v.Bounded K) :
    ∀ v ∈ sortOnto after sorted vs, v.Bounded K := by
  induction vs generalizing sorted with
  | nil => simpa [sortOnto] using hsorted
  | cons v vs ih =>
    obtain ⟨hv, hvs⟩ := List.forall_mem_cons.mp hvs
    exact ih (bounded_insertBy after hv (List.forall_mem_nil _) hsorted) hvs

end ListMethod

open ListMethod

theorem listMethod_staysBounded {items : List Value} (hitems : ∀ v ∈ items, v.Bounded K) {name : String}
    (hname : name ∉ uncheckedFunctions) {method : Args φ → Routine φ Value}
    (h : listMethod? items name = some method) : StaysBounded K method := by
  intro P args hargs
  have hfunction {Q : φ → Prop} (hQ : ∀ f, P f → Q f) : Gives Q (args.function 0) :=
    (Args.gives_function hargs 0).mono hQ
  have harray {vs : List Value} (h : ∀ v ∈ vs, v.Bounded K) : (Value.array vs).Bounded K :=
    Value.bounded_array.mpr h
  -- the cases are the methods in their order in the definition; `toString` is the one that is not checked
  unfold listMethod? at h
  split at h <;> cases h
  case h_1 =>
    simp only [yields_bind, yields_lift, yields_map]
    exact hfunction fun f hf ↦ (yields_mapOnto hf (List.forall_mem_nil _) 0 hitems).mono fun _ ↦ harray
  case h_2 =>
    simp only [yields_bind, yields_lift, yields_map]
    exact hfunction fun f hf ↦ (yields_filterOnto hf (List.forall_mem_nil _) 0 hitems).mono fun _ ↦ harray
  case h_3 =>
    simp only [yields_bind, yields_lift, yields_map]
    refine hfunction fun f hf ↦ (yields_search hf true 0 hitems).mono fun v? hv ↦ ?_
    cases v? with
    | none => simp
    | some v => exact hv v rfl
  case h_4 | h_5 =>
    simp only [yields_bind, yields_lift, yields_map]
    exact hfunction fun f hf ↦ (yields_search hf _ 0 hitems).mono fun _ _ ↦ Value.bounded_bool _
  case h_6 => simp
  case h_7 =>
    rw [yields_ofExcept, gives_bind]
    refine gives_of_forall (fun needle ↦ ?_) _
    split <;> simp
  case h_8 =>
    rw [yields_ofExcept, gives_bind]
    refine gives_of_forall (fun separator ↦ ?_) _
    rw [gives_bind]
    exact (gives_join _ items).mono fun s hs ↦ (gives_pure _).mpr (Value.bounded_string.mpr hs)
  case h_9 => exact absurd (by decide) hname
  case h_10 =>
    simp only [yields_ofExcept, gives_bind, gives_pure]
    refine gives_of_forall (fun start ↦ gives_of_forall (fun stop ↦ ?_) _) _
    exact harray (bounded_slice hitems start stop)
  case h_11 =>
    simp only [yields_ofExcept, gives_bind, gives_pure]
    exact (Args.gives_values hargs).mono fun vs hvs ↦ harray (bounded_concat hitems hvs)
  case h_12 =>
    simp only [yields_ofExcept, gives_bind, gives_pure]
    refine gives_of_forall (fun i ↦ ?_) _
    cases hi : at? items i with
    | none => simp
    | some v => exact bounded_at? hitems i v hi
  case h_13 => simpa using hitems
  case h_14 =>
    simp only [yields_ofExcept, gives_bind, gives_pure]
    exact gives_of_forall (fun depth ↦ harray (bounded_flat hitems depth)) _
  case h_15 =>
    dsimp only
    split
    · next f hf =>
      rw [yields_map]
      exact (yields_sortWith (hargs.function f (List.mem_of_head? hf)) (List.forall_mem_nil _) hitems).mono
        fun _ ↦ harray
    · exact harray (bounded_sortOnto _ (List.forall_mem_nil _) hitems)
    · exact harray (bounded_sortOnto _ (List.forall_mem_nil _) hitems)
    · simp

namespace TextMethod

theorem gives_padding {s : String} (hs : s.utf8ByteSize ≤ maxStringLength) (fill : String)
    (target : Number.Whole) :
    Gives (fun p ↦ p.utf8ByteSize + s.utf8ByteSize ≤ maxStringLength) (padding s fill target) := by
  have hempty : "".utf8ByteSize + s.utf8ByteSize ≤ maxStringLength := by simpa using hs
  unfold padding
  rw [gives_ite]
  refine ⟨fun _ ↦ (gives_ok _).mpr hempty, fun _ ↦ ?_⟩
  split
  · exact (gives_ok _).mpr hempty
  · exact gives_error _
  · rw [gives_ite, gives_ite, gives_bind, gives_checkLength]
    exact ⟨fun _ ↦ (gives_ok _).mpr hempty, fun _ ↦ ⟨fun _ ↦ gives_error _, fun _ h ↦ (gives_pure _).mpr h⟩⟩

theorem gives_repeated (s : String) (n : Nat) :
    Gives (fun t ↦ t.utf8ByteSize ≤ maxStringLength) (repeated s n) := by
  rw [repeated, gives_ite, gives_bind, gives_checkLength, gives_pure, gives_pure, Text.utf8ByteSize_repeated]
  exact ⟨fun _ ↦ by simp, fun _ h ↦ h⟩

theorem gives_concat {s : String} (hs : s.utf8ByteSize ≤ maxStringLength) (vs : List Value) :
    Gives (fun t ↦ t.utf8ByteSize ≤ maxStringLength) (concat s vs) := by
  induction vs generalizing s with
  | nil => simpa [concat] using hs
  | cons v vs ih =>
    rw [concat, gives_bind, gives_checkLength]
    exact fun h ↦ ih (by rwa [String.utf8ByteSize_append])

theorem bounded_texts {parts : List String} (h : ∀ part ∈ parts, part.utf8ByteSize ≤ maxStringLength)
    (limit : Option Nat) : (Value.array ((limit.elim parts parts.take).map .string)).Bounded K := by
  refine Value.bounded_array.mpr (List.forall_mem_map.mpr fun part hpart ↦ Value.bounded_string.mpr ?_)
  cases limit with
  | none => exact h part hpart
  | some n => exact h part (List.mem_of_mem_take hpart)

end TextMethod

open TextMethod

theorem textMethod_staysBounded {s : String} (hs : s.utf8ByteSize ≤ maxStringLength) {name : String}
    (hname : name ∉ uncheckedFunctions) {method : Args φ → Routine φ Value}
    (h : textMethod? s name = some method) : StaysBounded K method := by
  intro P args hargs
  have hpart {t : String} (h : t.toList.Sublist s.toList) : (Value.string t).Bounded K :=
    Value.bounded_string.mpr ((utf8ByteSize_le_of_sublist h).trans hs)
  -- as for arrays; not checked are the two changes of case, `toString` and the two replacements
  unfold textMethod? at h
  split at h <;> cases h
  case h_1 | h_2 | h_6 | h_11 | h_12 => exact absurd (by decide) hname
  case h_3 => exact hpart (Text.trim_sublist s)
  case h_4 => exact hpart (Text.trimStart_sublist s)
  case h_5 => exact hpart (Text.trimEnd_sublist s)
  case h_7 | h_8 | h_9 => simp
  case h_10 =>
    rw [yields_ofExcept, gives_bind]
    refine gives_of_forall (fun start ↦ ?_) _
    rw [gives_bind]
    refine gives_of_forall (fun t ↦ ?_) _
    split <;> simp
  case h_13 =>
    simp only [yields_ofExcept, gives_bind, gives_pure]
    refine gives_of_forall (fun separator ↦ gives_of_forall (fun limit ↦ ?_) _) _
    refine bounded_texts (fun part hpart ↦ ?_) _
    split at hpart
    · exact List.mem_singleton.mp hpart ▸ hs
    · exact (utf8ByteSize_split_le s _ part hpart).trans hs
  case h_14 =>
    simp only [yields_ofExcept, gives_bind, gives_pure]
    exact gives_of_forall (fun start ↦ gives_of_forall (fun stop ↦ hpart (substring_sublist s _ _)) _) _
  case h_15 =>
    simp only [yields_ofExcept, gives_bind, gives_pure]
    exact gives_of_forall (fun start ↦ gives_of_forall (fun stop ↦ hpart (substring_sublist s _ _)) _) _
  case h_16 | h_17 =>
    simp only [yields_ofExcept, gives_bind, gives_pure]
    refine gives_of_forall (fun target ↦ gives_of_forall (fun fill ↦ ?_) _) _
    refine (gives_padding hs _ target).mono fun p hp ↦ Value.bounded_string.mpr ?_
    rw [String.utf8ByteSize_append]
    omega
  case h_18 =>
    simp only [yields_ofExcept, gives_bind, gives_pure]
    refine gives_of_forall (fun i ↦ ?_) _
    rw [charAt]
    split
    · exact Value.bounded_ofChar _
    · simp
  case h_19 =>
    simp only [yields_ofExcept, gives_bind, gives_pure]
    refine gives_of_forall (fun i ↦ ?_) _
    cases at? s i <;> simp
  case h_20 =>
    simp only [yields_ofExcept, gives_bind]
    refine gives_of_forall (fun count ↦ ?_) _
    split
    · rw [gives_bind]
      exact (gives_repeated s _).mono fun t ht ↦ (gives_pure _).mpr (Value.bounded_string.mpr ht)
    · simp
  case h_21 =>
    simp only [yields_ofExcept, gives_bind, gives_pure]
    exact gives_of_forall (fun vs ↦ (gives_concat hs vs).mono fun t ht ↦ Value.bounded_string.mpr ht) _

theorem numberMethod_staysBounded {x : Float} {name : String} (hname : name ∉ uncheckedFunctions)
    {method : Args φ → Routine φ Value} (h : numberMethod? x name = some method) : StaysBounded K method := by
  intro P args _
  unfold numberMethod? at h
  split at h <;> cases h
  case h_1 =>
    rw [yields_ofExcept, gives_bind]
    refine gives_of_forall (fun places ↦ ?_) _
    split
    · next n =>
      rw [gives_ite]
      refine ⟨fun hn ↦ (gives_pure _).mpr (Value.bounded_string.mpr ?_), fun _ ↦ Args.gives_invalid _⟩
      refine (Number.utf8ByteSize_toFixed_le x n).trans ?_
      rw [maxStringLength]
      omega
    · exact Args.gives_invalid _
  case h_2 => exact absurd (by decide) hname

theorem yields_callMethod {target : Value} (htarget : target.Bounded K) {name : String}
    (hname : name ∉ uncheckedFunctions) {items : List (Arg φ)} (hargs : Args.Bounded K P items) :
    (callMethod target name items).Yields (Value.Bounded K) P (Value.Bounded K) := by
  unfold callMethod
  dsimp only
  split
  · next method h =>
    refine (?_ : StaysBounded K method) P ⟨name, items⟩ hargs
    cases target with
    | undefined | null =>
      cases h
      exact fun _ _ _ ↦ yields_fail _
    | string s => exact textMethod_staysBounded (Value.bounded_string.mp htarget) hname h
    | array vs => exact listMethod_staysBounded (Value.bounded_array.mp htarget) hname h
    | number x => exact numberMethod_staysBounded hname h
    | bool b =>
      dsimp only at h
      split at h
      · next htoString => exact absurd (htoString ▸ hname) (by decide)
      · cases h
    | object members => cases h
  · exact yields_fail _

namespace GlobalFunction

theorem bounded_ownEntries? {v : Value} (h : v.Bounded K) {es : List (String × Value)}
    (hes : ownEntries? v = some es) : ∀ e ∈ es, e.2.Bounded K := by
  intro e he
  cases v with
  | undefined | null => cases hes
  | bool b | number x =>
    cases hes
    cases he
  | string s =>
    cases hes
    obtain ⟨c, -, hc⟩ := List.mem_map.mp (List.of_mem_zip he).2
    exact hc ▸ Value.bounded_ofChar c
  | array items =>
    cases hes
    exact Value.bounded_array.mp h e.2 (List.of_mem_zip he).2
  | object members =>
    cases hes
    exact (Value.bounded_object.mp h e he).2

theorem gives_values {args : Args φ} (hargs : Args.Bounded K P args.items) :
    Gives (Value.Bounded K) (entries (fun e ↦ e.2) args) := by
  rw [entries, gives_bind]
  refine (Args.gives_value hargs 0).mono fun v hv ↦ ?_
  split
  · next es hes =>
    exact (gives_pure _).mpr (Value.bounded_array.mpr (List.forall_mem_map.mpr (bounded_ownEntries? hv hes)))
  · exact Args.gives_invalid _

end GlobalFunction

open GlobalFunction

theorem gives_callGlobal {space name : String} (hname : name ∉ uncheckedFunctions) {items : List (Arg φ)}
    (hargs : Args.Bounded K P items) : Gives (Value.Bounded K) (callGlobal space name items) := by
  unfold callGlobal
  dsimp only
  split
  case h_1 | h_3 | h_4 | h_5 => exact absurd (by decide) hname
  case h_2 => exact gives_values hargs
  case h_12 => simp
  case h_13 => exact gives_error _
  all_goals simp [extreme, onNumber, gives_ite]

theorem gives_callGlobalFunction {name : String} (hname : name ∉ uncheckedFunctions) (items : List (Arg φ)) :
    Gives (Value.Bounded K) (callGlobalFunction name items) := by
  rw [callGlobalFunction, gives_bind]
  refine gives_of_forall (fun v ↦ ?_) _
  split
  · exact absurd (by decide) hname
  all_goals simp

end

end TemplatedForms
