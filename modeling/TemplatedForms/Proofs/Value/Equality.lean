import Mathlib.Data.List.Forall2
import Mathlib.Data.List.Perm.Subperm
import TemplatedForms.Proofs.Entries
import TemplatedForms.Proofs.Number.Equality
import TemplatedForms.Value.Equality

namespace TemplatedForms.Value

open Number

inductive Part (w : Value) : Value → Prop
  | self : Part w w
  | item {v : Value} {items : List Value} : v ∈ items → Part w v → Part w (.array items)
  | member {m : String × Value} {members : List (String × Value)} :
    m ∈ members → Part w m.2 → Part w (.object members)

/-- No object in a value has a key twice. -/
def WellFormed (v : Value) : Prop := ∀ members, Part (.object members) v → Entries.Distinct members

def HasNaN (v : Value) : Prop := ∃ x, Part (.number x) v ∧ x.isNaN = true

section

variable {v w : Value} {items : List Value} {members : List (String × Value)}

theorem part_array : Part w (.array items) ↔ w = .array items ∨ ∃ v ∈ items, Part w v := by
  constructor
  · rintro (_ | ⟨hv, h⟩ | _)
    · exact .inl rfl
    · exact .inr ⟨_, hv, h⟩
  · rintro (rfl | ⟨v, hv, h⟩)
    · exact .self
    · exact .item hv h

theorem part_object : Part w (.object members) ↔ w = .object members ∨ ∃ m ∈ members, Part w m.2 := by
  constructor
  · rintro (_ | _ | ⟨hm, h⟩)
    · exact .inl rfl
    · exact .inr ⟨_, hm, h⟩
  · rintro (rfl | ⟨m, hm, h⟩)
    · exact .self
    · exact .member hm h

theorem eq_of_part (h : Part w v) (hv : v.isComposite = false) : w = v := by
  cases h with
  | self => rfl
  | item | member => cases hv

theorem wellFormed_of_isComposite (hv : v.isComposite = false) : v.WellFormed := by
  intro members h
  rw [← eq_of_part h hv] at hv
  cases hv

theorem wellFormed_array : (array items).WellFormed ↔ ∀ v ∈ items, v.WellFormed := by
  simp only [WellFormed, part_array]
  constructor
  · exact fun h v hv members hpart ↦ h members (.inr ⟨v, hv, hpart⟩)
  · rintro h members (hself | ⟨v, hv, hpart⟩)
    · cases hself
    · exact h v hv members hpart

theorem wellFormed_object :
    (object members).WellFormed ↔ Entries.Distinct members ∧ ∀ m ∈ members, m.2.WellFormed := by
  simp only [WellFormed, part_object]
  constructor
  · exact fun h ↦ ⟨h members (.inl rfl), fun m hm ms hpart ↦ h ms (.inr ⟨m, hm, hpart⟩)⟩
  · rintro ⟨hdistinct, h⟩ ms (hself | ⟨m, hm, hpart⟩)
    · cases hself
      exact hdistinct
    · exact h m hm ms hpart

theorem hasNaN_array : (array items).HasNaN ↔ ∃ v ∈ items, v.HasNaN := by
  simp only [HasNaN, part_array]
  constructor
  · rintro ⟨x, hself | ⟨v, hv, hpart⟩, hx⟩
    · cases hself
    · exact ⟨v, hv, x, hpart, hx⟩
  · rintro ⟨v, hv, x, hpart, hx⟩
    exact ⟨x, .inr ⟨v, hv, hpart⟩, hx⟩

theorem hasNaN_object : (object members).HasNaN ↔ ∃ m ∈ members, m.2.HasNaN := by
  simp only [HasNaN, part_object]
  constructor
  · rintro ⟨x, hself | ⟨m, hm, hpart⟩, hx⟩
    · cases hself
    · exact ⟨m, hm, x, hpart, hx⟩
  · rintro ⟨m, hm, x, hpart, hx⟩
    exact ⟨x, .inr ⟨m, hm, hpart⟩, hx⟩

theorem hasNaN_of_isComposite (hv : v.isComposite = false) :
    v.HasNaN ↔ ∃ x, v = .number x ∧ x.isNaN = true := by
  constructor
  · rintro ⟨x, hpart, hx⟩
    exact ⟨x, (eq_of_part hpart hv).symm, hx⟩
  · rintro ⟨x, rfl, hx⟩
    exact ⟨x, .self, hx⟩

end

@[elab_as_elim]
theorem induction {motive : Value → Prop} (plain : ∀ v, v.isComposite = false → motive v)
    (array : ∀ items, (∀ v ∈ items, motive v) → motive (.array items))
    (object : ∀ members, (∀ m ∈ members, motive m.2) → motive (.object members)) (v : Value) : motive v :=
  match v with
  | .array items => array items fun v hv ↦
    have := List.sizeOf_lt_of_mem hv
    induction plain array object v
  | .object members => object members fun m hm ↦
    have hmember := List.sizeOf_lt_of_mem hm
    have : sizeOf m.2 < sizeOf m := by
      obtain ⟨key, v⟩ := m
      simp only [Prod.mk.sizeOf_spec]
      omega
    induction plain array object m.2
  | .undefined | .null | .bool _ | .number _ | .string _ => plain _ rfl
termination_by sizeOf v

section Lists

variable {α : Type} {R : α → α → Prop} {xs ys zs : List α}

theorem forall₂_symm_of_mem (hsymm : ∀ x ∈ xs, ∀ y ∈ ys, R x y → R y x) (h : List.Forall₂ R xs ys) :
    List.Forall₂ R ys xs := by
  induction h with
  | nil => exact .nil
  | cons hxy h ih =>
    refine .cons (hsymm _ List.mem_cons_self _ List.mem_cons_self hxy) (ih fun x hx y hy ↦ ?_)
    exact hsymm x (List.mem_cons_of_mem _ hx) y (List.mem_cons_of_mem _ hy)

theorem forall₂_trans_of_mem (htrans : ∀ x ∈ xs, ∀ y z, R x y → R y z → R x z) (h : List.Forall₂ R xs ys)
    (h' : List.Forall₂ R ys zs) : List.Forall₂ R xs zs := by
  induction h generalizing zs with
  | nil => exact h'
  | cons hxy h ih =>
    cases h' with
    | cons hyz h' =>
      refine .cons (htrans _ List.mem_cons_self _ _ hxy hyz) (ih (fun x hx ↦ ?_) h')
      exact htrans x (List.mem_cons_of_mem _ hx)

end Lists

theorem itemsEqual_iff {xs ys : List Value} :
    itemsEqual xs ys = true ↔ List.Forall₂ (fun x y ↦ strictEquals x y = true) xs ys := by
  induction xs generalizing ys with
  | nil => cases ys <;> simp [itemsEqual]
  | cons x xs ih => cases ys <;> simp [itemsEqual, ih]

theorem membersEqual_iff {xs ys : List (String × Value)} :
    membersEqual xs ys = true ↔ ∀ m ∈ xs, ∃ y, Entries.get? m.1 ys = some y ∧ strictEquals m.2 y = true := by
  induction xs with
  | nil => simp [membersEqual]
  | cons m xs ih =>
    rw [membersEqual, Bool.and_eq_true, ih, List.forall_mem_cons, Entries.get?]
    cases List.lookup m.1 ys <;> simp

theorem strictEquals_array {xs ys : List Value} :
    strictEquals (.array xs) (.array ys) = true ↔
      List.Forall₂ (fun x y ↦ strictEquals x y = true) xs ys := by
  rw [strictEquals, itemsEqual_iff]

theorem strictEquals_object {xs ys : List (String × Value)} :
    strictEquals (.object xs) (.object ys) = true ↔
      xs.length = ys.length ∧
        ∀ m ∈ xs, ∃ y, Entries.get? m.1 ys = some y ∧ strictEquals m.2 y = true := by
  rw [strictEquals, Bool.and_eq_true, beq_iff_eq, membersEqual_iff]

theorem eq_or_numbers_of_strictEquals {a b : Value} (ha : a.isComposite = false)
    (h : strictEquals a b = true) : b = a ∨ ∃ x y, a = .number x ∧ b = .number y ∧ (x == y) = true := by
  cases a with
  | array | object => cases ha
  | undefined | null =>
    cases b <;> simp only [strictEquals, Bool.false_eq_true] at h
    exact .inl rfl
  | bool x | string x =>
    cases b <;> simp only [strictEquals, Bool.false_eq_true, beq_iff_eq] at h
    exact .inl (h ▸ rfl)
  | number x =>
    cases b <;> simp only [strictEquals, Bool.false_eq_true] at h
    exact .inr ⟨x, _, rfl, rfl, h⟩

theorem members_symm {xs ys : List (String × Value)} (hxs : Entries.Distinct xs) (hys : Entries.Distinct ys)
    (hlength : xs.length = ys.length)
    (h : ∀ m ∈ xs, ∃ y, Entries.get? m.1 ys = some y ∧ strictEquals m.2 y = true) :
    ∀ n ∈ ys, ∃ m ∈ xs, Entries.get? n.1 xs = some m.2 ∧ strictEquals m.2 n.2 = true := by
  have hsub : Entries.keys xs ⊆ Entries.keys ys := by
    intro key hkey
    obtain ⟨m, hm, rfl⟩ := List.mem_map.mp hkey
    obtain ⟨y, hy, -⟩ := h m hm
    exact List.mem_map.mpr ⟨_, Entries.pair_mem_of_get? hy, rfl⟩
  have hperm : (Entries.keys xs).Perm (Entries.keys ys) :=
    (hxs.subperm hsub).perm_of_length_le (by simp [Entries.keys, hlength])
  intro n hn
  obtain ⟨m, hm, hkey⟩ := List.mem_map.mp (hperm.mem_iff.mpr (List.mem_map.mpr ⟨n, hn, rfl⟩))
  obtain ⟨y, hy, hequal⟩ := h m hm
  obtain rfl : n.2 = y := by
    rw [hkey, Entries.get?_of_mem hys hn] at hy
    exact Option.some.inj hy
  exact ⟨m, hm, hkey ▸ Entries.get?_of_mem hxs hm, hequal⟩

theorem strictEquals_symm {a b : Value} (ha : a.WellFormed) (hb : b.WellFormed)
    (h : strictEquals a b = true) : strictEquals b a = true := by
  induction a using induction generalizing b with
  | plain a hplain =>
    obtain rfl | ⟨x, y, rfl, rfl, hxy⟩ := eq_or_numbers_of_strictEquals hplain h
    · exact h
    · exact float_beq_symm hxy
  | array xs ih =>
    cases b with
    | array ys =>
      rw [wellFormed_array] at ha hb
      rw [strictEquals_array] at h ⊢
      exact forall₂_symm_of_mem (fun x hx y hy ↦ ih x hx (ha x hx) (hb y hy)) h
    | _ => simp [strictEquals] at h
  | object xs ih =>
    cases b with
    | object ys =>
      rw [wellFormed_object] at ha hb
      rw [strictEquals_object] at h ⊢
      refine ⟨h.1.symm, fun n hn ↦ ?_⟩
      obtain ⟨m, hm, hfound, hequal⟩ := members_symm ha.1 hb.1 h.1 h.2 n hn
      exact ⟨m.2, hfound, ih m hm (ha.2 m hm) (hb.2 n hn) hequal⟩
    | _ => simp [strictEquals] at h

theorem strictEquals_comm {a b : Value} (ha : a.WellFormed) (hb : b.WellFormed) :
    strictEquals a b = strictEquals b a :=
  Bool.eq_iff_iff.mpr ⟨strictEquals_symm ha hb, strictEquals_symm hb ha⟩

theorem strictEquals_trans {a b c : Value} (h : strictEquals a b = true) (h' : strictEquals b c = true) :
    strictEquals a c = true := by
  induction a using induction generalizing b c with
  | plain a hplain =>
    obtain rfl | ⟨x, y, rfl, rfl, hxy⟩ := eq_or_numbers_of_strictEquals hplain h
    · exact h'
    · obtain rfl | ⟨y', z, hy, rfl, hyz⟩ := eq_or_numbers_of_strictEquals rfl h'
      · exact h
      · cases hy
        exact float_beq_trans hxy hyz
  | array xs ih =>
    cases b with
    | array ys =>
      cases c with
      | array zs =>
        rw [strictEquals_array] at h h' ⊢
        exact forall₂_trans_of_mem (fun x hx y z ↦ ih x hx) h h'
      | _ => simp [strictEquals] at h'
    | _ => simp [strictEquals] at h
  | object xs ih =>
    cases b with
    | object ys =>
      cases c with
      | object zs =>
        rw [strictEquals_object] at h h' ⊢
        refine ⟨h.1.trans h'.1, fun m hm ↦ ?_⟩
        obtain ⟨y, hy, hmy⟩ := h.2 m hm
        obtain ⟨z, hz, hyz⟩ := h'.2 _ (Entries.pair_mem_of_get? hy)
        exact ⟨z, hz, ih m hm hmy hyz⟩
      | _ => simp [strictEquals] at h'
    | _ => simp [strictEquals] at h

theorem strictEquals_self_iff {v : Value} (hv : v.WellFormed) : strictEquals v v = true ↔ ¬v.HasNaN := by
  induction v using induction with
  | plain v hplain =>
    rw [hasNaN_of_isComposite hplain]
    cases v with
    | array | object => cases hplain
    | number x =>
      rw [strictEquals, float_beq_self_iff]
      simp only [number.injEq, exists_eq_left']
    | undefined | null | bool | string => simp [strictEquals]
  | array items ih =>
    rw [wellFormed_array] at hv
    rw [strictEquals_array, hasNaN_array, List.forall₂_same, not_exists]
    exact forall_congr' fun v ↦ (forall_congr' fun h ↦ ih v h (hv v h)).trans not_and.symm
  | object members ih =>
    rw [wellFormed_object] at hv
    rw [strictEquals_object, hasNaN_object, not_exists, and_iff_right rfl]
    refine forall_congr' fun m ↦ (forall_congr' fun h ↦ ?_).trans not_and.symm
    rw [Entries.get?_of_mem hv.1 h, ← ih m h (hv.2 m h)]
    simp

/-- A value with the members of the objects in it, at any depth, in another order. -/
inductive Reordered : Value → Value → Prop
  | refl (v : Value) : Reordered v v
  | trans {u v w : Value} : Reordered u v → Reordered v w → Reordered u w
  | members {ms ns : List (String × Value)} : ms.Perm ns → Reordered (.object ms) (.object ns)
  | item {v w : Value} (before after : List Value) :
    Reordered v w → Reordered (.array (before ++ v :: after)) (.array (before ++ w :: after))
  | member {v w : Value} (before after : List (String × Value)) (key : String) :
    Reordered v w →
      Reordered (.object (before ++ (key, v) :: after)) (.object (before ++ (key, w) :: after))

theorem Reordered.wellFormed {v w : Value} (h : Reordered v w) (hv : v.WellFormed) : w.WellFormed := by
  induction h with
  | refl v => exact hv
  | trans _ _ ih ih' => exact ih' (ih hv)
  | members hperm =>
    rw [wellFormed_object] at hv ⊢
    exact ⟨(hperm.map _).nodup_iff.mp hv.1, fun m hm ↦ hv.2 m (hperm.mem_iff.mpr hm)⟩
  | item before after _ ih =>
    rw [wellFormed_array, List.forall_mem_append, List.forall_mem_cons] at hv ⊢
    exact ⟨hv.1, ih hv.2.1, hv.2.2⟩
  | member before after key _ ih =>
    rw [wellFormed_object, List.forall_mem_append, List.forall_mem_cons] at hv ⊢
    refine ⟨?_, hv.2.1, ih hv.2.2.1, hv.2.2.2⟩
    have hdistinct := hv.1
    rw [Entries.Distinct, Entries.keys, List.map_append, List.map_cons] at hdistinct ⊢
    exact hdistinct

theorem itemsEqual_congr {v w : Value} (h : ∀ b, strictEquals v b = strictEquals w b)
    (before after ys : List Value) :
    itemsEqual (before ++ v :: after) ys = itemsEqual (before ++ w :: after) ys := by
  induction before generalizing ys with
  | nil => cases ys <;> simp [itemsEqual, h]
  | cons x before ih => cases ys <;> simp [itemsEqual, ih]

theorem membersEqual_congr {v w : Value} (h : ∀ b, strictEquals v b = strictEquals w b)
    (before after ys : List (String × Value)) (key : String) :
    membersEqual (before ++ (key, v) :: after) ys = membersEqual (before ++ (key, w) :: after) ys := by
  induction before with
  | nil => simp [membersEqual, h]
  | cons m before ih => simp [membersEqual, ih]

theorem Reordered.strictEquals_left {v w : Value} (h : Reordered v w) (b : Value) :
    strictEquals v b = strictEquals w b := by
  induction h generalizing b with
  | refl v => rfl
  | trans _ _ ih ih' => exact (ih b).trans (ih' b)
  | members hperm =>
    cases b with
    | object ys =>
      refine Bool.eq_iff_iff.mpr ?_
      simp only [strictEquals_object, hperm.length_eq, hperm.mem_iff]
    | _ => simp [strictEquals]
  | item before after _ ih =>
    cases b with
    | array ys => exact itemsEqual_congr ih before after ys
    | _ => simp [strictEquals]
  | member before after key _ ih =>
    cases b with
    | object ys =>
      rw [strictEquals, strictEquals, membersEqual_congr ih before after ys key]
      simp
    | _ => simp [strictEquals]

theorem Reordered.strictEquals_eq {a a' b b' : Value} (ha : a.WellFormed) (hb : b.WellFormed)
    (h : Reordered a a') (h' : Reordered b b') : strictEquals a' b' = strictEquals a b :=
  calc strictEquals a' b' = strictEquals b' a' := strictEquals_comm (h.wellFormed ha) (h'.wellFormed hb)
    _ = strictEquals b a' := (h'.strictEquals_left a').symm
    _ = strictEquals a' b := strictEquals_comm hb (h.wellFormed ha)
    _ = strictEquals a b := (h.strictEquals_left b).symm

/-- The pair that stands for a pair of values when these are not compared as they are: a truth value counts
as a number, and an array or object next to a text or a number as its text. -/
def convert? (a b : Value) : Option (Value × Value) :=
  if a.isNullish || b.isNullish then none
  else
    match a, b with
    | .bool _, b => some (.number a.toNumber, b)
    | a, .bool _ => some (a, .number b.toNumber)
    | .array _, .string _ | .array _, .number _ | .object _, .string _ | .object _, .number _ =>
      some (a.toPrimitive, b)
    | .string _, .array _ | .number _, .array _ | .string _, .object _ | .number _, .object _ =>
      some (a, b.toPrimitive)
    | _, _ => none

def settledEquals (a b : Value) : Bool :=
  if a.isNullish || b.isNullish then a.isNullish && b.isNullish else numericEquals a b

/-- The comparison of two values comes to an answer after a number of conversions. -/
inductive LooselyCompares : Value → Value → Nat → Bool → Prop
  | settled {a b : Value} : convert? a b = none → LooselyCompares a b 0 (settledEquals a b)
  | converted {a b c d : Value} {n : Nat} {r : Bool} :
    convert? a b = some (c, d) → LooselyCompares c d n r → LooselyCompares a b (n + 1) r

theorem looseEquals_of_settled {a b : Value} (h : convert? a b = none) :
    looseEquals a b = settledEquals a b := by
  cases a <;> cases b <;> first | rfl | cases h

theorem looseEquals_of_converted {a b c d : Value} (h : convert? a b = some (c, d)) :
    looseEquals a b = looseEquals c d := by
  cases a <;> cases b <;> cases h <;> rfl

def conversions : Value → Nat
  | .bool _ | .array _ | .object _ => 1
  | _ => 0

theorem conversions_le (v : Value) : conversions v ≤ 1 := by
  cases v <;> simp [conversions]

theorem conversions_lt {a b c d : Value} (h : convert? a b = some (c, d)) :
    conversions c + conversions d < conversions a + conversions b := by
  cases a <;> cases b <;> cases h <;> simp [conversions, toPrimitive]

theorem exists_looselyCompares (a b : Value) :
    ∃ n ≤ conversions a + conversions b, LooselyCompares a b n (looseEquals a b) := by
  generalize hsize : conversions a + conversions b = size
  induction size using Nat.strongRecOn generalizing a b with
  | ind size ih =>
    cases hconvert : convert? a b with
    | none =>
      rw [looseEquals_of_settled hconvert]
      exact ⟨0, Nat.zero_le _, .settled hconvert⟩
    | some pair =>
      have hlt := conversions_lt hconvert
      obtain ⟨n, hn, hcompares⟩ := ih _ (hsize ▸ hlt) pair.1 pair.2 rfl
      rw [looseEquals_of_converted hconvert]
      exact ⟨n + 1, by omega, .converted hconvert hcompares⟩

theorem LooselyCompares.eq {a b : Value} {n : Nat} {r : Bool} (h : LooselyCompares a b n r) :
    r = looseEquals a b := by
  induction h with
  | settled hconvert => exact (looseEquals_of_settled hconvert).symm
  | converted hconvert _ ih => rw [looseEquals_of_converted hconvert, ih]

theorem numericEquals_comm {a b : Value} (ha : a.WellFormed) (hb : b.WellFormed) :
    numericEquals a b = numericEquals b a := by
  cases a <;> cases b <;> first | exact strictEquals_comm ha hb | exact float_beq_comm _ _

theorem wellFormed_boolToNumber {v : Value} (h : v.WellFormed) : v.boolToNumber.WellFormed := by
  cases v with
  | bool b => exact wellFormed_of_isComposite rfl
  | _ => exact h

theorem wellFormed_toPrimitive (v : Value) : v.toPrimitive.WellFormed := by
  cases v <;> exact wellFormed_of_isComposite rfl

theorem looseEquals_comm {a b : Value} (ha : a.WellFormed) (hb : b.WellFormed) :
    looseEquals a b = looseEquals b a := by
  have ha' := wellFormed_boolToNumber ha
  have hb' := wellFormed_boolToNumber hb
  rw [looseEquals, looseEquals, Bool.or_comm, Bool.and_comm]
  cases hA : isComposite (boolToNumber a) <;> cases hB : isComposite (boolToNumber b) <;>
    simp [hA, hB, numericEquals_comm ha' hb', numericEquals_comm ha' (wellFormed_toPrimitive _),
      numericEquals_comm (wellFormed_toPrimitive _) hb']

theorem looseEquals_of_strictEquals {a b : Value} (h : strictEquals a b = true) : looseEquals a b = true := by
  by_cases hplain : a.isComposite = false
  · obtain rfl | ⟨x, y, rfl, rfl, hxy⟩ := eq_or_numbers_of_strictEquals hplain h
    · cases b with
      | array | object => cases hplain
      | bool x => cases x <;> decide
      | undefined | null | number | string => exact h
    · exact hxy
  · cases a with
    | array | object =>
      cases b with
      | array | object => exact h
      | _ => simp [strictEquals] at h
    | _ => exact absurd rfl hplain

/-- Strict equality is symmetric and transitive, does not depend on the order in which objects have their
members, at any depth, and holds of a value and itself exactly when there is no NaN in it. The comparison for
loose equality ends for every pair, after at most two conversions; it is symmetric, and holds of whatever is
strictly equal. -/
theorem equality_laws {a b : Value} (ha : a.WellFormed) (hb : b.WellFormed) :
    strictEquals a b = strictEquals b a ∧
      (∀ c, strictEquals a b = true → strictEquals b c = true → strictEquals a c = true) ∧
      (∀ a' b', Reordered a a' → Reordered b b' → strictEquals a' b' = strictEquals a b) ∧
      (strictEquals a a = true ↔ ¬a.HasNaN) ∧
      ((∃ n ≤ 2, LooselyCompares a b n (looseEquals a b)) ∧
        ∀ n r, LooselyCompares a b n r → r = looseEquals a b) ∧
      looseEquals a b = looseEquals b a ∧
      (strictEquals a b = true → looseEquals a b = true) := by
  obtain ⟨n, hn, hcompares⟩ := exists_looselyCompares a b
  have hbound : n ≤ 2 := Nat.le_trans hn (Nat.add_le_add (conversions_le a) (conversions_le b))
  exact ⟨strictEquals_comm ha hb, fun c ↦ strictEquals_trans, fun a' b' ↦ Reordered.strictEquals_eq ha hb,
    strictEquals_self_iff ha, ⟨⟨n, hbound, hcompares⟩, fun n r ↦ LooselyCompares.eq⟩, looseEquals_comm ha hb,
    looseEquals_of_strictEquals⟩

/-- Two objects with the same members, and an array with NaN in it. -/
theorem equality_laws_two_orders_and_nan :
    let a := Value.object [("k", .array [.string "s"]), ("l", .null)]
    let b := Value.object [("l", .null), ("k", .array [.string "s"])]
    let c := Value.array [.number notANumber]
    (a.WellFormed ∧ b.WellFormed ∧ c.WellFormed) ∧ strictEquals b a = true ∧ looseEquals a b = true ∧
      strictEquals c c = false ∧ ∃ n ≤ 2, LooselyCompares c a n (looseEquals c a) := by
  intro a b c
  have hleaf (v : Value) (hv : v.isComposite = false) : v.WellFormed := wellFormed_of_isComposite hv
  have hitems : (array [.string "s"]).WellFormed := by
    simpa [wellFormed_array] using hleaf (.string "s") rfl
  have ha : a.WellFormed := by
    simp [a, wellFormed_object, Entries.Distinct, Entries.keys, hitems, hleaf .null rfl]
  have horder : Reordered a b := .members (List.Perm.swap ..)
  have hb : b.WellFormed := horder.wellFormed ha
  have hc : c.WellFormed := by
    simpa [c, wellFormed_array] using hleaf (.number notANumber) rfl
  have hself : strictEquals a a = true := rfl
  have hnan : c.HasNaN := ⟨notANumber, .item List.mem_cons_self .self, by decide +kernel⟩
  obtain ⟨hsymm, -, hreorder, -, -, -, hloose⟩ := equality_laws ha hb
  have hequal : strictEquals a b = true := by
    rw [← hreorder b b horder (.refl b), (equality_laws ha ha).2.2.1 b b horder horder]
    exact hself
  obtain ⟨-, -, -, hcself, ⟨hcompares, -⟩, -⟩ := equality_laws hc ha
  refine ⟨⟨ha, hb, hc⟩, hsymm ▸ hequal, hloose hequal, ?_, hcompares⟩
  exact Bool.eq_false_iff.mpr fun h ↦ hcself.mp h hnan

end TemplatedForms.Value
