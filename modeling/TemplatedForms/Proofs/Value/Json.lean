import TemplatedForms.Proofs.Number.Integer
import TemplatedForms.Proofs.Value.Equality
import TemplatedForms.Value.Json

namespace TemplatedForms.Value

open Number

def normalNumber (x : Float) : Value :=
  if x.isFinite then .number (if x == 0 then 0 else x) else .null

mutual

/-- A value with undefined made null, members of objects left out where they are undefined, and numbers as
JSON has them. -/
def normalForm : Value → Value
  | .undefined | .null => .null
  | .bool b => .bool b
  | .number x => normalNumber x
  | .string s => .string s
  | .array items => .array (normalItems items)
  | .object members => .object (normalMembers members)

def normalItems : List Value → List Value
  | [] => []
  | v :: vs => normalForm v :: normalItems vs

def normalMembers : List (String × Value) → List (String × Value)
  | [] => []
  | (key, v) :: ms => if v.isUndefined then normalMembers ms else (key, normalForm v) :: normalMembers ms

end

/-- JSON has the value as it is, apart from what is in it. -/
def HasJson : Value → Prop
  | .undefined => False
  | .number x => x.isFinite = true ∧ x ≠ -0.0
  | _ => True

variable {x : Float}

theorem numberToJson_of_not_finite (h : x.isFinite = false) : numberToJson x = .null := by
  rw [numberToJson, binary?_eq_none_iff.mpr h]

theorem numberToJson_of_zero (h : (x == 0) = true) : numberToJson x = .number (.int 0) := by
  obtain ⟨negative, hb⟩ := exists_binary?_of_zero h
  have hvalue : (⟨negative, 0, -1074⟩ : Binary).value = (0 : Nat) := by simp [Binary.value]
  obtain ⟨hinteger, hwhole⟩ := Binary.value_eq_natCast_iff.mp hvalue
  have hi : integer? x = some 0 := by
    rw [integer?, hb]
    dsimp only
    rw [if_pos hinteger, hwhole, Binary.signed]
    split <;> rfl
  rw [numberToJson, hb, hi]
  rfl

theorem exists_numberToJson (hfinite : x.isFinite = true) (hzero : (x == 0) = false) :
    ∃ n : JsonNumber, numberToJson x = .number n ∧ n.toFloat = x := by
  obtain ⟨b, hb⟩ := exists_binary? hfinite
  have hpos : 0 < b.significand := by
    refine Nat.pos_of_ne_zero fun h ↦ ?_
    rw [(significand_eq_zero_iff hb).mp h] at hzero
    cases hzero
  rw [numberToJson, hb]
  cases hi : integer? x with
  | none => exact ⟨.float x, rfl, rfl⟩
  | some i =>
    have hx := ofInt_of_integer? hb hpos hi
    dsimp only
    split
    · next hle =>
      rw [Nat.pow_eq] at hle
      refine ⟨.int (min i 0x7FFFFFFFFFFFFFFF), rfl, ?_⟩
      rw [JsonNumber.toFloat]
      by_cases hmax : i ≤ 0x7FFFFFFFFFFFFFFF
      · rw [min_eq_left hmax, hx]
      · obtain rfl : i = 0x8000000000000000 := by omega
        rw [min_eq_right (by decide), ← hx]
        rfl
    · exact ⟨.float x, rfl, rfl⟩

theorem ofJson_numberToJson (x : Float) : ofJson (numberToJson x) = normalNumber x := by
  rw [normalNumber]
  cases hfinite : x.isFinite with
  | false =>
    rw [numberToJson_of_not_finite hfinite]
    rfl
  | true =>
    cases hzero : x == 0 with
    | true =>
      rw [numberToJson_of_zero hzero]
      rfl
    | false =>
      obtain ⟨n, hn, hx⟩ := exists_numberToJson hfinite hzero
      rw [hn, ofJson, hx]
      rfl

theorem toJson_normalNumber (x : Float) : (normalNumber x).toJson = numberToJson x := by
  rw [normalNumber]
  cases hfinite : x.isFinite with
  | false =>
    rw [numberToJson_of_not_finite hfinite]
    rfl
  | true =>
    cases hzero : x == 0 with
    | true =>
      rw [numberToJson_of_zero hzero, if_pos rfl, if_pos rfl, toJson]
      exact numberToJson_of_zero rfl
    | false => rfl

theorem eq_zero_of_ne (h : (x == 0) = true) (hx : x ≠ -0.0) : x = 0 := by
  obtain ⟨negative, hb⟩ := exists_binary?_of_zero h
  obtain ⟨-, rfl⟩ := Binary.exists_of_binary? hb
  cases negative with
  | false => rfl
  | true => exact absurd rfl hx

theorem normalNumber_eq_self_iff : normalNumber x = .number x ↔ x.isFinite = true ∧ x ≠ -0.0 := by
  have hne : (0 : Float) ≠ -0.0 := by decide
  rw [normalNumber]
  cases hfinite : x.isFinite with
  | false => simp
  | true =>
    cases hzero : x == 0 with
    | true =>
      simp only [if_true, number.injEq, true_and]
      exact ⟨fun h ↦ h ▸ hne, fun h ↦ (eq_zero_of_ne hzero h).symm⟩
    | false =>
      have hx : x ≠ -0.0 := by
        rintro rfl
        cases hzero
      simp [hx]

theorem itemsToJson_eq (vs : List Value) : itemsToJson vs = vs.map toJson := by
  induction vs with
  | nil => rfl
  | cons v vs ih => rw [itemsToJson, ih, List.map_cons]

theorem membersToJson_eq (ms : List (String × Value)) :
    membersToJson ms = (ms.filter fun m ↦ !m.2.isUndefined).map fun m ↦ (m.1, m.2.toJson) := by
  induction ms with
  | nil => rfl
  | cons m ms ih => rw [membersToJson, ih, List.filter_cons]; cases m.2.isUndefined <;> rfl

theorem itemsOfJson_eq (js : List Json) : itemsOfJson js = js.map ofJson := by
  induction js with
  | nil => rfl
  | cons j js ih => rw [itemsOfJson, ih, List.map_cons]

theorem membersOfJson_eq (ms : List (String × Json)) :
    membersOfJson ms = ms.map fun m ↦ (m.1, ofJson m.2) := by
  induction ms with
  | nil => rfl
  | cons m ms ih => rw [membersOfJson, ih, List.map_cons]

theorem normalItems_eq (vs : List Value) : normalItems vs = vs.map normalForm := by
  induction vs with
  | nil => rfl
  | cons v vs ih => rw [normalItems, ih, List.map_cons]

theorem normalMembers_eq (ms : List (String × Value)) :
    normalMembers ms = (ms.filter fun m ↦ !m.2.isUndefined).map fun m ↦ (m.1, m.2.normalForm) := by
  induction ms with
  | nil => rfl
  | cons m ms ih => rw [normalMembers, ih, List.filter_cons]; cases m.2.isUndefined <;> rfl

theorem isUndefined_normalForm (v : Value) : v.normalForm.isUndefined = false := by
  cases v with
  | number x =>
    rw [normalForm, normalNumber]
    split <;> rfl
  | _ => rfl

theorem ofJson_toJson (v : Value) : ofJson v.toJson = v.normalForm := by
  induction v using induction with
  | plain v hplain =>
    cases v with
    | array | object => cases hplain
    | number x => exact ofJson_numberToJson x
    | undefined | null | bool | string => rfl
  | array items ih =>
    rw [toJson, ofJson, normalForm, itemsToJson_eq, itemsOfJson_eq, normalItems_eq, List.map_map]
    exact congrArg array (List.map_congr_left ih)
  | object members ih =>
    rw [toJson, ofJson, normalForm, membersToJson_eq, membersOfJson_eq, normalMembers_eq, List.map_map]
    refine congrArg object (List.map_congr_left fun m hm ↦ ?_)
    exact congrArg (Prod.mk m.1) (ih m (List.mem_of_mem_filter hm))

theorem toJson_normalForm (v : Value) : v.normalForm.toJson = v.toJson := by
  induction v using induction with
  | plain v hplain =>
    cases v with
    | array | object => cases hplain
    | number x => exact toJson_normalNumber x
    | undefined | null | bool | string => rfl
  | array items ih =>
    rw [normalForm, toJson, toJson, itemsToJson_eq, itemsToJson_eq, normalItems_eq, List.map_map]
    exact congrArg Json.array (List.map_congr_left ih)
  | object members ih =>
    have hkept : (normalMembers members).filter (fun m ↦ !m.2.isUndefined) = normalMembers members := by
      rw [List.filter_eq_self, normalMembers_eq]
      intro m hm
      obtain ⟨n, -, rfl⟩ := List.mem_map.mp hm
      rw [isUndefined_normalForm]
      rfl
    rw [normalForm, toJson, toJson, membersToJson_eq, membersToJson_eq, hkept, normalMembers_eq, List.map_map]
    refine congrArg Json.object (List.map_congr_left fun m hm ↦ ?_)
    exact congrArg (Prod.mk m.1) (ih m (List.mem_of_mem_filter hm))

section

variable {P : Value → Prop}

theorem forall_part_plain {v : Value} (hv : v.isComposite = false) : (∀ w, Part w v → P w) ↔ P v :=
  ⟨fun h ↦ h v .self, fun h _ hw ↦ eq_of_part hw hv ▸ h⟩

theorem forall_part_array {items : List Value} (hself : P (.array items)) :
    (∀ w, Part w (.array items) → P w) ↔ ∀ v ∈ items, ∀ w, Part w v → P w := by
  simp only [part_array]
  constructor
  · exact fun h v hv w hw ↦ h w (.inr ⟨v, hv, hw⟩)
  · rintro h w (rfl | ⟨v, hv, hw⟩)
    · exact hself
    · exact h v hv w hw

theorem forall_part_object {members : List (String × Value)} (hself : P (.object members)) :
    (∀ w, Part w (.object members) → P w) ↔ ∀ m ∈ members, ∀ w, Part w m.2 → P w := by
  simp only [part_object]
  constructor
  · exact fun h m hm w hw ↦ h w (.inr ⟨m, hm, hw⟩)
  · rintro h w (rfl | ⟨m, hm, hw⟩)
    · exact hself
    · exact h m hm w hw

end

theorem map_eq_self_iff {α : Type} {f : α → α} {l : List α} : l.map f = l ↔ ∀ a ∈ l, f a = a := by
  conv_lhs => rhs; rw [← List.map_id l]
  exact List.map_inj_left

theorem normalMembers_eq_self_iff {ms : List (String × Value)} :
    normalMembers ms = ms ↔ ∀ m ∈ ms, m.2.normalForm = m.2 := by
  rw [normalMembers_eq]
  constructor
  · intro h
    have hdefined := congrArg List.length h
    rw [List.length_map, List.length_filter_eq_length_iff] at hdefined
    rw [List.filter_eq_self.mpr hdefined, map_eq_self_iff] at h
    exact fun m hm ↦ congrArg Prod.snd (h m hm)
  · intro h
    have hdefined : ∀ m ∈ ms, (!m.2.isUndefined) = true := by
      intro m hm
      rw [← h m hm, isUndefined_normalForm]
      rfl
    rw [List.filter_eq_self.mpr hdefined, map_eq_self_iff]
    exact fun m hm ↦ congrArg (Prod.mk m.1) (h m hm)

theorem normalForm_eq_self_iff {v : Value} : v.normalForm = v ↔ ∀ w, Part w v → w.HasJson := by
  induction v using induction with
  | plain v hplain =>
    rw [forall_part_plain hplain]
    cases v with
    | array | object => cases hplain
    | number x => exact normalNumber_eq_self_iff
    | undefined => exact iff_of_false nofun id
    | null | bool | string => exact iff_of_true rfl trivial
  | array items ih =>
    rw [forall_part_array trivial, normalForm, array.injEq, normalItems_eq, map_eq_self_iff]
    exact forall₂_congr ih
  | object members ih =>
    rw [forall_part_object trivial, normalForm, object.injEq, normalMembers_eq_self_iff]
    exact forall₂_congr ih

/-- A value that goes through JSON comes back in its normal form, with its keys in their order, and the
normal form has the same JSON. The value itself comes back exactly when nothing in it is undefined, a number
that is not finite, or negative zero. -/
theorem json_normalizes (v : Value) :
    ofJson v.toJson = v.normalForm ∧ v.normalForm.toJson = v.toJson ∧
      (ofJson v.toJson = v ↔ ∀ w, Part w v → w.HasJson) :=
  ⟨ofJson_toJson v, toJson_normalForm v, by rw [ofJson_toJson, normalForm_eq_self_iff]⟩

end TemplatedForms.Value
