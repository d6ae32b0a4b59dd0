import TemplatedForms.Evaluation.Globals
import TemplatedForms.Proofs.Number.Integer
import TemplatedForms.Proofs.Number.Radix

namespace TemplatedForms

open Number

variable {φ : Type}

namespace Number

/-- An integer as it is written in a base: its magnitude, with a minus sign in front only if it is negative. -/
def Spells (radix : Nat) (i : Int) (s : String) : Prop :=
  ∃ cs, s.toList = (if i < 0 then ['-'] else []) ++ cs ∧ Writes radix i.natAbs cs

end Number

namespace NumberMethod

variable {radix : Nat} {i : Int} {x : Float}

theorem toRadix?_of_integer? (hx : integer? x = some i) (hradix : radix ≠ 10) :
    toRadix? x radix = integerText? radix i := by
  have hfinite : x.isFinite = true := by
    by_contra h
    rw [integer?, binary?_eq_none_iff.mpr (by simpa using h)] at hx
    cases hx
  rw [toRadix?, hfinite, hx]
  simp [hradix]

theorem integerText?_eq_none_iff : integerText? radix i = none ↔ 2 ^ 64 < i.natAbs := by
  rw [integerText?, UInt64.size]
  split <;> simp <;> omega

theorem natAbs_le_of_integerText? {s : String} (h : integerText? radix i = some s) : i.natAbs ≤ 2 ^ 64 := by
  refine Nat.le_of_not_lt fun hlt ↦ ?_
  rw [integerText?_eq_none_iff.mpr hlt] at h
  cases h

theorem integerText?_eq_some {s : String} (h : integerText? radix i = some s) :
    s.toList = (if i < 0 then ['-'] else []) ++ (inRadix radix (min i.natAbs (2 ^ 64 - 1))).toList := by
  rw [integerText?, UInt64.size] at h
  split at h
  · obtain rfl := Option.some.inj h
    rw [String.toList_append]
    split <;> rfl
  · cases h

theorem spells_iff (h : 2 ≤ radix) (h' : radix ≤ 36) {s : String} (hs : integerText? radix i = some s) :
    Spells radix i s ↔ i.natAbs ≠ 2 ^ 64 := by
  have hle := natAbs_le_of_integerText? hs
  rw [Spells, integerText?_eq_some hs]
  constructor
  · rintro ⟨cs, hcs, hwrites⟩ hlimit
    obtain rfl := List.append_cancel_left hcs
    have hvalue := hwrites.value
    rw [readOnto_inRadix h h'] at hvalue
    omega
  · intro hne
    rw [min_eq_left (by omega)]
    exact ⟨_, rfl, inRadix_writes h h' i.natAbs⟩

end NumberMethod

open NumberMethod

theorem callMethod_toString_radix {x : Float} {i : Int} {r : Value} {radix : Nat} (rest : List (Arg φ))
    (hx : integer? x = some i) (hr : Whole.ofFloat r.toNumber = .int radix) (h : 2 ≤ radix) (h' : radix ≤ 36)
    (hten : radix ≠ 10) :
    callMethod (.number x) "toString" (.value r :: rest) =
      match integerText? radix i with
      | some s => .done (.string s)
      | none => .fail (.invalidArgument "toString" "only integers can be printed in a radix other than 10") := by
  let args : Args φ := ⟨"toString", .value r :: rest⟩
  have hundefined : r.isUndefined = false := by
    cases r with
    | undefined =>
      have hzero : Whole.ofFloat notANumber = .int 0 := rfl
      have hradix := Whole.int.inj (hzero.symm.trans hr)
      omega
    | _ => rfl
  have hwhole : args.whole 0 (.int 10) = .ok (.int radix) := by
    change (if r.isUndefined then Except.ok (Whole.int 10) else .ok (Whole.ofFloat r.toNumber)) = _
    rw [hundefined, hr]
    rfl
  change Routine.ofExcept (args.whole 0 (.int 10) >>= _) = _
  rw [hwhole]
  change Routine.ofExcept (if 2 ≤ radix ∧ radix ≤ 36 then _ else _) = _
  rw [if_pos ⟨h, h'⟩, toRadix?_of_integer? hx hten]
  cases integerText? radix i <;> rfl

/-- For a base other than ten, a call succeeds for the integers of magnitude at most `2 ^ 64`, and its text is
the integer in that base, unless the magnitude is `2 ^ 64` itself. -/
theorem radix_text_is_exact_iff {x : Float} {i : Int} {r : Value} {radix : Nat} (rest : List (Arg φ))
    (hx : integer? x = some i) (hr : Whole.ofFloat r.toNumber = .int radix) (h : 2 ≤ radix) (h' : radix ≤ 36)
    (hten : radix ≠ 10) :
    let call := callMethod (.number x) "toString" (.value r :: rest)
    ((∃ v, call = .done v) ↔ i.natAbs ≤ 2 ^ 64) ∧
      ∀ v, call = .done v → ∃ s, v = .string s ∧ (Spells radix i s ↔ i.natAbs ≠ 2 ^ 64) := by
  intro call
  have hcall : call = _ := callMethod_toString_radix rest hx hr h h' hten
  cases hs : integerText? radix i with
  | none =>
    have hlt := integerText?_eq_none_iff.mp hs
    rw [hcall, hs]
    exact ⟨⟨nofun, fun hle ↦ absurd hlt (by omega)⟩, nofun⟩
  | some s =>
    rw [hcall, hs]
    refine ⟨⟨fun _ ↦ natAbs_le_of_integerText? hs, fun _ ↦ ⟨_, rfl⟩⟩, ?_⟩
    rintro v ⟨⟩
    exact ⟨s, rfl, spells_iff h h' hs⟩

/-- A negative number in base 16. -/
theorem radix_text_is_exact_iff_negative :
    callMethod (φ := Empty) (.number (-255)) "toString" [.value (.number 16)] = .done (.string "-ff") ∧
      Spells 16 (-255) "-ff" := by
  have hx : integer? (-255) = some (-255) := by decide +kernel
  have hr : Whole.ofFloat (Value.number 16).toNumber = .int 16 := by decide +kernel
  have htext : integerText? 16 (-255) = some "-ff" := by decide +kernel
  have hcall : callMethod (φ := Empty) (.number (-255)) "toString" [.value (.number 16)] =
      .done (.string "-ff") := by
    rw [callMethod_toString_radix [] hx hr (by decide) (by decide) (by decide), htext]
  obtain ⟨-, hexact⟩ := radix_text_is_exact_iff (φ := Empty) [] hx hr (by decide) (by decide) (by decide)
  obtain ⟨s, hs, hspells⟩ := hexact _ hcall
  cases hs
  exact ⟨hcall, hspells.mpr (by decide)⟩

/-- The first number whose digits 64 bits do not hold is accepted, and its text is that of the number before
it. -/
theorem greatest_radix_text_is_one_less :
    integer? 18446744073709551616 = some 18446744073709551616 ∧
      callMethod (φ := Empty) (.number 18446744073709551616) "toString" [.value (.number 16)] =
        .done (.string "ffffffffffffffff") ∧
      ¬Spells 16 18446744073709551616 "ffffffffffffffff" := by
  have hx : integer? 18446744073709551616 = some 18446744073709551616 := by decide +kernel
  have hr : Whole.ofFloat (Value.number 16).toNumber = .int 16 := by decide +kernel
  have htext : integerText? 16 18446744073709551616 = some "ffffffffffffffff" := by decide +kernel
  refine ⟨hx, ?_, fun hspells ↦ ?_⟩
  · rw [callMethod_toString_radix [] hx hr (by decide) (by decide) (by decide), htext]
  · exact (spells_iff (by decide) (by decide) htext).mp hspells (by decide)

end TemplatedForms
