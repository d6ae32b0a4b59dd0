import TemplatedForms.Number.Whole
import TemplatedForms.Proofs.Number.Equality
import TemplatedForms.Proofs.Number.Reading

namespace TemplatedForms.Number

variable {b : Binary} {x : Float} {n : Nat}

theorem binary?_eq_none_iff : binary? x = none ↔ x.isFinite = false := by
  change _ ↔ x.toModel.unpack.isFinite = false
  rw [binary?]
  cases x.toModel.unpack with
  | notANumber | infinity => exact iff_of_true rfl rfl
  | zero | finite => exact iff_of_false (Option.some_ne_none _) Bool.noConfusion

theorem exists_binary?_of_zero (h : (x == 0) = true) :
    ∃ negative, binary? x = some ⟨negative, 0, -1074⟩ := by
  have hzero : (0 : Float).toModel.unpack = .zero .positive := rfl
  rw [float_beq_iff, hzero] at h
  obtain ⟨s, hx⟩ : ∃ s, x.toModel.unpack = .zero s := by
    rcases h with ⟨hx, -⟩ | ⟨s, -, hx, -⟩
    · exact ⟨_, hx⟩
    · exact ⟨s, hx⟩
  exact ⟨s == .negative, by rw [binary?, hx]⟩

theorem significand_eq_zero_iff (hb : binary? x = some b) : b.significand = 0 ↔ (x == 0) = true := by
  constructor
  · intro h
    obtain ⟨hlegal, rfl⟩ := Binary.exists_of_binary? hb
    rw [float_beq_iff, Binary.unpack_toFloat hlegal, Binary.unpacked_of_zero h]
    exact .inr ⟨b.floatSign, .positive, rfl, rfl⟩
  · intro h
    obtain ⟨negative, hx⟩ := exists_binary?_of_zero h
    rw [hx] at hb
    obtain rfl := Option.some.inj hb
    rfl

namespace Binary

theorem value_mul_denominator (b : Binary) : b.value * b.denominator = b.numerator := by
  rw [value, numerator, denominator, mul_assoc]
  change _ * (2 ^ b.exponent * ((2 ^ (-b.exponent).toNat : Nat) : ℚ)) =
    ((b.significand * 2 ^ b.exponent.toNat : Nat) : ℚ)
  push_cast
  rw [zpow_mul_pow_toNat (by norm_num)]

theorem denominator_pos (b : Binary) : 0 < b.denominator := Nat.two_pow_pos _

theorem value_eq_natCast_iff : b.value = n ↔ b.isInteger = true ∧ b.wholePart = n := by
  have hpos := b.denominator_pos
  have hne : (b.denominator : ℚ) ≠ 0 := by exact_mod_cast hpos.ne'
  have hvalue : b.value = n ↔ b.numerator = n * b.denominator := by
    rw [← mul_left_inj' hne, value_mul_denominator]
    exact_mod_cast Iff.rfl
  rw [hvalue, isInteger, wholePart, beq_iff_eq]
  constructor
  · intro h
    rw [h]
    exact ⟨Nat.mul_mod_left n _, Nat.mul_div_cancel n hpos⟩
  · rintro ⟨hmod, rfl⟩
    exact (Nat.div_mul_cancel (Nat.dvd_of_mod_eq_zero hmod)).symm

theorem value_pos (hpos : 0 < b.significand) : 0 < b.value := by
  have hsignificand : (0 : ℚ) < b.significand := by exact_mod_cast hpos
  rw [value]
  positivity

end Binary

theorem Decimal.toFloat_natCast (n : Nat) : (⟨n, 0⟩ : Decimal).toFloat = Float.ofNat n := by
  rw [toFloat]
  split
  · next h =>
    dsimp only at h
    rw [h]
    rfl
  · rw [if_neg (by simp), if_neg (by dsimp only; omega)]
    rfl

theorem ofNat_of_rounds (hb : b.Legal) (hpos : 0 < b.significand) (hv : b.Rounds n) :
    Float.ofNat n = b.magnitude.toFloat := by
  rw [← Decimal.toFloat_natCast]
  refine Decimal.toFloat_eq hb hpos ?_
  rwa [Decimal.value_mk, zpow_zero, mul_one]

theorem ofInt_eq (i : Int) :
    Float.ofInt i = if i < 0 then -Float.ofNat i.natAbs else Float.ofNat i.natAbs := by
  cases i with
  | ofNat k => rfl
  | negSucc k => rw [if_pos (Int.negSucc_lt_zero k)]; rfl

theorem ofInt_of_integer? (hb : binary? x = some b) (hpos : 0 < b.significand) {i : Int}
    (hi : integer? x = some i) : Float.ofInt i = x := by
  obtain ⟨hlegal, rfl⟩ := Binary.exists_of_binary? hb
  rw [integer?, hb] at hi
  dsimp only at hi
  split at hi
  · next hinteger =>
    obtain rfl := Option.some.inj hi
    have hvalue : b.value = b.wholePart := Binary.value_eq_natCast_iff.mpr ⟨hinteger, rfl⟩
    have hwhole : 0 < b.wholePart := by
      have hlt := Binary.value_pos hpos
      rw [hvalue] at hlt
      exact_mod_cast hlt
    have hmagnitude : Float.ofNat b.wholePart = b.magnitude.toFloat :=
      ofNat_of_rounds hlegal hpos (hvalue ▸ Binary.rounds_value b)
    rw [ofInt_eq, Binary.signed]
    cases hn : b.negative with
    | false =>
      rw [if_neg Bool.false_ne_true, if_neg (by omega), Int.natAbs_natCast, hmagnitude, Binary.magnitude,
        ← hn]
    | true =>
      rw [if_pos rfl, if_pos (by omega), Int.natAbs_neg, Int.natAbs_natCast, hmagnitude,
        Binary.neg_magnitude_toFloat hlegal hn]
  · cases hi

theorem exists_binary?_ofNat (h : n < 2 ^ 53) :
    ∃ b, binary? (Float.ofNat n) = some b ∧ b.negative = false ∧ b.value = n := by
  rcases Nat.eq_zero_or_pos n with rfl | hpos
  · exact ⟨⟨false, 0, -1074⟩, rfl, rfl, by simp [Binary.value]⟩
  · have hlog : n.log2 ≤ 52 := Nat.le_of_lt_succ ((Nat.log2_lt (Nat.ne_of_gt hpos)).mpr h)
    have hlegal := Binary.aligned_legal (k := 0) hpos hlog (by decide) (by decide)
    have hfull := Binary.aligned_full (k := 0) hpos hlog
    have hvalue : (Binary.aligned n 0).value = n := by rw [Binary.value_aligned hlog, zpow_zero, mul_one]
    refine ⟨.aligned n 0, ?_, rfl, hvalue⟩
    rw [ofNat_of_rounds hlegal (by omega) (hvalue ▸ Binary.rounds_value _)]
    exact Binary.binary?_toFloat hlegal

theorem whole_ofNat (h : n < 2 ^ 53) : Whole.ofFloat (Float.ofNat n) = .int n := by
  obtain ⟨b, hb, hn, hvalue⟩ := exists_binary?_ofNat h
  rw [Whole.ofFloat, hb]
  dsimp only
  rw [Binary.signed, hn, (Binary.value_eq_natCast_iff.mp hvalue).2, if_neg Bool.false_ne_true]

section

open Float.Model (UnpackedFloat)
open Float.Model.UnpackedFloat

end

end TemplatedForms.Number
