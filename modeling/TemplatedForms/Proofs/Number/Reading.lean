import TemplatedForms.Proofs.Number.Shortest

namespace TemplatedForms.Number

open Float.Model (UnpackedFloat totalExponent)
open Float.Model.UnpackedFloat

variable {b : Binary}

namespace Binary.Rounds

variable {v : ℚ}

theorem lt_max (hb : b.Legal) (hv : b.Rounds v) : v < 10 ^ (311 : Int) := by
  have hpower : 2 ^ 1024 ≤ 10 ^ 311 := by decide +kernel
  have hexponent := hb.exponent_le
  calc
    v < 2 ^ (b.exponent + 53) := hv.lt hb
    _ ≤ 2 ^ (1024 : Int) := zpow_le_zpow_right₀ (by norm_num) (by omega)
    _ ≤ 10 ^ (311 : Int) := by exact_mod_cast hpower

theorem min_le (hb : b.Legal) (hpos : 0 < b.significand) (hv : b.Rounds v) : 10 ^ (-331 : Int) ≤ v := by
  have hpower : 2 ^ 1075 ≤ 10 ^ 331 := by decide +kernel
  have hsignificand : (1 : ℚ) ≤ b.significand := by exact_mod_cast hpos
  have hhalf : 1 / 2 ≤ v / 2 ^ b.exponent := by
    rcases hv.nearest.1 with h | ⟨-, h⟩ <;> linarith
  have hexponent := hb.le_exponent
  rw [le_div_iff₀ (by positivity)] at hhalf
  calc
    (10 : ℚ) ^ (-331 : Int) ≤ 2 ^ (-1075 : Int) := by
      rw [zpow_neg, zpow_neg]
      exact inv_anti₀ (by positivity) (by exact_mod_cast hpower)
    _ ≤ 2 ^ (b.exponent - 1) := zpow_le_zpow_right₀ (by norm_num) (by omega)
    _ = 1 / 2 * 2 ^ b.exponent := by rw [zpow_sub_one₀ (by norm_num)]; ring
    _ ≤ v := hhalf

end Binary.Rounds

namespace Decimal

theorem pow_le_value {d : Decimal} (hd : 0 < d.digits) : 10 ^ d.exponent ≤ d.value := by
  have hone : (1 : ℚ) ≤ d.digits := by exact_mod_cast hd
  exact le_mul_of_one_le_left (by positivity) hone

theorem value_lt_pow (d : Decimal) : d.value < 10 ^ (d.exponent + d.digits.log2 / 3 + 1) := by
  have hdigits : d.digits < 10 ^ (d.digits.log2 / 3 + 1) := by
    calc
      d.digits < 2 ^ (d.digits.log2 + 1) := Nat.lt_log2_self
      _ ≤ 2 ^ (3 * (d.digits.log2 / 3 + 1)) := Nat.pow_le_pow_right (by decide) (by omega)
      _ = 8 ^ (d.digits.log2 / 3 + 1) := Nat.pow_mul ..
      _ ≤ 10 ^ (d.digits.log2 / 3 + 1) := Nat.pow_le_pow_left (by decide) _
  have hdigits : (d.digits : ℚ) < 10 ^ (d.digits.log2 / 3 + 1) := by exact_mod_cast hdigits
  have hsum : d.exponent + d.digits.log2 / 3 + 1 = (d.digits.log2 / 3 + 1 : Nat) + d.exponent := by
    push_cast
    omega
  rw [hsum, zpow_add₀ (by norm_num), zpow_natCast]
  exact mul_lt_mul_of_pos_right hdigits (by positivity)

section

variable {d : Decimal} (hb : b.Legal) (hpos : 0 < b.significand) (hv : b.Rounds d.value)

include hb hpos hv

theorem digits_pos : 0 < d.digits := by
  refine Nat.pos_of_ne_zero fun h ↦ ?_
  have hle := hv.min_le hb hpos
  rw [value, h, Nat.cast_zero, zero_mul] at hle
  exact absurd hle (not_le_of_gt (by positivity))

theorem exponent_bounds : d.exponent ≤ 310 ∧ -330 ≤ d.exponent + d.digits.log2 / 3 + 1 := by
  have hupper := (pow_le_value (digits_pos hb hpos hv)).trans_lt (hv.lt_max hb)
  have hlower := (hv.min_le hb hpos).trans_lt d.value_lt_pow
  rw [zpow_lt_zpow_iff_right₀ (by norm_num)] at hupper hlower
  omega

end

end Decimal

theorem Binary.toFloat_magnitude (hpos : 0 < b.significand) :
    Float.ofModel (.pack (.finite .positive b.significand b.exponent hpos)) = b.magnitude.toFloat := by
  rw [toFloat, unpacked_of_pos (b := b.magnitude) hpos]
  rfl

theorem ofScientific_eq {m : Nat} {e : Int} (hm : 0 < m) (hle : e ≤ 2 ^ 11) (hge : -(2 ^ 11 + m.log2) ≤ e)
    (hb : b.Legal) (hpos : 0 < b.significand) (hv : b.Rounds (m * 10 ^ e)) :
    UnpackedFloat.ofScientific .binary64 m e = .finite .positive b.significand b.exponent hpos := by
  have htop : ¬e > 2 ^ Float.Model.Format.binary64.exponentBits := not_lt_of_ge hle
  have hbottom : ¬e < -(2 ^ Float.Model.Format.binary64.exponentBits + m.log2) := not_lt_of_ge hge
  rw [UnpackedFloat.ofScientific, dif_neg (Nat.ne_of_gt hm), if_neg htop, if_neg hbottom]
  by_cases he : 0 ≤ e
  · rw [if_pos he]
    have hten : (10 : ℚ) ^ e = (10 ^ e.toNat : Nat) := by
      rw [Nat.cast_pow, Nat.cast_ofNat, ← zpow_natCast, Int.toNat_of_nonneg he]
    have hshift : ((m <<< 53 : Nat) : ℚ) * 2 ^ (-53 : Int) = m := by
      rw [Nat.shiftLeft_eq, zpow_neg, ← div_eq_mul_inv, div_eq_iff (by positivity)]
      norm_cast
    refine mul_eq _ _ hb hpos ?_ ?_
    · change b.Rounds (((m <<< 53 : Nat) : ℚ) * 2 ^ (-53 : Int) * _)
      rwa [hshift, zpow_zero, mul_one, ← hten]
    · calc
        2 ^ 52 ≤ 1 * 2 ^ 53 := by decide
        _ ≤ m * 2 ^ 53 := Nat.mul_le_mul_right _ hm
        _ = m <<< 53 := (Nat.shiftLeft_eq m 53).symm
        _ ≤ m <<< 53 * 10 ^ e.toNat := Nat.le_mul_of_pos_right _ (by positivity)
  · rw [if_neg he]
    have hten : (10 : ℚ) ^ e = ((10 ^ (-e).toNat : Nat) : ℚ)⁻¹ := by
      have hneg : ((-e).toNat : Int) = -e := by omega
      rw [Nat.cast_pow, Nat.cast_ofNat, ← zpow_natCast, hneg, zpow_neg, inv_inv]
    refine div_eq _ _ hb hpos ?_
    rwa [zpow_zero, mul_one, mul_one, div_eq_mul_inv, ← hten]

namespace Binary

def aligned (m : Nat) (k : Int) : Binary := ⟨false, m * 2 ^ (52 - m.log2), k + m.log2 - 52⟩

section

variable {m : Nat} {k : Int}

theorem value_aligned (h : m.log2 ≤ 52) : (aligned m k).value = m * 2 ^ k := by
  have hexponent : k = ((52 - m.log2 : Nat) : Int) + (k + m.log2 - 52) := by omega
  conv_rhs => rw [hexponent, zpow_add₀ (by norm_num), zpow_natCast, ← mul_assoc]
  rw [value, aligned]
  push_cast
  rfl

theorem aligned_full (hm : 0 < m) (h : m.log2 ≤ 52) :
    2 ^ 52 ≤ (aligned m k).significand ∧ (aligned m k).significand < 2 ^ 53 := by
  have hsum : m.log2 + (52 - m.log2) = 52 := by omega
  have hlower := Nat.mul_le_mul_right (2 ^ (52 - m.log2)) (Nat.log2_self_le (Nat.ne_of_gt hm))
  have hupper := Nat.mul_lt_mul_of_pos_right (Nat.lt_log2_self (n := m)) (Nat.two_pow_pos (52 - m.log2))
  rw [← Nat.pow_add, hsum] at hlower
  rw [← Nat.pow_add, Nat.add_right_comm, hsum] at hupper
  exact ⟨hlower, hupper⟩

theorem aligned_legal (hm : 0 < m) (h : m.log2 ≤ 52) (hk : -1022 ≤ k) (hk' : k ≤ 971) :
    (aligned m k).Legal := by
  have hfull := aligned_full (k := k) hm h
  refine ⟨hfull.2, ?_, ?_, .inl hfull.1⟩
  · rw [aligned]
    dsimp only
    omega
  · rw [aligned]
    dsimp only
    omega

end

theorem toFloat_ofNat {m : Nat} (hm : 0 < m) (h : m < 2 ^ 53) : m.toUInt64.toFloat = (aligned m 0).toFloat := by
  have hlog : m.log2 ≤ 52 := Nat.le_of_lt_succ ((Nat.log2_lt (Nat.ne_of_gt hm)).mpr h)
  have hpos : 0 < (aligned m 0).significand := by
    have hfull := aligned_full (k := 0) hm hlog
    omega
  have hround : UnpackedFloat.ofUInt64 .binary64 m.toUInt64 =
      roundWithAccuracy .binary64 .positive (aligned m 0).significand (aligned m 0).exponent .exact := by
    have hnat : m.toUInt64.toNat = m := by
      rw [Nat.toUInt64, UInt64.toNat_ofNat', Nat.mod_eq_of_lt (by omega)]
    have hgt : compare (m : Int) 0 = .gt := compare_gt_iff_gt.mpr (by omega)
    have hshift : (0 - max (m.log2 + 0 - 52 : Int) (-1074)).toNat = 52 - m.log2 := by omega
    have hexponent : 0 - ((52 - m.log2 : Nat) : Int) = 0 + m.log2 - 52 := by omega
    rw [UnpackedFloat.ofUInt64, UnpackedFloat.ofNat, UnpackedFloat.ofInt, UnpackedFloat.normalize, hnat, hgt]
    dsimp only
    rw [UnpackedFloat.round, targetExponent_eq, Int.toNat_natCast, decreaseExponent, hshift, hexponent,
      Nat.shiftLeft_eq]
    rfl
  have happrox : Approximates (aligned m 0).significand .exact
      ((aligned m 0).value / 2 ^ (aligned m 0).exponent) := by
    rw [Approximates, value, mul_div_cancel_right₀ _ (by positivity)]
  change Float.ofModel (.pack (UnpackedFloat.ofUInt64 .binary64 m.toUInt64)) = _
  rw [hround, roundWithAccuracy_eq (aligned_legal hm hlog (by decide) (by decide)) hpos (rounds_value _) happrox
    (.inl ((Nat.le_log2 (Nat.ne_of_gt hpos)).mpr (aligned_full hm hlog).1)) .positive, toFloat_magnitude]
  rfl

theorem exactlyRepresentablePowersOfTen_eq {e : Nat} (h : e < Float.exactlyRepresentablePowersOfTen.size) :
    Float.exactlyRepresentablePowersOfTen[e] = (aligned (5 ^ e) e).toFloat := by
  have hpowers : ∀ e : Fin 23,
      binary? Float.exactlyRepresentablePowersOfTen[e.val] = some (aligned (5 ^ e.val) e.val) := by
    -- they are exact, for `10 ^ e = 5 ^ e * 2 ^ e` and `5 ^ 22 < 2 ^ 53`
    decide +kernel
  exact (exists_of_binary? (hpowers ⟨e, h⟩)).2.symm

theorem unpack_aligned {m : Nat} {k : Int} (hm : 0 < m) (h : m.log2 ≤ 52) (hk : -1022 ≤ k) (hk' : k ≤ 971) :
    (aligned m k).toFloat.toModel.unpack =
      .finite .positive (aligned m k).significand (aligned m k).exponent
        ((Nat.two_pow_pos 52).trans_le (aligned_full hm h).1) := by
  rw [unpack_toFloat (aligned_legal hm h hk hk'), unpacked_of_pos]
  rfl

theorem log2_five_pow {e : Nat} (h : e < 23) : (5 ^ e).log2 ≤ 52 := by
  refine Nat.le_of_lt_succ ((Nat.log2_lt (by positivity)).mpr ?_)
  calc
    5 ^ e ≤ 5 ^ 22 := Nat.pow_le_pow_right (by decide) (Nat.le_of_lt_succ h)
    _ < 2 ^ 53 := by decide

theorem value_ten_pow {e : Nat} (h : e < 23) : (aligned (5 ^ e) e).value = 10 ^ e := by
  rw [value_aligned (log2_five_pow h), zpow_natCast, Nat.cast_pow, ← mul_pow]
  norm_num

theorem ofScientific_short {m e : Nat} (hm : 0 < m) (h : m < 2 ^ 53) (he : e < 23) (hb : b.Legal)
    (hpos : 0 < b.significand) {s : Bool} (hv : b.Rounds (m * 10 ^ (if s then -e else e : Int))) :
    Float.ofScientific m s e = b.magnitude.toFloat := by
  have hlog : m.log2 ≤ 52 := Nat.le_of_lt_succ ((Nat.log2_lt (Nat.ne_of_gt hm)).mpr h)
  have hfive : 0 < 5 ^ e := Nat.pow_pos (by decide)
  have hx := unpack_aligned (k := 0) hm hlog (by decide) (by decide)
  have hy := unpack_aligned (k := e) hfive (log2_five_pow he) (by omega) (by omega)
  have hvalue : (aligned m 0).value = m := by rw [value_aligned hlog, zpow_zero, mul_one]
  rw [Float.ofScientific, dif_pos ⟨h, Nat.le_of_lt_succ he⟩]
  dsimp only
  rw [toFloat_ofNat hm h, exactlyRepresentablePowersOfTen_eq]
  cases s with
  | false =>
    have hrounds : b.Rounds ((aligned m 0).value * (aligned (5 ^ e) e).value) := by
      rw [hvalue, value_ten_pow he, ← zpow_natCast]
      exact hv
    have hfull : 2 ^ 52 ≤ (aligned m 0).significand * (aligned (5 ^ e) e).significand := by
      have hfactor := (Nat.two_pow_pos 52).trans_le (aligned_full (k := e) hfive (log2_five_pow he)).1
      exact (aligned_full hm hlog).1.trans (Nat.le_mul_of_pos_right _ hfactor)
    change Float.ofModel (.pack (.mul .binary64 (aligned m 0).toFloat.toModel.unpack
      (aligned (5 ^ e) e).toFloat.toModel.unpack)) = _
    rw [hx, hy, mul_eq _ _ hb hpos hrounds hfull, toFloat_magnitude]
  | true =>
    have hrounds : b.Rounds ((aligned m 0).value / (aligned (5 ^ e) e).value) := by
      rw [hvalue, value_ten_pow he, div_eq_mul_inv, ← zpow_natCast, ← zpow_neg]
      exact hv
    change Float.ofModel (.pack (.div .binary64 (aligned m 0).toFloat.toModel.unpack
      (aligned (5 ^ e) e).toFloat.toModel.unpack)) = _
    rw [hx, hy, div_eq _ _ hb hpos hrounds, toFloat_magnitude]

end Binary

theorem Decimal.toFloat_eq {d : Decimal} (hb : b.Legal) (hpos : 0 < b.significand) (hv : b.Rounds d.value) :
    d.toFloat = b.magnitude.toFloat := by
  have hd := digits_pos hb hpos hv
  have hexponent := exponent_bounds hb hpos hv
  have hsigned : (if decide (d.exponent < 0) = true then -d.exponent.natAbs else d.exponent.natAbs : Int) =
      d.exponent := by
    split
    · next h =>
      rw [decide_eq_true_iff] at h
      omega
    · next h =>
      rw [decide_eq_true_iff] at h
      omega
  rw [toFloat, if_neg (Nat.ne_of_gt hd), if_neg (by omega), if_neg (by omega)]
  by_cases hshort : d.digits < 2 ^ 53 ∧ d.exponent.natAbs < 23
  · refine Binary.ofScientific_short hd hshort.1 hshort.2 hb hpos ?_
    rw [hsigned]
    exact hv
  · have hsigned' : (if decide (d.exponent < 0) = true then Int.negOfNat d.exponent.natAbs
        else Int.ofNat d.exponent.natAbs) = d.exponent := by
      rw [Int.negOfNat_eq]
      exact hsigned
    rw [Float.ofScientific, dif_neg (by omega), hsigned']
    dsimp only
    rw [Float.Model.ofScientific, ofScientific_eq hd (by omega) (by omega) hb hpos hv, Binary.toFloat_magnitude]

/-- The numeral for a double reads back as the double. -/
theorem Binary.toFloat_numeral (h : b.Legal) : b.numeral.toFloat = b.magnitude.toFloat := by
  rw [Numeral.toFloat]
  rcases Nat.eq_zero_or_pos b.significand with hz | hpos
  · have hdigits : b.numeral.decimal.digits = 0 := by
      rw [numeral, shortest, if_pos hz]
      rfl
    rw [Decimal.toFloat, if_pos hdigits, toFloat, unpacked_of_zero (b := b.magnitude) hz]
    rfl
  · exact Decimal.toFloat_eq h hpos (rounds_numeral hpos)

end TemplatedForms.Number
