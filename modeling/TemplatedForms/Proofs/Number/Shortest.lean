import Mathlib.Data.List.TakeWhile
import TemplatedForms.Proofs.Number.Layout
import TemplatedForms.Proofs.Number.Rounding

namespace TemplatedForms.Number

namespace Decimal

def value (d : Decimal) : ℚ := d.digits * 10 ^ d.exponent

theorem value_mk (digits : Nat) (exponent : Int) : value ⟨digits, exponent⟩ = digits * 10 ^ exponent := rfl

end Decimal

theorem zpow_mul_pow_toNat {x : ℚ} (hx : x ≠ 0) (i : Int) : x ^ i * x ^ (-i).toNat = x ^ i.toNat := by
  rw [← zpow_natCast, ← zpow_natCast, ← zpow_add₀ hx]
  congr 1
  omega

theorem compare_mul_right {x : ℚ} (hx : 0 < x) (v w : ℚ) : compare (v * x) (w * x) = compare v w := by
  rcases lt_trichotomy v w with h | h | h
  · rw [compare_lt_iff_lt.mpr h, compare_lt_iff_lt.mpr (mul_lt_mul_of_pos_right h hx)]
  · rw [h, compare_eq_iff_eq.mpr rfl, compare_eq_iff_eq.mpr rfl]
  · rw [compare_gt_iff_gt.mpr h, compare_gt_iff_gt.mpr (mul_lt_mul_of_pos_right h hx)]

theorem compare_natCast (m n : Nat) : compare (m : ℚ) n = compare m n := by
  rcases Nat.lt_trichotomy m n with h | h | h
  · rw [Nat.compare_eq_lt.mpr h, compare_lt_iff_lt.mpr (by exact_mod_cast h)]
  · rw [Nat.compare_eq_eq.mpr h, compare_eq_iff_eq.mpr (by exact_mod_cast h)]
  · rw [Nat.compare_eq_gt.mpr h, compare_gt_iff_gt.mpr (by exact_mod_cast h)]

theorem compareScaled_eq (a : Nat) (i : Int) (n : Nat) (j : Int) :
    compareScaled a i n j = compare ((a : ℚ) * 10 ^ i) (n * 2 ^ j) := by
  have hpos : (0 : ℚ) < 10 ^ (-i).toNat * 2 ^ (-j).toNat := by positivity
  rw [compareScaled, ← compare_natCast, ← compare_mul_right hpos (a * 10 ^ i)]
  simp only [Nat.pow_eq]
  push_cast
  rw [← zpow_mul_pow_toNat (by norm_num) i, ← zpow_mul_pow_toNat (by norm_num) j]
  congr 1 <;> ring

namespace Binary

variable {b : Binary}

def value (b : Binary) : ℚ := b.significand * 2 ^ b.exponent

theorem rounds_of_readsBack (hpos : 0 < b.significand) {d : Decimal} (h : b.readsBack d = true) :
    b.Rounds d.value := by
  have hgrid (n : Nat) : compareScaled d.digits d.exponent n (b.exponent - 2) =
      compare (d.value / 2 ^ b.exponent) (n / 4) := by
    have hquarter : (n : ℚ) * 2 ^ (b.exponent - 2) = n / 4 * 2 ^ b.exponent := by
      rw [zpow_sub₀ (by norm_num)]
      norm_num
      ring
    have hpower : (0 : ℚ) < 2 ^ b.exponent := by positivity
    rw [compareScaled_eq, hquarter, ← compare_mul_right hpower (d.value / 2 ^ b.exponent),
      div_mul_cancel₀ _ hpower.ne', Decimal.value]
  rw [readsBack] at h
  simp only [hgrid, Bool.and_eq_true, Bool.or_eq_true, beq_iff_eq, compare_gt_iff_gt, compare_lt_iff_lt,
    compare_eq_iff_eq] at h
  have hupper : ((4 * b.significand + 2 : Nat) : ℚ) / 4 = b.significand + 1 / 2 := by
    push_cast
    ring
  rw [hupper] at h
  obtain ⟨hfrom, hto⟩ := h
  by_cases hnarrow : b.narrowBelow = true
  · have hlower : ((4 * b.significand - 1 : Nat) : ℚ) / 4 = b.significand - 1 / 4 := by
      rw [Nat.cast_sub (by omega)]
      push_cast
      ring
    rw [if_pos hnarrow, hlower] at hfrom
    have hle : b.significand - 1 / 4 ≤ d.value / 2 ^ b.exponent := by
      rcases hfrom with h | ⟨-, h⟩ <;> linarith
    exact ⟨⟨.inl (by linarith), hto⟩, fun _ ↦ hle⟩
  · have hlower : ((4 * b.significand - 2 : Nat) : ℚ) / 4 = b.significand - 1 / 2 := by
      rw [Nat.cast_sub (by omega)]
      push_cast
      ring
    rw [if_neg hnarrow, hlower] at hfrom
    exact ⟨⟨hfrom.imp_right fun h ↦ ⟨h.1, h.2.symm⟩, hto⟩, fun h ↦ absurd h hnarrow⟩

theorem rounds_value (b : Binary) : b.Rounds b.value := by
  have hw : b.value / 2 ^ b.exponent = b.significand := by
    rw [value, mul_div_cancel_right₀ _ (by positivity)]
  exact ⟨⟨.inl (by rw [hw]; linarith), .inl (by rw [hw]; linarith)⟩, fun _ ↦ by rw [hw]; linarith⟩

theorem value_exact (b : Binary) : b.exact.value = b.value := by
  have hpower : (10 : ℚ) ^ min b.exponent 0 * 5 ^ (-b.exponent).toNat * 2 ^ b.exponent.toNat =
      2 ^ b.exponent := by
    obtain ⟨k, hk | hk⟩ := b.exponent.eq_nat_or_neg
    · simp [hk]
    · have hten : (10 : ℚ) ^ k = 2 ^ k * 5 ^ k := by rw [← mul_pow]; norm_num
      have hmin : min (-(k : Int)) 0 = -k := by omega
      rw [hk, hmin, neg_neg, Int.toNat_natCast, Int.toNat_neg_natCast, zpow_neg, zpow_neg, zpow_natCast,
        zpow_natCast, hten]
      field_simp
  rw [exact, Decimal.value_mk, value, numerator, ← hpower]
  simp only [Nat.pow_eq]
  push_cast
  ring

theorem readsBack_of_onGrid? {tie : Tie} {exponent : Int} {d : Decimal} (h : b.onGrid? tie exponent = some d) :
    b.readsBack d = true := by
  unfold onGrid? at h
  dsimp only at h
  split at h
  · next hlow hhigh =>
    split at h
    · cases h
      exact hlow
    · cases h
      exact hhigh
    · split at h
      · cases h
        split
        · exact hlow
        · exact hhigh
      · cases h
        exact hhigh
  · next hlow _ =>
    cases h
    exact hlow
  · next _ hhigh =>
    cases h
    exact hhigh
  · cases h

theorem rounds_shortest (hpos : 0 < b.significand) (tie : Tie) : b.Rounds (b.shortest tie).value := by
  rw [shortest, if_neg (Nat.ne_of_gt hpos)]
  cases h : (List.range 17).findSome? fun n : Nat ↦ b.onGrid? tie (b.scale - 1 - n) with
  | none =>
    rw [Option.getD_none, value_exact]
    exact b.rounds_value
  | some d =>
    obtain ⟨n, -, hn⟩ := List.exists_of_findSome?_eq_some h
    exact rounds_of_readsBack hpos (readsBack_of_onGrid? hn)

end Binary

namespace Decimal

def trailingZeros (d : Decimal) : Nat := (d.digitChars.reverse.takeWhile (· == '0')).length

theorem pow_trailingZeros_dvd (d : Decimal) : 10 ^ d.trailingZeros ∣ d.digits := by
  have hzeros : d.digitChars.reverse.takeWhile (· == '0') = List.replicate d.trailingZeros '0' :=
    List.eq_replicate_of_mem fun c hc ↦ by simpa using List.mem_takeWhile_imp hc
  have hsplit := congrArg List.reverse
    (List.takeWhile_append_dropWhile (p := (· == '0')) (l := d.digitChars.reverse))
  rw [List.reverse_append, List.reverse_reverse, hzeros, List.reverse_replicate] at hsplit
  have hdigits := d.ofDigits_digitChars
  rw [← hsplit, ofDigits_append, ofDigits_replicate_zero, List.length_replicate, Nat.add_zero] at hdigits
  exact ⟨_, hdigits.symm⟩

theorem value_stripped (d : Decimal) : d.stripped.value = d.value := by
  rw [stripped]
  split
  · next h => simp [value, h]
  · change value ⟨d.digits / 10 ^ d.trailingZeros, d.exponent + d.trailingZeros⟩ = _
    obtain ⟨q, hq⟩ := d.pow_trailingZeros_dvd
    rw [value_mk, value, hq, Nat.mul_div_cancel_left q (by positivity), zpow_add₀ (by norm_num), zpow_natCast]
    push_cast
    ring

theorem value_decimal_positionalNumeral (d : Decimal) : d.positionalNumeral.decimal.value = d.value := by
  rw [decimal_positionalNumeral]
  split
  · next h =>
    have hexponent : (d.exponent.toNat : Int) = d.exponent := by omega
    rw [value_mk, value, ← hexponent, Int.toNat_natCast, zpow_natCast]
    push_cast
    ring
  · rfl

end Decimal

namespace Binary

def numeral (b : Binary) : Numeral :=
  let d := (b.shortest .toEven).stripped
  if -5 ≤ d.leadingExponent && d.leadingExponent < 16 then d.positionalNumeral else d.scientificNumeral

theorem numeral_wellFormed (b : Binary) : b.numeral.WellFormed := by
  rw [numeral]
  split
  · exact Decimal.positionalNumeral_wellFormed _
  · exact Decimal.scientificNumeral_wellFormed _

theorem value_numeral (b : Binary) : b.numeral.decimal.value = (b.shortest .toEven).value := by
  rw [numeral]
  split
  · rw [Decimal.value_decimal_positionalNumeral, Decimal.value_stripped]
  · rw [Decimal.decimal_scientificNumeral, Decimal.value_stripped]

theorem rounds_numeral {b : Binary} (hpos : 0 < b.significand) : b.Rounds b.numeral.decimal.value := by
  rw [value_numeral]
  exact rounds_shortest hpos .toEven

end Binary

end TemplatedForms.Number
