import Mathlib.Algebra.Order.Field.Power
import Mathlib.Algebra.Order.Field.Rat
import Mathlib.Tactic.FieldSimp
import Mathlib.Tactic.Linarith
import Mathlib.Tactic.NormNum
import Mathlib.Tactic.Positivity
import Mathlib.Tactic.Ring
import TemplatedForms.Number.Shortest
import TemplatedForms.Proofs.Number.Double

namespace TemplatedForms.Number

open Float.Model (UnpackedFloat totalExponent)
open Float.Model.UnpackedFloat

/-- Where a number lies between a natural number and the next one. -/
def Approximates (m : Nat) : Accuracy → ℚ → Prop
  | .exact, w => w = m
  | .inexact .lt, w => m < w ∧ w < m + 1 / 2
  | .inexact .eq, w => w = m + 1 / 2
  | .inexact .gt, w => m + 1 / 2 < w ∧ w < m + 1

/-- No natural number is nearer, and an even one is taken when two are equally near. -/
def Nearest (n : Nat) (w : ℚ) : Prop :=
  (n - 1 / 2 < w ∨ n % 2 = 0 ∧ n - 1 / 2 = w) ∧ (w < n + 1 / 2 ∨ n % 2 = 0 ∧ w = n + 1 / 2)

theorem Nearest.le {n n' : Nat} {w : ℚ} (h : Nearest n w) (h' : Nearest n' w) : n ≤ n' := by
  obtain ⟨hl, -⟩ := h
  obtain ⟨-, hu⟩ := h'
  have hle : (n : ℚ) ≤ n' + 1 := by
    rcases hl with hl | ⟨-, hl⟩ <;> rcases hu with hu | ⟨-, hu⟩ <;> linarith
  have hle : n ≤ n' + 1 := by exact_mod_cast hle
  refine Nat.le_of_lt_succ (Nat.lt_of_le_of_ne hle fun he ↦ ?_)
  have he' : (n : ℚ) = n' + 1 := by exact_mod_cast he
  rcases hl with hl | ⟨heven, hl⟩
  · rcases hu with hu | ⟨-, hu⟩ <;> linarith
  · rcases hu with hu | ⟨heven', -⟩
    · linarith
    · omega

theorem Nearest.unique {n n' : Nat} {w : ℚ} (h : Nearest n w) (h' : Nearest n' w) : n = n' :=
  Nat.le_antisymm (h.le h') (h'.le h)

namespace Approximates

variable {m : Nat} {a : Accuracy} {w : ℚ}

theorem bounds (h : Approximates m a w) : m ≤ w ∧ w < m + 1 := by
  cases a with
  | exact =>
    rw [Approximates] at h
    constructor <;> linarith
  | inexact o =>
    cases o <;> rw [Approximates] at h <;> constructor <;> linarith

theorem nearest (h : Approximates m a w) : Nearest (a.roundToNearestEven m) w := by
  cases a with
  | exact =>
    rw [Approximates] at h
    exact ⟨.inl (by rw [h, Accuracy.roundToNearestEven]; linarith),
      .inl (by rw [h, Accuracy.roundToNearestEven]; linarith)⟩
  | inexact o =>
    cases o with
    | lt => exact ⟨.inl (by rw [Accuracy.roundToNearestEven]; linarith [h.1]), .inl h.2⟩
    | eq =>
      rw [Approximates] at h
      rw [Accuracy.roundToNearestEven]
      obtain hm | hm := Nat.mod_two_eq_zero_or_one m
      · rw [hm, Nat.add_zero]
        exact ⟨.inl (by linarith), .inr ⟨hm, h⟩⟩
      · rw [hm]
        exact ⟨.inr ⟨by omega, by push_cast; linarith⟩, .inl (by push_cast; linarith)⟩
    | gt =>
      rw [Accuracy.roundToNearestEven]
      exact ⟨.inl (by push_cast; linarith [h.1]), .inl (by push_cast; linarith [h.2])⟩

theorem shiftRightOne {em : ExtendedMantissa} (h : Approximates em.mantissa em.accuracy w) :
    Approximates em.shiftRightOne.mantissa em.shiftRightOne.accuracy (w / 2) := by
  obtain ⟨m, r, s⟩ := em
  have hm : (m : ℚ) = 2 * (m / 2 : Nat) + ((m % 2 != 0).toNat : Nat) := by
    have hbit : m = 2 * (m / 2) + (m % 2 != 0).toNat := by
      obtain hm | hm := Nat.mod_two_eq_zero_or_one m <;> simp [hm] <;> omega
    exact_mod_cast hbit
  rw [ExtendedMantissa.shiftRightOne]
  dsimp only at h ⊢
  generalize (m % 2 != 0) = bit at hm ⊢
  -- the last bit is the one to round by, and the bits behind it only tell whether there is more
  cases bit <;> cases r <;> cases s
  all_goals
    simp only [ExtendedMantissa.accuracy, Approximates, Bool.or_true, Bool.or_false, Bool.toNat_false,
      Bool.toNat_true, Nat.cast_zero, Nat.cast_one] at h hm ⊢
    first | linarith | constructor <;> linarith

theorem shiftRight {em : ExtendedMantissa} (h : Approximates em.mantissa em.accuracy w) (k : Nat) :
    Approximates (em >>> k).mantissa (em >>> k).accuracy (w / 2 ^ k) := by
  induction k with
  | zero =>
    rw [pow_zero, div_one]
    exact h
  | succ k ih =>
    rw [pow_succ, ← div_div]
    exact ih.shiftRightOne

end Approximates

namespace Binary

/-- A number is nearest to a double. Below a power of two the next double is only half as far away. -/
structure Rounds (b : Binary) (v : ℚ) : Prop where
  nearest : Nearest b.significand (v / 2 ^ b.exponent)
  narrow : b.narrowBelow → b.significand - 1 / 4 ≤ v / 2 ^ b.exponent

end Binary

theorem targetExponent_eq (m : Nat) (e : Int) :
    Float.Model.Format.binary64.targetExponent (totalExponent m e) = max (m.log2 + e - 52) (-1074) := by
  rw [Float.Model.Format.targetExponent, totalExponent]
  change max ((m.log2 : Int) + 1 + e - 53) (-1074) = _
  omega

theorem shiftToTargetExponent_eq (m : Nat) (e : Int) (a : Accuracy) :
    shiftToTargetExponent .binary64 m e a =
      (ExtendedMantissa.ofMantissaAndAccuracy m a >>> (max (m.log2 + e - 52) (-1074) - e).toNat,
        e + (max (m.log2 + e - 52) (-1074) - e).toNat) := by
  rw [shiftToTargetExponent, targetExponent_eq]
  rfl

section

variable {m : Nat} {e : Int} {a : Accuracy} {v : ℚ}

theorem approximates_shift (h : Approximates m a (v / 2 ^ e)) (k : Nat) :
    Approximates (ExtendedMantissa.ofMantissaAndAccuracy m a >>> k).mantissa
      (ExtendedMantissa.ofMantissaAndAccuracy m a >>> k).accuracy (v / 2 ^ (e + k)) := by
  have hem : (ExtendedMantissa.ofMantissaAndAccuracy m a).mantissa = m ∧
      (ExtendedMantissa.ofMantissaAndAccuracy m a).accuracy = a := by
    cases a with
    | exact => exact ⟨rfl, rfl⟩
    | inexact o => cases o <;> exact ⟨rfl, rfl⟩
  rw [zpow_add₀ (by norm_num), zpow_natCast, ← div_div]
  refine Approximates.shiftRight ?_ k
  rw [hem.1, hem.2]
  exact h

theorem Approximates.binade (h : Approximates m a (v / 2 ^ e)) (hm : m ≠ 0) :
    (2 : ℚ) ^ (m.log2 + e) ≤ v ∧ v < 2 ^ (m.log2 + e + 1) := by
  obtain ⟨hle, hlt⟩ := h.bounds
  have hpos : (0 : ℚ) < 2 ^ e := by positivity
  rw [le_div_iff₀ hpos] at hle
  rw [div_lt_iff₀ hpos] at hlt
  have hlog : ((2 ^ m.log2 : Nat) : ℚ) ≤ m := by exact_mod_cast Nat.log2_self_le hm
  have hlog' : ((m + 1 : Nat) : ℚ) ≤ (2 ^ (m.log2 + 1) : Nat) := by exact_mod_cast Nat.lt_log2_self
  push_cast at hlog hlog'
  constructor
  · rw [zpow_add₀ (by norm_num), zpow_natCast]
    exact (mul_le_mul_of_nonneg_right hlog hpos.le).trans hle
  · rw [add_right_comm, zpow_add₀ (by norm_num), ← Nat.cast_one, ← Nat.cast_add, zpow_natCast]
    exact hlt.trans_le (mul_le_mul_of_nonneg_right hlog' hpos.le)

theorem Approximates.le_log2 (h : Approximates m a (v / 2 ^ e)) (hm : m ≠ 0) {k : Int} (hk : 2 ^ k ≤ v) :
    k ≤ m.log2 + e := by
  have hlt := (zpow_lt_zpow_iff_right₀ (by norm_num)).mp (hk.trans_lt (h.binade hm).2)
  omega

theorem Approximates.log2_lt (h : Approximates m a (v / 2 ^ e)) (hm : m ≠ 0) {k : Int} (hk : v < 2 ^ k) :
    m.log2 + e < k :=
  (zpow_lt_zpow_iff_right₀ (by norm_num)).mp ((h.binade hm).1.trans_lt hk)

theorem Approximates.ne_zero (h : Approximates m a (v / 2 ^ e)) (hm : 52 ≤ m.log2 ∨ e ≤ -1074) {k : Int}
    (hk : 2 ^ k ≤ v) (hle : -1074 ≤ k) : m ≠ 0 := by
  rintro rfl
  have he : e ≤ -1074 := by simpa using hm
  have hupper := h.bounds.2
  rw [div_lt_iff₀ (by positivity), Nat.cast_zero, zero_add, one_mul] at hupper
  have hlt := (zpow_lt_zpow_iff_right₀ (by norm_num)).mp (hk.trans_lt hupper)
  omega

end

namespace Binary

variable {b : Binary} {v : ℚ}

theorem Rounds.lt (h : b.Rounds v) (hb : b.Legal) : v < 2 ^ (b.exponent + 53) := by
  have hpos : (0 : ℚ) < 2 ^ b.exponent := by positivity
  have hle : v / 2 ^ b.exponent ≤ b.significand + 1 / 2 := by
    rcases h.nearest.2 with h | ⟨-, h⟩ <;> linarith
  have hlt : (b.significand : ℚ) + 1 ≤ 2 ^ 53 := by exact_mod_cast hb.significand_lt
  rw [add_comm, zpow_add₀ (by norm_num)]
  rw [← div_lt_iff₀ hpos]
  refine lt_of_le_of_lt hle ?_
  norm_num at hlt ⊢
  linarith

/-- What lies below the binade of a double and still is rounded to it is just below a power of two, on a
grid that is finer. -/
theorem Rounds.carry (h : b.Rounds v) (hb : b.Legal) (hlt : v < 2 ^ (b.exponent + 52))
    (hmin : b.exponent ≠ -1074) :
    b.significand = 2 ^ 52 ∧ 2 ^ (b.exponent + 51) ≤ v ∧ Nearest (2 ^ 53) (v / 2 ^ (b.exponent - 1)) := by
  have hdouble : (2 : ℚ) ^ b.exponent = 2 * 2 ^ (b.exponent - 1) := by
    rw [zpow_sub_one₀ (by norm_num)]
    ring
  have hpos : (0 : ℚ) < 2 ^ (b.exponent - 1) := by positivity
  rw [add_comm, zpow_add₀ (by norm_num), hdouble] at hlt
  have hpower : b.significand = 2 ^ 52 := by
    have hle : (b.significand : ℚ) - 1 / 2 ≤ v / 2 ^ b.exponent := by
      rcases h.nearest.1 with h | ⟨-, h⟩ <;> linarith
    have hlt' : (b.significand : ℚ) < 2 ^ 52 + 1 := by
      rw [← hdouble, ← div_lt_iff₀ (by positivity)] at hlt
      norm_num at hlt
      linarith
    have hfull := hb.full.resolve_right hmin
    have hlt' : b.significand < 2 ^ 52 + 1 := by exact_mod_cast hlt'
    omega
  have hnarrow := h.narrow (by simp [narrowBelow, hpower, hb.le_exponent.lt_of_ne' hmin])
  rw [hpower, le_div_iff₀ (by positivity), hdouble] at hnarrow
  have hlower : (2 : ℚ) ^ (b.exponent + 51) ≤ v := by
    rw [add_comm, zpow_add₀ (by norm_num), hdouble]
    norm_num at hnarrow ⊢
    linarith
  have hfrom : ((2 ^ 53 : Nat) : ℚ) - 1 / 2 ≤ v / 2 ^ (b.exponent - 1) := by
    rw [le_div_iff₀ hpos]
    norm_num at hnarrow ⊢
    linarith
  have hto : v / 2 ^ (b.exponent - 1) < (2 ^ 53 : Nat) + 1 / 2 := by
    rw [div_lt_iff₀ hpos]
    norm_num at hlt ⊢
    linarith
  exact ⟨hpower, hlower, hfrom.lt_or_eq.imp_right fun h ↦ ⟨by norm_num, h⟩, .inl hto⟩

end Binary

section

variable {b : Binary} {v : ℚ} {m : Nat} {e : Int} {a : Accuracy}

/-- The significand that a number gets on the grid of a double is that of the double, unless the number is
below a power of two: then the grid is finer, and rounding carries over to the next binade. -/
theorem shifted_significand (hb : b.Legal) (hv : b.Rounds v) (h : Approximates m a (v / 2 ^ e))
    (hm : 52 ≤ m.log2 ∨ e ≤ -1074) :
    max (m.log2 + e - 52) (-1074) = b.exponent ∧ Nearest b.significand (v / 2 ^ b.exponent) ∨
    b.significand = 2 ^ 52 ∧ -1074 ≤ b.exponent - 1 ∧ max (m.log2 + e - 52) (-1074) = b.exponent - 1 ∧
      Nearest (2 ^ 53) (v / 2 ^ (b.exponent - 1)) := by
  have hle := hb.le_exponent
  by_cases hlower : (2 : ℚ) ^ (b.exponent + 52) ≤ v
  · have hne := h.ne_zero hm hlower (by omega)
    have hl := h.le_log2 hne hlower
    have hu := h.log2_lt hne (hv.lt hb)
    exact .inl ⟨by omega, hv.nearest⟩
  have hupper := lt_of_not_ge hlower
  by_cases hmin : b.exponent = -1074
  · refine .inl ⟨?_, hv.nearest⟩
    by_cases h0 : m = 0
    · have he : e ≤ -1074 := by simpa [h0] using hm
      simp only [h0, Nat.log2_zero]
      omega
    · have hu := h.log2_lt h0 hupper
      omega
  · obtain ⟨hpower, hlower, hnearest⟩ := hv.carry hb hupper hmin
    have hne := h.ne_zero hm hlower (by omega)
    have hl := h.le_log2 hne hlower
    have hu := h.log2_lt hne hupper
    exact .inr ⟨hpower, by omega, by omega, hnearest⟩

theorem shift_legal (hb : b.Legal) :
    shiftToTargetExponent .binary64 b.significand b.exponent .exact = (⟨b.significand, false, false⟩, b.exponent) := by
  have hlog : b.significand.log2 < 53 := by
    by_cases h0 : b.significand = 0
    · rw [h0]
      decide
    · exact (Nat.log2_lt h0).mpr hb.significand_lt
  have hle := hb.le_exponent
  have hshift : (max (b.significand.log2 + b.exponent - 52) (-1074) - b.exponent).toNat = 0 := by omega
  rw [shiftToTargetExponent_eq, hshift]
  simp only [Nat.cast_zero, add_zero]
  rfl

theorem shift_carry (he : -1074 ≤ e) :
    shiftToTargetExponent .binary64 (2 ^ 53) e .exact = (⟨2 ^ 52, false, false⟩, e + 1) := by
  have hshift : (max ((53 : Nat) + e - 52) (-1074) - e).toNat = 1 := by omega
  rw [shiftToTargetExponent_eq, Nat.log2_two_pow, hshift]
  rfl

theorem roundWithAccuracy_eq (hb : b.Legal) (hpos : 0 < b.significand) (hv : b.Rounds v)
    (h : Approximates m a (v / 2 ^ e)) (hm : 52 ≤ m.log2 ∨ e ≤ -1074) (s : Sign) :
    roundWithAccuracy .binary64 s m e a = .finite s b.significand b.exponent hpos := by
  have htarget : e ≤ max (m.log2 + e - 52) (-1074) := by omega
  have hshift := approximates_shift h (max (m.log2 + e - 52) (-1074) - e).toNat
  have hexponent : e + (max (m.log2 + e - 52) (-1074) - e).toNat = max (m.log2 + e - 52) (-1074) := by omega
  have hround := hshift.nearest
  rw [hexponent] at hround
  rw [roundWithAccuracy, shiftToTargetExponent_eq m e a, hexponent]
  dsimp only
  rw [ExtendedMantissa.roundedMantissa]
  rcases shifted_significand hb hv h hm with ⟨he, hnearest⟩ | ⟨hpower, hle, he, hnearest⟩
  · rw [he] at hround ⊢
    rw [hround.unique hnearest, shift_legal hb]
    exact dif_neg (Nat.ne_of_gt hpos)
  · rw [he] at hround ⊢
    have hne : 2 ^ 52 ≠ 0 := by decide
    rw [hround.unique hnearest, shift_carry hle]
    exact (dif_neg hne).trans (finite_congr rfl hpower.symm (by omega))

variable {m₁ m₂ : Nat} {e₁ e₂ : Int} (h₁ : 0 < m₁) (h₂ : 0 < m₂)

theorem mul_eq (hb : b.Legal) (hpos : 0 < b.significand)
    (hv : b.Rounds ((m₁ * 2 ^ e₁) * (m₂ * 2 ^ e₂))) (hm : 2 ^ 52 ≤ m₁ * m₂) :
    UnpackedFloat.mul .binary64 (.finite .positive m₁ e₁ h₁) (.finite .positive m₂ e₂ h₂) =
      .finite .positive b.significand b.exponent hpos := by
  refine roundWithAccuracy_eq hb hpos hv ?_ (.inl ?_) .positive
  · rw [Approximates, zpow_add₀ (by norm_num), div_eq_iff (by positivity)]
    push_cast
    ring
  · exact (Nat.le_log2 (by positivity)).mpr hm

theorem approximates_accuracyOfFraction (n : Nat) {d : Nat} (hd : 0 < d) :
    Approximates (n / d) (accuracyOfFraction (n % d) d) (n / d) := by
  have hd' : (0 : ℚ) < d := by exact_mod_cast hd
  have hn : (n : ℚ) = d * (n / d : Nat) + (n % d : Nat) := by exact_mod_cast (Nat.div_add_mod n d).symm
  have hlt : ((n % d : Nat) : ℚ) / d < 1 := by
    rw [div_lt_one hd']
    exact_mod_cast Nat.mod_lt n hd
  have hw : (n : ℚ) / d = (n / d : Nat) + (n % d : Nat) / d := by
    rw [hn, add_div, mul_div_cancel_left₀ _ hd'.ne']
  rw [hw, accuracyOfFraction]
  split
  · next h => rw [h, Approximates, Nat.cast_zero, zero_div, add_zero]
  · next h =>
    have hpos : (0 : ℚ) < (n % d : Nat) / d := div_pos (by exact_mod_cast Nat.pos_of_ne_zero h) hd'
    rcases Nat.lt_trichotomy (2 * (n % d)) d with hcompare | hcompare | hcompare
    · have hhalf : ((n % d : Nat) : ℚ) / d < 1 / 2 := by
        rw [div_lt_iff₀ hd']
        have : (2 * (n % d : Nat) : ℚ) < d := by exact_mod_cast hcompare
        linarith
      rw [Nat.compare_eq_lt.mpr hcompare]
      exact ⟨by linarith, by linarith⟩
    · have hhalf : ((n % d : Nat) : ℚ) / d = 1 / 2 := by
        rw [div_eq_iff hd'.ne']
        have : (2 * (n % d : Nat) : ℚ) = d := by exact_mod_cast hcompare
        linarith
      rw [Nat.compare_eq_eq.mpr hcompare, Approximates, hhalf]
    · have hhalf : 1 / 2 < ((n % d : Nat) : ℚ) / d := by
        rw [lt_div_iff₀ hd']
        have : (d : ℚ) < 2 * (n % d : Nat) := by exact_mod_cast hcompare
        linarith
      rw [Nat.compare_eq_gt.mpr hcompare]
      exact ⟨by linarith, by linarith⟩

theorem div_eq (hb : b.Legal) (hpos : 0 < b.significand) (hv : b.Rounds ((m₁ * 2 ^ e₁) / (m₂ * 2 ^ e₂))) :
    UnpackedFloat.div .binary64 (.finite .positive m₁ e₁ h₁) (.finite .positive m₂ e₂ h₂) =
      .finite .positive b.significand b.exponent hpos := by
  -- the exponent of the quotient before rounding, which leaves it all the bits of a significand
  let t : Int := min (e₁ - e₂) (max (totalExponent m₁ e₁ - totalExponent m₂ e₂ - 53) (-1074))
  have hdiv : UnpackedFloat.div .binary64 (.finite .positive m₁ e₁ h₁) (.finite .positive m₂ e₂ h₂) =
      roundWithAccuracy .binary64 .positive ((m₁ <<< (e₁ - e₂ - t).toNat) / m₂) t
        (accuracyOfFraction ((m₁ <<< (e₁ - e₂ - t).toNat) % m₂) m₂) := rfl
  have ht : t + (e₁ - e₂ - t).toNat = e₁ - e₂ := by omega
  rw [hdiv]
  refine roundWithAccuracy_eq hb hpos hv ?_ ?_ .positive
  · have happrox := approximates_accuracyOfFraction (m₁ <<< (e₁ - e₂ - t).toNat) h₂
    have hvalue : ((m₁ <<< (e₁ - e₂ - t).toNat : Nat) : ℚ) / m₂ = m₁ * 2 ^ e₁ / (m₂ * 2 ^ e₂) / 2 ^ t := by
      have hk : ((e₁ - e₂ - t).toNat : Int) = e₁ - e₂ - t := by omega
      have hm₂ : (m₂ : ℚ) ≠ 0 := by positivity
      rw [Nat.shiftLeft_eq, Nat.cast_mul, Nat.cast_pow, Nat.cast_ofNat, ← zpow_natCast, hk,
        zpow_sub₀ (by norm_num), zpow_sub₀ (by norm_num)]
      field_simp
    rwa [hvalue] at happrox
  · by_cases hmin : t ≤ -1074
    · exact .inr hmin
    · have hle : t ≤ max (totalExponent m₁ e₁ - totalExponent m₂ e₂ - 53) (-1074) := min_le_right _ _
      have hbits : 53 + m₂.log2 ≤ m₁.log2 + (e₁ - e₂ - t).toNat := by
        rw [totalExponent, totalExponent] at hle
        omega
      have hquotient : 2 ^ 52 ≤ m₁ <<< (e₁ - e₂ - t).toNat / m₂ := by
        rw [Nat.le_div_iff_mul_le h₂, Nat.shiftLeft_eq]
        calc
          2 ^ 52 * m₂ ≤ 2 ^ 52 * 2 ^ (m₂.log2 + 1) := Nat.mul_le_mul_left _ Nat.lt_log2_self.le
          _ = 2 ^ (53 + m₂.log2) := by ring
          _ ≤ 2 ^ (m₁.log2 + (e₁ - e₂ - t).toNat) := Nat.pow_le_pow_right (by decide) hbits
          _ = 2 ^ m₁.log2 * 2 ^ (e₁ - e₂ - t).toNat := pow_add _ _ _
          _ ≤ m₁ * 2 ^ (e₁ - e₂ - t).toNat := Nat.mul_le_mul_right _ (Nat.log2_self_le (Nat.ne_of_gt h₁))
      exact .inl ((Nat.le_log2 (by omega)).mpr hquotient)

end

end TemplatedForms.Number
