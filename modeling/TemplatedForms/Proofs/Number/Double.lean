import Mathlib.Algebra.Group.Nat.Defs
import TemplatedForms.Number.Binary

namespace TemplatedForms.Number

open Float.Model (UnpackedFloat)
open Float.Model.UnpackedFloat (Sign packComponents unpackSign unpackExponent unpackMantissa)

theorem toNat_append {v w : Nat} (x : BitVec v) (y : BitVec w) :
    (x ++ y).toNat = 2 ^ w * x.toNat + y.toNat := by
  rw [BitVec.toNat_append, ← Nat.shiftLeft_add_eq_or_of_lt y.isLt, Nat.shiftLeft_eq, Nat.mul_comm]

theorem toNat_packComponents (s : Sign) (e : BitVec 11) (m : BitVec 52) :
    (packComponents .binary64 s e m).toNat = 2 ^ 63 * s.toBitVec.toNat + 2 ^ 52 * e.toNat + m.toNat := by
  change (s.toBitVec ++ e ++ m).toNat = _
  rw [toNat_append, toNat_append]
  omega

theorem toNat_unpackMantissa (v : BitVec 64) :
    (@unpackMantissa .binary64 v).toNat = v.toNat % 2 ^ 52 := by
  simp [unpackMantissa]

theorem toNat_unpackExponent (v : BitVec 64) :
    (@unpackExponent .binary64 v).toNat = v.toNat / 2 ^ 52 % 2 ^ 11 := by
  simp [unpackExponent, Nat.shiftRight_eq_div_pow]

theorem toNat_unpackSign (v : BitVec 64) :
    (@unpackSign .binary64 v).toNat = v.toNat / 2 ^ 63 % 2 := by
  change (v.extractLsb 63 63).toNat = _
  simp [Nat.shiftRight_eq_div_pow]

@[simp] theorem ofBitVec_toBitVec (s : Sign) : Sign.ofBitVec s.toBitVec = s := by
  cases s <;> rfl

@[simp] theorem toBitVec_ofBitVec (v : BitVec 1) : (Sign.ofBitVec v).toBitVec = v := by
  revert v
  decide

@[simp] theorem unpackSign_packComponents (s : Sign) (e : BitVec 11) (m : BitVec 52) :
    unpackSign (packComponents .binary64 s e m) = s.toBitVec := by
  refine BitVec.eq_of_toNat_eq ?_
  rw [toNat_unpackSign, toNat_packComponents]
  omega

theorem exists_packComponents (v : BitVec 64) :
    ∃ s e m, v = packComponents .binary64 s e m := by
  refine ⟨Sign.ofBitVec (@unpackSign .binary64 v), @unpackExponent .binary64 v, @unpackMantissa .binary64 v,
    BitVec.eq_of_toNat_eq ?_⟩
  have hv : v.toNat < 2 ^ 64 := v.isLt
  rw [toNat_packComponents, toBitVec_ofBitVec, toNat_unpackSign, toNat_unpackExponent, toNat_unpackMantissa]
  omega

theorem finite_congr {s s' : Sign} {m m' : Nat} {e e' : Int} {hm : 0 < m} {hm' : 0 < m'} (hs : s = s')
    (hmm : m = m') (he : e = e') : UnpackedFloat.finite s m e hm = .finite s' m' e' hm' := by
  subst hs hmm he
  rfl

theorem unpack_eq (v : BitVec 64) :
    UnpackedFloat.unpack .binary64 v =
      if @unpackExponent .binary64 v = -1#11 then
        if @unpackMantissa .binary64 v = 0#52 then .infinity (Sign.ofBitVec (@unpackSign .binary64 v))
        else .notANumber
      else if @unpackExponent .binary64 v = 0#11 then
        if h : @unpackMantissa .binary64 v = 0#52 then .zero (Sign.ofBitVec (@unpackSign .binary64 v))
        else .finite (Sign.ofBitVec (@unpackSign .binary64 v)) (@unpackMantissa .binary64 v).toNat
          ((@unpackExponent .binary64 v).toNat - 1075 + 1) (Nat.pos_of_ne_zero fun hz ↦ h (BitVec.eq_of_toNat_eq hz))
      else .finite (Sign.ofBitVec (@unpackSign .binary64 v)) (1#1 ++ @unpackMantissa .binary64 v).toNat
        ((@unpackExponent .binary64 v).toNat - 1075) (by rw [toNat_append]; exact Nat.lt_add_right _ (by decide)) :=
  rfl

theorem pack_finite (s : Sign) {m : Nat} (e : Int) (h : 0 < m) :
    UnpackedFloat.pack .binary64 (.finite s m e h) =
      if 2 ^ 11 ≤ (e + 1023 + 52).toNat + 1 then packComponents .binary64 s (-1#11) 0#52
      else if m.log2 + 1 = 53 then
        packComponents .binary64 s (BitVec.ofNat 11 (e + 1023 + 52).toNat) (BitVec.ofNat 52 m)
      else packComponents .binary64 s 0#11 (BitVec.ofNat 52 m) :=
  rfl

section

variable (s : Sign) {e : BitVec 11} {m : BitVec 52}

theorem sign_packComponents : Sign.ofBitVec (unpackSign (packComponents .binary64 s e m)) = s := by
  rw [unpackSign_packComponents, ofBitVec_toBitVec]

theorem unpack_zero : UnpackedFloat.unpack .binary64 (packComponents .binary64 s 0#11 0#52) = .zero s := by
  cases s <;> rfl

theorem unpack_subnormal (h : 0 < m.toNat) :
    UnpackedFloat.unpack .binary64 (packComponents .binary64 s 0#11 m) = .finite s m.toNat (-1074) h := by
  have hm : m ≠ 0#52 := by
    rintro rfl
    cases h
  have hmantissa := @UnpackedFloat.unpackMantissa_packComponents .binary64 s 0#11 m
  have hexponent := @UnpackedFloat.unpackExponent_packComponents .binary64 s 0#11 m
  rw [unpack_eq, if_neg (by rw [hexponent]; decide), if_pos hexponent, dif_neg (by rwa [hmantissa])]
  exact finite_congr (sign_packComponents s) (congrArg BitVec.toNat hmantissa) (by rw [hexponent]; rfl)

theorem unpack_normal (h : e ≠ -1#11) (h' : e ≠ 0#11) :
    UnpackedFloat.unpack .binary64 (packComponents .binary64 s e m) =
      .finite s (2 ^ 52 + m.toNat) (e.toNat - 1075) (by omega) := by
  have hmantissa := @UnpackedFloat.unpackMantissa_packComponents .binary64 s e m
  have hexponent := @UnpackedFloat.unpackExponent_packComponents .binary64 s e m
  rw [unpack_eq, if_neg (by rwa [hexponent]), if_neg (by rwa [hexponent])]
  refine finite_congr (sign_packComponents s) ?_ (by rw [hexponent])
  rw [toNat_append, hmantissa]
  rfl

theorem binary?_eq_none (h : e = -1#11) {x : Float}
    (hx : x.toModel.unpack = UnpackedFloat.unpack .binary64 (packComponents .binary64 s e m)) :
    binary? x = none := by
  have hmantissa := @UnpackedFloat.unpackMantissa_packComponents .binary64 s e m
  have hexponent := @UnpackedFloat.unpackExponent_packComponents .binary64 s e m
  rw [unpack_eq, if_pos (by rwa [hexponent])] at hx
  rw [binary?, hx]
  by_cases hm : m = 0#52
  · rw [if_pos (by rwa [hmantissa])]
  · rw [if_neg (by rwa [hmantissa])]

end

theorem exists_binary? {x : Float} (h : x.isFinite = true) : ∃ b, binary? x = some b := by
  change x.toModel.unpack.isFinite = true at h
  rw [binary?]
  cases hx : x.toModel.unpack with
  | zero | finite => exact ⟨_, rfl⟩
  | infinity | notANumber =>
    rw [hx] at h
    cases h

namespace Binary

/-- What a double holds: 53 bits, the first of which is set unless the exponent is the least one. -/
structure Legal (b : Binary) : Prop where
  significand_lt : b.significand < 2 ^ 53
  le_exponent : -1074 ≤ b.exponent
  exponent_le : b.exponent ≤ 971
  full : 2 ^ 52 ≤ b.significand ∨ b.exponent = -1074

def magnitude (b : Binary) : Binary := { b with negative := false }

theorem Legal.magnitude {b : Binary} (h : b.Legal) : b.magnitude.Legal :=
  ⟨h.significand_lt, h.le_exponent, h.exponent_le, h.full⟩

def floatSign (b : Binary) : Sign := if b.negative then .negative else .positive

def unpacked (b : Binary) : UnpackedFloat :=
  if h : b.significand = 0 then .zero b.floatSign
  else .finite b.floatSign b.significand b.exponent (Nat.pos_of_ne_zero h)

def toFloat (b : Binary) : Float := .ofModel (.pack b.unpacked)

variable {b : Binary}

theorem unpacked_of_zero (h : b.significand = 0) : b.unpacked = .zero b.floatSign := dif_pos h

theorem unpacked_of_pos (h : 0 < b.significand) :
    b.unpacked = .finite b.floatSign b.significand b.exponent h := dif_neg (Nat.ne_of_gt h)

/-- The bits of a double, without the first bit of the significand. -/
def bits (b : Binary) : BitVec 64 :=
  packComponents .binary64 b.floatSign
    (if b.significand < 2 ^ 52 then 0#11 else BitVec.ofNat 11 (b.exponent + 1075).toNat)
    (BitVec.ofNat 52 b.significand)

theorem pack_unpacked (h : b.Legal) : UnpackedFloat.pack .binary64 b.unpacked = b.bits := by
  obtain ⟨hlt, hle, hge, -⟩ := h
  rcases Nat.eq_zero_or_pos b.significand with hz | hpos
  · rw [unpacked_of_zero hz, bits, hz]
    rfl
  · have hexponent : ¬2 ^ 11 ≤ (b.exponent + 1023 + 52).toNat + 1 := by omega
    have hsum : (b.exponent + 1023 + 52).toNat = (b.exponent + 1075).toNat := by omega
    have hlog := Nat.log2_lt (k := 52) (Nat.ne_of_gt hpos)
    have hlog' := (Nat.log2_lt (Nat.ne_of_gt hpos)).mpr hlt
    rw [unpacked_of_pos hpos, bits, pack_finite, if_neg hexponent]
    by_cases hn : b.significand < 2 ^ 52
    · have hfirst : b.significand.log2 + 1 ≠ 53 := by omega
      rw [if_pos hn, if_neg hfirst]
    · have hfirst : b.significand.log2 + 1 = 53 := by omega
      rw [if_neg hn, if_pos hfirst, hsum]

theorem unpack_bits (h : b.Legal) : UnpackedFloat.unpack .binary64 b.bits = b.unpacked := by
  obtain ⟨hlt, hle, hge, hfull⟩ := h
  rcases Nat.eq_zero_or_pos b.significand with hz | hpos
  · rw [unpacked_of_zero hz, bits, hz]
    exact unpack_zero b.floatSign
  · rw [unpacked_of_pos hpos, bits]
    by_cases hn : b.significand < 2 ^ 52
    · have hm : (BitVec.ofNat 52 b.significand).toNat = b.significand := by
        rw [BitVec.toNat_ofNat, Nat.mod_eq_of_lt hn]
      rw [if_pos hn, unpack_subnormal _ (by omega)]
      exact finite_congr rfl hm (by omega)
    · have hm : 2 ^ 52 + (BitVec.ofNat 52 b.significand).toNat = b.significand := by
        rw [BitVec.toNat_ofNat]
        omega
      have he : (BitVec.ofNat 11 (b.exponent + 1075).toNat).toNat = (b.exponent + 1075).toNat := by
        rw [BitVec.toNat_ofNat, Nat.mod_eq_of_lt (by omega)]
      have hne {w : BitVec 11} (hw : w.toNat ≠ (b.exponent + 1075).toNat) :
          BitVec.ofNat 11 (b.exponent + 1075).toNat ≠ w := by
        rintro rfl
        exact hw he
      have htop : (-1#11).toNat = 2047 := rfl
      have hbottom : (0#11).toNat = 0 := rfl
      rw [if_neg hn, unpack_normal _ (hne (by omega)) (hne (by omega))]
      exact finite_congr rfl hm (by omega)

theorem unpack_toFloat (h : b.Legal) : b.toFloat.toModel.unpack = b.unpacked := by
  rw [← unpack_bits h, ← pack_unpacked h]
  rfl

theorem binary?_toFloat (h : b.Legal) : binary? b.toFloat = some b := by
  have hsign : (b.floatSign == .negative) = b.negative := by
    rw [floatSign]
    cases b.negative <;> rfl
  rw [binary?, unpack_toFloat h]
  rcases Nat.eq_zero_or_pos b.significand with hz | hpos
  · have he : b.exponent = -1074 := h.full.resolve_left (by omega)
    rw [unpacked_of_zero hz]
    dsimp only
    rw [hsign, ← hz, ← he]
  · rw [unpacked_of_pos hpos]
    dsimp only
    rw [hsign]

theorem toFloat_of_bits {x : Float} (h : b.Legal) (hx : x.toModel.toBits.toBitVec = b.bits) :
    b.toFloat = x := by
  have hbits : b.toFloat.toModel.toBits = x.toModel.toBits :=
    UInt64.toBitVec_inj.mp ((pack_unpacked h).trans hx.symm)
  have hmodel : b.toFloat.toModel = x.toModel := by
    generalize b.toFloat.toModel = model at hbits ⊢
    generalize x.toModel = model' at hbits ⊢
    obtain ⟨bits, hbits⟩ := model
    cases hbits
    rfl
  exact congrArg Float.ofModel hmodel

theorem exists_bits (s : Sign) {e : BitVec 11} (htop : e ≠ -1#11) (m : BitVec 52) :
    ∃ b : Binary, b.Legal ∧ b.bits = packComponents .binary64 s e m := by
  have hsign (m : Nat) (e : Int) : (⟨s == .negative, m, e⟩ : Binary).floatSign = s := by
    cases s <;> rfl
  have hm : m.toNat < 2 ^ 52 := m.isLt
  have he : e.toNat < 2 ^ 11 := e.isLt
  have htop' : e.toNat ≠ 2047 := fun h ↦ htop (BitVec.eq_of_toNat_eq h)
  by_cases hzero : e = 0#11
  · refine ⟨⟨s == .negative, m.toNat, -1074⟩, ⟨by dsimp only; omega, by simp, by simp, .inr rfl⟩, ?_⟩
    rw [bits, hsign, if_pos hm, hzero, BitVec.ofNat_toNat]
    rfl
  · have hzero' : e.toNat ≠ 0 := fun h ↦ hzero (BitVec.eq_of_toNat_eq h)
    have hmantissa : BitVec.ofNat 52 (2 ^ 52 + m.toNat) = m := by
      refine BitVec.eq_of_toNat_eq ?_
      rw [BitVec.toNat_ofNat]
      omega
    have hexponent : ((e.toNat : Int) - 1075 + 1075).toNat = e.toNat := by omega
    have hlegal : (⟨s == .negative, 2 ^ 52 + m.toNat, e.toNat - 1075⟩ : Binary).Legal := by
      constructor <;> dsimp only <;> omega
    refine ⟨_, hlegal, ?_⟩
    rw [bits, hsign, hmantissa, hexponent, if_neg (by simp), BitVec.ofNat_toNat]
    rfl

theorem exists_of_binary? {x : Float} (hb : binary? x = some b) : b.Legal ∧ b.toFloat = x := by
  obtain ⟨s, e, m, hv⟩ := exists_packComponents x.toModel.toBits.toBitVec
  have htop : e ≠ -1#11 := by
    intro htop
    rw [binary?_eq_none s htop (congrArg (UnpackedFloat.unpack .binary64) hv)] at hb
    cases hb
  obtain ⟨b', hlegal, hbits⟩ := exists_bits s htop m
  have hx := toFloat_of_bits hlegal (hv.trans hbits.symm)
  rw [← hx, binary?_toFloat hlegal] at hb
  obtain rfl := Option.some.inj hb
  exact ⟨hlegal, hx⟩

theorem abs_toFloat (h : b.Legal) : b.toFloat.abs = b.magnitude.toFloat := by
  have hunpacked : b.unpacked.abs = b.magnitude.unpacked := by
    rcases Nat.eq_zero_or_pos b.significand with hz | hpos
    · rw [unpacked_of_zero hz, unpacked_of_zero (b := b.magnitude) hz]
      rfl
    · rw [unpacked_of_pos hpos, unpacked_of_pos (b := b.magnitude) hpos]
      rfl
  change Float.ofModel (.pack b.toFloat.toModel.unpack.abs) = _
  rw [unpack_toFloat h, hunpacked]
  rfl

theorem neg_magnitude_toFloat (h : b.Legal) (hn : b.negative = true) : -b.magnitude.toFloat = b.toFloat := by
  have hsign : b.floatSign = -b.magnitude.floatSign := by
    rw [floatSign, hn]
    rfl
  have hunpacked : b.magnitude.unpacked.neg = b.unpacked := by
    rcases Nat.eq_zero_or_pos b.significand with hz | hpos
    · rw [unpacked_of_zero hz, unpacked_of_zero (b := b.magnitude) hz, hsign]
      rfl
    · rw [unpacked_of_pos hpos, unpacked_of_pos (b := b.magnitude) hpos, hsign]
      rfl
  change Float.ofModel (.pack b.magnitude.toFloat.toModel.unpack.neg) = _
  rw [unpack_toFloat h.magnitude, hunpacked]
  rfl

end Binary

end TemplatedForms.Number
