import Mathlib.Algebra.Group.Nat.Defs
import TemplatedForms.Number.Layout
import TemplatedForms.Proofs.Number.Numeral

namespace TemplatedForms.Number

theorem ofDigits_eq (ds : List Char) : ofDigits ds = Nat.ofDigitChars 10 ds 0 := rfl

@[simp] theorem ofDigits_toDigits (n : Nat) : ofDigits (Nat.toDigits 10 n) = n :=
  Nat.ofDigitChars_ten_toDigits

theorem ofDigits_append (ds es : List Char) :
    ofDigits (ds ++ es) = 10 ^ es.length * ofDigits ds + ofDigits es := by
  rw [ofDigits_eq, Nat.ofDigitChars_append, Nat.ofDigitChars_eq_ofDigitChars_zero]
  rfl

@[simp] theorem ofDigits_replicate_zero (n : Nat) : ofDigits (List.replicate n '0') = 0 := by
  rw [ofDigits_eq, Nat.ofDigitChars_replicate_zero, Nat.mul_zero]

def padded (digits : List Char) (places : Nat) : List Char :=
  List.replicate (places + 1 - digits.length) '0' ++ digits

theorem length_padded (digits : List Char) (places : Nat) : places < (padded digits places).length := by
  rw [padded, List.length_append, List.length_replicate]
  omega

theorem digits_padded {digits : List Char} (h : Digits digits) (places : Nat) :
    Digits (padded digits places) where
  nonempty := by simp [padded, h.nonempty]
  isDigit d hd := by
    obtain hd | hd := List.mem_append.mp hd
    · rw [List.eq_of_mem_replicate hd]
      rfl
    · exact h.isDigit d hd

theorem ofDigits_padded (digits : List Char) (places : Nat) :
    ofDigits (padded digits places) = ofDigits digits := by
  rw [padded, ofDigits_append, ofDigits_replicate_zero, Nat.mul_zero, Nat.zero_add]

namespace Numeral

def pointed (digits : List Char) (places : Nat) (exponent : Option ExponentPart) : Numeral :=
  if places = 0 then ⟨digits, none, exponent⟩
  else
    let ds := padded digits places
    ⟨ds.take (ds.length - places), some (ds.drop (ds.length - places)), exponent⟩

variable {digits : List Char} {places : Nat} {exponent : Option ExponentPart}

theorem text_pointed (digits : List Char) (places : Nat) (exponent : Option ExponentPart) :
    (pointed digits places exponent).text =
      (withPoint digits places).toList ++ exponent.elim [] ExponentPart.text := by
  rw [pointed, withPoint]
  split
  · simp [text]
  · simp [text, padded]

theorem pointed_wellFormed (hd : Digits digits) (he : ∀ e ∈ exponent, e.WellFormed) :
    (pointed digits places exponent).WellFormed := by
  rw [pointed]
  split
  · exact ⟨hd, by simp, he⟩
  · next hp =>
    have hlength := length_padded digits places
    have hpadded := digits_padded hd places
    refine ⟨⟨?_, fun d h ↦ hpadded.isDigit d (List.mem_of_mem_take h)⟩, ?_, he⟩
    · refine List.ne_nil_of_length_pos ?_
      rw [List.length_take]
      omega
    · rintro ds ⟨⟩
      refine ⟨?_, fun d h ↦ hpadded.isDigit d (List.mem_of_mem_drop h)⟩
      refine List.ne_nil_of_length_pos ?_
      rw [List.length_drop]
      omega

theorem decimal_pointed (digits : List Char) (places : Nat) (exponent : Option ExponentPart) :
    (pointed digits places exponent).decimal =
      ⟨ofDigits digits, exponent.elim 0 ExponentPart.value - places⟩ := by
  rw [pointed]
  split
  · next hp => simp [decimal, hp]
  · have hlength := length_padded digits places
    have hplaces : (padded digits places).length - ((padded digits places).length - places) = places := by
      omega
    simp only [decimal, Option.getD_some, List.take_append_drop, ofDigits_padded, List.length_drop, hplaces]

end Numeral

namespace Decimal

theorem digitChars_digits (d : Decimal) : Digits d.digitChars := .toDigits d.digits

@[simp] theorem ofDigits_digitChars (d : Decimal) : ofDigits d.digitChars = d.digits :=
  ofDigits_toDigits d.digits

def exponentPart (d : Decimal) : ExponentPart :=
  ⟨'e', some (if d.leadingExponent < 0 then '-' else '+'), Nat.toDigits 10 d.leadingExponent.natAbs⟩

theorem exponentPart_wellFormed (d : Decimal) : d.exponentPart.WellFormed where
  mark := .inl rfl
  sign := by
    rintro s ⟨⟩
    split
    · exact .inr rfl
    · exact .inl rfl
  digits := .toDigits _

theorem value_exponentPart (d : Decimal) : d.exponentPart.value = d.leadingExponent := by
  rw [exponentPart, ExponentPart.value, ofDigits_toDigits]
  by_cases h : d.leadingExponent < 0
  · simp only [h, if_true]
    omega
  · simp only [h, if_false, Option.some.injEq, Char.reduceEq]
    omega

/-- The numeral for a decimal in positional notation, always with a point. -/
def positionalNumeral (d : Decimal) : Numeral :=
  if 0 ≤ d.exponent then ⟨d.digitChars ++ List.replicate d.exponent.toNat '0', some ['0'], none⟩
  else .pointed d.digitChars (-d.exponent).toNat none

def scientificNumeral (d : Decimal) : Numeral :=
  .pointed d.digitChars (d.digitChars.length - 1) (some d.exponentPart)

theorem text_positionalNumeral (d : Decimal) :
    d.positionalNumeral.text = (d.positional ++ if 0 ≤ d.exponent then ".0" else "").toList := by
  rw [positionalNumeral, positional]
  split
  · simp [Numeral.text]
  · simp [Numeral.text_pointed]

theorem text_scientificNumeral (d : Decimal) : d.scientificNumeral.text = d.scientific.toList := by
  rw [scientificNumeral, Numeral.text_pointed, scientific]
  simp only [Option.elim_some, ExponentPart.text, exponentPart, String.toList_append]
  split <;> simp

theorem positionalNumeral_wellFormed (d : Decimal) : d.positionalNumeral.WellFormed := by
  rw [positionalNumeral]
  split
  · refine ⟨d.digitChars_digits.append fun c hc ↦ ?_, ?_, by simp⟩
    · rw [List.eq_of_mem_replicate hc]
      rfl
    · rintro ds ⟨⟩
      exact ⟨by simp, by simp⟩
  · exact Numeral.pointed_wellFormed d.digitChars_digits (by simp)

theorem scientificNumeral_wellFormed (d : Decimal) : d.scientificNumeral.WellFormed :=
  Numeral.pointed_wellFormed d.digitChars_digits (by simp [d.exponentPart_wellFormed])

theorem decimal_scientificNumeral (d : Decimal) : d.scientificNumeral.decimal = d := by
  have hpos : 0 < d.digitChars.length := List.length_pos_iff.mpr d.digitChars_digits.nonempty
  rw [scientificNumeral, Numeral.decimal_pointed, Option.elim_some, value_exponentPart,
    ofDigits_digitChars, leadingExponent]
  congr
  omega

theorem decimal_positionalNumeral (d : Decimal) :
    d.positionalNumeral.decimal =
      if 0 ≤ d.exponent then ⟨10 ^ (d.exponent.toNat + 1) * d.digits, -1⟩ else d := by
  rw [positionalNumeral]
  split
  · have hzeros : ['0'] = List.replicate 1 '0' := rfl
    simp only [Numeral.decimal, Option.getD_some, List.append_assoc, hzeros, List.replicate_append_replicate]
    rw [ofDigits_append, ofDigits_digitChars, ofDigits_replicate_zero, List.length_replicate]
    rfl
  · rw [Numeral.decimal_pointed, ofDigits_digitChars, Option.elim_none]
    congr
    omega

end Decimal

end TemplatedForms.Number
