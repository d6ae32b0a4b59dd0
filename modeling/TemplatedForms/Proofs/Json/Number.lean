import TemplatedForms.Json.Printer
import TemplatedForms.Proofs.Number.Integer

namespace TemplatedForms.JsonNumber

open Number

def IsFinite : JsonNumber → Prop
  | .int _ => True
  | .float x => x.isFinite = true

/-- Whether there is a minus sign, as there is for a negative zero. -/
def isNegative : JsonNumber → Bool
  | .int i => i < 0
  | .float x => (binary? x).any (·.negative)

def magnitude : JsonNumber → Float
  | .int i => Float.ofNat i.natAbs
  | .float x => x.abs

theorem toFloat_eq {n : JsonNumber} (h : n.IsFinite) :
    n.toFloat = if n.isNegative then -n.magnitude else n.magnitude := by
  cases n with
  | int i =>
    simp only [isNegative, decide_eq_true_eq]
    exact ofInt_eq i
  | float x =>
    obtain ⟨b, hb⟩ := exists_binary? h
    obtain ⟨hlegal, rfl⟩ := Binary.exists_of_binary? hb
    rw [isNegative, hb, magnitude, Binary.abs_toFloat hlegal, toFloat, Option.any_some]
    cases hn : b.negative with
    | false => rw [if_neg (by simp), Binary.magnitude, ← hn]
    | true => rw [if_pos rfl, Binary.neg_magnitude_toFloat hlegal hn]

def intNumeral (i : Int) : Numeral := ⟨Nat.toDigits 10 i.natAbs, none, none⟩

theorem toFloat_intNumeral (i : Int) : (intNumeral i).toFloat = Float.ofNat i.natAbs := by
  have hdecimal : (intNumeral i).decimal = ⟨i.natAbs, 0⟩ := by
    simp [intNumeral, Numeral.decimal]
  rw [Numeral.toFloat, hdecimal, Decimal.toFloat_natCast]

theorem text_int (i : Int) :
    (JsonNumber.int i).text.toList = (if i < 0 then ['-'] else []) ++ (intNumeral i).text := by
  cases i with
  | ofNat k =>
    change k.repr.toList = _
    simp [intNumeral, Numeral.text]
  | negSucc k =>
    change ("-" ++ (k + 1).repr).toList = _
    simp [intNumeral, Numeral.text]

theorem text_float {x : Float} {b : Binary} (hb : binary? x = some b) :
    (JsonNumber.float x).text.toList = (if b.negative then ['-'] else []) ++ b.numeral.text := by
  have hsign : b.sign.toList = if b.negative then ['-'] else [] := by
    rw [Binary.sign]
    split <;> rfl
  rw [text, hb]
  dsimp only
  rw [String.toList_append, hsign, Binary.numeral]
  refine congrArg _ ?_
  split
  · rw [Decimal.text_positionalNumeral]
  · rw [Decimal.text_scientificNumeral]

theorem exists_numeral {n : JsonNumber} (h : n.IsFinite) :
    ∃ m : Numeral, m.WellFormed ∧ m.toFloat = n.magnitude ∧
      n.text.toList = (if n.isNegative then ['-'] else []) ++ m.text := by
  cases n with
  | int i =>
    refine ⟨intNumeral i, ⟨.toDigits _, by simp [intNumeral], by simp [intNumeral]⟩, toFloat_intNumeral i, ?_⟩
    rw [text_int, isNegative]
    simp
  | float x =>
    obtain ⟨b, hb⟩ := exists_binary? h
    obtain ⟨hlegal, hx⟩ := Binary.exists_of_binary? hb
    refine ⟨b.numeral, b.numeral_wellFormed, ?_, ?_⟩
    · rw [Binary.toFloat_numeral hlegal, magnitude, ← hx, Binary.abs_toFloat hlegal]
    · rw [text_float hb, isNegative, hb, Option.any_some]

end TemplatedForms.JsonNumber
