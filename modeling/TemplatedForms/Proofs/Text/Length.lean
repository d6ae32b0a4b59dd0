import Mathlib.Data.String.Basic
import TemplatedForms.Evaluation.ListMethods
import TemplatedForms.Evaluation.NumberMethods
import TemplatedForms.Evaluation.TextMethods
import TemplatedForms.Proofs.Number.Double
import TemplatedForms.Proofs.Text.Blank
import TemplatedForms.Proofs.Text.Search

namespace TemplatedForms

theorem utf8ByteSize_le_of_sublist {s t : String} (h : s.toList.Sublist t.toList) :
    s.utf8ByteSize ≤ t.utf8ByteSize := by
  have hle := String.utf8Len_le_of_sublist h
  rwa [← String.utf8ByteSize_ofList, ← String.utf8ByteSize_ofList, String.ofList_toList,
    String.ofList_toList] at hle

theorem utf8ByteSize_ofList_le {cs : List Char} {s : String} (h : cs.Sublist s.toList) :
    (String.ofList cs).utf8ByteSize ≤ s.utf8ByteSize :=
  utf8ByteSize_le_of_sublist (by rwa [String.toList_ofList])

theorem utf8Len_le (cs : List Char) : String.utf8Len cs ≤ 4 * cs.length := by
  induction cs with
  | nil => exact Nat.le_refl 0
  | cons c cs ih =>
    have hc := c.utf8Size_le_four
    rw [String.utf8Len_cons, List.length_cons]
    omega

theorem utf8ByteSize_le_of_length {s : String} {n : Nat} (h : s.length ≤ n) : s.utf8ByteSize ≤ 4 * n := by
  have hle := utf8Len_le s.toList
  rw [← String.utf8ByteSize_ofList, String.ofList_toList, String.length_toList] at hle
  omega

namespace Text

theorem pieces_sublist {p : List Char} (hp : p ≠ []) (cs : List Char) :
    ∀ piece ∈ pieces p cs, piece.Sublist cs := by
  induction hn : cs.length using Nat.strong_induction_on generalizing cs with
  | _ n ih =>
    cases hcut : cut? p cs with
    | none =>
      rw [pieces_of_none hp hcut]
      exact List.forall_mem_singleton.mpr (List.Sublist.refl cs)
    | some found =>
      obtain ⟨front, rest⟩ := found
      have hlt := length_lt_of_cut? hp hcut
      obtain ⟨rfl, -⟩ := (cut?_eq_some hp).mp hcut
      rw [pieces_of_some hp hcut]
      refine List.forall_mem_cons.mpr ⟨List.sublist_append_left _ _, fun piece hpiece ↦ ?_⟩
      have hrest : rest.Sublist (front ++ (p ++ rest)) :=
        (List.sublist_append_right p rest).trans (List.sublist_append_right front _)
      exact (ih rest.length (hn ▸ hlt) rest rfl piece hpiece).trans hrest

theorem utf8ByteSize_repeated (s : String) (n : Nat) : (repeated s n).utf8ByteSize = n * s.utf8ByteSize := by
  induction n with
  | zero => simp [repeated, Nat.repeat]
  | succ n ih =>
    rw [repeated] at ih
    rw [repeated, Nat.repeat, String.utf8ByteSize_append, ih, Nat.succ_mul]

end Text

namespace TextMethod

theorem substring_sublist (s : String) (start stop : Nat) :
    (substring s start stop).toList.Sublist s.toList := by
  rw [substring, String.toList_ofList]
  exact (List.drop_sublist _ _).trans (List.take_sublist _ _)

theorem utf8ByteSize_split_le (s separator : String) :
    ∀ part ∈ split s separator, part.utf8ByteSize ≤ s.utf8ByteSize := by
  rw [split]
  split
  · intro part hpart
    obtain ⟨c, hc, rfl⟩ := List.mem_map.mp hpart
    refine utf8ByteSize_le_of_sublist ?_
    rw [String.toList_singleton]
    exact List.singleton_sublist.mpr hc
  · next hseparator =>
    have hne : separator.toList ≠ [] := by simpa using hseparator
    intro part hpart
    obtain ⟨piece, hpiece, rfl⟩ := List.mem_map.mp hpart
    exact utf8ByteSize_ofList_le (Text.pieces_sublist hne _ piece hpiece)

end TextMethod

namespace ListMethod

theorem utf8ByteSize_intercalate (separator : String) (parts : List String) :
    (separator.intercalate parts).utf8ByteSize =
      totalBytes parts + separator.utf8ByteSize * (parts.length - 1) := by
  induction parts with
  | nil => simp [totalBytes]
  | cons s parts ih =>
    cases parts with
    | nil => simp [totalBytes]
    | cons t parts =>
      rw [String.intercalate_cons_cons, String.utf8ByteSize_append, String.utf8ByteSize_append, ih]
      simp only [totalBytes, List.length_cons, Nat.add_sub_cancel]
      rw [Nat.mul_succ]
      omega

end ListMethod

namespace Number

theorem roundedQuotient_le (n d : Nat) : roundedQuotient n d ≤ n + 1 := by
  have hdiv := Nat.div_le_self n d
  have hparity := Nat.mod_lt (n / d) (show 0 < 2 by decide)
  unfold roundedQuotient
  split <;> omega

theorem two_pow_le_ten_pow {n k : Nat} (h : n ≤ 3 * k) : 2 ^ n ≤ 10 ^ k :=
  calc 2 ^ n ≤ 2 ^ (3 * k) := Nat.pow_le_pow_right (by decide) h
    _ = (2 ^ 3) ^ k := Nat.pow_mul 2 3 k
    _ ≤ 10 ^ k := Nat.pow_le_pow_left (by decide) k

/-- The exponent is a variable, so that the power is not evaluated. -/
theorem Binary.Legal.numerator_lt {b : Binary} (h : b.Legal) {k : Nat} (hk : 342 ≤ k) :
    b.numerator < 10 ^ k := by
  have hexponent := h.exponent_le
  have hpow : Nat.pow 2 b.exponent.toNat ≤ 10 ^ (k - 18) := two_pow_le_ten_pow (by omega)
  have hsignificand : b.significand < 10 ^ 18 := h.significand_lt.trans_le (two_pow_le_ten_pow (by decide))
  calc b.significand * Nat.pow 2 b.exponent.toNat
      ≤ b.significand * 10 ^ (k - 18) := Nat.mul_le_mul_left _ hpow
    _ < 10 ^ 18 * 10 ^ (k - 18) := Nat.mul_lt_mul_of_pos_right hsignificand (Nat.pow_pos (by decide))
    _ = 10 ^ k := by rw [← Nat.pow_add, show 18 + (k - 18) = k by omega]

theorem length_withPoint_le (digits : List Char) (places : Nat) :
    (withPoint digits places).length ≤ digits.length + places + 2 := by
  rw [withPoint]
  split
  · rw [String.length_ofList]
    omega
  · simp only [String.length_ofList, List.length_append, List.length_take, List.length_cons, List.length_drop,
      List.length_replicate]
    omega

theorem length_fixed_le {b : Binary} (h : b.Legal) (places : Nat) :
    (b.fixed places).length ≤ 2 * places + 346 := by
  have hround := roundedQuotient_le (b.numerator * Nat.pow 10 places) b.denominator
  have hdigits : (Nat.toDigits 10 (roundedQuotient (b.numerator * Nat.pow 10 places) b.denominator)).length ≤
      places + 343 := by
    obtain ⟨k, hk⟩ : ∃ k, k = 342 := ⟨342, rfl⟩
    have hproduct : b.numerator * Nat.pow 10 places < 10 ^ k * 10 ^ places :=
      Nat.mul_lt_mul_of_pos_right (h.numerator_lt (by omega)) (Nat.pow_pos (by decide))
    rw [← Nat.pow_add] at hproduct
    have hnext : 10 ^ (k + places) < 10 ^ (places + 343) := Nat.pow_lt_pow_right (by decide) (by omega)
    exact (Nat.length_toDigits_le_iff (by decide) (by omega)).mpr (lt_of_le_of_lt (hround.trans hproduct) hnext)
  have hpoint := length_withPoint_le
    (Nat.toDigits 10 (roundedQuotient (b.numerator * Nat.pow 10 places) b.denominator)) places
  have hsign : b.sign.length ≤ 1 := by
    rw [Binary.sign]
    split <;> decide
  rw [Binary.fixed, String.length_append]
  omega

theorem utf8ByteSize_toFixed_le (x : Float) (places : Nat) :
    (NumberMethod.toFixed x places).utf8ByteSize ≤ 4 * (2 * places + 346) := by
  refine utf8ByteSize_le_of_length ?_
  rw [NumberMethod.toFixed]
  cases hb : binary? x with
  | none =>
    have htext : (text x).length ≤ 9 := by
      rw [text, hb]
      dsimp only
      split
      · decide
      · split <;> decide
    dsimp only
    omega
  | some b =>
    obtain ⟨hlegal, -⟩ := Binary.exists_of_binary? hb
    refine length_fixed_le ?_ places
    split
    · exact hlegal.magnitude
    · exact hlegal

end Number

end TemplatedForms
