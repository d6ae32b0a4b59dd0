import TemplatedForms.Number.Decimal
import TemplatedForms.Proofs.Text.Run

namespace TemplatedForms.Number

structure Digits (ds : List Char) : Prop where
  nonempty : ds ≠ []
  isDigit : ∀ d ∈ ds, d.isDigit = true

namespace Digits

theorem append {ds es : List Char} (hd : Digits ds) (he : ∀ e ∈ es, e.isDigit = true) :
    Digits (ds ++ es) where
  nonempty := by simp [hd.nonempty]
  isDigit := by simpa [or_imp, forall_and] using ⟨hd.isDigit, he⟩

theorem toDigits (n : Nat) : Digits (Nat.toDigits 10 n) where
  nonempty := Nat.toDigits_ne_nil
  isDigit _ h := Nat.isDigit_of_mem_toDigits (by decide) (by decide) h

end Digits

def NoDigit (cs : List Char) : Prop := ∀ c ∈ cs.head?, c.isDigit = false

theorem takeWhile_digits_eq_nil_iff {cs : List Char} : cs.takeWhile Char.isDigit = [] ↔ NoDigit cs := by
  cases cs with
  | nil => simp [NoDigit]
  | cons c cs => simp [NoDigit, List.takeWhile_cons]

theorem dropWhile_of_noDigit {cs : List Char} (h : NoDigit cs) : cs.dropWhile Char.isDigit = cs :=
  dropWhile_run (List.forall_mem_nil _) h

theorem noDigit_dropWhile (cs : List Char) : NoDigit (cs.dropWhile Char.isDigit) :=
  head?_dropWhile Char.isDigit cs

namespace ExponentPart

structure WellFormed (e : ExponentPart) : Prop where
  mark : e.mark = 'e' ∨ e.mark = 'E'
  sign : ∀ s ∈ e.sign, s = '+' ∨ s = '-'
  digits : Digits e.digits

theorem WellFormed.mem_text {e : ExponentPart} (h : e.WellFormed) {c : Char} (hc : c ∈ e.text) :
    c.isDigit = true ∨ c ∈ ['e', 'E', '+', '-'] := by
  rw [text, List.cons_append, List.mem_cons, List.mem_append, Option.mem_toList] at hc
  obtain rfl | hsign | hdigit := hc
  · obtain hmark | hmark := h.mark <;> exact .inr (by rw [hmark]; decide)
  · obtain rfl | rfl := h.sign c hsign <;> exact .inr (by decide)
  · exact .inl (h.digits.isDigit c hdigit)

theorem readSign_digits {ds : List Char} (hd : Digits ds) (cs : List Char) :
    readSign (ds ++ cs) = (none, ds ++ cs) := by
  obtain ⟨d, ds, rfl⟩ := List.exists_cons_of_ne_nil hd.nonempty
  have h := hd.isDigit d List.mem_cons_self
  have hplus : d ≠ '+' := by
    rintro rfl
    cases h
  have hminus : d ≠ '-' := by
    rintro rfl
    cases h
  simp [readSign, hplus, hminus]

theorem readSign_sign {sign : Option Char} (hs : ∀ s ∈ sign, s = '+' ∨ s = '-') {ds : List Char}
    (hd : Digits ds) (cs : List Char) : readSign (sign.toList ++ (ds ++ cs)) = (sign, ds ++ cs) := by
  cases sign with
  | none => exact readSign_digits hd cs
  | some s =>
    obtain rfl | rfl := hs s rfl
    · rfl
    · rfl

theorem read?_text {e : ExponentPart} (h : e.WellFormed) {tail : List Char} (ht : NoDigit tail) :
    read? (e.text ++ tail) = some (e, tail) := by
  have hempty : e.digits.isEmpty = false := by simp [h.digits.nonempty]
  rw [text, List.cons_append, List.cons_append, List.append_assoc, read?, if_pos h.mark,
    readSign_sign h.sign h.digits]
  simp only [takeWhile_run h.digits.isDigit ht, dropWhile_run h.digits.isDigit ht, hempty]
  rfl

theorem sign_of_readSign (cs : List Char) :
    (∀ s ∈ (readSign cs).1, s = '+' ∨ s = '-') ∧ cs = (readSign cs).1.toList ++ (readSign cs).2 := by
  unfold readSign
  split <;> simp

theorem read?_eq_some_iff {cs rest : List Char} {e : ExponentPart} :
    read? cs = some (e, rest) ↔ cs = e.text ++ rest ∧ e.WellFormed ∧ NoDigit rest := by
  constructor
  · intro h
    match cs with
    | [] => cases h
    | mark :: cs =>
      obtain ⟨hsign, hcs⟩ := sign_of_readSign cs
      simp only [read?] at h
      split at h
      · next hmark =>
        split at h
        · cases h
        · next hdigits =>
          cases h
          refine ⟨?_, ⟨hmark, hsign, by simpa using hdigits, fun d hd ↦ List.mem_takeWhile_imp hd⟩,
            noDigit_dropWhile _⟩
          rw [text, List.cons_append, List.cons_append, List.append_assoc, List.takeWhile_append_dropWhile,
            ← hcs]
      · cases h
  · rintro ⟨rfl, he, ht⟩
    exact read?_text he ht

theorem read?_eq_none_iff {cs : List Char} :
    read? cs = none ↔ ∀ e : ExponentPart, e.WellFormed → ¬e.text <+: cs := by
  constructor
  · rintro h e he ⟨rest, rfl⟩
    -- the digits of `e` may go on in `rest`
    have hlonger : (⟨e.mark, e.sign, e.digits ++ rest.takeWhile Char.isDigit⟩ : ExponentPart).WellFormed :=
      ⟨he.mark, he.sign, he.digits.append fun d hd ↦ List.mem_takeWhile_imp hd⟩
    have hread := read?_text hlonger (noDigit_dropWhile rest)
    have hcs : (⟨e.mark, e.sign, e.digits ++ rest.takeWhile Char.isDigit⟩ : ExponentPart).text ++
        rest.dropWhile Char.isDigit = e.text ++ rest := by
      simp [text]
    rw [hcs, h] at hread
    cases hread
  · intro h
    by_contra hsome
    obtain ⟨⟨e, rest⟩, hread⟩ := Option.ne_none_iff_exists'.mp hsome
    obtain ⟨rfl, he, -⟩ := read?_eq_some_iff.mp hread
    exact h e he (List.prefix_append _ _)

theorem read?_eq_none {cs : List Char} (h : ∀ c ∈ cs.head?, c ≠ 'e' ∧ c ≠ 'E') : read? cs = none := by
  cases cs with
  | nil => rfl
  | cons c cs => simp [read?, h c rfl]

end ExponentPart

namespace Numeral

structure WellFormed (n : Numeral) : Prop where
  whole : Digits n.whole
  fraction : ∀ ds ∈ n.fraction, Digits ds
  exponent : ∀ e ∈ n.exponent, e.WellFormed

structure Legible (n : Numeral) : Prop where
  whole : ∀ d ∈ n.whole, d.isDigit = true
  fraction : ∀ ds ∈ n.fraction, ∀ d ∈ ds, d.isDigit = true
  nonempty : n.whole ≠ [] ∨ n.fraction.getD [] ≠ []
  exponent : ∀ e ∈ n.exponent, e.WellFormed

theorem WellFormed.legible {n : Numeral} (h : n.WellFormed) : n.Legible where
  whole := h.whole.isDigit
  fraction := fun ds hds ↦ (h.fraction ds hds).isDigit
  nonempty := .inl h.whole.nonempty
  exponent := h.exponent

/-- A text that makes no longer numeral of this one. -/
structure StopsAt (n : Numeral) (cs : List Char) : Prop where
  digit : NoDigit cs
  point : n.fraction = none → n.exponent = none → cs.head? ≠ some '.'
  exponent : n.exponent = none → ExponentPart.read? cs = none

def Ends (cs : List Char) : Prop := ∀ c ∈ cs.head?, c.isDigit = false ∧ c ∉ ['.', 'e', 'E']

theorem Ends.stopsAt {cs : List Char} (h : Ends cs) (n : Numeral) : n.StopsAt cs where
  digit := fun c hc ↦ (h c hc).1
  point := fun _ _ hpoint ↦ (h '.' hpoint).2 (by decide)
  exponent := fun _ ↦ ExponentPart.read?_eq_none fun c hc ↦ by
    have hmark := (h c hc).2
    simp only [List.mem_cons, not_or] at hmark
    exact ⟨hmark.2.1, hmark.2.2.1⟩

def fractionText (n : Numeral) : List Char := n.fraction.elim [] fun ds ↦ '.' :: ds

def exponentText (n : Numeral) : List Char := n.exponent.elim [] ExponentPart.text

theorem text_eq (n : Numeral) : n.text = n.whole ++ n.fractionText ++ n.exponentText := rfl

section

variable {n : Numeral} (h : n.Legible) {tail : List Char} (ht : n.StopsAt tail)

include h ht

theorem noDigit_exponentText : NoDigit (n.exponentText ++ tail) := by
  cases he : n.exponent with
  | none =>
    rw [exponentText, he]
    exact ht.digit
  | some e =>
    rw [exponentText, he]
    intro c hc
    obtain rfl : e.mark = c := Option.some.inj hc
    obtain hm | hm := (h.exponent e he).mark <;> rw [hm] <;> decide

theorem head?_exponentText (hf : n.fraction = none) : (n.exponentText ++ tail).head? ≠ some '.' := by
  cases he : n.exponent with
  | none =>
    rw [exponentText, he]
    exact ht.point hf he
  | some e =>
    rw [exponentText, he]
    intro hc
    have hmark : e.mark = '.' := Option.some.inj hc
    obtain hm | hm := (h.exponent e he).mark <;> rw [hm] at hmark <;> cases hmark

theorem readFraction_text :
    readFraction (n.fractionText ++ (n.exponentText ++ tail)) = (n.fraction, n.exponentText ++ tail) := by
  have hdigit := noDigit_exponentText h ht
  cases hf : n.fraction with
  | none =>
    have hpoint := head?_exponentText h ht hf
    rw [fractionText, hf, Option.elim_none, List.nil_append]
    unfold readFraction
    split
    · next hcs =>
      rw [hcs] at hpoint
      exact absurd rfl hpoint
    · rfl
  | some ds =>
    rw [fractionText, hf, Option.elim_some, List.cons_append, readFraction,
      takeWhile_run (h.fraction ds hf) hdigit, dropWhile_run (h.fraction ds hf) hdigit]

theorem noDigit_fractionText : NoDigit (n.fractionText ++ (n.exponentText ++ tail)) := by
  cases hf : n.fraction with
  | none =>
    rw [fractionText, hf]
    exact noDigit_exponentText h ht
  | some ds =>
    rw [fractionText, hf]
    rintro c ⟨⟩
    rfl

theorem read?_legible : read? (n.text ++ tail) = some (n, tail) := by
  have hdigits := noDigit_fractionText h ht
  have hempty : (n.whole.isEmpty && (n.fraction.getD []).isEmpty) = false := by
    simpa [imp_iff_not_or] using h.nonempty
  rw [text_eq, List.append_assoc, List.append_assoc, read?, takeWhile_run h.whole hdigits,
    dropWhile_run h.whole hdigits, readFraction_text h ht]
  simp only [hempty, Bool.false_eq_true, if_false]
  obtain ⟨whole, fraction, exponent⟩ := n
  cases exponent with
  | none => rw [exponentText, Option.elim_none, List.nil_append, ht.exponent rfl]
  | some e => rw [exponentText, Option.elim_some, ExponentPart.read?_text (h.exponent e rfl) ht.digit]

end

theorem read?_text {n : Numeral} (h : n.WellFormed) {tail : List Char} (ht : Ends tail) :
    read? (n.text ++ tail) = some (n, tail) :=
  read?_legible h.legible (ht.stopsAt n)

theorem fraction_of_readFraction {cs : List Char} (hcs : NoDigit cs) :
    (∀ ds ∈ (readFraction cs).1, ∀ d ∈ ds, d.isDigit = true) ∧ NoDigit (readFraction cs).2 ∧
      cs = ((readFraction cs).1.elim [] fun ds ↦ '.' :: ds) ++ (readFraction cs).2 ∧
      ((readFraction cs).1 = none → (readFraction cs).2.head? ≠ some '.') := by
  unfold readFraction
  split
  · next rest =>
    refine ⟨?_, noDigit_dropWhile rest, by simp, by simp⟩
    rintro ds ⟨⟩ d hd
    exact List.mem_takeWhile_imp hd
  · next hpoint =>
    refine ⟨by simp, hcs, by simp, fun _ hhead ↦ ?_⟩
    obtain ⟨rest, rfl⟩ : ∃ rest, cs = '.' :: rest := by
      cases cs with
      | nil => cases hhead
      | cons c rest =>
        cases hhead
        exact ⟨rest, rfl⟩
    exact hpoint rest rfl

theorem read?_eq_some_iff {cs rest : List Char} {n : Numeral} :
    read? cs = some (n, rest) ↔ cs = n.text ++ rest ∧ n.Legible ∧ n.StopsAt rest := by
  constructor
  · intro h
    have hwhole := List.takeWhile_append_dropWhile (p := Char.isDigit) (l := cs)
    obtain ⟨hfraction, hdigit, hcs, hpoint⟩ := fraction_of_readFraction (noDigit_dropWhile cs)
    have hdigits : ∀ d ∈ cs.takeWhile Char.isDigit, d.isDigit = true := fun d hd ↦ List.mem_takeWhile_imp hd
    simp only [read?] at h
    split at h
    · cases h
    · next hempty =>
      rw [Bool.and_eq_true, Decidable.not_and_iff_or_not, List.isEmpty_iff, List.isEmpty_iff] at hempty
      split at h
      · next e rest' he =>
        obtain ⟨hrest, hexponent, hstop⟩ := ExponentPart.read?_eq_some_iff.mp he
        cases h
        have htext := hwhole.symm.trans (congrArg (cs.takeWhile Char.isDigit ++ ·) (hrest ▸ hcs))
        refine ⟨htext.trans (by simp [text]), ⟨hdigits, hfraction, hempty, ?_⟩, hstop, by simp, by simp⟩
        rintro e' ⟨⟩
        exact hexponent
      · next hnone =>
        cases h
        have htext := hwhole.symm.trans (congrArg (cs.takeWhile Char.isDigit ++ ·) hcs)
        exact ⟨htext.trans (by simp [text]), ⟨hdigits, hfraction, hempty, by simp⟩,
          hdigit, fun hf _ ↦ hpoint hf, fun _ ↦ hnone⟩
  · rintro ⟨rfl, hn, hstop⟩
    exact read?_legible hn hstop

theorem read?_eq_none_iff {cs : List Char} :
    read? cs = none ↔ NoDigit cs ∧ ∀ rest, cs = '.' :: rest → NoDigit rest := by
  have hread : read? cs = none ↔ cs.takeWhile Char.isDigit = [] ∧
      (readFraction (cs.dropWhile Char.isDigit)).1.getD [] = [] := by
    simp only [read?, ← List.isEmpty_iff, ← Bool.and_eq_true]
    split
    · simp [*]
    · split <;> simp [*]
  rw [hread, takeWhile_digits_eq_nil_iff]
  refine and_congr_right fun hcs ↦ ?_
  rw [dropWhile_of_noDigit hcs]
  unfold readFraction
  split
  · simp only [Option.getD_some, takeWhile_digits_eq_nil_iff, List.cons.injEq, true_and, forall_eq']
  · next hpoint => simpa using fun rest h ↦ absurd h (hpoint rest)

theorem Legible.text_ne_nil {n : Numeral} (h : n.Legible) : n.text ≠ [] := by
  obtain ⟨whole, fraction, exponent⟩ := n
  intro htext
  have hempty := h.nonempty
  cases fraction <;> simp_all [text]

theorem Legible.mem_text {n : Numeral} (h : n.Legible) {c : Char} (hc : c ∈ n.text) :
    c.isDigit = true ∨ c ∈ ['.', 'e', 'E', '+', '-'] := by
  rw [text_eq, List.mem_append, List.mem_append] at hc
  obtain (hc | hc) | hc := hc
  · exact .inl (h.whole c hc)
  · cases hf : n.fraction with
    | none => simp [fractionText, hf] at hc
    | some ds =>
      rw [fractionText, hf, Option.elim_some, List.mem_cons] at hc
      obtain rfl | hc := hc
      · exact .inr (by decide)
      · exact .inl (h.fraction ds hf c hc)
  · cases he : n.exponent with
    | none => simp [exponentText, he] at hc
    | some e =>
      rw [exponentText, he, Option.elim_some] at hc
      exact ((h.exponent e he).mem_text hc).imp_right (List.mem_cons_of_mem _)

theorem Legible.ascii {n : Numeral} (h : n.Legible) : ∀ c ∈ n.text, c.toNat < 128 := by
  intro c hc
  obtain hdigit | hother := h.mem_text hc
  · have hrange : 48 ≤ c.toNat ∧ c.toNat ≤ 57 := by simpa [Char.isDigit, UInt32.le_iff_toNat_le] using hdigit
    omega
  · have hall : ['.', 'e', 'E', '+', '-'].all (·.toNat < 128) = true := by decide
    simpa using List.all_eq_true.mp hall c hother

end Numeral

end TemplatedForms.Number
