import TemplatedForms.Expression.Tokenize
import TemplatedForms.Proofs.Number.Numeral

namespace TemplatedForms

def isBreak (c : Char) : Bool := Text.isBlank c || c == '\'' || c == '"'

/-- Up to its first break, the second text begins like the first one. -/
def GoesOn (rest rest' : List Char) : Prop :=
  ∀ front, (∀ c ∈ front, isBreak c = false) → front <+: rest' → front <+: rest

def AtQuote (cs : List Char) : Prop := cs = [] ∨ ∃ rest, cs = '\'' :: rest

theorem isBreak_of_isNamePart {c : Char} (h : Token.isNamePart c = true) : isBreak c = false := by
  by_contra hbreak
  rw [Bool.not_eq_false] at hbreak
  have hall : ∀ n ∈ [9, 10, 11, 12, 13, 32, 34, 39, 0x85, 0xA0, 0x1680, 0x2000, 0x2001, 0x2002, 0x2003, 0x2004,
      0x2005, 0x2006, 0x2007, 0x2008, 0x2009, 0x200A, 0x2028, 0x2029, 0x202F, 0x205F, 0x3000],
      Token.isNamePart (Char.ofNat n) = false := by decide +kernel
  have hmem := hall c.toNat ?_
  · rw [Char.ofNat_toNat, h] at hmem
    cases hmem
  · simp only [isBreak, Text.isBlank, Bool.or_eq_true, Bool.and_eq_true, decide_eq_true_eq, beq_iff_eq] at hbreak
    simp only [List.mem_cons, List.not_mem_nil, or_false]
    obtain (hblank | rfl) | rfl := hbreak
    · omega
    · decide
    · decide

theorem isNamePart_of_isNameStart {c : Char} (h : Token.isNameStart c = true) : Token.isNamePart c = true := by
  have hletter (h : Text.isAlphabetic c = true) : Text.isAlphanumeric c = true := by
    rw [Text.isAlphabetic] at h
    rw [Text.isAlphanumeric]
    split at h
    · next hc => simp [hc, Char.isAlphanum, h]
    · next hc => simp [hc, h]
  rw [Token.isNameStart, Bool.or_eq_true] at h
  rw [Token.isNamePart, Bool.or_eq_true]
  exact h.imp_left hletter

theorem isBreak_of_isDigit {c : Char} (h : c.isDigit = true) : isBreak c = false := by
  have hrange : 48 ≤ c.toNat ∧ c.toNat ≤ 57 := by simpa [Char.isDigit, UInt32.le_iff_toNat_le] using h
  have hquote : c ≠ '\'' := by
    rintro rfl
    cases h
  have hquotes : c ≠ '"' := by
    rintro rfl
    cases h
  simp [isBreak, Text.isBlank, hquote, hquotes]
  omega

theorem isBlank_of_not_isBreak {c : Char} (h : isBreak c = false) : Text.isBlank c = false := by
  simp only [isBreak, Bool.or_eq_false_iff] at h
  exact h.1.1

namespace GoesOn

variable {rest rest' : List Char}

theorem nil (rest : List Char) : GoesOn rest [] :=
  fun _ _ h ↦ List.prefix_nil.mp h ▸ List.nil_prefix

theorem atBreak {c : Char} (h : isBreak c = true) (rest cs : List Char) : GoesOn rest (c :: cs) := by
  intro front hfront hprefix
  cases front with
  | nil => exact List.nil_prefix
  | cons d front =>
    obtain ⟨rfl, -⟩ := List.cons_prefix_cons.mp hprefix
    rw [hfront d List.mem_cons_self] at h
    cases h

theorem cons (c : Char) (h : GoesOn rest rest') : GoesOn (c :: rest) (c :: rest') := by
  intro front hfront hprefix
  cases front with
  | nil => exact List.nil_prefix
  | cons d front =>
    obtain ⟨rfl, htail⟩ := List.cons_prefix_cons.mp hprefix
    exact List.cons_prefix_cons.mpr ⟨rfl, h front (fun c hc ↦ hfront c (List.mem_cons_of_mem _ hc)) htail⟩

theorem append (front : List Char) (h : GoesOn rest rest') : GoesOn (front ++ rest) (front ++ rest') := by
  induction front with
  | nil => exact h
  | cons c front ih => exact ih.cons c

theorem behind {tail : List Char} (h : GoesOn [] tail) (rest : List Char) : GoesOn rest (rest ++ tail) := by
  have happend := h.append rest
  rwa [List.append_nil] at happend

theorem head? (h : GoesOn rest rest') {c : Char} (hc : isBreak c = false) (hhead : rest'.head? = some c) :
    rest.head? = some c := by
  obtain ⟨cs, rfl⟩ := List.head?_eq_some_iff.mp hhead
  obtain ⟨ds, rfl⟩ := h [c] (by simpa using hc) (List.prefix_append [c] cs)
  rfl

end GoesOn

theorem AtQuote.goesOn {tail : List Char} (h : AtQuote tail) : GoesOn [] tail := by
  obtain rfl | ⟨rest, rfl⟩ := h
  · exact .nil []
  · exact .atBreak (by decide) [] rest

namespace Number

variable {rest rest' : List Char} (h : GoesOn rest rest')

include h

theorem NoDigit.goesOn (hrest : NoDigit rest) : NoDigit rest' := by
  intro c hc
  by_contra hdigit
  rw [Bool.not_eq_false] at hdigit
  rw [hrest c (h.head? (isBreak_of_isDigit hdigit) hc)] at hdigit
  cases hdigit

theorem ExponentPart.read?_goesOn (hrest : ExponentPart.read? rest = none) :
    ExponentPart.read? rest' = none := by
  rw [ExponentPart.read?_eq_none_iff] at hrest ⊢
  intro e he hprefix
  -- an exponent holds no break, so one at the start of the second text is one of the first
  refine hrest e he (h e.text ?_ hprefix)
  intro c hc
  obtain hdigit | hother := he.mem_text hc
  · exact isBreak_of_isDigit hdigit
  · have hall : ['e', 'E', '+', '-'].all (!isBreak ·) = true := by decide
    simpa using List.all_eq_true.mp hall c hother

theorem Numeral.StopsAt.goesOn {n : Numeral} (hn : n.StopsAt rest) : n.StopsAt rest' where
  digit := hn.digit.goesOn h
  point hf he hpoint := hn.point hf he (h.head? (by decide) hpoint)
  exponent he := ExponentPart.read?_goesOn h (hn.exponent he)

omit h in
theorem Numeral.Legible.isBreak_text {n : Numeral} (hn : n.Legible) : ∀ c ∈ n.text, isBreak c = false := by
  intro c hc
  obtain hdigit | hother := hn.mem_text hc
  · exact isBreak_of_isDigit hdigit
  · have hall : ['.', 'e', 'E', '+', '-'].all (!isBreak ·) = true := by decide
    simpa using List.all_eq_true.mp hall c hother

theorem Numeral.read?_goesOn (hrest : Numeral.read? rest = none) : Numeral.read? rest' = none := by
  rw [Numeral.read?_eq_none_iff] at hrest ⊢
  refine ⟨hrest.1.goesOn h, ?_⟩
  rintro cs rfl c hc
  by_contra hdigit
  rw [Bool.not_eq_false] at hdigit
  obtain ⟨ds, rfl⟩ := List.head?_eq_some_iff.mp hc
  have hfront : ∀ b ∈ ['.', c], isBreak b = false := by
    simpa using ⟨by decide, isBreak_of_isDigit hdigit⟩
  obtain ⟨es, rfl⟩ := h ['.', c] hfront ⟨ds, rfl⟩
  rw [hrest.2 (c :: es) rfl c rfl] at hdigit
  cases hdigit

end Number

namespace Mark

def extension? : Mark → Option Char
  | .question => some '?'
  | .bang | .lt | .gt | .looseEq | .looseNe => some '='
  | _ => none

theorem text_of_read? {cs rest : List Char} {m : Mark} {n : Nat} (h : read? cs = some (m, n, rest)) :
    n = m.text.length ∧ cs = m.text.toList ++ rest ∧ ∀ c ∈ m.extension?, rest.head? ≠ some c := by
  unfold read? at h
  split at h <;> cases h
  all_goals
    refine ⟨rfl, rfl, ?_⟩
    rintro c ⟨⟩ hc
  all_goals
    obtain ⟨ds, rfl⟩ : ∃ ds, rest = _ :: ds := List.head?_eq_some_iff.mp hc
    simp_all

theorem read?_text {m : Mark} {rest : List Char} (h : ∀ c ∈ m.extension?, rest.head? ≠ some c) :
    read? (m.text.toList ++ rest) = some (m, m.text.length, rest) := by
  cases m
  case question | bang | lt | gt | looseEq | looseNe =>
    rcases rest with _ | ⟨c, rest⟩
    · rfl
    · have hc := h _ rfl
      rw [List.head?_cons, ne_eq, Option.some.injEq] at hc
      dsimp only [text]
      simp [read?, hc]
      rfl
  all_goals rfl

theorem read?_eq_some_iff {cs rest : List Char} {m : Mark} {n : Nat} :
    read? cs = some (m, n, rest) ↔
      n = m.text.length ∧ cs = m.text.toList ++ rest ∧ ∀ c ∈ m.extension?, rest.head? ≠ some c := by
  refine ⟨text_of_read?, ?_⟩
  rintro ⟨rfl, rfl, h⟩
  exact read?_text h

theorem isBreak_extension? (m : Mark) : ∀ c ∈ m.extension?, isBreak c = false := by
  cases m <;> rintro c ⟨⟩ <;> decide

theorem text_ne_nil (m : Mark) : m.text.toList ≠ [] := by
  cases m <;> decide

theorem isBreak_text (m : Mark) : ∀ c ∈ m.text.toList, isBreak c = false := by
  have hall : m.text.toList.all (!isBreak ·) = true := by cases m <;> decide
  simpa using hall

theorem text_ascii (m : Mark) : ∀ c ∈ m.text.toList, c.toNat < 128 := by
  have hall : m.text.toList.all (·.toNat < 128) = true := by cases m <;> decide
  simpa using hall

end Mark

end TemplatedForms
