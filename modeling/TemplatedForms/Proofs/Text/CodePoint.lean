import Mathlib.Data.String.Basic
import TemplatedForms.Text.CodePoint

namespace TemplatedForms.Text

def HexDigit (n : Nat) (c : Char) : Prop := n < 16 ∧ c.toLower = Nat.digitChar n

instance (n : Nat) (c : Char) : Decidable (HexDigit n c) :=
  inferInstanceAs (Decidable (n < 16 ∧ c.toLower = Nat.digitChar n))

inductive HexUnit : Nat → List Char → Prop
  | digits {a b c d : Nat} {p q r s : Char} :
      HexDigit a p → HexDigit b q → HexDigit c r → HexDigit d s →
      HexUnit (((a * 16 + b) * 16 + c) * 16 + d) [p, q, r, s]

/-- A character by its code point or, if that takes more than 16 bits, by a high and a low surrogate. -/
inductive UnicodeEscape (c : Char) : List Char → Prop
  | unit {ds : List Char} : c.toNat < 0x10000 → HexUnit c.toNat ds → UnicodeEscape c ('\\' :: 'u' :: ds)
  | pair {ds es : List Char} : 0x10000 ≤ c.toNat →
      HexUnit (0xD800 + (c.toNat - 0x10000) / 0x400) ds → HexUnit (0xDC00 + (c.toNat - 0x10000) % 0x400) es →
      UnicodeEscape c ('\\' :: 'u' :: (ds ++ '\\' :: 'u' :: es))

theorem hexDigit_digitChar {n : Nat} (h : n < 16) : HexDigit n (Nat.digitChar n) := by
  have hall : ∀ n < 16, HexDigit n (Nat.digitChar n) := by decide
  exact hall n h

theorem HexDigit.toNat_lt {n : Nat} {c : Char} (h : HexDigit n c) : c.toNat < 128 := by
  obtain ⟨hn, hc⟩ := h
  have hlower : (Nat.digitChar n).toNat < 128 := by
    have hall : ∀ n < 16, (Nat.digitChar n).toNat < 128 := by decide
    exact hall n hn
  by_cases hupper : c.val ≥ 'A'.val ∧ c.val ≤ 'Z'.val
  · have hle : c.toNat ≤ 90 := UInt32.le_iff_toNat_le.mp hupper.2
    omega
  · have hsame : c.toLower = c := dif_neg hupper
    rwa [← hc, hsame] at hlower

theorem toNat_lt_of_hexValue? {c : Char} {n : Nat} (h : hexValue? c = some n) : c.toNat < 128 := by
  have hle (d : Char) (hd : c ≤ d) : c.toNat ≤ d.toNat := UInt32.le_iff_toNat_le.mp hd
  rw [hexValue?] at h
  split at h
  · next hc => exact Nat.lt_of_le_of_lt (hle _ hc.2) (by decide)
  · split at h
    · next hc => exact Nat.lt_of_le_of_lt (hle _ hc.2) (by decide)
    · split at h
      · next hc => exact Nat.lt_of_le_of_lt (hle _ hc.2) (by decide)
      · cases h

theorem hexValue?_eq_some_iff {c : Char} {n : Nat} : hexValue? c = some n ↔ HexDigit n c := by
  have hvalue : ∀ k < 128, (hexValue? (Char.ofNat k)).all (· < 16) = true := by decide +kernel
  have hdigit : ∀ k < 128, ∀ n < 16,
      hexValue? (Char.ofNat k) = some n ↔ (Char.ofNat k).toLower = Nat.digitChar n := by decide +kernel
  constructor
  · intro h
    have hc := toNat_lt_of_hexValue? h
    have hn : n < 16 := by
      have hall := hvalue c.toNat hc
      rw [Char.ofNat_toNat, h] at hall
      simpa using hall
    have hiff := hdigit c.toNat hc n hn
    rw [Char.ofNat_toNat] at hiff
    exact ⟨hn, hiff.mp h⟩
  · intro h
    have hiff := hdigit c.toNat h.toNat_lt n h.1
    rw [Char.ofNat_toNat] at hiff
    exact hiff.mpr h.2

namespace HexUnit

variable {n : Nat} {ds : List Char}

theorem length (h : HexUnit n ds) : ds.length = 4 := by
  cases h
  rfl

theorem lt (h : HexUnit n ds) : n < 0x10000 := by
  cases h with
  | digits hp hq hr hs =>
    have ha := hp.1
    have hb := hq.1
    have hc := hr.1
    have hd := hs.1
    omega

theorem ascii (h : HexUnit n ds) : ∀ c ∈ ds, c.toNat < 128 := by
  cases h with
  | digits hp hq hr hs =>
    simp [hp.toNat_lt, hq.toNat_lt, hr.toNat_lt, hs.toNat_lt]

end HexUnit

theorem UnicodeEscape.ascii {c : Char} {us : List Char} (h : UnicodeEscape c us) :
    ∀ u ∈ us, u.toNat < 128 := by
  intro u hu
  cases h with
  | unit _ hds =>
    simp only [List.mem_cons] at hu
    rcases hu with rfl | rfl | hu
    · decide
    · decide
    · exact hds.ascii u hu
  | pair _ hds hes =>
    simp only [List.mem_cons, List.mem_append] at hu
    rcases hu with rfl | rfl | hu | rfl | rfl | hu
    · decide
    · decide
    · exact hds.ascii u hu
    · decide
    · decide
    · exact hes.ascii u hu

theorem readUnit?_eq_some_iff {cs rest : List Char} {n : Nat} :
    readUnit? cs = some (n, rest) ↔ ∃ ds, HexUnit n ds ∧ cs = ds ++ rest := by
  constructor
  · intro h
    match cs with
    | p :: q :: r :: s :: cs =>
      simp only [readUnit?, Option.bind_eq_bind, Option.bind_eq_some_iff, Option.some.injEq,
        Prod.mk.injEq, hexValue?_eq_some_iff] at h
      obtain ⟨a, hp, b, hq, c, hr, d, hs, rfl, rfl⟩ := h
      exact ⟨[p, q, r, s], .digits hp hq hr hs, rfl⟩
    | [] | [_] | [_, _] | [_, _, _] => cases h
  · rintro ⟨_, ⟨hp, hq, hr, hs⟩, rfl⟩
    rw [← hexValue?_eq_some_iff] at hp hq hr hs
    simp [readUnit?, hp, hq, hr, hs]

theorem toNat_ofNat_of_valid {n : Nat} (h : n < 0xD800 ∨ 0xDFFF < n ∧ n < 0x110000) :
    (Char.ofNat n).toNat = n := by
  rw [Char.ofNat, dif_pos h]
  rfl

theorem not_surrogate (c : Char) : c.toNat < 0xD800 ∨ 0xDFFF < c.toNat ∧ c.toNat < 0x110000 := c.valid

theorem isHighSurrogate_iff {n : Nat} : isHighSurrogate n = true ↔ 0xD800 ≤ n ∧ n ≤ 0xDBFF := by
  simp [isHighSurrogate]

theorem isLowSurrogate_iff {n : Nat} : isLowSurrogate n = true ↔ 0xDC00 ≤ n ∧ n ≤ 0xDFFF := by
  simp [isLowSurrogate]

theorem toNat_surrogatePair {n m : Nat} (hn : isHighSurrogate n = true) (hm : isLowSurrogate m = true) :
    (surrogatePair n m).toNat = 0x10000 + (n - 0xD800) * 0x400 + (m - 0xDC00) := by
  rw [isHighSurrogate_iff] at hn
  rw [isLowSurrogate_iff] at hm
  exact toNat_ofNat_of_valid (by omega)

theorem exists_escape_of_read {cs rest : List Char} {c : Char} {k : Nat}
    (h : readCodePoint? cs = some (c, k, rest)) :
    ∃ us, UnicodeEscape c us ∧ '\\' :: 'u' :: cs = us ++ rest ∧ us.length = k + 2 := by
  simp only [readCodePoint?, Option.bind_eq_bind, Option.bind_eq_some_iff] at h
  obtain ⟨⟨n, cs'⟩, hn, h₁⟩ := h
  obtain ⟨ds, hds, rfl⟩ := readUnit?_eq_some_iff.mp hn
  have hlt := hds.lt
  have hlength := hds.length
  dsimp only at h₁
  split at h₁
  · next hhigh =>
    split at h₁
    · obtain ⟨⟨m, cs''⟩, hm, h₂⟩ := Option.bind_eq_some_iff.mp h₁
      obtain ⟨es, hes, rfl⟩ := readUnit?_eq_some_iff.mp hm
      have hlength' := hes.length
      dsimp only at h₂
      split at h₂
      · next hlow =>
        simp only [Option.some.injEq, Prod.mk.injEq] at h₂
        obtain ⟨rfl, rfl, rfl⟩ := h₂
        have hc := toNat_surrogatePair hhigh hlow
        rw [isHighSurrogate_iff] at hhigh
        rw [isLowSurrogate_iff] at hlow
        have hn : n = 0xD800 + ((surrogatePair n m).toNat - 0x10000) / 0x400 := by omega
        have hm : m = 0xDC00 + ((surrogatePair n m).toNat - 0x10000) % 0x400 := by omega
        exact ⟨_, .pair (by omega) (hn ▸ hds) (hm ▸ hes), by simp, by simp [hlength, hlength']⟩
      · cases h₂
    · cases h₁
  · next hhigh =>
    split at h₁
    · cases h₁
    · next hlow =>
      rw [isHighSurrogate_iff] at hhigh
      rw [isLowSurrogate_iff] at hlow
      simp only [Option.some.injEq, Prod.mk.injEq] at h₁
      obtain ⟨rfl, rfl, rfl⟩ := h₁
      have hc : (Char.ofNat n).toNat = n := toNat_ofNat_of_valid (by omega)
      exact ⟨_, .unit (by omega) (hc.symm ▸ hds), by simp, by simp [hlength]⟩

theorem read_unit {c : Char} {ds : List Char} (hc : c.toNat < 0x10000) (h : HexUnit c.toNat ds)
    (rest : List Char) : readCodePoint? (ds ++ rest) = some (c, 4, rest) := by
  have hunit := readUnit?_eq_some_iff.mpr ⟨ds, h, (rfl : ds ++ rest = _)⟩
  have hvalid := not_surrogate c
  have hhigh : ¬isHighSurrogate c.toNat = true := by
    rw [isHighSurrogate_iff]
    omega
  have hlow : ¬isLowSurrogate c.toNat = true := by
    rw [isLowSurrogate_iff]
    omega
  simp [readCodePoint?, hunit, hhigh, hlow, Char.ofNat_toNat]

theorem read_surrogates {n m : Nat} {ds es : List Char} (hn : isHighSurrogate n = true)
    (hm : isLowSurrogate m = true) (hds : HexUnit n ds) (hes : HexUnit m es) (rest : List Char) :
    readCodePoint? (ds ++ '\\' :: 'u' :: (es ++ rest)) = some (surrogatePair n m, 10, rest) := by
  have hhigh := readUnit?_eq_some_iff.mpr ⟨ds, hds, (rfl : ds ++ '\\' :: 'u' :: (es ++ rest) = _)⟩
  have hlow := readUnit?_eq_some_iff.mpr ⟨es, hes, (rfl : es ++ rest = _)⟩
  simp [readCodePoint?, hhigh, hn, hlow, hm]

theorem eq_surrogatePair {c : Char} {n m : Nat} (hc : 0x10000 ≤ c.toNat)
    (hn : n = 0xD800 + (c.toNat - 0x10000) / 0x400) (hm : m = 0xDC00 + (c.toNat - 0x10000) % 0x400) :
    isHighSurrogate n = true ∧ isLowSurrogate m = true ∧ surrogatePair n m = c := by
  have hvalid := not_surrogate c
  have hhigh : isHighSurrogate n = true := by
    rw [isHighSurrogate_iff]
    omega
  have hlow : isLowSurrogate m = true := by
    rw [isLowSurrogate_iff]
    omega
  refine ⟨hhigh, hlow, Char.toNat_inj.mp ?_⟩
  rw [toNat_surrogatePair hhigh hlow]
  omega

theorem read_pair {c : Char} {ds es : List Char} (hc : 0x10000 ≤ c.toNat)
    (hds : HexUnit (0xD800 + (c.toNat - 0x10000) / 0x400) ds)
    (hes : HexUnit (0xDC00 + (c.toNat - 0x10000) % 0x400) es) (rest : List Char) :
    readCodePoint? (ds ++ '\\' :: 'u' :: (es ++ rest)) = some (c, 10, rest) := by
  obtain ⟨hhigh, hlow, hpair⟩ := eq_surrogatePair hc rfl rfl
  rw [read_surrogates hhigh hlow hds hes, hpair]

theorem readCodePoint?_eq_some_iff {cs rest : List Char} {c : Char} {k : Nat} :
    readCodePoint? cs = some (c, k, rest) ↔
      ∃ us, UnicodeEscape c us ∧ '\\' :: 'u' :: cs = us ++ rest ∧ us.length = k + 2 := by
  refine ⟨exists_escape_of_read, ?_⟩
  rintro ⟨_, ⟨hc, hds⟩ | ⟨hc, hds, hes⟩, hcs, hk⟩
  · have hlength := hds.length
    simp only [List.cons_append, List.cons.injEq, true_and, List.length_cons] at hcs hk
    obtain rfl : k = 4 := by omega
    rw [hcs, read_unit hc hds]
  · have hlength := hds.length
    have hlength' := hes.length
    simp only [List.cons_append, List.append_assoc, List.cons.injEq, true_and, List.length_cons,
      List.length_append] at hcs hk
    obtain rfl : k = 10 := by omega
    rw [hcs, read_pair hc hds hes]

/-- What spells no character behind a backslash and the letter `u`: less than four digits, a low surrogate, or
a high one with no low one behind it. -/
inductive Unpaired : List Char → Prop
  | short {cs : List Char} : (∀ n ds, HexUnit n ds → ¬ds <+: cs) → Unpaired cs
  | low {n : Nat} {ds rest : List Char} : HexUnit n ds → 0xDC00 ≤ n ∧ n ≤ 0xDFFF → Unpaired (ds ++ rest)
  | high {n : Nat} {ds rest : List Char} : HexUnit n ds → 0xD800 ≤ n ∧ n ≤ 0xDBFF →
      (∀ m es, HexUnit m es → 0xDC00 ≤ m ∧ m ≤ 0xDFFF → ¬('\\' :: 'u' :: es <+: rest)) →
      Unpaired (ds ++ rest)

theorem read_unpaired {cs : List Char} (h : Unpaired cs) : readCodePoint? cs = none := by
  cases h with
  | short hshort =>
    have hunit : readUnit? cs = none := by
      by_contra hsome
      obtain ⟨⟨n, rest⟩, hread⟩ := Option.ne_none_iff_exists'.mp hsome
      obtain ⟨ds, hds, rfl⟩ := readUnit?_eq_some_iff.mp hread
      exact hshort n ds hds (List.prefix_append _ _)
    rw [readCodePoint?, hunit]
    rfl
  | @low n ds rest hds hn =>
    have hunit := readUnit?_eq_some_iff.mpr ⟨ds, hds, (rfl : ds ++ rest = _)⟩
    have hhigh : isHighSurrogate n = false := by
      rw [← Bool.not_eq_true, isHighSurrogate_iff]
      omega
    simp [readCodePoint?, hunit, hhigh, isLowSurrogate_iff.mpr hn]
  | @high n ds rest hds hn hbehind =>
    have hunit := readUnit?_eq_some_iff.mpr ⟨ds, hds, (rfl : ds ++ rest = _)⟩
    simp only [readCodePoint?, hunit, Option.bind_eq_bind, Option.bind_some, isHighSurrogate_iff.mpr hn, if_true]
    split
    · next rest' =>
      rw [Option.bind_eq_none_iff]
      rintro ⟨m, rest''⟩ hread
      obtain ⟨es, hes, rfl⟩ := readUnit?_eq_some_iff.mp hread
      have hlow : ¬isLowSurrogate m = true := by
        intro hm
        exact hbehind m es hes (isLowSurrogate_iff.mp hm) (List.prefix_append ('\\' :: 'u' :: es) _)
      rw [if_neg hlow]
    · rfl

end TemplatedForms.Text
