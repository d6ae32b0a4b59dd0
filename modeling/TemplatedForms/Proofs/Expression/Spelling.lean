import TemplatedForms.Expression.Tokenize
import TemplatedForms.Proofs.Text.CodePoint

namespace TemplatedForms

theorem byteLength_eq (cs : List Char) : byteLength cs = String.utf8Len cs := by
  have hfold (n : Nat) : cs.foldl (fun n c ↦ n + c.utf8Size) n = n + String.utf8Len cs := by
    induction cs generalizing n with
    | nil => rfl
    | cons c cs ih =>
      rw [List.foldl_cons, ih, String.utf8Len_cons]
      omega
  exact (hfold 0).trans (Nat.zero_add _)

@[simp] theorem byteLength_nil : byteLength [] = 0 := rfl

@[simp] theorem byteLength_cons (c : Char) (cs : List Char) :
    byteLength (c :: cs) = c.utf8Size + byteLength cs := by
  rw [byteLength_eq, byteLength_eq, String.utf8Len_cons, Nat.add_comm]

@[simp] theorem byteLength_append (cs ds : List Char) :
    byteLength (cs ++ ds) = byteLength cs + byteLength ds := by
  rw [byteLength_eq, byteLength_eq, byteLength_eq, String.utf8Len_append]

theorem byteLength_toList (s : String) : byteLength s.toList = s.utf8ByteSize := by
  rw [byteLength_eq, ← String.utf8ByteSize_ofList, String.ofList_toList]

theorem utf8Size_of_ascii {c : Char} (h : c.toNat < 128) : c.utf8Size = 1 :=
  Char.utf8Size_eq_one_iff.mpr (UInt32.le_iff_toNat_le.mpr (Nat.le_of_lt_succ h))

theorem byteLength_of_ascii {cs : List Char} (h : ∀ c ∈ cs, c.toNat < 128) : byteLength cs = cs.length := by
  induction cs with
  | nil => rfl
  | cons c cs ih =>
    rw [List.forall_mem_cons] at h
    rw [byteLength_cons, utf8Size_of_ascii h.1, ih h.2, List.length_cons, Nat.add_comm]

namespace Token

def shortEscapes : List (Char × Char) :=
  [('\n', 'n'), ('\t', 't'), ('\r', 'r'), ('\x08', 'b'), ('\x0c', 'f'), ('\x00', '0'), ('/', '/'),
    ('\\', '\\'), ('\'', '\''), ('"', '"'), (Char.ofNat 0x60, Char.ofNat 0x60)]

inductive Escape (c : Char) : List Char → Prop
  | short {letter : Char} : (c, letter) ∈ shortEscapes → Escape c ['\\', letter]
  | unicode {us : List Char} : Text.UnicodeEscape c us → Escape c us

theorem escape_of_read {cs rest : List Char} {c : Char} {k : Nat} (h : readEscape? cs = some (c, k, rest)) :
    ∃ us, Escape c us ∧ '\\' :: cs = us ++ rest ∧ us.length = k + 1 := by
  unfold readEscape? at h
  split at h
  case h_7 =>
    obtain ⟨⟨d, n, rest'⟩, hread, hd⟩ := Option.map_eq_some_iff.mp h
    cases hd
    obtain ⟨us, hus, hcs, hlength⟩ := Text.readCodePoint?_eq_some_iff.mp hread
    exact ⟨us, .unicode hus, hcs, hlength⟩
  case h_8 d rest' _ _ _ _ _ _ _ =>
    split at h
    · next hd =>
      cases h
      refine ⟨['\\', c], .short ?_, rfl, rfl⟩
      obtain rfl | rfl | rfl | rfl | rfl := hd <;> decide
    · cases h
  case h_9 => cases h
  all_goals
    cases h
    exact ⟨_, .short (by decide), rfl, rfl⟩

theorem readEscape?_short {c letter : Char} (h : (c, letter) ∈ shortEscapes) (rest : List Char) :
    readEscape? (letter :: rest) = some (c, 1, rest) := by
  simp only [shortEscapes, List.mem_cons, Prod.mk.injEq, List.not_mem_nil, or_false] at h
  rcases h with ⟨rfl, rfl⟩ | ⟨rfl, rfl⟩ | ⟨rfl, rfl⟩ | ⟨rfl, rfl⟩ | ⟨rfl, rfl⟩ | ⟨rfl, rfl⟩ | ⟨rfl, rfl⟩ |
    ⟨rfl, rfl⟩ | ⟨rfl, rfl⟩ | ⟨rfl, rfl⟩ | ⟨rfl, rfl⟩
  all_goals rfl

theorem readEscape?_eq_some_iff {cs rest : List Char} {c : Char} {k : Nat} :
    readEscape? cs = some (c, k, rest) ↔
      ∃ us, Escape c us ∧ '\\' :: cs = us ++ rest ∧ us.length = k + 1 := by
  refine ⟨escape_of_read, ?_⟩
  rintro ⟨us, hshort | hunicode, hcs, hk⟩
  · cases hcs
    cases hk
    exact readEscape?_short hshort rest
  · obtain ⟨vs, rfl⟩ : ∃ vs, us = '\\' :: 'u' :: vs := by
      cases hunicode <;> exact ⟨_, rfl⟩
    simp only [List.cons_append, List.cons.injEq, true_and, List.length_cons] at hcs hk
    obtain ⟨k, rfl⟩ : ∃ n, k = n + 1 := ⟨k - 1, by omega⟩
    have hread : Text.readCodePoint? (vs ++ rest) = some (c, k, rest) :=
      Text.readCodePoint?_eq_some_iff.mpr ⟨_, hunicode, rfl, by simpa using hk⟩
    rw [hcs, readEscape?, hread, Option.map_some]

theorem Escape.exists_letters {c : Char} {us : List Char} (h : Escape c us) :
    ∃ vs, us = '\\' :: vs ∧ ∀ rest, readEscape? (vs ++ rest) = some (c, vs.length, rest) := by
  obtain ⟨vs, rfl⟩ : ∃ vs, us = '\\' :: vs := by
    rcases h with _ | h
    · exact ⟨_, rfl⟩
    · cases h <;> exact ⟨_, rfl⟩
  exact ⟨vs, rfl, fun rest ↦ readEscape?_eq_some_iff.mpr ⟨_, h, rfl, List.length_cons⟩⟩

theorem Escape.ascii {c : Char} {us : List Char} (h : Escape c us) : ∀ u ∈ us, u.toNat < 128 := by
  cases h with
  | short h =>
    have hall : ∀ p ∈ shortEscapes, p.2.toNat < 128 := by decide
    have hletter := hall _ h
    simpa using hletter
  | unicode h => exact h.ascii

/-- A character between quotes: as itself, or as an escape. -/
inductive Spelling (quote c : Char) : List Char → Prop
  | plain : c ∉ [quote, '\\', '\n'] → Spelling quote c [c]
  | escape {us : List Char} : Escape c us → Spelling quote c us

inductive Spelled (quote : Char) : (text cs : List Char) → Prop
  | nil : Spelled quote [] []
  | cons {c : Char} {us text cs : List Char} :
      Spelling quote c us → Spelled quote text cs → Spelled quote (c :: text) (us ++ cs)

theorem Spelling.ne_nil {quote c : Char} {us : List Char} (h : Spelling quote c us) : us ≠ [] := by
  cases h with
  | plain => simp
  | escape h =>
    obtain ⟨vs, rfl, -⟩ := h.exists_letters
    simp

theorem Spelled.length_le {quote : Char} {text cs : List Char} (h : Spelled quote text cs) :
    text.length ≤ cs.length := by
  induction h with
  | nil => exact Nat.le_refl 0
  | cons hc _ ih =>
    have hpos := List.length_pos_iff.mpr hc.ne_nil
    rw [List.length_cons, List.length_append]
    omega

section

variable {quote : Char} (hq : quote ≠ '\\') (start column : Nat) (text rest : List Char)

include hq

theorem readQuoted_spelling (fuel : Nat) {c : Char} {us : List Char} (h : Spelling quote c us) :
    readQuoted quote start (fuel + 1) text column (us ++ rest) =
      readQuoted quote start fuel (c :: text) (column + byteLength us) rest := by
  cases h with
  | plain hc =>
    simp only [List.mem_cons, List.not_mem_nil, or_false, not_or] at hc
    rw [List.singleton_append, readQuoted, if_neg hc.1, if_neg hc.2.1, if_neg hc.2.2]
    simp
  | escape hc =>
    have hbytes := byteLength_of_ascii hc.ascii
    obtain ⟨vs, rfl, hread⟩ := hc.exists_letters
    have hcs : vs ++ rest ≠ [] := by
      intro hnil
      have hread := hread rest
      rw [hnil] at hread
      cases hread
    rw [List.cons_append, readQuoted, if_neg hq.symm, if_pos rfl, if_neg (by simpa using hcs), hread,
      hbytes, List.length_cons]
    dsimp only
    rw [Nat.add_assoc, Nat.add_comm 1]

theorem readQuoted_spelled (fuel : Nat) {us cs : List Char} (h : Spelled quote us cs) :
    readQuoted quote start (fuel + us.length) text column (cs ++ rest) =
      readQuoted quote start fuel (us.reverse ++ text) (column + byteLength cs) rest := by
  induction h generalizing text column with
  | nil => simp
  | cons hc _ ih =>
    rw [List.length_cons, ← Nat.add_assoc, List.append_assoc, readQuoted_spelling hq _ _ _ _ _ hc, ih]
    simp [Nat.add_assoc]

variable {fuel : Nat} {us cs : List Char} (h : Spelled quote us cs) (hf : us.length < fuel)

include h hf

theorem readQuoted_closed :
    readQuoted quote start fuel text column (cs ++ quote :: rest) =
      .ok (String.ofList (text.reverse ++ us), column + byteLength cs + 1, rest) := by
  obtain ⟨n, rfl⟩ : ∃ n, fuel = n + 1 + us.length := ⟨fuel - 1 - us.length, by omega⟩
  rw [readQuoted_spelled hq _ _ _ _ _ h, readQuoted, if_pos rfl, List.reverse_append, List.reverse_reverse]

theorem readQuoted_invalid (hrest : rest ≠ []) (hescape : readEscape? rest = none) :
    readQuoted quote start fuel text column (cs ++ '\\' :: rest) =
      .error (.invalidEscape (column + byteLength cs)) := by
  obtain ⟨n, rfl⟩ : ∃ n, fuel = n + 1 + us.length := ⟨fuel - 1 - us.length, by omega⟩
  rw [readQuoted_spelled hq _ _ _ _ _ h, readQuoted, if_neg hq.symm, if_pos rfl,
    if_neg (by simpa using hrest), hescape]

end

end Token

end TemplatedForms
