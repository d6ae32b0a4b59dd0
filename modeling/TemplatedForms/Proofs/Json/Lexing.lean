import Mathlib.Data.List.Forall2
import TemplatedForms.Proofs.Expression.Lexing
import TemplatedForms.Proofs.Json.Expression

namespace TemplatedForms

/-- The end of a text, or what may stand behind a value inside of an array or an object. -/
def AtDelimiter (cs : List Char) : Prop := ∀ c ∈ cs.head?, c ∈ [',', ']', '\x7d']

namespace Token

/-- A text has some tokens, in front of whatever may stand behind a value. -/
def Spells (cs : List Char) (ts : List Token) : Prop :=
  ∀ tail us, AtDelimiter tail → Lexes tail us → Lexes (cs ++ tail) (ts ++ us)

theorem lexes_cons {c : Char} {cs rest : List Char} {t : Token} {ts : List Token}
    (hc : Text.isBlank c = false) (h : Reads c cs t rest) (hts : Lexes rest ts) :
    Lexes (c :: cs) (t :: ts) :=
  .token (List.forall_mem_nil _) hc h hts

theorem lexes_mark {c : Char} {m : Mark}
    (h : (c, m) ∈ [('[', .leftBracket), (']', .rightBracket), ('\x7b', .leftBrace), ('\x7d', .rightBrace),
      (',', .comma), (':', .colon), ('-', Mark.minus)])
    {cs : List Char} {ts : List Token} (hts : Lexes cs ts) : Lexes (c :: cs) (.mark m :: ts) := by
  simp only [List.mem_cons, Prod.mk.injEq, List.not_mem_nil, or_false] at h
  rcases h with ⟨rfl, rfl⟩ | ⟨rfl, rfl⟩ | ⟨rfl, rfl⟩ | ⟨rfl, rfl⟩ | ⟨rfl, rfl⟩ | ⟨rfl, rfl⟩ | ⟨rfl, rfl⟩
  all_goals exact lexes_cons (by decide) (.mark (by decide) rfl (by decide) rfl) hts

theorem spells_name {c : Char} {cs : List Char} (hc : isNameStart c = true)
    (hfirst : ¬(c = '\'' ∨ c = '"') ∧ Text.isBlank c = false ∧ c.isDigit = false ∧ c ≠ '.')
    (hcs : cs.all isNamePart = true) : Spells (c :: cs) [.name (String.ofList (c :: cs))] := by
  intro tail us ht hts
  obtain ⟨hquote, hblank, hdigit, hpoint⟩ := hfirst
  have hnumeral : Number.Numeral.read? (c :: (cs ++ tail)) = none := by
    simp [Number.Numeral.read?, Number.Numeral.readFraction, hdigit, hpoint]
  have hreads : Reads c (cs ++ tail) _ _ := .name hquote hnumeral hc
  have hparts : ∀ d ∈ cs, isNamePart d = true := List.all_eq_true.mp hcs
  have hends : ∀ d ∈ tail.head?, isNamePart d = false := by
    intro d hd
    have hd := ht d hd
    simp only [List.mem_cons, List.not_mem_nil, or_false] at hd
    rcases hd with rfl | rfl | rfl <;> decide
  rw [takeWhile_run hparts hends, dropWhile_run hparts hends] at hreads
  exact lexes_cons hblank hreads hts

theorem spells_numeral {n : Number.Numeral} (h : n.WellFormed) : Spells n.text [.number n.toFloat] := by
  intro tail us ht hts
  have hends : Number.Numeral.Ends tail := by
    intro c hc
    have hc := ht c hc
    simp only [List.mem_cons, List.not_mem_nil, or_false] at hc
    rcases hc with rfl | rfl | rfl <;> decide
  obtain ⟨c, cs, hcs⟩ := List.exists_cons_of_ne_nil h.whole.nonempty
  have hdigit : c.isDigit = true := h.whole.isDigit c (hcs ▸ List.mem_cons_self)
  have hread := Number.Numeral.read?_text h hends
  rw [Number.Numeral.text, hcs] at hread ⊢
  have hquote : ¬(c = '\'' ∨ c = '"') := by
    rintro (rfl | rfl) <;> cases hdigit
  have hblank : Text.isBlank c = false := by
    have hrange : 48 ≤ c.toNat ∧ c.toNat ≤ 57 := by
      simpa [Char.isDigit, UInt32.le_iff_toNat_le] using hdigit
    simp [Text.isBlank]
    omega
  exact lexes_cons hblank (.number hquote hread) hts

theorem readCodePoint?_control {c : Char} (h : c.toNat < 32) (cs : List Char) :
    Text.readCodePoint?
      ('0' :: '0' :: Nat.digitChar (c.toNat / 16) :: Nat.digitChar (c.toNat % 16) :: cs) = some (c, 4, cs) := by
  have hzero : Text.HexDigit 0 '0' := by decide
  have hunit := Text.HexUnit.digits hzero hzero (Text.hexDigit_digitChar (n := c.toNat / 16) (by omega))
    (Text.hexDigit_digitChar (n := c.toNat % 16) (by omega))
  rw [show ((0 * 16 + 0) * 16 + c.toNat / 16) * 16 + c.toNat % 16 = c.toNat by omega] at hunit
  exact Text.read_unit (by omega) hunit cs

theorem readEscape?_control {c : Char} (h : c.toNat < 32) (cs : List Char) :
    readEscape? ('u' :: '0' :: '0' :: Nat.digitChar (c.toNat / 16) :: Nat.digitChar (c.toNat % 16) :: cs) =
      some (c, 5, cs) := by
  rw [readEscape?, readCodePoint?_control h cs]
  rfl

theorem quoted_escapedChar (c : Char) {text cs rest : List Char} (h : Quoted '"' text cs rest) :
    Quoted '"' (c :: text) (Json.escapedChar c ++ cs) rest := by
  unfold Json.escapedChar
  split
  -- the character has no short escape
  case h_8 hquote hslash _ _ hline _ _ =>
    split
    · next hcontrol => exact .escape (readEscape?_control hcontrol cs) h
    · refine .plain ?_ h
      simp only [List.mem_cons, List.not_mem_nil, or_false, not_or]
      exact ⟨hquote, hslash, hline⟩
  all_goals exact .escape rfl h

theorem quoted_text (text rest : List Char) :
    Quoted '"' text (text.flatMap Json.escapedChar ++ '"' :: rest) rest := by
  induction text with
  | nil => exact .close rest
  | cons c text ih =>
    rw [List.flatMap_cons, List.append_assoc]
    exact quoted_escapedChar c ih

theorem lexes_quoted (s : String) {rest : List Char} {ts : List Token} (hts : Lexes rest ts) :
    Lexes ((Json.quoted s).toList ++ rest) (.string s :: ts) := by
  have hreads := Reads.string (.inr rfl) (quoted_text s.toList rest)
  rw [String.ofList_toList] at hreads
  rw [Json.quoted, String.toList_ofList, List.cons_append, List.cons_append, List.append_assoc]
  exact lexes_cons (by decide) hreads hts

open Grammar (separated)

theorem lexes_separated {texts : List String} {parts : List (List Token)}
    (h : List.Forall₂ (fun s ts ↦ Spells s.toList ts) texts parts) {c : Char} {closing : Mark}
    (hc : (c, closing) ∈ [(']', .rightBracket), ('\x7d', Mark.rightBrace)]) {tail : List Char} {us : List Token}
    (hts : Lexes tail us) :
    Lexes ((",".intercalate texts).toList ++ c :: tail) (separated closing parts ++ us) := by
  have hclosing : Lexes (c :: tail) (.mark closing :: us) := by
    refine lexes_mark ?_ hts
    simp only [List.mem_cons, List.not_mem_nil, or_false] at hc
    rcases hc with hc | hc <;> simp [hc]
  have hdelimiter : AtDelimiter (c :: tail) := by
    rintro d ⟨⟩
    simp only [List.mem_cons, List.not_mem_nil, or_false, Prod.mk.injEq] at hc
    rcases hc with ⟨rfl, -⟩ | ⟨rfl, -⟩ <;> simp
  induction h with
  | nil => simpa [separated] using hclosing
  | @cons s ts texts parts hs hrest ih =>
    cases hrest with
    | nil =>
      have hlast := hs _ _ hdelimiter hclosing
      simpa [separated] using hlast
    | @cons s' ts' texts' parts' hs' hrest' =>
      have hcomma := lexes_mark (c := ',') (m := .comma) (by simp) ih
      have hnext := hs _ _ (by rintro d ⟨⟩; simp) hcomma
      rw [String.intercalate_cons_cons]
      simpa [separated] using hnext

end Token

namespace Json

open Token

theorem spells_number {n : JsonNumber} (h : n.IsFinite) : Spells n.text.toList n.phrase.tokens := by
  obtain ⟨m, hm, hvalue, htext⟩ := n.exists_numeral h
  have hnumeral := spells_numeral hm
  rw [hvalue] at hnumeral
  rw [htext, JsonNumber.phrase]
  split
  · intro tail us ht hts
    exact lexes_mark (by simp) (hnumeral tail us ht hts)
  · exact hnumeral

mutual

theorem spells_compact : (j : Json) → j.Valid → Spells j.compact.toList j.phrase.tokens
  | .null, _ => spells_name (by decide) (by decide) (by decide)
  | .bool true, _ => spells_name (by decide) (by decide) (by decide)
  | .bool false, _ => spells_name (by decide) (by decide) (by decide)
  | .number _, h => spells_number h
  | .string s, _ => fun _ _ _ hts ↦ lexes_quoted s hts
  | .array items, h => by
    intro tail us _ hts
    have hclosing : (']', Mark.rightBracket) ∈ [(']', .rightBracket), ('\x7d', .rightBrace)] := by simp
    have hitems := lexes_separated (spells_items items h) hclosing hts
    have hopening := lexes_mark (c := '[') (m := .leftBracket) (by simp) hitems
    simpa [compact, phrase] using hopening
  | .object members, h => by
    intro tail us _ hts
    have hclosing : ('\x7d', Mark.rightBrace) ∈ [(']', .rightBracket), ('\x7d', .rightBrace)] := by simp
    have hmembers := lexes_separated (spells_members members h.2) hclosing hts
    have hopening := lexes_mark (c := '\x7b') (m := .leftBrace) (by simp) hmembers
    simpa [compact, phrase] using hopening

theorem spells_items : (js : List Json) → ValidItems js →
    List.Forall₂ (fun s ts ↦ Spells s.toList ts) (compactItems js) ((phrases js).map (·.tokens))
  | [], _ => .nil
  | j :: js, h => .cons (spells_compact j h.1) (spells_items js h.2)

theorem spells_members : (ms : List (String × Json)) → ValidMembers ms →
    List.Forall₂ (fun s ts ↦ Spells s.toList ts) (compactMembers ms) ((entries ms).map (·.phrase.tokens))
  | [], _ => .nil
  | (key, j) :: ms, h => by
    refine .cons (fun tail us ht hts ↦ ?_) (spells_members ms h.2)
    have hcolon := lexes_mark (c := ':') (m := .colon) (by simp) (spells_compact j h.1 tail us ht hts)
    simpa [Grammar.Entry.phrase] using lexes_quoted key hcolon

end

end Json

end TemplatedForms
