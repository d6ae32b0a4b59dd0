import TemplatedForms.Proofs.Expression.Lexing
import TemplatedForms.Proofs.Text.Blank

namespace TemplatedForms

open Token

/-- A text between quotes of one kind, each of its characters spelled in some way. -/
inductive StringLiteral (text : String) : String → Prop
  | quoted {quote : Char} {us : List Char} : quote = '\'' ∨ quote = '"' → Spelled quote text.toList us →
      StringLiteral text (String.ofList (quote :: (us ++ [quote])))

theorem literal_of_reads {c : Char} {front rest : List Char} {text : String}
    (h : Reads c (front ++ rest) (.string text) rest) : StringLiteral text (String.ofList (c :: front)) := by
  generalize hcs : front ++ rest = cs at h
  cases h with
  | string hquote hs =>
    obtain ⟨us, hus, rfl⟩ := quoted_iff.mp hs
    obtain rfl : front = us ++ [c] := List.append_cancel_right (hcs.trans (by simp))
    exact .quoted hquote (String.toList_ofList.symm ▸ hus)

theorem tokenize_literal {text s : String} (h : StringLiteral text s) : tokenize s = .ok [⟨.string text, 1⟩] := by
  cases h with
  | @quoted quote us hquote hus =>
    have hquoted : Quoted quote text.toList (us ++ [quote]) [] := quoted_iff.mpr ⟨us, hus, rfl⟩
    have hreads := Reads.string hquote hquoted
    rw [String.ofList_toList] at hreads
    have hblank : Text.isBlank quote = false := by
      obtain rfl | rfl := hquote <;> decide
    exact tokenize_of_reads String.toList_ofList hblank hreads

theorem StringLiteral.trim {text s : String} (h : StringLiteral text s) : Text.trim s = s := by
  cases h with
  | @quoted quote us hquote hus =>
    have hblank : Text.isBlank quote = false := by
      obtain rfl | rfl := hquote <;> decide
    rw [Text.trim_eq_self_iff, Text.trimStart_eq_self_iff, Text.trimEnd_eq_self_iff, String.toList_ofList,
      ← List.cons_append, List.getLast?_concat]
    simp [hblank]

theorem literal_of_tokenize {text s : String} (h : tokenize s = .ok [⟨.string text, 1⟩]) (hs : Text.trim s = s) :
    StringLiteral text s := by
  rw [Text.trim_eq_self_iff, Text.trimStart_eq_self_iff, Text.trimEnd_eq_self_iff] at hs
  obtain ⟨hstart, hend⟩ := hs
  have hlexes : Lexes s.toList [.string text] := tokenize_iff.mp ⟨_, h, rfl⟩
  generalize hcs : s.toList = cs at hlexes hstart hend
  cases hlexes with
  | @token blanks c cs rest _ _ hb hc hr hrest =>
    obtain ⟨front, rfl, -⟩ := hr.exists_front
    have hblanks : blanks = [] := by
      cases blanks with
      | nil => rfl
      | cons b bs =>
        have hblank := hb b List.mem_cons_self
        rw [hstart b rfl] at hblank
        cases hblank
    have hnil : rest = [] := by
      cases hrest with
      | done hrest =>
        by_contra hne
        obtain ⟨d, hd⟩ : ∃ d, rest.getLast? = some d := ⟨_, List.getLast?_eq_some_getLast hne⟩
        have hlast : (blanks ++ c :: (front ++ rest)).getLast? = some d := by
          rw [← List.cons_append, ← List.append_assoc, List.getLast?_append_of_ne_nil _ hne, hd]
        have hblank := hrest d (List.mem_of_getLast? hd)
        rw [hend d hlast] at hblank
        cases hblank
    have hliteral := literal_of_reads hr
    rw [hblanks, hnil, List.nil_append, List.append_nil] at hcs
    rwa [← hcs, String.ofList_toList] at hliteral

theorem literal_of_mem {s : String} {ps : List Positioned} (h : tokenize s = .ok ps) {text : String} {column : Nat}
    (hp : ⟨.string text, column⟩ ∈ ps) :
    ∃ before literal after, s = before ++ literal ++ after ∧ column = before.utf8ByteSize + 1 ∧
      StringLiteral text literal := by
  obtain ⟨before, c, front, rest, hs, hcolumn, hreads⟩ := (tokenize_eq_ok_iff.mp h).mem hp
  refine ⟨String.ofList before, String.ofList (c :: front), String.ofList rest, ?_, ?_, literal_of_reads hreads⟩
  · apply String.toList_inj.mp
    simp [hs]
  · rw [String.utf8ByteSize_ofList, ← byteLength_eq, Nat.add_comm]
    exact hcolumn

theorem tokenize_unpaired {before : String} {ps : List Positioned} (h : tokenize before = .ok ps) {quote : Char}
    (hquote : quote = '\'' ∨ quote = '"') {text us rest : List Char} (hus : Spelled quote text us)
    (hrest : Text.Unpaired rest) :
    tokenize (before ++ String.ofList (quote :: (us ++ '\\' :: 'u' :: rest))) =
      .error (.invalidEscape (before.utf8ByteSize + byteLength us + 2)) := by
  have hslash : quote ≠ '\\' := by
    rintro rfl
    simp at hquote
  have hescape : readEscape? ('u' :: rest) = none := by
    rw [readEscape?, Text.read_unpaired hrest, Option.map_none]
  have hlength : text.length < (us ++ '\\' :: 'u' :: rest).length + 1 := by
    have hle := hus.length_le
    rw [List.length_append]
    omega
  have hread : read (1 + byteLength before.toList) quote (us ++ '\\' :: 'u' :: rest) =
      .error (.invalidEscape (before.utf8ByteSize + byteLength us + 2)) := by
    have hcolumn : 1 + before.utf8ByteSize + 1 + byteLength us = before.utf8ByteSize + byteLength us + 2 := by
      omega
    rw [Token.read, if_pos hquote, readQuoted_invalid hslash _ _ _ _ hus hlength (by simp) hescape,
      byteLength_toList, hcolumn]
    rfl
  have hbreak : isBreak quote = true ∧ Text.isBlank quote = false := by
    obtain rfl | rfl := hquote <;> decide
  rw [tokenize, String.toList_append, String.toList_ofList]
  exact readAll_error (tokenize_eq_ok_iff.mp h) hbreak.1 hbreak.2 hread (Nat.lt_succ_self _) []

/-- The texts that are a single string token, without white space around it, are those that spell the text of
the token between quotes. String tokens of longer texts are spelled in the same way where they stand. Behind any
part of a literal, what is no character in hexadecimal digits is an invalid escape. -/
theorem literals_spell_their_texts :
    (∀ text s : String, StringLiteral text s ↔ tokenize s = .ok [⟨.string text, 1⟩] ∧ Text.trim s = s) ∧
    (∀ (s : String) (ps : List Positioned), tokenize s = .ok ps →
      ∀ (text : String) (column : Nat), ⟨.string text, column⟩ ∈ ps →
        ∃ before literal after, s = before ++ literal ++ after ∧ column = before.utf8ByteSize + 1 ∧
          StringLiteral text literal) ∧
    ∀ (before : String) (ps : List Positioned), tokenize before = .ok ps →
      ∀ (quote : Char) (text us rest : List Char), quote = '\'' ∨ quote = '"' → Spelled quote text us →
        Text.Unpaired rest →
        tokenize (before ++ String.ofList (quote :: (us ++ '\\' :: 'u' :: rest))) =
          .error (.invalidEscape (before.utf8ByteSize + byteLength us + 2)) := by
  refine ⟨fun text s ↦ ⟨fun h ↦ ⟨tokenize_literal h, h.trim⟩, fun h ↦ literal_of_tokenize h.1 h.2⟩, ?_, ?_⟩
  · intro s ps hps text column hp
    exact literal_of_mem hps hp
  · intro before ps hps quote text us rest hquote hus hrest
    exact tokenize_unpaired hps hquote hus hrest

theorem literals_spell_their_texts_beyond_sixteen_bits :
    tokenize "'\\ud83D\\uDe00'" = .ok [⟨.string "😀", 1⟩] ∧
    (∃ before literal after, "a + \"it's\"" = before ++ literal ++ after ∧ 5 = before.utf8ByteSize + 1 ∧
      StringLiteral "it's" literal) ∧
    tokenize "1 + '\\ud83Dx'" = .error (.invalidEscape 6) := by
  obtain ⟨hliterals, hplaces, hinvalid⟩ := literals_spell_their_texts
  have hhigh : Text.HexUnit 0xD83D ['d', '8', '3', 'D'] :=
    .digits (a := 13) (b := 8) (c := 3) (d := 13) (by decide) (by decide) (by decide) (by decide)
  have hlow : Text.HexUnit 0xDE00 ['D', 'e', '0', '0'] :=
    .digits (a := 13) (b := 14) (c := 0) (d := 0) (by decide) (by decide) (by decide) (by decide)
  refine ⟨?_, ?_, ?_⟩
  · have hescape : Text.UnicodeEscape '😀' _ := .pair (by decide) hhigh hlow
    have hspelled : Spelled '\'' ['😀'] _ := .cons (.escape (.unicode hescape)) .nil
    exact ((hliterals "😀" _).mp (.quoted (.inl rfl) hspelled)).1
  · exact hplaces _ [⟨.name "a", 1⟩, ⟨.mark .plus, 3⟩, ⟨.string "it's", 5⟩] rfl _ _ (by simp)
  · have hunpaired : Text.Unpaired (['d', '8', '3', 'D'] ++ ['x', '\'']) := .high hhigh (by decide) (by simp)
    exact hinvalid "1 + " _ rfl '\'' [] [] _ (.inl rfl) .nil hunpaired

end TemplatedForms
