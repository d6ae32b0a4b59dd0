import Mathlib.Data.List.Forall2
import TemplatedForms.Proofs.Expression.Lexing
import TemplatedForms.Proofs.Text.Blank

namespace TemplatedForms

open Token

/-- A token as written, and the white space behind it. -/
structure Tile where
  lexeme : String
  gap : String

theorem Token.Reads.getLast? {c : Char} {front rest : List Char} {t : Token} (h : Reads c (front ++ rest) t rest) :
    ∀ d, (c :: front).getLast? = some d → Text.isBlank d = false := by
  have hfront {text : List Char} (htext : c :: (front ++ rest) = text ++ rest) : text = c :: front :=
    (List.append_cancel_right htext).symm
  have hunbroken (hall : ∀ d ∈ c :: front, isBreak d = false) :
      ∀ d, (c :: front).getLast? = some d → Text.isBlank d = false := by
    intro d hd
    exact isBlank_of_not_isBreak (hall d (List.mem_of_getLast? hd))
  generalize hcs : front ++ rest = cs at h hfront
  cases h with
  | @string us _ _ hquote hs =>
    obtain ⟨vs, -, rfl⟩ := quoted_iff.mp hs
    have hliteral : c :: (vs ++ [c]) = c :: front := hfront (by simp)
    rw [← hliteral, ← List.cons_append, List.getLast?_concat]
    rintro d ⟨⟩
    obtain rfl | rfl := hquote <;> decide
  | @number _ _ n hquote hn =>
    obtain ⟨htext, hlegible, -⟩ := Number.Numeral.read?_eq_some_iff.mp hn
    exact hunbroken (hfront htext ▸ hlegible.isBreak_text)
  | name hquote hn hname =>
    have hname' : c :: cs.takeWhile isNamePart = c :: front := hfront (by simp)
    have hparts : ∀ d ∈ c :: cs.takeWhile isNamePart, isNamePart d = true :=
      List.forall_mem_cons.mpr ⟨isNamePart_of_isNameStart hname, fun d hd ↦ List.mem_takeWhile_imp hd⟩
    exact hunbroken (hname' ▸ fun d hd ↦ isBreak_of_isNamePart (hparts d hd))
  | @mark _ _ m _ hquote hn hname hm =>
    obtain ⟨rfl, htext, -⟩ := Mark.read?_eq_some_iff.mp hm
    exact hunbroken (hfront htext ▸ m.isBreak_text)

namespace Tile

def text (t : Tile) : String := t.lexeme ++ t.gap

def layOut (margin : String) (tiles : List Tile) : String := margin ++ String.join (tiles.map text)

/-- The columns of the lexemes, if the first one stands at a column. -/
def columnsFrom : Nat → List Tile → List Nat
  | _, [] => []
  | column, t :: tiles => column :: columnsFrom (column + t.text.utf8ByteSize) tiles

/-- The same lexeme with other white space behind it, and with some where there was some. -/
structure Respaced (t t' : Tile) : Prop where
  lexeme : t'.lexeme = t.lexeme
  blank : Text.allBlank t'.gap = true
  apart : t.gap ≠ "" → t'.gap ≠ ""

/-- A text is cut into white space and lexemes, and these are its tokens, each on its own and in its column. -/
structure Tiles (margin : String) (tiles : List Tile) (ps : List Positioned) : Prop where
  blank : Text.allBlank margin = true
  gaps : ∀ t ∈ tiles, Text.allBlank t.gap = true
  lexemes : ∀ t ∈ tiles, t.lexeme ≠ "" ∧ Text.trim t.lexeme = t.lexeme
  columns : ps.map (·.column) = columnsFrom (1 + margin.utf8ByteSize) tiles
  alone : List.Forall₂ (fun p t ↦ tokenize t.lexeme = .ok [⟨p.token, 1⟩]) ps tiles

def chars (tiles : List Tile) : List Char := (String.join (tiles.map text)).toList

@[simp] theorem chars_nil : chars [] = [] := by simp [chars]

@[simp] theorem chars_cons (t : Tile) (tiles : List Tile) :
    chars (t :: tiles) = t.lexeme.toList ++ (t.gap.toList ++ chars tiles) := by
  simp [chars, text]

theorem toList_layOut (margin : String) (tiles : List Tile) :
    (layOut margin tiles).toList = margin.toList ++ chars tiles :=
  String.toList_append

/-- Tiles laid one behind the other: each lexeme is read as a token, with the tiles behind it in view. -/
inductive Laid : List Tile → List Token → Prop
  | nil : Laid [] []
  | cons {tile : Tile} {tiles : List Tile} {t : Token} {ts : List Token} {c : Char} {front : List Char} :
      tile.lexeme.toList = c :: front → Text.isBlank c = false → Text.allBlank tile.gap = true →
      Reads c (front ++ (tile.gap.toList ++ chars tiles)) t (tile.gap.toList ++ chars tiles) →
      Laid tiles ts → Laid (tile :: tiles) (t :: ts)

theorem exists_laid {cs : List Char} {ts : List Token} (h : Lexes cs ts) :
    ∃ margin tiles, cs = (layOut margin tiles).toList ∧ Text.allBlank margin = true ∧ Laid tiles ts := by
  induction h with
  | @done cs hb => exact ⟨String.ofList cs, [], by simp [toList_layOut], by simpa [Text.allBlank] using hb, .nil⟩
  | @token blanks c cs rest t ts hb hc hr _ ih =>
    obtain ⟨gap, tiles, rfl, hgap, hlaid⟩ := ih
    obtain ⟨front, rfl, -⟩ := hr.exists_front
    rw [toList_layOut] at hr ⊢
    refine ⟨String.ofList blanks, ⟨String.ofList (c :: front), gap⟩ :: tiles, by simp [toList_layOut],
      by simpa [Text.allBlank] using hb, .cons (String.toList_ofList) hc hgap hr hlaid⟩

theorem goesOn_gap {gap gap' : String} (hgap : Text.allBlank gap' = true) (hapart : gap ≠ "" → gap' ≠ "")
    {rest rest' : List Char} (h : GoesOn rest rest') :
    GoesOn (gap.toList ++ rest) (gap'.toList ++ rest') := by
  cases hcs : gap'.toList with
  | nil =>
    -- where there is no white space now, there was none before
    have hempty : gap = "" := by
      by_contra hgap
      exact hapart hgap (String.toList_eq_nil_iff.mp hcs)
    rwa [hempty]
  | cons b bs =>
    have hb : Text.isBlank b = true := by
      rw [Text.allBlank, hcs, List.all_cons, Bool.and_eq_true] at hgap
      exact hgap.1
    exact .atBreak (by simp [isBreak, hb]) _ _

theorem goesOn_chars {tiles tiles' : List Tile} (h : List.Forall₂ Respaced tiles tiles') :
    GoesOn (chars tiles) (chars tiles') := by
  induction h with
  | nil => exact .nil _
  | cons ht _ ih =>
    rw [chars_cons, chars_cons, ht.lexeme]
    exact (goesOn_gap ht.blank ht.apart ih).append _

theorem Laid.respaced {tiles tiles' : List Tile} {ts : List Token} (h : Laid tiles ts)
    (htiles : List.Forall₂ Respaced tiles tiles') : Laid tiles' ts := by
  induction h generalizing tiles' with
  | nil =>
    cases htiles
    exact .nil
  | cons hlexeme hc hgap hr _ ih =>
    cases htiles with
    | cons ht hrest =>
      refine .cons (ht.lexeme ▸ hlexeme) hc ht.blank ?_ (ih hrest)
      exact hr.goesOn (goesOn_gap ht.blank ht.apart (goesOn_chars hrest))

theorem Laid.placed {tiles : List Tile} {ts : List Token} (h : Laid tiles ts) (column : Nat) {margin : String}
    (hmargin : Text.allBlank margin = true) :
    ∃ ps, Placed column (layOut margin tiles).toList ps ∧ tokens ps = ts ∧
      ps.map (·.column) = columnsFrom (column + margin.utf8ByteSize) tiles := by
  have hblanks {s : String} (hs : Text.allBlank s = true) : ∀ b ∈ s.toList, Text.isBlank b = true :=
    List.all_eq_true.mp hs
  induction h generalizing column margin with
  | nil => exact ⟨[], .done (by simpa [toList_layOut] using hblanks hmargin), rfl, rfl⟩
  | @cons tile tiles t ts c front hlexeme hc hgap hr _ ih =>
    obtain ⟨ps, hps, rfl, hcolumns⟩ := ih (column + byteLength (margin.toList ++ c :: front)) hgap
    have hplaced := Placed.token (hblanks hmargin) hc hr (toList_layOut tile.gap tiles ▸ hps)
    refine ⟨⟨t, column + byteLength margin.toList⟩ :: ps, ?_, rfl, ?_⟩
    · rw [toList_layOut, chars_cons, hlexeme]
      exact hplaced
    · rw [List.map_cons, hcolumns, columnsFrom, ← hlexeme, byteLength_append]
      simp [byteLength_toList, text, String.utf8ByteSize_append, Nat.add_assoc]

theorem Laid.lexemes {tiles : List Tile} {ts : List Token} (h : Laid tiles ts) :
    ∀ t ∈ tiles, t.lexeme ≠ "" ∧ Text.trim t.lexeme = t.lexeme := by
  induction h with
  | nil => exact List.forall_mem_nil _
  | @cons tile _ _ _ c front hlexeme hc _ hr _ ih =>
    have hne : tile.lexeme ≠ "" := by
      intro hempty
      rw [hempty] at hlexeme
      cases hlexeme
    have hstart : Text.trimStart tile.lexeme = tile.lexeme := by
      rw [Text.trimStart_eq_self_iff, hlexeme]
      rintro d ⟨⟩
      exact hc
    have hend : Text.trimEnd tile.lexeme = tile.lexeme := by
      rw [Text.trimEnd_eq_self_iff, hlexeme]
      exact hr.getLast?
    exact List.forall_mem_cons.mpr ⟨⟨hne, by rw [Text.trim, hstart, hend]⟩, ih⟩

theorem Laid.gaps {tiles : List Tile} {ts : List Token} (h : Laid tiles ts) :
    ∀ t ∈ tiles, Text.allBlank t.gap = true := by
  induction h with
  | nil => exact List.forall_mem_nil _
  | cons _ _ hgap _ _ ih => exact List.forall_mem_cons.mpr ⟨hgap, ih⟩

theorem Laid.alone {tiles : List Tile} {ts : List Token} (h : Laid tiles ts) :
    List.Forall₂ (fun t tile ↦ tokenize tile.lexeme = .ok [⟨t, 1⟩]) ts tiles := by
  induction h with
  | nil => exact .nil
  | @cons _ _ _ _ c front hlexeme hc _ hr _ ih =>
    have hread := hr.goesOn (.nil _)
    rw [List.append_nil] at hread
    exact .cons (tokenize_of_reads hlexeme hc hread) ih

theorem Laid.tiles {tiles : List Tile} {ts : List Token} (h : Laid tiles ts) {margin : String}
    (hmargin : Text.allBlank margin = true) :
    ∃ ps, tokenize (layOut margin tiles) = .ok ps ∧ tokens ps = ts ∧ Tiles margin tiles ps := by
  obtain ⟨ps, hps, rfl, hcolumns⟩ := h.placed 1 hmargin
  exact ⟨ps, tokenize_eq_ok_iff.mpr hps, rfl, hmargin, h.gaps, h.lexemes, hcolumns,
    List.forall₂_map_left_iff.mp h.alone⟩

end Tile

/-- An accepted text is white space and lexemes in turn, and the lexemes are its tokens. With other white space
around them, as long as none is taken away altogether, they are the same tokens. -/
theorem tokens_tile_text {text : String} {ps : List Positioned} (h : tokenize text = .ok ps) :
    ∃ margin tiles, text = Tile.layOut margin tiles ∧ Tile.Tiles margin tiles ps ∧
      ∀ margin' tiles', Text.allBlank margin' = true → List.Forall₂ Tile.Respaced tiles tiles' →
        ∃ ps', tokenize (Tile.layOut margin' tiles') = .ok ps' ∧ tokens ps' = tokens ps ∧
          Tile.Tiles margin' tiles' ps' := by
  obtain ⟨margin, tiles, htext, hmargin, hlaid⟩ := Tile.exists_laid (tokenize_iff.mp ⟨ps, h, rfl⟩)
  obtain rfl : text = Tile.layOut margin tiles := String.toList_inj.mp htext
  obtain ⟨ps', hps', -, htiles⟩ := hlaid.tiles hmargin
  obtain rfl : ps' = ps := Except.ok.inj (hps'.symm.trans h)
  refine ⟨margin, tiles, rfl, htiles, ?_⟩
  intro margin' tiles' hmargin' hrespaced
  exact (hlaid.respaced hrespaced).tiles hmargin'

theorem tokens_tile_text_number_behind_question :
    ∃ margin tiles, " a?.5:1e" = Tile.layOut margin tiles ∧
      Tile.Tiles margin tiles [⟨.name "a", 2⟩, ⟨.mark .question, 3⟩,
        ⟨.number (Number.Numeral.toFloat ⟨[], some ['5'], none⟩), 4⟩, ⟨.mark .colon, 6⟩,
        ⟨.number (Number.Numeral.toFloat ⟨['1'], none, none⟩), 7⟩, ⟨.name "e", 8⟩] := by
  have htokens : tokenize " a?.5:1e" = .ok _ := rfl
  obtain ⟨margin, tiles, htext, htiles, -⟩ := tokens_tile_text htokens
  exact ⟨margin, tiles, htext, htiles⟩

end TemplatedForms
