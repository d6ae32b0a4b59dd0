import TemplatedForms.Proofs.Expression.Break
import TemplatedForms.Proofs.Expression.Spelling

namespace TemplatedForms

namespace Token

/-- The characters behind an opening quote that spell a text, up to the closing quote, and the rest. -/
inductive Quoted (quote : Char) : (text cs rest : List Char) → Prop
  | close (rest : List Char) : Quoted quote [] (quote :: rest) rest
  | escape {c : Char} {k : Nat} {text cs cs' rest : List Char} :
      readEscape? cs = some (c, k, cs') → Quoted quote text cs' rest →
      Quoted quote (c :: text) ('\\' :: cs) rest
  | plain {c : Char} {text cs rest : List Char} :
      c ∉ [quote, '\\', '\n'] → Quoted quote text cs rest → Quoted quote (c :: text) (c :: cs) rest

theorem quoted_iff {quote : Char} {text cs rest : List Char} :
    Quoted quote text cs rest ↔ ∃ us, Spelled quote text us ∧ cs = us ++ quote :: rest := by
  constructor
  · intro h
    induction h with
    | close rest => exact ⟨[], .nil, rfl⟩
    | escape hc _ ih =>
      obtain ⟨us, hus, rfl⟩ := ih
      obtain ⟨vs, hvs, hcs, -⟩ := readEscape?_eq_some_iff.mp hc
      exact ⟨vs ++ us, .cons (.escape hvs) hus, by rw [hcs, List.append_assoc]⟩
    | plain hc _ ih =>
      obtain ⟨us, hus, rfl⟩ := ih
      exact ⟨_ :: us, .cons (.plain hc) hus, rfl⟩
  · rintro ⟨us, hus, rfl⟩
    induction hus with
    | nil => exact .close rest
    | cons hc _ ih =>
      rw [List.append_assoc]
      cases hc with
      | plain hc => exact .plain hc ih
      | escape hc =>
        obtain ⟨vs, rfl, hread⟩ := hc.exists_letters
        exact .escape (hread _) ih

theorem readQuoted_inv {quote : Char} {start fuel : Nat} {text : List Char} {column : Nat}
    {cs : List Char} {s : String} {after : Nat} {rest : List Char}
    (h : readQuoted quote start fuel text column cs = .ok (s, after, rest)) :
    ∃ us, s = String.ofList (text.reverse ++ us) ∧ Quoted quote us cs rest := by
  induction fuel generalizing text column cs with
  | zero => cases h
  | succ fuel ih =>
    match cs with
    | [] => cases h
    | c :: cs =>
      rw [readQuoted] at h
      split at h
      · next hc =>
        cases h
        exact ⟨[], by simp, hc ▸ .close rest⟩
      · next hquote =>
        split at h
        · next hc =>
          split at h
          · cases h
          · split at h
            · next d n cs' hd =>
              obtain ⟨us, rfl, hus⟩ := ih h
              exact ⟨d :: us, by simp, hc ▸ .escape hd hus⟩
            · cases h
        · next hslash =>
          split at h
          · cases h
          · next hline =>
            obtain ⟨us, rfl, hus⟩ := ih h
            exact ⟨c :: us, by simp, .plain (by simp [hquote, hslash, hline]) hus⟩

/-- The token at the start of a text and the rest of the text. -/
inductive Reads : Char → List Char → Token → List Char → Prop
  | string {c : Char} {text cs rest : List Char} :
      c = '\'' ∨ c = '"' → Quoted c text cs rest → Reads c cs (.string (String.ofList text)) rest
  | number {c : Char} {cs rest : List Char} {n : Number.Numeral} :
      ¬(c = '\'' ∨ c = '"') → Number.Numeral.read? (c :: cs) = some (n, rest) →
      Reads c cs (.number n.toFloat) rest
  | name {c : Char} {cs : List Char} :
      ¬(c = '\'' ∨ c = '"') → Number.Numeral.read? (c :: cs) = none → isNameStart c = true →
      Reads c cs (.name (String.ofList (c :: cs.takeWhile isNamePart))) (cs.dropWhile isNamePart)
  | mark {c : Char} {cs rest : List Char} {m : Mark} {k : Nat} :
      ¬(c = '\'' ∨ c = '"') → Number.Numeral.read? (c :: cs) = none → isNameStart c = false →
      Mark.read? (c :: cs) = some (m, k, rest) → Reads c cs (.mark m) rest

theorem reads_of_read {column after : Nat} {c : Char} {cs rest : List Char} {t : Token}
    (h : read column c cs = .ok (t, after, rest)) : Reads c cs t rest := by
  unfold read at h
  split at h
  · next hquote =>
    cases hr : readQuoted c column (cs.length + 1) [] (column + 1) cs with
    | error x =>
      rw [hr] at h
      cases h
    | ok r =>
      obtain ⟨s, after', rest'⟩ := r
      rw [hr] at h
      cases h
      obtain ⟨us, rfl, hus⟩ := readQuoted_inv hr
      exact .string hquote hus
  · next hquote =>
    split at h
    · next n rest' hn =>
      cases h
      exact .number hquote hn
    · next hn =>
      split at h
      · next hname =>
        cases h
        exact .name hquote hn hname
      · next hname =>
        split at h
        · next m k rest' hm =>
          cases h
          exact .mark hquote hn (by simpa using hname) hm
        · cases h

theorem cons_eq_text {c : Char} {text cs rest : List Char} (h : c :: cs = text ++ rest) (ht : text ≠ []) :
    ∃ front, text = c :: front ∧ cs = front ++ rest :=
  (List.cons_eq_append_iff.mp h).resolve_left fun hnil ↦ ht hnil.1

theorem Reads.exists_front {c : Char} {cs rest : List Char} {t : Token} (h : Reads c cs t rest) :
    ∃ front, cs = front ++ rest ∧ ∀ rest', GoesOn rest rest' → Reads c (front ++ rest') t rest' := by
  cases h with
  | string hquote hs =>
    obtain ⟨us, hus, rfl⟩ := quoted_iff.mp hs
    refine ⟨us ++ [c], by simp, fun rest' _ ↦ .string hquote (quoted_iff.mpr ⟨us, hus, by simp⟩)⟩
  | number hquote hn =>
    obtain ⟨hcs, hlegible, hstops⟩ := Number.Numeral.read?_eq_some_iff.mp hn
    obtain ⟨front, hfront, rfl⟩ := cons_eq_text hcs hlegible.text_ne_nil
    refine ⟨front, rfl, fun rest' hrest ↦ .number hquote ?_⟩
    rw [← List.cons_append, ← hfront]
    exact Number.Numeral.read?_eq_some_iff.mpr ⟨rfl, hlegible, hstops.goesOn hrest⟩
  | name hquote hn hname =>
    have hcs := List.takeWhile_append_dropWhile (p := isNamePart) (l := cs)
    refine ⟨cs.takeWhile isNamePart, hcs.symm, fun rest' hrest ↦ ?_⟩
    have hparts : ∀ d ∈ cs.takeWhile isNamePart, isNamePart d = true := fun d hd ↦ List.mem_takeWhile_imp hd
    have hends : ∀ d ∈ rest'.head?, isNamePart d = false := by
      intro d hd
      by_contra hpart
      rw [Bool.not_eq_false] at hpart
      rw [head?_dropWhile isNamePart cs d (hrest.head? (isBreak_of_isNamePart hpart) hd)] at hpart
      cases hpart
    have hnumeral := Number.Numeral.read?_goesOn (hrest.append (c :: cs.takeWhile isNamePart))
      (by rwa [List.cons_append, hcs])
    have hreads : Reads c (cs.takeWhile isNamePart ++ rest') _ _ := .name hquote hnumeral hname
    rwa [takeWhile_run hparts hends, dropWhile_run hparts hends] at hreads
  | @mark _ _ m _ hquote hn hname hm =>
    obtain ⟨rfl, hcs, hends⟩ := Mark.read?_eq_some_iff.mp hm
    obtain ⟨front, hfront, rfl⟩ := cons_eq_text hcs m.text_ne_nil
    refine ⟨front, rfl, fun rest' hrest ↦ .mark hquote ?_ hname (k := m.text.length) ?_⟩
    · exact Number.Numeral.read?_goesOn (hrest.append (c :: front)) hn
    · rw [← List.cons_append, ← hfront]
      refine Mark.read?_eq_some_iff.mpr ⟨rfl, rfl, fun d hd hhead ↦ ?_⟩
      exact hends d hd (hrest.head? (m.isBreak_extension? d hd) hhead)

theorem Reads.goesOn {c : Char} {front rest rest' : List Char} {t : Token} (h : Reads c (front ++ rest) t rest)
    (hrest : GoesOn rest rest') : Reads c (front ++ rest') t rest' := by
  obtain ⟨front', hfront, hreads⟩ := h.exists_front
  rw [List.append_cancel_right hfront]
  exact hreads rest' hrest

theorem Reads.append {c : Char} {cs rest : List Char} {t : Token} (h : Reads c cs t rest)
    {tail : List Char} (ht : AtQuote tail) : Reads c (cs ++ tail) t (rest ++ tail) := by
  obtain ⟨front, rfl, hreads⟩ := h.exists_front
  rw [List.append_assoc]
  exact hreads _ (ht.goesOn.behind rest)

theorem read_of_reads {c : Char} {front rest : List Char} {t : Token} (h : Reads c (front ++ rest) t rest)
    (column : Nat) : read column c (front ++ rest) = .ok (t, column + byteLength (c :: front), rest) := by
  -- what is left tells what was read
  have hfront {text : List Char} (htext : c :: (front ++ rest) = text ++ rest) : text = c :: front :=
    (List.append_cancel_right htext).symm
  generalize hcs : front ++ rest = cs at h hfront
  unfold read
  cases h with
  | @string us _ _ hquote hs =>
    obtain ⟨vs, hvs, rfl⟩ := quoted_iff.mp hs
    have hslash : c ≠ '\\' := by
      rintro rfl
      simp at hquote
    have hsize : c.utf8Size = 1 := by obtain rfl | rfl := hquote <;> rfl
    have hlength : us.length < (vs ++ c :: rest).length + 1 := by
      have hle := hvs.length_le
      rw [List.length_append]
      omega
    have hliteral : c :: (vs ++ [c]) = c :: front := hfront (by simp)
    rw [if_pos hquote, readQuoted_closed hslash _ _ _ _ hvs hlength, ← hliteral]
    simp [Except.map, hsize, Nat.add_assoc, Nat.add_comm 1]
  | @number _ _ n hquote hn =>
    obtain ⟨htext, hlegible, -⟩ := Number.Numeral.read?_eq_some_iff.mp hn
    rw [if_neg hquote, hn, ← hfront htext, byteLength_of_ascii hlegible.ascii]
  | name hquote hn hname =>
    have hname' : c :: cs.takeWhile isNamePart = c :: front := hfront (by simp)
    rw [if_neg hquote, hn]
    dsimp only
    rw [if_pos hname, hname']
  | @mark _ _ m _ hquote hn hname hm =>
    obtain ⟨rfl, htext, -⟩ := Mark.read?_eq_some_iff.mp hm
    rw [if_neg hquote, hn]
    dsimp only
    rw [if_neg (by simp [hname]), hm, ← hfront htext, byteLength_of_ascii m.text_ascii, String.length_toList]

/-- A text from a column on, with its tokens in their columns and white space before and between them and at
the end. -/
inductive Placed : Nat → List Char → List Positioned → Prop
  | done {column : Nat} {cs : List Char} : (∀ b ∈ cs, Text.isBlank b = true) → Placed column cs []
  | token {column : Nat} {blanks : List Char} {c : Char} {front rest : List Char} {t : Token}
      {ps : List Positioned} :
      (∀ b ∈ blanks, Text.isBlank b = true) → Text.isBlank c = false → Reads c (front ++ rest) t rest →
      Placed (column + byteLength (blanks ++ c :: front)) rest ps →
      Placed column (blanks ++ c :: (front ++ rest)) (⟨t, column + byteLength blanks⟩ :: ps)

section

variable {blanks : List Char} (hblanks : ∀ b ∈ blanks, Text.isBlank b = true) (fuel : Nat)
  (found : List Positioned) (column : Nat)

include hblanks

theorem readAll_blanks : readAll fuel found column blanks = .ok found.reverse := by
  cases fuel with
  | zero => rfl
  | succ fuel => rw [readAll, List.dropWhile_eq_nil_iff.mpr hblanks]

theorem readAll_cons {c : Char} (hc : Text.isBlank c = false) (cs : List Char) :
    readAll (fuel + 1) found column (blanks ++ c :: cs) = (do
      let (token, after, rest) ← read (column + byteLength blanks) c cs
      readAll fuel (⟨token, column + byteLength blanks⟩ :: found) after rest) := by
  have hhead : ∀ d ∈ (c :: cs).head?, Text.isBlank d = false := by
    rintro d ⟨⟩
    exact hc
  rw [readAll, takeWhile_run hblanks hhead, dropWhile_run hblanks hhead]

end

theorem blank_cases (cs : List Char) :
    (∀ b ∈ cs, Text.isBlank b = true) ∨
      ∃ blanks c rest, cs = blanks ++ c :: rest ∧ (∀ b ∈ blanks, Text.isBlank b = true) ∧
        Text.isBlank c = false := by
  have hcs := List.takeWhile_append_dropWhile (p := Text.isBlank) (l := cs)
  have hhead := head?_dropWhile Text.isBlank cs
  cases hdrop : cs.dropWhile Text.isBlank with
  | nil => exact .inl (List.dropWhile_eq_nil_iff.mp hdrop)
  | cons c rest =>
    rw [hdrop] at hcs hhead
    exact .inr ⟨_, c, rest, hcs.symm, fun b hb ↦ List.mem_takeWhile_imp hb, hhead c rfl⟩

theorem placed_of_readAll {fuel : Nat} {found : List Positioned} {column : Nat} {cs : List Char}
    {ps : List Positioned} (hf : cs.length < fuel) (h : readAll fuel found column cs = .ok ps) :
    ∃ us, ps = found.reverse ++ us ∧ Placed column cs us := by
  induction fuel generalizing found column cs with
  | zero => omega
  | succ fuel ih =>
    obtain hb | ⟨blanks, c, cs, rfl, hb, hc⟩ := blank_cases cs
    · rw [readAll_blanks hb] at h
      cases h
      exact ⟨[], by simp, .done hb⟩
    · rw [readAll_cons hb _ _ _ hc] at h
      cases hread : read (column + byteLength blanks) c cs with
      | error x =>
        rw [hread] at h
        cases h
      | ok r =>
        obtain ⟨t, after, rest⟩ := r
        rw [hread] at h
        have hreads := reads_of_read hread
        obtain ⟨front, rfl, -⟩ := hreads.exists_front
        rw [read_of_reads hreads] at hread
        cases hread
        have hf' : rest.length < fuel := by
          simp only [List.length_append, List.length_cons] at hf
          omega
        obtain ⟨us, rfl, hus⟩ := ih hf' h
        refine ⟨⟨t, column + byteLength blanks⟩ :: us, by simp, .token hb hc hreads ?_⟩
        rwa [byteLength_append, ← Nat.add_assoc]

theorem readAll_of_placed {column : Nat} {cs : List Char} {us : List Positioned} (h : Placed column cs us)
    {fuel : Nat} (hf : cs.length < fuel) (found : List Positioned) :
    readAll fuel found column cs = .ok (found.reverse ++ us) := by
  induction h generalizing fuel found with
  | done hb => rw [readAll_blanks hb, List.append_nil]
  | @token column blanks c front rest t ps hb hc hr _ ih =>
    obtain ⟨fuel, rfl⟩ : ∃ n, fuel = n + 1 := ⟨fuel - 1, by omega⟩
    have hf' : rest.length < fuel := by
      simp only [List.length_append, List.length_cons] at hf
      omega
    have hrest := ih hf' (⟨t, column + byteLength blanks⟩ :: found)
    rw [byteLength_append, ← Nat.add_assoc, List.reverse_cons, List.append_assoc] at hrest
    rw [readAll_cons hb _ _ _ hc, read_of_reads hr]
    exact hrest

theorem readAll_error {column : Nat} {cs : List Char} {us : List Positioned} (h : Placed column cs us) {c : Char}
    (hc : isBreak c = true) (hblank : Text.isBlank c = false) {rest : List Char} {x : ParseError}
    (hx : read (column + byteLength cs) c rest = .error x) {fuel : Nat} (hf : (cs ++ c :: rest).length < fuel)
    (found : List Positioned) : readAll fuel found column (cs ++ c :: rest) = .error x := by
  induction h generalizing fuel found with
  | done hb =>
    obtain ⟨fuel, rfl⟩ : ∃ n, fuel = n + 1 := ⟨fuel - 1, by omega⟩
    rw [readAll_cons hb _ _ _ hblank, hx]
    rfl
  | @token column blanks d front tail t ps hb hd hr _ ih =>
    obtain ⟨fuel, rfl⟩ : ∃ n, fuel = n + 1 := ⟨fuel - 1, by omega⟩
    have hr' := hr.goesOn ((GoesOn.atBreak hc [] rest).behind tail)
    have hf' : (tail ++ c :: rest).length < fuel := by
      simp only [List.length_append, List.length_cons] at hf ⊢
      omega
    have hx' : read (column + byteLength (blanks ++ d :: front) + byteLength tail) c rest = .error x := by
      rw [← hx]
      simp only [byteLength_append, byteLength_cons, Nat.add_assoc]
    have hrest := ih hx' hf' (⟨t, column + byteLength blanks⟩ :: found)
    rw [byteLength_append, ← Nat.add_assoc] at hrest
    rw [List.append_assoc, List.cons_append, List.append_assoc, readAll_cons hb _ _ _ hd, read_of_reads hr']
    exact hrest

theorem Placed.mem {column : Nat} {cs : List Char} {us : List Positioned} (h : Placed column cs us)
    {p : Positioned} (hp : p ∈ us) :
    ∃ before c front rest, cs = before ++ c :: (front ++ rest) ∧ p.column = column + byteLength before ∧
      Reads c (front ++ rest) p.token rest := by
  induction h with
  | done => cases hp
  | @token column blanks c front rest t ps _ _ hr _ ih =>
    obtain rfl | hp := List.mem_cons.mp hp
    · exact ⟨blanks, c, front, rest, rfl, rfl, hr⟩
    · obtain ⟨before, d, front', rest', rfl, hcolumn, hreads⟩ := ih hp
      refine ⟨blanks ++ c :: (front ++ before), d, front', rest', by simp, ?_, hreads⟩
      rw [hcolumn]
      simp [Nat.add_assoc]

/-- The characters of a text and its tokens, with white space before and between them and at the end. -/
inductive Lexes : List Char → List Token → Prop
  | done {cs : List Char} : (∀ b ∈ cs, Text.isBlank b = true) → Lexes cs []
  | token {blanks : List Char} {c : Char} {cs rest : List Char} {t : Token} {ts : List Token} :
      (∀ b ∈ blanks, Text.isBlank b = true) → Text.isBlank c = false → Reads c cs t rest →
      Lexes rest ts → Lexes (blanks ++ c :: cs) (t :: ts)

theorem lexes_iff (column : Nat) {cs : List Char} {ts : List Token} :
    Lexes cs ts ↔ ∃ ps, Placed column cs ps ∧ tokens ps = ts := by
  constructor
  · intro h
    induction h generalizing column with
    | done hb => exact ⟨[], .done hb, rfl⟩
    | @token blanks c cs rest t ts hb hc hr _ ih =>
      obtain ⟨front, rfl, -⟩ := hr.exists_front
      obtain ⟨ps, hps, rfl⟩ := ih (column + byteLength (blanks ++ c :: front))
      exact ⟨⟨t, column + byteLength blanks⟩ :: ps, .token hb hc hr hps, rfl⟩
  · rintro ⟨ps, hps, rfl⟩
    induction hps with
    | done hb => exact .done hb
    | token hb hc hr _ ih => exact .token hb hc hr ih

theorem Lexes.blanks {bs cs : List Char} {ts : List Token} (hb : ∀ b ∈ bs, Text.isBlank b = true)
    (h : Lexes cs ts) : Lexes (bs ++ cs) ts := by
  cases h with
  | done hcs =>
    refine .done fun b h ↦ ?_
    exact (List.mem_append.mp h).elim (hb b) (hcs b)
  | token hb' hc hr hts =>
    rw [← List.append_assoc]
    refine .token (fun b h ↦ ?_) hc hr hts
    exact (List.mem_append.mp h).elim (hb b) (hb' b)

theorem Lexes.append {cs tail : List Char} {ts us : List Token} (h : Lexes cs ts) (ht : AtQuote tail)
    (h' : Lexes tail us) : Lexes (cs ++ tail) (ts ++ us) := by
  induction h with
  | done hb => exact h'.blanks hb
  | token hb hc hr _ ih =>
    rw [List.append_assoc]
    exact .token hb hc (hr.append ht) ih

end Token

theorem tokenize_eq_ok_iff {text : String} {ps : List Positioned} :
    tokenize text = .ok ps ↔ Token.Placed 1 text.toList ps := by
  constructor
  · intro h
    obtain ⟨us, rfl, hus⟩ := Token.placed_of_readAll (Nat.lt_succ_self _) h
    exact hus
  · exact fun h ↦ Token.readAll_of_placed h (Nat.lt_succ_self _) []

theorem tokenize_of_reads {text : String} {c : Char} {cs : List Char} {t : Token} (htext : text.toList = c :: cs)
    (hc : Text.isBlank c = false) (h : Token.Reads c cs t []) : tokenize text = .ok [⟨t, 1⟩] := by
  obtain ⟨front, rfl, -⟩ := h.exists_front
  rw [tokenize_eq_ok_iff, htext]
  exact .token (List.forall_mem_nil _) hc h (.done (List.forall_mem_nil _))

theorem tokenize_iff {text : String} {ts : List Token} :
    (∃ ps, tokenize text = .ok ps ∧ tokens ps = ts) ↔ Token.Lexes text.toList ts := by
  simp only [tokenize_eq_ok_iff, Token.lexes_iff 1]

end TemplatedForms
