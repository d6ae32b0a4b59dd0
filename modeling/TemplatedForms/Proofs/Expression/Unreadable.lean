import TemplatedForms.Proofs.Expression.Lexing

namespace TemplatedForms

namespace Token

/-- What keeps a string open: the end of the text, perhaps behind a backslash, or the end of a line. -/
def Unended (tail : List Char) : Prop := tail = [] ∨ tail = ['\\'] ∨ tail.head? = some '\n'

/-- Characters from a column on, behind the opening quote of a string, that spell a text only up to some
point, with the error. -/
inductive Misspelled (quote : Char) (start column : Nat) : List Char → ParseError → Prop
  | unended {text us tail : List Char} :
      Spelled quote text us → Unended tail →
      Misspelled quote start column (us ++ tail) (.unterminatedString start)
  | escape {text us rest : List Char} :
      Spelled quote text us → rest ≠ [] → readEscape? rest = none →
      Misspelled quote start column (us ++ '\\' :: rest) (.invalidEscape (column + byteLength us))

theorem Misspelled.cons {quote c : Char} {start column : Nat} {us cs : List Char} {x : ParseError}
    (hc : Spelling quote c us) (h : Misspelled quote start (column + byteLength us) cs x) :
    Misspelled quote start column (us ++ cs) x := by
  cases h with
  | unended hs htail =>
    rw [← List.append_assoc]
    exact .unended (.cons hc hs) htail
  | escape hs hrest hescape =>
    rw [← List.append_assoc, Nat.add_assoc, ← byteLength_append]
    exact .escape (.cons hc hs) hrest hescape

theorem misspelled_of_readQuoted {quote : Char} {start fuel column : Nat} {text cs : List Char} {x : ParseError}
    (hf : cs.length < fuel) (h : readQuoted quote start fuel text column cs = .error x) :
    Misspelled quote start column cs x := by
  induction fuel generalizing text column cs with
  | zero => omega
  | succ fuel ih =>
    match cs with
    | [] =>
      cases h
      exact .unended .nil (.inl rfl)
    | c :: cs =>
      rw [List.length_cons] at hf
      rw [readQuoted] at h
      split at h
      · cases h
      · next hquote =>
        split at h
        · next hslash =>
          subst hslash
          split at h
          · next hnil =>
            cases h
            exact .unended .nil (.inr (.inl (by rw [List.isEmpty_iff.mp hnil])))
          · next hnil =>
            split at h
            · next d n rest hd =>
              obtain ⟨us, hus, hcs, hlength⟩ := readEscape?_eq_some_iff.mp hd
              have hbytes := byteLength_of_ascii hus.ascii
              have hrest : rest.length < fuel := by
                have hle := congrArg List.length hcs
                simp only [List.length_cons, List.length_append] at hle
                omega
              rw [hcs]
              refine .cons (.escape hus) ?_
              rw [hbytes, hlength, Nat.add_comm n, ← Nat.add_assoc]
              exact ih hrest h
            · next hd =>
              cases h
              exact .escape .nil (by simpa using hnil) hd
        · next hslash =>
          split at h
          · next hline =>
            cases h
            exact .unended .nil (.inr (.inr (by rw [hline]; rfl)))
          · next hline =>
            have hplain : Spelling quote c [c] := .plain (by simp [hquote, hslash, hline])
            exact .cons hplain (ih (by omega) (by simpa using h))

def Tokenized (cs : List Char) : Prop := ∃ ps, Placed 1 cs ps

/-- A text in which the reader comes to a character where it cannot go on, with the error. -/
inductive Unreadable : (before : List Char) → (c : Char) → (after : List Char) → ParseError → Prop
  | char {before : List Char} {c : Char} {after : List Char} :
      Tokenized before → Text.isBlank c = false → (∀ t rest, ¬Reads c after t rest) →
      Unreadable before c after (.unexpectedChar c (1 + byteLength before))
  | string {before : List Char} {quote : Char} {text us tail : List Char} :
      Tokenized before → quote = '\'' ∨ quote = '"' → Spelled quote text us → Unended tail →
      Unreadable before quote (us ++ tail) (.unterminatedString (1 + byteLength before))
  | escape {before : List Char} {quote : Char} {text us after : List Char} :
      Tokenized before → quote = '\'' ∨ quote = '"' → Spelled quote text us → after ≠ [] →
      readEscape? after = none →
      Unreadable (before ++ quote :: us) '\\' after (.invalidEscape (1 + byteLength (before ++ quote :: us)))

theorem not_reads {c : Char} {cs : List Char} (hquote : ¬(c = '\'' ∨ c = '"'))
    (hn : Number.Numeral.read? (c :: cs) = none) (hname : isNameStart c = false)
    (hm : Mark.read? (c :: cs) = none) (t : Token) (rest : List Char) : ¬Reads c cs t rest := by
  intro h
  cases h with
  | string h => exact hquote h
  | number _ h =>
    rw [hn] at h
    cases h
  | name _ _ h =>
    rw [hname] at h
    cases h
  | mark _ _ _ h =>
    rw [hm] at h
    cases h

theorem unreadable_of_read {before : List Char} {c : Char} {cs : List Char} {x : ParseError}
    (hbefore : Tokenized before) (hc : Text.isBlank c = false)
    (h : read (1 + byteLength before) c cs = .error x) :
    ∃ front d after, before ++ c :: cs = front ++ d :: after ∧ Unreadable front d after x := by
  unfold read at h
  split at h
  · next hquote =>
    have hsize : c.utf8Size = 1 := by obtain rfl | rfl := hquote <;> rfl
    cases hr : readQuoted c (1 + byteLength before) (cs.length + 1) [] (1 + byteLength before + 1) cs with
    | ok r =>
      rw [hr] at h
      cases h
    | error y =>
      rw [hr] at h
      cases h
      cases misspelled_of_readQuoted (Nat.lt_succ_self _) hr with
      | unended hs htail => exact ⟨before, c, _, rfl, .string hbefore hquote hs htail⟩
      | @escape _ us rest hs hrest hescape =>
        have hcolumn : 1 + byteLength before + 1 + byteLength us = 1 + byteLength (before ++ c :: us) := by
          rw [byteLength_append, byteLength_cons, hsize]
          omega
        rw [hcolumn]
        exact ⟨before ++ c :: us, '\\', rest, by simp, .escape hbefore hquote hs hrest hescape⟩
  · next hquote =>
    split at h
    · cases h
    · next hn =>
      split at h
      · cases h
      · next hname =>
        split at h
        · cases h
        · next hm =>
          cases h
          exact ⟨before, c, cs, rfl, .char hbefore hc (not_reads hquote hn (by simpa using hname) hm)⟩

theorem Reads.alone {c : Char} {front rest tail : List Char} {t : Token}
    (h : Reads c (front ++ (rest ++ tail)) t (rest ++ tail)) : Reads c (front ++ rest) t rest := by
  have hgoes := (GoesOn.nil tail).append rest
  rw [List.append_nil] at hgoes
  exact h.goesOn hgoes

theorem stops_of_readAll {fuel : Nat} {found : List Positioned} {column : Nat} {cs : List Char}
    {x : ParseError} (hf : cs.length < fuel) (h : readAll fuel found column cs = .error x) :
    ∃ before c after ps, cs = before ++ c :: after ∧ Placed column before ps ∧ Text.isBlank c = false ∧
      read (column + byteLength before) c after = .error x := by
  induction fuel generalizing found column cs with
  | zero => omega
  | succ fuel ih =>
    obtain hb | ⟨blanks, c, cs, rfl, hb, hc⟩ := blank_cases cs
    · rw [readAll_blanks hb] at h
      cases h
    · rw [readAll_cons hb _ _ _ hc] at h
      cases hread : read (column + byteLength blanks) c cs with
      | error y =>
        rw [hread] at h
        cases h
        exact ⟨blanks, c, cs, [], rfl, .done hb, hc, hread⟩
      | ok r =>
        obtain ⟨t, after, rest⟩ := r
        rw [hread] at h
        have hreads := reads_of_read hread
        obtain ⟨front, rfl, -⟩ := hreads.exists_front
        rw [read_of_reads hreads] at hread
        cases hread
        have hf' : rest.length < fuel := by
          simp only [List.length_append, List.length_cons] at hf
          omega
        obtain ⟨before, d, after, ps, rfl, hps, hd, hx⟩ := ih hf' h
        rw [Nat.add_assoc, ← byteLength_append] at hps hx
        refine ⟨blanks ++ c :: (front ++ before), d, after, _, by simp, .token hb hc hreads.alone hps, hd, ?_⟩
        rw [← hx]
        simp only [byteLength_append, byteLength_cons, Nat.add_assoc]

end Token

theorem unreadable_of_tokenize {text : String} {x : ParseError} (h : tokenize text = .error x) :
    ∃ before c after, text.toList = before ++ c :: after ∧ Token.Unreadable before c after x := by
  obtain ⟨before, c, after, ps, htext, hps, hc, hx⟩ := Token.stops_of_readAll (Nat.lt_succ_self _) h
  rw [htext]
  exact Token.unreadable_of_read ⟨ps, hps⟩ hc hx

end TemplatedForms
