import TemplatedForms.Proofs.Expression.Lexing
import TemplatedForms.Proofs.Expression.Soundness

namespace TemplatedForms

open Grammar

namespace TokenParser

theorem expression_unique {ts ts' rest rest' : List Positioned} {n n' : Nat} {e e' : Expr}
    (h : Derives .expression 0 n (tokens ts) e) (h' : Derives .expression 0 n' (tokens ts') e')
    (hr : Ends rest) (hr' : Ends rest') (hts : ts ++ rest = ts' ++ rest') :
    n = n' ∧ e = e' ∧ rest = rest' := by
  have hread (room : Nat) : within n room (.ok (e, rest)) = within n' room (.ok (e', rest')) := by
    have hleft := reads_of_derives h room ts rest rfl hr
    have hright := reads_of_derives h' room ts' rest' rfl hr'
    rw [← hleft, ← hright, hts]
  -- with room for only one of them, one reading would succeed and the other one fail
  have hle : n = n' := by
    rcases Nat.lt_trichotomy n n' with hlt | heq | hlt
    · have hn := hread n
      rw [within_of_le (Nat.le_refl n), within_of_lt hlt] at hn
      cases hn
    · exact heq
    · have hn := hread n'
      rw [within_of_le (Nat.le_refl n'), within_of_lt hlt] at hn
      cases hn
  have heq := hread n
  rw [hle, within_of_le (Nat.le_refl n'), within_of_le (Nat.le_refl n')] at heq
  obtain ⟨rfl, rfl⟩ := Prod.mk.inj (Except.ok.inj heq)
  exact ⟨hle, rfl, rfl⟩

def Ending (ts : List Positioned) : Prop := tokens ts = [] ∨ tokens ts = [.mark .semicolon]

theorem Ending.ends {ts : List Positioned} (h : Ending ts) : Ends ts := by
  rcases h with h | h
  · rw [tokens_eq_nil.mp h]
    trivial
  · obtain ⟨c, rfl⟩ := tokens_eq_singleton h
    exact ends_cons (by decide) c []

theorem ending_iff (ts : List Positioned) :
    (if startsWith .semicolon ts then ts.tail else ts).isEmpty = true ↔ Ending ts := by
  constructor
  · intro h
    split at h
    · next hsemicolon =>
      obtain ⟨c, ts, rfl⟩ := startsWith_inv hsemicolon
      rw [List.tail_cons, List.isEmpty_iff] at h
      exact .inr (by rw [h]; rfl)
    · exact .inl (by rw [List.isEmpty_iff.mp h]; rfl)
  · rintro (h | h)
    · rw [tokens_eq_nil.mp h]
      rfl
    · obtain ⟨c, rfl⟩ := tokens_eq_singleton h
      rfl

def returns : List Positioned → Bool
  | t :: _ => t.token == .name "return"
  | [] => false

def body (ts : List Positioned) : List Positioned := if returns ts then ts.tail else ts

theorem program_eq (ts : List Positioned) :
    program ts = (do
      let (e, rest) ← expression (body ts)
      let rest := if startsWith .semicolon rest then rest.tail else rest
      if rest.isEmpty then .ok ⟨e, returns ts⟩ else .error (unexpected "end of expression" rest)) := by
  cases ts <;> rfl

theorem returns_iff {ts : List Positioned} :
    returns ts = true ↔ (tokens ts).head? = some (.name "return") := by
  cases ts with
  | nil => simp [returns]
  | cons t ts => simp [returns]

theorem derivesProgram_iff {n : Nat} {ts : List Positioned} {p : Program} :
    DerivesProgram n (tokens ts) p ↔
      ∃ pre rest, body ts = pre ++ rest ∧ Ending rest ∧
        Derives .expression 0 n (tokens pre) p.body ∧ p.explicitReturn = returns ts := by
  constructor
  · generalize hus : tokens ts = us
    rintro (@⟨us, ending, n, e, hd, hhead, hending⟩ | @⟨us, ending, n, e, hd, hending⟩)
    · obtain ⟨pre, rest, rfl, rfl, rfl⟩ := tokens_eq_append hus
      obtain ⟨t, us, hstart, -⟩ := hd.starts
      have hreturns : returns (pre ++ rest) = false := by
        rw [← Bool.not_eq_true, returns_iff, tokens_append, hstart]
        rwa [hstart] at hhead
      exact ⟨pre, rest, by rw [body, hreturns, if_neg (by simp)], hending, hd, hreturns.symm⟩
    · obtain ⟨c, ts, rfl, hts⟩ := tokens_eq_cons hus
      obtain ⟨pre, rest, rfl, rfl, rfl⟩ := tokens_eq_append hts
      exact ⟨pre, rest, rfl, hending, hd, rfl⟩
  · obtain ⟨e, explicit⟩ := p
    rintro ⟨pre, rest, hbody, hr, hd, hreturns⟩
    dsimp only at hreturns
    cases hts : returns ts with
    | true =>
      obtain ⟨us, hus⟩ := List.head?_eq_some_iff.mp (returns_iff.mp hts)
      obtain ⟨c, ts, rfl, -⟩ := tokens_eq_cons hus
      rw [body, hts, if_pos rfl, List.tail_cons] at hbody
      rw [hreturns, hts, tokens_cons, hbody, tokens_append]
      exact .returned hd hr
    | false =>
      rw [body, hts, if_neg (by simp)] at hbody
      obtain ⟨t, us, hstart, -⟩ := hd.starts
      have hhead : (tokens pre).head? ≠ some (.name "return") := by
        rw [← Bool.not_eq_true, returns_iff, hbody, tokens_append, hstart] at hts
        rwa [hstart]
      rw [hreturns, hts, hbody, tokens_append]
      exact .plain hd hhead hr

theorem expression_of_ending {ts rest : List Positioned} {n : Nat} {e : Expr}
    (h : Derives .expression 0 n (tokens ts) e) (hr : Ending rest) :
    expression (ts ++ rest) = within n nestingLimit (.ok (e, rest)) :=
  reads_of_derives h nestingLimit ts rest rfl hr.ends

theorem program_of_derives {n : Nat} {ts : List Positioned} {p : Program}
    (h : DerivesProgram n (tokens ts) p) : program ts = within n nestingLimit (.ok p) := by
  obtain ⟨pre, rest, hbody, hr, hd, hreturn⟩ := derivesProgram_iff.mp h
  rw [program_eq, hbody, expression_of_ending hd hr, within_bind, ok_bind, ← hreturn]
  exact congrArg (within n nestingLimit) (if_pos ((ending_iff rest).mpr hr))

theorem derives_of_program {ts : List Positioned} {p : Program} (h : program ts = .ok p) :
    ∃ n ≤ nestingLimit, DerivesProgram n (tokens ts) p := by
  rw [program_eq] at h
  obtain ⟨⟨e, rest⟩, he, h₁⟩ := ok_of_bind h
  obtain ⟨pre, x, hbody, hpre, rfl, hn, hd⟩ := (sound nestingLimit).expression _ _ _ he
  by_cases hend : Ending rest
  · dsimp only at h₁
    rw [if_pos ((ending_iff rest).mpr hend)] at h₁
    cases h₁
    exact ⟨x.nesting, hn, derivesProgram_iff.mpr ⟨pre, rest, hbody, hend, hpre ▸ hd, rfl⟩⟩
  · dsimp only at h₁
    rw [if_neg (mt (ending_iff rest).mp hend)] at h₁
    cases h₁

theorem program_unique {ts : List Positioned} {n n' : Nat} {p p' : Program}
    (h : DerivesProgram n (tokens ts) p) (h' : DerivesProgram n' (tokens ts) p') : n = n' ∧ p = p' := by
  obtain ⟨pre, rest, hbody, hr, hd, hreturn⟩ := derivesProgram_iff.mp h
  obtain ⟨pre', rest', hbody', hr', hd', hreturn'⟩ := derivesProgram_iff.mp h'
  obtain ⟨rfl, he, -⟩ := expression_unique hd hd' hr.ends hr'.ends (hbody.symm.trans hbody')
  obtain ⟨e, explicit⟩ := p
  obtain ⟨e', explicit'⟩ := p'
  obtain rfl : e = e' := he
  obtain rfl : explicit = explicit' := hreturn.trans hreturn'.symm
  exact ⟨rfl, rfl⟩

/-- Whatever the parser accepts derives from the grammar, with the tree it returns. A derivation is
followed to its tree unless it nests deeper than the limit, which is then the error. No list of tokens has
two derivations with different trees. -/
theorem program_reads_exactly_the_grammar (ts : List Positioned) :
    (∀ p, program ts = .ok p → ∃ n ≤ nestingLimit, DerivesProgram n (tokens ts) p) ∧
    (∀ n p, DerivesProgram n (tokens ts) p →
      program ts = if n ≤ nestingLimit then .ok p else .error (.nestingTooDeep nestingLimit)) ∧
    (∀ n n' p p', DerivesProgram n (tokens ts) p → DerivesProgram n' (tokens ts) p' →
      n = n' ∧ p = p') :=
  ⟨fun _ h ↦ derives_of_program h, fun _ _ h ↦ program_of_derives h,
    fun _ _ _ _ h h' ↦ program_unique h h'⟩

end TokenParser

theorem parse_of_lexes {text : String} {ts : List Token} {n : Nat} {p : Program}
    (ht : Token.Lexes text.toList ts) (hd : DerivesProgram n ts p) (hn : n ≤ TokenParser.nestingLimit) :
    parse text = .ok p := by
  obtain ⟨ps, hps, rfl⟩ := tokenize_iff.mpr ht
  have hne : ps.isEmpty = false := by
    cases ps with
    | nil => exact absurd rfl hd.ne_nil
    | cons _ _ => rfl
  rw [parse, hps]
  change (if ps.isEmpty then _ else _) = _
  rw [hne, if_neg (by simp), TokenParser.program_of_derives hd, TokenParser.within_of_le hn]

theorem derives_of_parse {text : String} {p : Program} (h : parse text = .ok p) :
    ∃ ts n, n ≤ TokenParser.nestingLimit ∧ DerivesProgram n ts p := by
  obtain ⟨ps, -, h⟩ := TokenParser.ok_of_bind h
  split at h
  · cases h
  · obtain ⟨n, hn, hd⟩ := TokenParser.derives_of_program h
    exact ⟨tokens ps, n, hn, hd⟩

end TemplatedForms
