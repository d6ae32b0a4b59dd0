import TemplatedForms.Proofs.Expression.Exactness
import TemplatedForms.Proofs.Expression.Unreadable

namespace TemplatedForms

namespace TokenParser

variable {α β : Type}

/-- An error that names one of some tokens and where it stands, or that names no place. -/
inductive Blames (ts : List Positioned) : ParseError → Prop
  | token {t : Positioned} (expected : String) :
      t ∈ ts → Blames ts (.unexpectedToken expected t.token.describe t.column)
  | param {t : Positioned} :
      t ∈ ts → (∀ s, t.token ≠ .name s) → Blames ts (.invalidArrowParams t.column)
  | tooDeep : Blames ts (.nestingTooDeep nestingLimit)
  | ends : Blames ts .unexpectedEnd

theorem Blames.mono {ts ts' : List Positioned} {x : ParseError} (h : Blames ts x) (hs : ts ⊆ ts') :
    Blames ts' x := by
  cases h with
  | token expected ht => exact .token expected (hs ht)
  | param ht hname => exact .param (hs ht) hname
  | tooDeep => exact .tooDeep
  | ends => exact .ends

theorem blames_unexpected (expected : String) (ts : List Positioned) : Blames ts (unexpected expected ts) := by
  cases ts with
  | nil => exact .ends
  | cons t ts => exact .token expected List.mem_cons_self

def Stays (ts : List Positioned) : Except ParseError (α × List Positioned) → Prop
  | .ok (_, rest) => rest <:+ ts
  | .error x => Blames ts x

def Careful (p : TokenParser α) : Prop := ∀ ts, Stays ts (p ts)

theorem Stays.mono {ts ts' : List Positioned} {r : Except ParseError (α × List Positioned)} (h : Stays ts r)
    (hs : ts <:+ ts') : Stays ts' r := by
  cases r with
  | error x => exact Blames.mono h hs.subset
  | ok a => exact List.IsSuffix.trans h hs

theorem Stays.bind {ts : List Positioned} {r : Except ParseError (α × List Positioned)}
    {f : α × List Positioned → Except ParseError (β × List Positioned)} (h : Stays ts r)
    (hf : ∀ a rest, Stays rest (f (a, rest))) : Stays ts (r >>= f) := by
  cases r with
  | error x => exact h
  | ok a => exact (hf a.1 a.2).mono h

theorem Stays.cons {t : Positioned} {ts : List Positioned} {r : Except ParseError (α × List Positioned)}
    (h : Stays ts r) : Stays (t :: ts) r :=
  h.mono (List.suffix_cons t ts)

theorem careful_tooDeep : Careful (tooDeep : TokenParser α) := fun _ ↦ .tooDeep

theorem careful_ok (a : α) : Careful fun ts ↦ .ok (a, ts) := fun ts ↦ List.suffix_refl ts

theorem careful_expect (m : Mark) : Careful (expect m) := by
  intro ts
  cases ts with
  | nil => exact .ends
  | cons t ts =>
    rw [expect]
    split
    · exact List.suffix_cons t ts
    · exact blames_unexpected m.text (t :: ts)

theorem careful_items {item : TokenParser α} (hi : Careful item) (closing : Mark) (fuel : Nat)
    (found : List α) : Careful (items item closing fuel found) := by
  induction fuel generalizing found with
  | zero => exact fun _ ↦ .ends
  | succ fuel ih =>
    intro ts
    rw [items]
    split
    · exact List.tail_suffix ts
    · refine (hi ts).bind fun a rest ↦ ?_
      dsimp only
      split
      · exact List.tail_suffix rest
      · exact (careful_expect .comma rest).bind fun _ rest ↦ ih (a :: found) rest

theorem careful_list {item : TokenParser α} (hi : Careful item) (closing : Mark) :
    Careful (list item closing) := fun ts ↦
  careful_items hi closing (ts.length + 1) [] ts

theorem stays_params_items (fuel : Nat) (found : List String) {ts : List Positioned}
    (h : closesBeforeArrow 1 ts = true) : Stays ts (items param .rightParen fuel found ts) := by
  induction fuel generalizing found ts with
  | zero => exact .ends
  | succ fuel ih =>
    cases ts with
    | nil => cases h
    | cons p ts =>
      obtain ⟨t, column⟩ := p
      rw [items]
      split
      · exact List.suffix_cons _ ts
      · cases t with
        | name s =>
          rw [closesBeforeArrow] at h
          refine Stays.cons ?_
          change Stays ts (if startsWith .rightParen ts then _ else _)
          split
          · exact List.tail_suffix ts
          · cases ts with
            | nil => cases h
            | cons p ts =>
              obtain ⟨t, column⟩ := p
              by_cases ht : t = .mark .comma
              · subst ht
                rw [closesBeforeArrow] at h
                exact .cons (ih (s :: found) h)
              · have hexpect : expect .comma (⟨t, column⟩ :: ts) = .error _ := if_neg ht
                rw [hexpect]
                exact blames_unexpected _ _
        | _ => exact .param List.mem_cons_self (by simp)

theorem stays_params {ts : List Positioned} (h : atArrow ts = true) : Stays ts (params ts) := by
  cases ts with
  | nil => cases h
  | cons p ts =>
    obtain ⟨t, column⟩ := p
    rw [atArrow] at h
    split at h
    · next s hs =>
      obtain rfl : t = .name s := hs
      exact List.suffix_cons _ ts
    · next hs =>
      obtain rfl : t = .mark .leftParen := hs
      exact (stays_params_items _ [] h).cons
    · cases h

theorem careful_key : Careful key := by
  intro ts
  unfold key
  split
  · exact List.suffix_cons _ _
  · exact List.suffix_cons _ _
  · exact List.suffix_cons _ _
  · exact blames_unexpected _ _

section

variable {expression : TokenParser Expr} (he : Careful expression)

include he

theorem careful_member : Careful (member expression) := fun ts ↦
  (careful_key ts).bind fun name rest ↦
    (careful_expect .colon rest).bind fun _ rest ↦ (he rest).bind fun e ↦ careful_ok (name, e)

theorem careful_primary : Careful (primary expression) := by
  intro ts
  unfold primary
  split
  · exact .ends
  · next t ts =>
    split
    · exact List.suffix_cons t ts
    · exact List.suffix_cons t ts
    · split
      · exact List.suffix_cons t ts
      · exact blames_unexpected _ _
    · exact .cons ((he ts).bind fun e rest ↦ (careful_expect .rightParen rest).bind fun _ ↦ careful_ok e)
    · exact .cons ((careful_list he .rightBracket ts).bind fun es ↦ careful_ok (Expr.array es))
    · exact .cons ((careful_list (careful_member he) .rightBrace ts).bind fun ms ↦ careful_ok (Expr.object ms))
    · exact blames_unexpected _ _

theorem careful_operand {next : Expr → TokenParser Expr} (hn : ∀ e, Careful (next e)) :
    Careful (operand expression next) := fun ts ↦
  (careful_primary he ts).bind hn

theorem careful_suffixes {next : Expr → TokenParser Expr} (hn : ∀ e, Careful (next e)) (e : Expr) :
    Careful (suffixes expression next e) := by
  intro ts
  unfold suffixes
  split
  · exact List.suffix_refl []
  · next t ts =>
    split
    · split
      · exact .cons (.cons (hn _ _))
      · exact (blames_unexpected _ _).mono (List.subset_cons_self t _)
    · exact .cons ((he ts).bind fun k rest ↦ (careful_expect .rightBracket rest).bind fun _ ↦ hn (.index e k))
    · exact .cons ((careful_list he .rightParen ts).bind fun args ↦ hn (.call e args))
    · exact List.suffix_refl _

theorem careful_conditional {test : TokenParser Expr} (ht : Careful test) :
    Careful (conditional test expression) := by
  refine fun ts ↦ (ht ts).bind fun c rest ↦ ?_
  dsimp only
  split
  · refine Stays.mono ?_ (List.tail_suffix rest)
    exact (he rest.tail).bind fun a rest ↦
      (careful_expect .colon rest).bind fun _ rest ↦ (he rest).bind fun b ↦ careful_ok (Expr.conditional c a b)
  · exact List.suffix_refl rest

theorem stays_arrow {ts : List Positioned} (h : atArrow ts = true) : Stays ts (arrow expression ts) :=
  (stays_params h).bind fun ss rest ↦
    (careful_expect .arrow rest).bind fun _ rest ↦ (he rest).bind fun e ↦ careful_ok (Expr.arrow ss e)

end

theorem careful_noSuffix (e : Expr) : Careful (noSuffix e) := by
  intro ts
  unfold noSuffix
  split
  · exact List.suffix_refl []
  · split
    · exact careful_tooDeep _
    · exact careful_tooDeep _
    · exact careful_tooDeep _
    · exact List.suffix_refl _

theorem careful_chain {inner : Nat → TokenParser Expr} {next : Nat → Expr → TokenParser Expr}
    (hi : ∀ level, Careful (inner level)) (hn : ∀ level e, Careful (next level e)) (level : Nat) (left : Expr) :
    Careful (chain inner next level left) := by
  intro ts
  unfold chain
  split
  · exact List.suffix_refl []
  · next t ts =>
    split
    · split
      · exact List.suffix_refl _
      · next op _ _ => exact .cons ((hi _ ts).bind fun right ↦ hn level (op.apply left right))
    · exact List.suffix_refl _

theorem careful_unary {inner operand : TokenParser Expr} (hi : Careful inner) (ho : Careful operand) :
    Careful (unary inner operand) := by
  intro ts
  unfold unary
  split
  · exact ho []
  · next t ts =>
    split
    · next op _ => exact .cons ((hi ts).bind fun e ↦ careful_ok (Expr.unary op e))
    · exact ho (t :: ts)

structure Level.Careful (l : Level) : Prop where
  expression : TokenParser.Careful l.expression
  unary : TokenParser.Careful l.unary
  chain : ∀ level left, TokenParser.Careful (l.chain level left)
  suffixes : ∀ e, TokenParser.Careful (l.suffixes e)

theorem Level.Careful.operation {l : Level} (h : l.Careful) (level : Nat) :
    TokenParser.Careful (l.operation level) := fun ts ↦
  (h.unary ts).bind (h.chain level)

theorem Level.Careful.enclosing {l : Level} (h : l.Careful) : TokenParser.Careful l.enclosing := by
  intro ts
  unfold Level.enclosing
  split
  · next harrow => exact stays_arrow h.expression harrow
  · exact careful_conditional h.expression (h.operation 1) ts

theorem careful_level (room : Nat) : (level room).Careful := by
  induction room with
  | zero =>
    have hoperand : Careful (operand tooDeep noSuffix) := careful_operand careful_tooDeep careful_noSuffix
    exact ⟨careful_tooDeep, careful_unary careful_tooDeep hoperand,
      careful_chain (fun _ ↦ careful_tooDeep) fun _ _ ↦ careful_tooDeep, careful_noSuffix⟩
  | succ room ih =>
    have hsuffixes : ∀ e, Careful ((level (room + 1)).suffixes e) := careful_suffixes ih.expression ih.suffixes
    exact ⟨ih.enclosing, careful_unary ih.unary (careful_operand ih.enclosing hsuffixes),
      careful_chain ih.operation ih.chain, hsuffixes⟩

theorem body_suffix (ts : List Positioned) : body ts <:+ ts := by
  unfold body
  split
  · exact List.tail_suffix ts
  · exact List.suffix_refl ts

theorem blames_of_program {ts : List Positioned} {x : ParseError} (h : program ts = .error x) : Blames ts x := by
  have hbody : Stays ts (expression (body ts)) :=
    ((careful_level nestingLimit).expression (body ts)).mono (body_suffix ts)
  rw [program_eq] at h
  cases hr : expression (body ts) with
  | error y =>
    rw [hr] at h hbody
    cases h
    exact hbody
  | ok r =>
    obtain ⟨e, rest⟩ := r
    rw [hr] at h hbody
    have hrest : (if startsWith .semicolon rest then rest.tail else rest) ⊆ rest := by
      split
      · exact (List.tail_suffix rest).subset
      · exact List.Subset.refl rest
    change (if (if startsWith .semicolon rest then rest.tail else rest).isEmpty then _ else _) = _ at h
    generalize (if startsWith .semicolon rest then rest.tail else rest) = rest' at h hrest
    split at h
    · cases h
    · cases h
      exact (blames_unexpected _ rest').mono (List.Subset.trans hrest (List.IsSuffix.subset hbody))

end TokenParser

namespace ParseError

/-- An error at a character of a text: a token starts there that should not stand there, or the text
cannot be split into tokens there. -/
inductive PointsAt (before : List Char) (c : Char) (after : List Char) : ParseError → Prop
  | token {ps : List Positioned} {t : Positioned} {rest : List Char} (expected : String) :
      Token.Placed 1 (before ++ c :: after) ps → t ∈ ps → t.column = 1 + byteLength before →
      Token.Reads c after t.token rest →
      PointsAt before c after (.unexpectedToken expected t.token.describe t.column)
  | param {ps : List Positioned} {t : Positioned} {rest : List Char} :
      Token.Placed 1 (before ++ c :: after) ps → t ∈ ps → t.column = 1 + byteLength before →
      Token.Reads c after t.token rest → (∀ s, t.token ≠ .name s) →
      PointsAt before c after (.invalidArrowParams t.column)
  | unreadable {x : ParseError} : Token.Unreadable before c after x → PointsAt before c after x

theorem PointsAt.column? {before : List Char} {c : Char} {after : List Char} {x : ParseError}
    (h : x.PointsAt before c after) : x.column? = some (1 + byteLength before) := by
  cases h with
  | token _ _ _ ht => exact congrArg some ht
  | param _ _ ht => exact congrArg some ht
  | unreadable h => cases h <;> rfl

end ParseError

theorem pointsAt_of_blames {text : String} {ps : List Positioned} (hps : tokenize text = .ok ps)
    {x : ParseError} (h : TokenParser.Blames ps x) {column : Nat} (hx : x.column? = some column) :
    ∃ before c after, text.toList = before ++ c :: after ∧ x.PointsAt before c after := by
  rw [tokenize_eq_ok_iff] at hps
  cases h with
  | token expected ht =>
    obtain ⟨before, c, front, rest, htext, hcolumn, hreads⟩ := hps.mem ht
    exact ⟨before, c, front ++ rest, htext, .token expected (htext ▸ hps) ht hcolumn hreads⟩
  | param ht hname =>
    obtain ⟨before, c, front, rest, htext, hcolumn, hreads⟩ := hps.mem ht
    exact ⟨before, c, front ++ rest, htext, .param (htext ▸ hps) ht hcolumn hreads hname⟩
  | tooDeep => cases hx
  | ends => cases hx

/-- An error with a column points at a character of the text, which starts at that column. It is the first
one of a token that cannot stand there, the first one that starts no token, the quote that opens a string
without an end, or the backslash of an escape that there is not. -/
theorem error_columns_point_into_text {text : String} {x : ParseError} {column : Nat}
    (h : parse text = .error x) (hx : x.column? = some column) :
    ∃ before c after, text.toList = before ++ c :: after ∧ column = 1 + byteLength before ∧
      (1 ≤ column ∧ column ≤ text.utf8ByteSize) ∧ x.PointsAt before c after := by
  obtain ⟨before, c, after, htext, hpoints⟩ : ∃ before c after, text.toList = before ++ c :: after ∧
      x.PointsAt before c after := by
    cases hps : tokenize text with
    | error y =>
      rw [parse, hps] at h
      cases h
      obtain ⟨before, c, after, htext, hunreadable⟩ := unreadable_of_tokenize hps
      exact ⟨before, c, after, htext, .unreadable hunreadable⟩
    | ok ps =>
      rw [parse, hps] at h
      change (if ps.isEmpty then _ else _) = _ at h
      split at h
      · cases h
        cases hx
      · exact pointsAt_of_blames hps (TokenParser.blames_of_program h) hx
  have hcolumn : column = 1 + byteLength before := Option.some.inj (hx.symm.trans hpoints.column?)
  have hsize := byteLength_toList text
  have hpos := c.utf8Size_pos
  rw [htext, byteLength_append, byteLength_cons] at hsize
  exact ⟨before, c, after, htext, hcolumn, ⟨by omega, by omega⟩, hpoints⟩

theorem error_columns_point_into_text_second_parameter :
    parse "'é'((a, []) => a)" = .error (.invalidArrowParams 10) ∧
      ∃ before c after, "'é'((a, []) => a)".toList = before ++ c :: after ∧ 10 = 1 + byteLength before ∧
        (1 ≤ 10 ∧ 10 ≤ "'é'((a, []) => a)".utf8ByteSize) ∧
        (ParseError.invalidArrowParams 10).PointsAt before c after := by
  have herror : parse "'é'((a, []) => a)" = .error (.invalidArrowParams 10) := rfl
  exact ⟨herror, error_columns_point_into_text herror rfl⟩

end TemplatedForms
