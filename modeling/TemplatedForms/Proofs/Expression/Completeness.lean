import TemplatedForms.Proofs.Expression.Lookahead

namespace TemplatedForms.TokenParser

open Grammar

variable {α β : Type}

def within (n room : Nat) (r : Except ParseError α) : Except ParseError α :=
  if n ≤ room then r else .error (.nestingTooDeep nestingLimit)

theorem within_of_le {n room : Nat} (h : n ≤ room) (r : Except ParseError α) : within n room r = r :=
  if_pos h

theorem within_of_lt {n room : Nat} (h : room < n) (r : Except ParseError α) :
    within n room r = .error (.nestingTooDeep nestingLimit) := if_neg (by omega)

@[simp] theorem within_zero (room : Nat) (r : Except ParseError α) : within 0 room r = r :=
  within_of_le (Nat.zero_le room) r

@[simp] theorem within_succ (n room : Nat) (r : Except ParseError α) :
    within (n + 1) (room + 1) r = within n room r := by
  simp [within]

theorem within_within (n p room : Nat) (r : Except ParseError α) :
    within n room (within p room r) = within (max n p) room r := by
  by_cases hn : n ≤ room
  · by_cases hp : p ≤ room
    · rw [within_of_le hn, within_of_le hp, within_of_le (by omega)]
    · rw [within_of_le hn, within_of_lt (by omega), within_of_lt (by omega)]
  · rw [within_of_lt (by omega), within_of_lt (by omega)]

theorem within_bind (n room : Nat) (r : Except ParseError α) (f : α → Except ParseError β) :
    (within n room r >>= f) = within n room (r >>= f) := by
  unfold within
  split <;> rfl

@[simp] theorem ok_bind (a : α) (f : α → Except ParseError β) : (Except.ok a >>= f) = f a := rfl

def FirstIs (P : Token → Prop) : List Positioned → Prop
  | [] => True
  | t :: _ => P t.token

theorem FirstIs.mono {P Q : Token → Prop} (h : ∀ t, P t → Q t) {ts : List Positioned}
    (ht : FirstIs P ts) : FirstIs Q ts := by
  cases ts with
  | nil => trivial
  | cons t ts => exact h _ ht

def closingMarks : List Mark := [.rightParen, .rightBracket, .rightBrace]

def endMarks : List Mark := closingMarks ++ [.comma, .colon, .semicolon]

def Ends : List Positioned → Prop := FirstIs (∃ m ∈ endMarks, · = .mark m)

def NoSuffix : List Positioned → Prop :=
  FirstIs (· ∉ [.mark .dot, .mark .leftBracket, .mark .leftParen])

def NoOperatorAbove (k : Nat) : List Positioned → Prop :=
  FirstIs (∀ op, operator? · = some op → op.level ≤ k)

theorem ends_cons {m : Mark} (hm : m ∈ endMarks) (c : Nat) (ts : List Positioned) :
    Ends (⟨.mark m, c⟩ :: ts) := ⟨m, hm, rfl⟩

theorem noSuffix_cons {m : Mark} (hm : m ∉ [.dot, .leftBracket, .leftParen]) (c : Nat)
    (ts : List Positioned) : NoSuffix (⟨.mark m, c⟩ :: ts) := by
  simpa [NoSuffix, FirstIs] using hm

theorem noOperatorAbove_cons {m : Mark} (hm : operator? (.mark m) = none) (k c : Nat)
    (ts : List Positioned) : NoOperatorAbove k (⟨.mark m, c⟩ :: ts) := by
  intro op hop
  rw [hm] at hop
  cases hop

theorem Ends.noSuffix {ts : List Positioned} (h : Ends ts) : NoSuffix ts := by
  refine FirstIs.mono ?_ h
  rintro t ⟨m, hm, rfl⟩
  revert m
  decide

theorem Ends.noOperatorAbove {ts : List Positioned} (h : Ends ts) (k : Nat) : NoOperatorAbove k ts := by
  refine FirstIs.mono ?_ h
  rintro t ⟨m, hm, rfl⟩ op hop
  have hnone : ∀ m ∈ endMarks, operator? (.mark m) = none := by decide
  rw [hnone m hm] at hop
  cases hop

theorem Ends.startsWith_eq_false {ts : List Positioned} (h : Ends ts) {m : Mark} (hm : m ∉ endMarks) :
    startsWith m ts = false := by
  cases ts with
  | nil => rfl
  | cons t ts =>
    obtain ⟨m', hm', ht⟩ := h
    rw [startsWith, decide_eq_false_iff_not, ht]
    rintro ⟨⟩
    exact hm hm'

theorem NoOperatorAbove.mono {k k' : Nat} (hk : k ≤ k') {ts : List Positioned}
    (h : NoOperatorAbove k ts) : NoOperatorAbove k' ts :=
  FirstIs.mono (fun _ ht op ho ↦ Nat.le_trans (ht op ho) hk) h

theorem operator?_of_joins {k : Nat} {m : Mark} {op : Operator} (h : Joins k m op) :
    operator? (.mark m) = some op ∧ op.level = k := by
  cases h <;> exact ⟨rfl, rfl⟩

theorem noOperatorAbove_of_joins {k : Nat} {m : Mark} {op : Operator} (h : Joins k m op) (c : Nat)
    (ts : List Positioned) : NoOperatorAbove k (⟨.mark m, c⟩ :: ts) := by
  intro op' hop'
  obtain ⟨hop, rfl⟩ := operator?_of_joins h
  obtain rfl := Option.some.inj (hop.symm.trans hop')
  exact Nat.le_refl _

theorem noSuffix_of_joins {k : Nat} {m : Mark} {op : Operator} (h : Joins k m op) (c : Nat)
    (ts : List Positioned) : NoSuffix (⟨.mark m, c⟩ :: ts) :=
  noSuffix_cons (by cases h <;> decide) c ts

theorem unaryOp?_of_leads {t : Token} {op : UnaryOp} (h : Leads t op) : unaryOp? t = some op := by
  cases h <;> rfl

theorem chain_stops {k : Nat} {ts : List Positioned} (h : NoOperatorAbove k ts) (room : Nat)
    {min : Nat} (hm : k < min) (e : Expr) : (level room).chain min e ts = .ok (e, ts) := by
  cases ts with
  | nil => cases room <;> rfl
  | cons t ts =>
    have h' (inner next) : chain inner next min e (t :: ts) = .ok (e, t :: ts) := by
      rw [chain]
      split
      · next op hop => exact if_pos (Nat.lt_of_le_of_lt (h op hop) hm)
      · rfl
    cases room with
    | zero => rw [level_zero_chain, h']
    | succ room => rw [level_succ_chain, h']

theorem suffixes_stop {ts : List Positioned} (h : NoSuffix ts) (room : Nat) (e : Expr) :
    (level room).suffixes e ts = .ok (e, ts) := by
  cases ts with
  | nil => cases room <;> rfl
  | cons t ts =>
    have h : t.token ∉ _ := h
    cases room with
    | zero =>
      rw [level_zero_suffixes, noSuffix]
      split <;> simp_all
    | succ room =>
      rw [level_succ_suffixes]
      unfold suffixes
      split <;> simp_all

def ReadsItem (item : TokenParser α) (room : Nat) (x : Phrase α) : Prop :=
  (∃ t us, x.tokens = t :: us ∧ Starts t) ∧ ∀ ts rest, tokens ts = x.tokens → Ends rest →
    item (ts ++ rest) = within x.nesting room (.ok (x.tree, rest))

theorem ReadsItem.startsWith_eq_false {item : TokenParser α} {room : Nat} {x : Phrase α}
    (h : ReadsItem item room x) {m : Mark} (hm : m ∈ closingMarks) {ts : List Positioned}
    (hts : tokens ts = x.tokens) (rest : List Positioned) : startsWith m (ts ++ rest) = false := by
  obtain ⟨t, us, hx, hs⟩ := h.1
  obtain ⟨c, ts', rfl, -⟩ := tokens_eq_cons (hts.trans hx)
  rw [List.cons_append, startsWith_cons, decide_eq_false_iff_not]
  rintro rfl
  have hstart : ∀ m ∈ closingMarks, Starts (.mark m) = false := by decide
  rw [hstart m hm] at hs
  cases hs

theorem items_of_listed {item : TokenParser α} {closing : Mark} (hc : closing ∈ closingMarks)
    {room : Nat} {xs : List (Phrase α)} (hx : ∀ x ∈ xs, ReadsItem item room x) {us : List Token}
    (h : Listed closing (xs.map (·.tokens)) us) {ts : List Positioned} (hts : tokens ts = us)
    (rest : List Positioned) {fuel : Nat} (hf : ts.length < fuel) (found : List α) :
    items item closing fuel found (ts ++ rest) =
      within (deepest xs) room (.ok (found.reverse ++ xs.map (·.tree), rest)) := by
  have hend : closing ∈ endMarks := List.mem_append_left _ hc
  have hcomma : closing ≠ .comma := by rintro rfl; revert hc; decide
  -- on the phrases: each round reads one of them, and the comma behind it uses up fuel
  induction xs generalizing us ts fuel found with
  | nil =>
    obtain ⟨fuel, rfl⟩ : ∃ n, fuel = n + 1 := ⟨fuel - 1, by omega⟩
    cases h
    obtain ⟨c, rfl⟩ := tokens_eq_singleton hts
    simp [items, deepest]
  | cons x xs ih =>
    obtain ⟨fuel, rfl⟩ : ∃ n, fuel = n + 1 := ⟨fuel - 1, by omega⟩
    obtain ⟨hread, hxs⟩ := List.forall_mem_cons.mp hx
    generalize hparts : (x :: xs).map (·.tokens) = parts at h
    cases h with
    | none => cases hparts
    | last =>
      obtain ⟨rfl, hnil⟩ := List.cons.inj hparts
      obtain rfl := List.map_eq_nil_iff.mp hnil
      obtain ⟨ts₁, ts₂, rfl, h₁, h₂⟩ := tokens_eq_append hts
      obtain ⟨c, rfl⟩ := tokens_eq_singleton h₂
      rw [List.append_assoc, List.singleton_append, items, hread.startsWith_eq_false hc h₁,
        if_neg (by simp), hread.2 ts₁ _ h₁ (ends_cons hend c rest), within_bind]
      simp [deepest]
    | next =>
      obtain ⟨rfl, rfl⟩ := List.cons.inj hparts
      obtain ⟨ts₁, ts₂, rfl, h₁, h₂⟩ := tokens_eq_append hts
      obtain ⟨c, ts₂, rfl, h₂'⟩ := tokens_eq_cons h₂
      have hf' : ts₂.length < fuel := by simp at hf; omega
      have hrest := ih hxs (by assumption) h₂' hf' (x.tree :: found)
      have hends : Ends (⟨.mark .comma, c⟩ :: (ts₂ ++ rest)) := ends_cons (by decide) c _
      rw [List.append_assoc, List.cons_append, items, hread.startsWith_eq_false hc h₁,
        if_neg (by simp), hread.2 ts₁ _ h₁ hends, within_bind, ok_bind]
      simp only [startsWith_cons, expect_mark]
      rw [if_neg (by simpa using hcomma.symm), ok_bind, hrest, within_within]
      simp [deepest]

theorem list_of_listed {item : TokenParser α} {closing : Mark} (hc : closing ∈ closingMarks)
    {room : Nat} {xs : List (Phrase α)} (hx : ∀ x ∈ xs, ReadsItem item room x) {us : List Token}
    (h : Listed closing (xs.map (·.tokens)) us) {ts : List Positioned} (hts : tokens ts = us)
    (rest : List Positioned) :
    list item closing (ts ++ rest) = within (deepest xs) room (.ok (xs.map (·.tree), rest)) :=
  items_of_listed hc hx h hts rest (by rw [List.length_append]; omega) []

/-- With any room the parser for a kind reads a phrase as its derivation says. For operations and suffixes
it goes on with what follows, at the level that the links of the phrase leave. -/
def Reads (kind : Kind) (j n : Nat) (us : List Token) (e : Expr) : Prop :=
  ∀ room ts rest, tokens ts = us →
    match kind with
    | .expression => Ends rest → (level room).expression (ts ++ rest) = within n room (.ok (e, rest))
    | .operation k => ∀ min, min ≤ k → NoOperatorAbove k rest → NoSuffix rest →
      (level room).operation min (ts ++ rest) = within n room ((level (room - j)).chain min e rest)
    | .unary => NoSuffix rest → (level room).unary (ts ++ rest) = within n room (.ok (e, rest))
    | .suffixed => operand (level room).expression (level room).suffixes (ts ++ rest) =
      within n room ((level (room - j)).suffixes e rest)
    | .primary => primary (level room).expression (ts ++ rest) = within n room (.ok (e, rest))

theorem Reads.item {n : Nat} {us : List Token} {e : Expr} (h : Reads .expression 0 n us e)
    (hd : Derives .expression 0 n us e) (room : Nat) :
    ReadsItem (level room).expression room ⟨n, us, e⟩ := by
  obtain ⟨t, us', hus, hs⟩ := hd.starts
  exact ⟨⟨t, us', hus, hs⟩, h room⟩

theorem param_item (s : String) (room : Nat) : ReadsItem param room ⟨0, [.name s], s⟩ := by
  refine ⟨⟨_, _, rfl, rfl⟩, fun ts rest hts _ ↦ ?_⟩
  obtain ⟨c, rfl⟩ := tokens_eq_singleton hts
  rfl

theorem list_param {ss : List String} {us : List Token}
    (h : Listed .rightParen (ss.map fun s ↦ [.name s]) us) {ts : List Positioned}
    (hts : tokens ts = us) (rest : List Positioned) :
    list param .rightParen (ts ++ rest) = .ok (ss, rest) := by
  let phrase : String → Phrase String := fun s ↦ ⟨0, [.name s], s⟩
  have hx : ∀ x ∈ ss.map phrase, ReadsItem param 0 x := by
    intro x hx
    obtain ⟨s, -, rfl⟩ := List.mem_map.mp hx
    exact param_item s 0
  have hp : (ss.map phrase).map (·.tokens) = ss.map fun s ↦ [.name s] := by
    rw [List.map_map]
    rfl
  have hn (ss : List String) : deepest (ss.map phrase) = 0 := by
    induction ss with
    | nil => rfl
    | cons s ss ih => exact (Nat.zero_max _).trans ih
  have hlist := list_of_listed (by decide) hx (hp ▸ h) hts rest
  rw [hlist, hn, within_zero, List.map_map]
  simp [phrase, Function.comp_def]

theorem params_read {ss : List String} {us : List Token} (h : Params ss us) {ts : List Positioned}
    (hts : tokens ts = us) (c : Nat) (rest : List Positioned) :
    params (ts ++ ⟨.mark .arrow, c⟩ :: rest) = .ok (ss, ⟨.mark .arrow, c⟩ :: rest) := by
  cases h with
  | one s =>
    obtain ⟨c', rfl⟩ := tokens_eq_singleton hts
    rfl
  | listed hl =>
    obtain ⟨c', ts, rfl, h₁⟩ := tokens_eq_cons hts
    exact list_param hl h₁ (⟨.mark .arrow, c⟩ :: rest)

theorem reads_arrow {ss : List String} {ts us : List Token} {n : Nat} {e : Expr}
    (hp : Params ss ts) (h : Reads .expression 0 n us e) :
    Reads .expression 0 (n + 1) (ts ++ .mark .arrow :: us) (.arrow ss e) := by
  intro room ps rest hps hr
  cases room with
  | zero => rfl
  | succ room =>
    obtain ⟨ts₁, ts₂, rfl, h₁, h₂⟩ := tokens_eq_append hps
    obtain ⟨c, ts₂, rfl, h₃⟩ := tokens_eq_cons h₂
    have hbody := h room ts₂ rest h₃ hr
    rw [level_succ_expression, Level.enclosing, List.append_assoc, List.cons_append,
      if_pos (atArrow_params hp h₁ _ rfl), within_succ, arrow, params_read hp h₁]
    simp only [ok_bind, expect_mark, hbody, within_bind]

theorem Reads.operation_ends {j n : Nat} {us : List Token} {e : Expr}
    (h : Reads (.operation 1) j n us e) (room : Nat) {ts : List Positioned} (hts : tokens ts = us)
    {rest : List Positioned} (ho : NoOperatorAbove 0 rest) (hs : NoSuffix rest) :
    (level room).operation 1 (ts ++ rest) = within n room (.ok (e, rest)) := by
  rw [h room ts rest hts 1 (Nat.le_refl 1) (ho.mono (Nat.zero_le 1)) hs,
    chain_stops ho _ (Nat.zero_lt_one)]

theorem reads_plain {ts : List Token} {j n : Nat} {e : Expr} (hd : Derives (.operation 1) j n ts e)
    (h : Reads (.operation 1) j n ts e) : Reads .expression 0 (n + 1) ts e := by
  intro room ps rest hps hr
  cases room with
  | zero => rfl
  | succ room =>
    have harrow := atArrow_eq_false hd (by simp) hps rest (hr.startsWith_eq_false (by decide))
    have htest := h.operation_ends room hps (hr.noOperatorAbove 0) hr.noSuffix
    have hquestion : startsWith .question rest = false := hr.startsWith_eq_false (by decide)
    rw [level_succ_expression, Level.enclosing, harrow, if_neg (by simp), conditional, htest,
      within_bind, within_succ]
    simp [hquestion]

theorem reads_conditional {ts us vs : List Token} {j n p q : Nat} {c a b : Expr}
    (hd : Derives (.operation 1) j n ts c) (hc : Reads (.operation 1) j n ts c)
    (ha : Reads .expression 0 p us a) (hb : Reads .expression 0 q vs b) :
    Reads .expression 0 (max n (max p q) + 1) (ts ++ .mark .question :: (us ++ .mark .colon :: vs))
      (.conditional c a b) := by
  intro room ps rest hps hr
  cases room with
  | zero => rfl
  | succ room =>
    obtain ⟨ts₁, ts₂, rfl, h₁, h₂⟩ := tokens_eq_append hps
    obtain ⟨c', ts₂, rfl, h₂'⟩ := tokens_eq_cons h₂
    obtain ⟨ts₂, ts₃, rfl, h₃, h₄⟩ := tokens_eq_append h₂'
    obtain ⟨c'', ts₃, rfl, h₅⟩ := tokens_eq_cons h₄
    have harrow := atArrow_eq_false hd (by simp) h₁
      (⟨.mark .question, c'⟩ :: (ts₂ ++ ⟨.mark .colon, c''⟩ :: (ts₃ ++ rest))) rfl
    have htest := hc.operation_ends room h₁
      (noOperatorAbove_cons (m := .question) rfl 0 c' (ts₂ ++ ⟨.mark .colon, c''⟩ :: (ts₃ ++ rest)))
      (noSuffix_cons (m := .question) (by decide) c' _)
    have hleft := ha room ts₂ _ h₃ (ends_cons (m := .colon) (by decide) c'' (ts₃ ++ rest))
    have hright := hb room ts₃ rest h₅ hr
    simp only [List.append_assoc, List.cons_append] at harrow htest hleft hright ⊢
    rw [level_succ_expression, Level.enclosing, harrow, if_neg (by simp), conditional, htest,
      within_bind, within_succ, ← within_within, ← within_within]
    simp only [ok_bind, startsWith_cons, decide_true, if_pos, List.tail_cons, hleft, within_bind,
      expect_mark, hright]

theorem within_add (k n room : Nat) (r : Except ParseError α) :
    within (k + n) (k + room) r = within n room r := by
  simp [within]

theorem within_links {j room : Nat} (h : room ≤ j) (n p : Nat) (r : Except ParseError α) :
    within (max n (j + 1 + p)) room r = within n room (.error (.nestingTooDeep nestingLimit)) := by
  rw [within_of_lt (by omega)]
  unfold within
  split <;> rfl

theorem reads_operand {ts : List Token} {n : Nat} {e : Expr} (h : Reads .unary 0 n ts e) :
    Reads (.operation 8) 0 n ts e := by
  intro room ps rest hps min _ _ hs
  rw [Level.operation, h room ps rest hps hs, within_bind]
  rfl

theorem reads_tighter {k j n : Nat} {ts : List Token} {e : Expr} (h : Reads (.operation (k + 1)) j n ts e) :
    Reads (.operation k) j n ts e := fun room ps rest hps min hm ho hs ↦
  h room ps rest hps min (Nat.le_succ_of_le hm) (ho.mono (Nat.le_succ k)) hs

theorem reads_join {k j n i p : Nat} {ts us : List Token} {m : Mark} {op : Operator} {l r : Expr}
    (hl : Reads (.operation k) j n ts l) (hm : Joins k m op) (hr : Reads (.operation (k + 1)) i p us r) :
    Reads (.operation k) (j + 1) (max n (j + 1 + p)) (ts ++ .mark m :: us) (op.apply l r) := by
  intro room ps rest hps min hmin ho hs
  obtain ⟨ts₁, ts₂, rfl, h₁, h₂⟩ := tokens_eq_append hps
  obtain ⟨c, ts₂, rfl, h₃⟩ := tokens_eq_cons h₂
  obtain ⟨hop, hlevel⟩ := operator?_of_joins hm
  have hleft := hl room ts₁ (⟨.mark m, c⟩ :: (ts₂ ++ rest)) h₁ min hmin
    (noOperatorAbove_of_joins hm c _) (noSuffix_of_joins hm c _)
  rw [List.append_assoc, List.cons_append, hleft]
  rcases Nat.lt_or_ge j room with hj | hj
  · -- the right operand ends here, since an operator that follows is of its level or below
    obtain ⟨room, rfl⟩ : ∃ s, room = j + 1 + s := ⟨room - (j + 1), by omega⟩
    have hright := hr room ts₂ rest h₃ (k + 1) (Nat.le_refl _) (ho.mono (Nat.le_succ k)) hs
    rw [chain_stops ho _ (Nat.lt_succ_self k)] at hright
    rw [show j + 1 + room - j = room + 1 by omega, show j + 1 + room - (j + 1) = room by omega,
      level_succ_chain, ← within_within, within_add, chain]
    simp only [hop, hlevel, if_neg (Nat.not_lt.mpr hmin), hright, within_bind, ok_bind]
  · rw [show room - j = 0 by omega, within_links hj, level_zero_chain, chain]
    simp only [hop, hlevel, if_neg (Nat.not_lt.mpr hmin)]
    rfl

theorem reads_lead {t : Token} {op : UnaryOp} {ts : List Token} {n : Nat} {e : Expr}
    (ht : Leads t op) (h : Reads .unary 0 n ts e) : Reads .unary 0 (n + 1) (t :: ts) (.unary op e) := by
  intro room ps rest hps hs
  obtain ⟨c, ps, rfl, h₁⟩ := tokens_eq_cons hps
  cases room with
  | zero => simp only [List.cons_append, level_zero_unary, unary, unaryOp?_of_leads ht]; rfl
  | succ room =>
    have hinner := h room ps rest h₁ hs
    simp only [List.cons_append, level_succ_unary, unary, unaryOp?_of_leads ht, hinner, within_bind,
      ok_bind, within_succ]

theorem unary_of_not_leads {t : Token} (ht : unaryOp? t = none) (room c : Nat) (ts : List Positioned) :
    (level room).unary (⟨t, c⟩ :: ts) =
      operand (level room).expression (level room).suffixes (⟨t, c⟩ :: ts) := by
  cases room with
  | zero => rw [level_zero_unary, unary, ht]
  | succ room => rw [level_succ_unary, unary, ht]

theorem unstarted_of_derives {kind : Kind} {j n : Nat} {us : List Token} {e : Expr}
    (h : Derives kind j n us e) (hk : kind = .suffixed ∨ kind = .primary) :
    ∃ t us', us = t :: us' ∧ unaryOp? t = none := by
  induction h with
  | arrow | plain | conditional | operand | tighter | join | lead | bare => simp at hk
  | alone _ ih => exact ih (.inr rfl)
  | member _ _ ih | index _ _ ih _ | call _ _ _ ih _ =>
    obtain ⟨t, us, rfl, ht⟩ := ih hk
    exact ⟨t, _, List.cons_append, ht⟩
  | atom ht =>
    refine ⟨_, _, rfl, ?_⟩
    cases ht with
    | name hs =>
      unfold unaryOp?
      split <;> simp_all
    | _ => rfl
  | parens | array | object => exact ⟨_, _, rfl, rfl⟩

theorem reads_bare {ts : List Token} {j n : Nat} {e : Expr} (hd : Derives .suffixed j n ts e)
    (h : Reads .suffixed j n ts e) : Reads .unary 0 n ts e := by
  intro room ps rest hps hs
  obtain ⟨t, us, hus, ht⟩ := unstarted_of_derives hd (.inl rfl)
  obtain ⟨c, ps', rfl, h'⟩ := tokens_eq_cons (hps.trans hus)
  have hoperand : operand (level room).expression (level room).suffixes (⟨t, c⟩ :: (ps' ++ rest)) =
    within n room ((level (room - j)).suffixes e rest) := h room _ rest hps
  rw [List.cons_append, unary_of_not_leads ht, hoperand, suffixes_stop hs]

theorem reads_alone {ts : List Token} {n : Nat} {e : Expr} (h : Reads .primary 0 n ts e) :
    Reads .suffixed 0 n ts e := by
  intro room ps rest hps
  have hprimary : primary (level room).expression (ps ++ rest) = within n room (.ok (e, rest)) :=
    h room ps rest hps
  simp only [operand, hprimary, within_bind, ok_bind, Nat.sub_zero]

theorem reads_link {ts us : List Token} {j n p : Nat} {e e' : Expr} (h : Reads .suffixed j n ts e)
    (hzero : ∀ ps rest, tokens ps = us → noSuffix e (ps ++ rest) = .error (.nestingTooDeep nestingLimit))
    (hsucc : ∀ room ps rest, tokens ps = us →
      suffixes (level room).expression (level room).suffixes e (ps ++ rest) =
        within p room ((level room).suffixes e' rest)) :
    Reads .suffixed (j + 1) (max n (j + 1 + p)) (ts ++ us) e' := by
  intro room ps rest hps
  obtain ⟨ts₁, ts₂, rfl, h₁, h₂⟩ := tokens_eq_append hps
  have hbefore : operand (level room).expression (level room).suffixes (ts₁ ++ (ts₂ ++ rest)) =
    within n room ((level (room - j)).suffixes e (ts₂ ++ rest)) := h room ts₁ (ts₂ ++ rest) h₁
  show operand (level room).expression (level room).suffixes (ts₁ ++ ts₂ ++ rest) = _
  rw [List.append_assoc, hbefore]
  rcases Nat.lt_or_ge j room with hj | hj
  · obtain ⟨room, rfl⟩ : ∃ s, room = j + 1 + s := ⟨room - (j + 1), by omega⟩
    rw [show j + 1 + room - j = room + 1 by omega, show j + 1 + room - (j + 1) = room by omega,
      level_succ_suffixes, hsucc room ts₂ rest h₂, ← within_within, within_add]
  · rw [show room - j = 0 by omega, within_links hj, level_zero_suffixes, hzero ts₂ rest h₂]

theorem reads_member {ts : List Token} {j n : Nat} {e : Expr} (property : String)
    (h : Reads .suffixed j n ts e) :
    Reads .suffixed (j + 1) (max n (j + 1)) (ts ++ [.mark .dot, .name property])
      (.member e property) := by
  refine reads_link (p := 0) h ?_ ?_
  · intro ps rest hps
    obtain ⟨c, ps, rfl, -⟩ := tokens_eq_cons hps
    rfl
  · intro room ps rest hps
    obtain ⟨c, ps, rfl, h₁⟩ := tokens_eq_cons hps
    obtain ⟨c', rfl⟩ := tokens_eq_singleton h₁
    rw [within_zero]
    rfl

theorem suffixes_leftBracket (expression : TokenParser Expr) (next : Expr → TokenParser Expr) (e : Expr)
    (c : Nat) (ts : List Positioned) :
    suffixes expression next e (⟨.mark .leftBracket, c⟩ :: ts) = (do
      let (key, ts) ← expression ts
      let ((), ts) ← expect .rightBracket ts
      next (.index e key) ts) := rfl

theorem suffixes_leftParen (expression : TokenParser Expr) (next : Expr → TokenParser Expr) (e : Expr)
    (c : Nat) (ts : List Positioned) :
    suffixes expression next e (⟨.mark .leftParen, c⟩ :: ts) = (do
      let (args, ts) ← list expression .rightParen ts
      next (.call e args) ts) := rfl

theorem reads_index {ts us : List Token} {j n p : Nat} {e key : Expr} (h : Reads .suffixed j n ts e)
    (hk : Reads .expression 0 p us key) :
    Reads .suffixed (j + 1) (max n (j + 1 + p))
      (ts ++ .mark .leftBracket :: (us ++ [.mark .rightBracket])) (.index e key) := by
  refine reads_link h ?_ ?_
  · intro ps rest hps
    obtain ⟨c, ps, rfl, -⟩ := tokens_eq_cons hps
    rfl
  · intro room ps rest hps
    obtain ⟨c, ps, rfl, h₁⟩ := tokens_eq_cons hps
    obtain ⟨ps₁, ps₂, rfl, h₂, h₃⟩ := tokens_eq_append h₁
    obtain ⟨c', rfl⟩ := tokens_eq_singleton h₃
    have hkey := hk room ps₁ _ h₂ (ends_cons (m := .rightBracket) (by decide) c' rest)
    rw [List.cons_append, List.append_assoc, List.singleton_append, suffixes_leftBracket, hkey,
      within_bind]
    simp only [ok_bind, expect_mark]

theorem reads_call {ts us : List Token} {j n : Nat} {e : Expr} {args : List (Phrase Expr)}
    (h : Reads .suffixed j n ts e)
    (ha : ∀ x ∈ args, ∀ room, ReadsItem (level room).expression room x)
    (hl : Listed .rightParen (args.map (·.tokens)) us) :
    Reads .suffixed (j + 1) (max n (j + 1 + deepest args)) (ts ++ .mark .leftParen :: us)
      (.call e (args.map (·.tree))) := by
  refine reads_link h ?_ ?_
  · intro ps rest hps
    obtain ⟨c, ps, rfl, -⟩ := tokens_eq_cons hps
    rfl
  · intro room ps rest hps
    obtain ⟨c, ps, rfl, h₁⟩ := tokens_eq_cons hps
    have hargs := list_of_listed (by decide) (fun x hx ↦ ha x hx room) hl h₁ rest
    rw [List.cons_append, suffixes_leftParen, hargs, within_bind, ok_bind]

theorem ofName?_of_atom {s : String} {e : Expr} (h : Atom (.name s) e) : ofName? s = some e := by
  cases h with
  | name hs =>
    unfold ofName?
    split <;> simp_all
  | _ => rfl

theorem reads_atom {t : Token} {e : Expr} (ht : Atom t e) : Reads .primary 0 0 [t] e := by
  intro room ps rest hps
  change primary (level room).expression (ps ++ rest) = _
  obtain ⟨c, rfl⟩ := tokens_eq_singleton hps
  rw [within_zero]
  cases t with
  | number x => cases ht; rfl
  | string s => cases ht; rfl
  | name s => simp only [List.singleton_append, primary, ofName?_of_atom ht]
  | mark m => cases ht

theorem reads_parens {ts : List Token} {n : Nat} {e : Expr} (h : Reads .expression 0 n ts e) :
    Reads .primary 0 n (.mark .leftParen :: (ts ++ [.mark .rightParen])) e := by
  intro room ps rest hps
  change primary (level room).expression (ps ++ rest) = _
  obtain ⟨c, ps, rfl, h₁⟩ := tokens_eq_cons hps
  obtain ⟨ps₁, ps₂, rfl, h₂, h₃⟩ := tokens_eq_append h₁
  obtain ⟨c', rfl⟩ := tokens_eq_singleton h₃
  have hinside := h room ps₁ _ h₂ (ends_cons (m := .rightParen) (by decide) c' rest)
  rw [List.cons_append, List.append_assoc, List.singleton_append, primary]
  simp only [hinside, within_bind, ok_bind, expect_mark]

theorem reads_array {us : List Token} {xs : List (Phrase Expr)}
    (hx : ∀ x ∈ xs, ∀ room, ReadsItem (level room).expression room x)
    (hl : Listed .rightBracket (xs.map (·.tokens)) us) :
    Reads .primary 0 (deepest xs) (.mark .leftBracket :: us) (.array (xs.map (·.tree))) := by
  intro room ps rest hps
  change primary (level room).expression (ps ++ rest) = _
  obtain ⟨c, ps, rfl, h₁⟩ := tokens_eq_cons hps
  have hitems := list_of_listed (by decide) (fun x h ↦ hx x h room) hl h₁ rest
  rw [List.cons_append, primary]
  simp only [hitems, within_bind, ok_bind]

theorem readsItem_member {room : Nat} {m : Entry} (hk : Key m.key m.name)
    (h : ReadsItem (level room).expression room m.value) :
    ReadsItem (member (level room).expression) room m.phrase := by
  obtain ⟨key, name, value⟩ := m
  replace hk : Key key name := hk
  refine ⟨⟨key, _, rfl, by cases hk <;> rfl⟩, fun ts rest hts hr ↦ ?_⟩
  obtain ⟨c, ts, rfl, h₁⟩ := tokens_eq_cons hts
  obtain ⟨c', ts, rfl, h₂⟩ := tokens_eq_cons h₁
  have hvalue := h.2 ts rest h₂ hr
  have hname : TokenParser.key (⟨key, c⟩ :: ⟨.mark .colon, c'⟩ :: (ts ++ rest)) =
      .ok (name, ⟨.mark .colon, c'⟩ :: (ts ++ rest)) := by
    cases hk <;> rfl
  simp only [List.cons_append, member, hname, ok_bind, expect_mark, hvalue, within_bind, Entry.phrase]

theorem reads_object {us : List Token} {ms : List Entry} (hk : ∀ m ∈ ms, Key m.key m.name)
    (hm : ∀ m ∈ ms, ∀ room, ReadsItem (level room).expression room m.value)
    (hl : Listed .rightBrace (ms.map (·.phrase.tokens)) us) :
    Reads .primary 0 (deepest (ms.map (·.phrase))) (.mark .leftBrace :: us)
      (.object (ms.map (·.phrase.tree))) := by
  intro room ps rest hps
  change primary (level room).expression (ps ++ rest) = _
  obtain ⟨c, ps, rfl, h₁⟩ := tokens_eq_cons hps
  have hmember : ∀ x ∈ ms.map (·.phrase), ReadsItem (member (level room).expression) room x := by
    intro x hx
    obtain ⟨m, h, rfl⟩ := List.mem_map.mp hx
    exact readsItem_member (hk m h) (hm m h room)
  have hl' : Listed .rightBrace ((ms.map (·.phrase)).map (·.tokens)) us := by
    rw [List.map_map]
    exact hl
  have hitems := list_of_listed (by decide) hmember hl' h₁ rest
  rw [List.cons_append, primary]
  simp only [hitems, within_bind, ok_bind, List.map_map, Function.comp_def]

/-- The parser follows every derivation. -/
theorem reads_of_derives {kind : Kind} {j n : Nat} {us : List Token} {e : Expr}
    (h : Derives kind j n us e) : Reads kind j n us e := by
  induction h with
  | arrow hp _ ih => exact reads_arrow hp ih
  | plain hd ih => exact reads_plain hd ih
  | conditional hd _ _ ihc iha ihb => exact reads_conditional hd ihc iha ihb
  | operand _ ih => exact reads_operand ih
  | tighter _ ih => exact reads_tighter ih
  | join _ hm _ ihl ihr => exact reads_join ihl hm ihr
  | lead ht _ ih => exact reads_lead ht ih
  | bare hd ih => exact reads_bare hd ih
  | alone _ ih => exact reads_alone ih
  | member property _ ih => exact reads_member property ih
  | index _ _ ihe ihk => exact reads_index ihe ihk
  | call _ ha hl ihe iha => exact reads_call ihe (fun x hx ↦ Reads.item (iha x hx) (ha x hx)) hl
  | atom ht => exact reads_atom ht
  | parens _ ih => exact reads_parens ih
  | array hx hl ih => exact reads_array (fun x h ↦ Reads.item (ih x h) (hx x h)) hl
  | object hk hm hl ih => exact reads_object hk (fun m h ↦ Reads.item (ih m h) (hm m h)) hl

end TemplatedForms.TokenParser
