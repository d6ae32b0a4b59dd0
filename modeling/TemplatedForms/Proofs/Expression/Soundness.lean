import TemplatedForms.Proofs.Expression.Completeness

namespace TemplatedForms.TokenParser

open Grammar

variable {α β : Type}

theorem ok_of_bind {r : Except ParseError α} {f : α → Except ParseError β} {b : β}
    (h : (r >>= f) = .ok b) : ∃ a, r = .ok a ∧ f a = .ok b := by
  cases r with
  | error x => cases h
  | ok a => exact ⟨a, rfl, h⟩

theorem startsWith_inv {m : Mark} {ts : List Positioned} (h : startsWith m ts = true) :
    ∃ c ts', ts = ⟨.mark m, c⟩ :: ts' := by
  cases ts with
  | nil => cases h
  | cons t ts =>
    obtain ⟨t, c⟩ := t
    obtain rfl : t = .mark m := of_decide_eq_true h
    exact ⟨c, ts, rfl⟩

theorem expect_inv {m : Mark} {ts rest : List Positioned} {u : Unit} (h : expect m ts = .ok (u, rest)) :
    ∃ c, ts = ⟨.mark m, c⟩ :: rest := by
  cases ts with
  | nil => cases h
  | cons t ts =>
    rw [expect] at h
    split at h
    · next ht =>
      obtain ⟨t, c⟩ := t
      obtain rfl : t = .mark m := ht
      cases h
      exact ⟨c, rfl⟩
    · cases h

theorem joins_of_operator? {t : Token} {op : Operator} (h : operator? t = some op) :
    ∃ m, t = .mark m ∧ Joins op.level m op := by
  unfold operator? at h
  split at h <;> cases h <;> exact ⟨_, rfl, by constructor⟩

theorem leads_of_unaryOp? {t : Token} {op : UnaryOp} (h : unaryOp? t = some op) : Leads t op := by
  unfold unaryOp? at h
  split at h <;> cases h <;> constructor

theorem atom_of_ofName? {s : String} {e : Expr} (h : ofName? s = some e) (ht : s ≠ "typeof") :
    Atom (.name s) e := by
  unfold ofName? at h
  split at h
  · cases h
    exact .true
  · cases h
    exact .false
  · cases h
    exact .null
  · cases h
    exact .undefined
  · cases h
  · cases h
    exact .name (by simp_all)

def Reading {ι : Type} (phrase : ι → Phrase α) (P : ι → Prop) (ts : List Positioned) (a : α)
    (rest : List Positioned) : Prop :=
  ∃ pre i, ts = pre ++ rest ∧ tokens pre = (phrase i).tokens ∧ a = (phrase i).tree ∧ P i

def ReadsOnly {ι : Type} (p : TokenParser α) (phrase : ι → Phrase α) (P : ι → Prop) : Prop :=
  ∀ ts a rest, p ts = .ok (a, rest) → Reading phrase P ts a rest

theorem items_inv {ι : Type} {item : TokenParser α} {phrase : ι → Phrase α} {P : ι → Prop}
    (hi : ReadsOnly item phrase P) {closing : Mark} {fuel : Nat} {found as : List α}
    {ts rest : List Positioned} (h : items item closing fuel found ts = .ok (as, rest)) :
    ∃ pre, ∃ is : List ι, ts = pre ++ rest ∧ Listed closing (is.map fun i ↦ (phrase i).tokens) (tokens pre) ∧
      as = found.reverse ++ is.map (fun i ↦ (phrase i).tree) ∧ ∀ i ∈ is, P i := by
  induction fuel generalizing found ts with
  | zero => cases h
  | succ fuel ih =>
    rw [items] at h
    split at h
    · next hclose =>
      obtain ⟨c, ts, rfl⟩ := startsWith_inv hclose
      cases h
      exact ⟨[⟨.mark closing, c⟩], [], rfl, .none, by simp, by simp⟩
    · obtain ⟨⟨a, ts₁⟩, ha, h⟩ := ok_of_bind h
      obtain ⟨pre, i, rfl, hpre, rfl, hP⟩ := hi _ _ _ ha
      dsimp only at h
      split at h
      · next hclose =>
        obtain ⟨c, ts, rfl⟩ := startsWith_inv hclose
        cases h
        refine ⟨pre ++ [⟨.mark closing, c⟩], [i], by simp, ?_, by simp, by simpa using hP⟩
        rw [tokens_append, hpre]
        exact .last _
      · obtain ⟨⟨u, ts₂⟩, hcomma, h⟩ := ok_of_bind h
        obtain ⟨c, rfl⟩ := expect_inv hcomma
        obtain ⟨pre', is, rfl, hl, rfl, hPs⟩ := ih h
        refine ⟨pre ++ ⟨.mark .comma, c⟩ :: pre', i :: is, by simp, ?_, by simp, ?_⟩
        · rw [tokens_append, tokens_cons, hpre]
          exact .next _ hl
        · exact List.forall_mem_cons.mpr ⟨hP, hPs⟩

theorem list_inv {ι : Type} {item : TokenParser α} {phrase : ι → Phrase α} {P : ι → Prop}
    (hi : ReadsOnly item phrase P) {closing : Mark} {as : List α} {ts rest : List Positioned}
    (h : list item closing ts = .ok (as, rest)) :
    ∃ pre, ∃ is : List ι, ts = pre ++ rest ∧ Listed closing (is.map fun i ↦ (phrase i).tokens) (tokens pre) ∧
      as = is.map (fun i ↦ (phrase i).tree) ∧ ∀ i ∈ is, P i :=
  items_inv hi h

theorem deepest_le {xs : List (Phrase α)} {room : Nat} (h : ∀ x ∈ xs, x.nesting ≤ room) :
    deepest xs ≤ room := by
  induction xs with
  | nil => exact Nat.zero_le room
  | cons x xs ih =>
    obtain ⟨hx, hxs⟩ := List.forall_mem_cons.mp h
    exact Nat.max_le.mpr ⟨hx, ih hxs⟩

theorem readsOnly_param : ReadsOnly param (fun s ↦ ⟨0, [.name s], s⟩) fun _ ↦ True := by
  intro ts s rest h
  cases ts with
  | nil => cases h
  | cons t ts =>
    obtain ⟨t, c⟩ := t
    cases t with
    | name s' =>
      cases h
      exact ⟨[⟨.name s, c⟩], s, rfl, rfl, rfl, trivial⟩
    | _ => cases h

theorem params_inv {ts rest : List Positioned} {ss : List String} (h : params ts = .ok (ss, rest)) :
    ∃ pre, ts = pre ++ rest ∧ Params ss (tokens pre) := by
  rw [params] at h
  split at h
  · next hparen =>
    obtain ⟨c, ts, rfl⟩ := startsWith_inv hparen
    obtain ⟨pre, is, hts, hlist, rfl, -⟩ := list_inv readsOnly_param h
    rw [List.tail_cons] at hts
    rw [hts, List.map_id']
    exact ⟨⟨.mark .leftParen, c⟩ :: pre, rfl, .listed hlist⟩
  · cases hparam : param ts with
    | error x =>
      rw [hparam] at h
      cases h
    | ok r =>
      obtain ⟨s, ts₁⟩ := r
      rw [hparam] at h
      cases h
      obtain ⟨pre, s, rfl, hpre, rfl, -⟩ := readsOnly_param _ _ _ hparam
      refine ⟨pre, rfl, ?_⟩
      rw [hpre]
      exact .one s

theorem key_inv {ts rest : List Positioned} {name : String} (h : key ts = .ok (name, rest)) :
    ∃ t c, ts = ⟨t, c⟩ :: rest ∧ Key t name := by
  unfold key at h
  split at h
  · cases h
    exact ⟨_, _, rfl, .name _⟩
  · cases h
    exact ⟨_, _, rfl, .string _⟩
  · cases h
    exact ⟨_, _, rfl, .number _⟩
  · cases h

def IsExpression (room : Nat) (x : Phrase Expr) : Prop :=
  x.nesting ≤ room ∧ Derives .expression 0 x.nesting x.tokens x.tree

section

variable {room : Nat} {expression : TokenParser Expr}
  (he : ReadsOnly expression id (IsExpression room))

include he

theorem list_expression_inv {closing : Mark} {es : List Expr} {ts rest : List Positioned}
    (h : list expression closing ts = .ok (es, rest)) :
    ∃ pre, ∃ xs : List (Phrase Expr), ts = pre ++ rest ∧
      Listed closing (xs.map (·.tokens)) (tokens pre) ∧ es = xs.map (·.tree) ∧
      (∀ x ∈ xs, Derives .expression 0 x.nesting x.tokens x.tree) ∧ deepest xs ≤ room := by
  obtain ⟨pre, xs, rfl, hlist, rfl, hxs⟩ := list_inv he h
  exact ⟨pre, xs, rfl, hlist, rfl, fun x hx ↦ (hxs x hx).2, deepest_le fun x hx ↦ (hxs x hx).1⟩

theorem member_inv :
    ReadsOnly (member expression) Entry.phrase fun m ↦ Key m.key m.name ∧ IsExpression room m.value := by
  intro ts ⟨name, e⟩ rest h
  obtain ⟨⟨s, ts₁⟩, hkey, h₁⟩ := ok_of_bind h
  obtain ⟨⟨u, ts₂⟩, hcolon, h₂⟩ := ok_of_bind h₁
  obtain ⟨⟨e', ts₃⟩, hvalue, h₃⟩ := ok_of_bind h₂
  cases h₃
  obtain ⟨t, c, rfl, ht⟩ := key_inv hkey
  obtain ⟨c', rfl⟩ := expect_inv hcolon
  obtain ⟨pre, x, rfl, hpre, rfl, hx⟩ := he _ _ _ hvalue
  refine ⟨⟨t, c⟩ :: ⟨.mark .colon, c'⟩ :: pre, ⟨t, name, x⟩, rfl, ?_, rfl, ht, hx⟩
  rw [tokens_cons, tokens_cons, hpre]
  rfl

theorem list_member_inv {ms : List (String × Expr)} {ts rest : List Positioned}
    (h : list (member expression) .rightBrace ts = .ok (ms, rest)) :
    ∃ pre, ∃ es : List Entry, ts = pre ++ rest ∧
      Listed .rightBrace (es.map (·.phrase.tokens)) (tokens pre) ∧ ms = es.map (·.phrase.tree) ∧
      (∀ m ∈ es, Key m.key m.name) ∧
      (∀ m ∈ es, Derives .expression 0 m.value.nesting m.value.tokens m.value.tree) ∧
      deepest (es.map (·.phrase)) ≤ room := by
  obtain ⟨pre, es, rfl, hlist, rfl, hes⟩ := list_inv (member_inv he) h
  refine ⟨pre, es, rfl, hlist, rfl, fun m hm ↦ (hes m hm).1, fun m hm ↦ (hes m hm).2.2, ?_⟩
  refine deepest_le fun x hx ↦ ?_
  obtain ⟨m, hm, rfl⟩ := List.mem_map.mp hx
  exact (hes m hm).2.1

theorem primary_inv {t : Positioned} {ts rest : List Positioned} {e : Expr}
    (ht : unaryOp? t.token = none) (h : primary expression (t :: ts) = .ok (e, rest)) :
    ∃ pre n, t :: ts = pre ++ rest ∧ n ≤ room ∧ Derives .primary 0 n (tokens pre) e := by
  obtain ⟨t, c⟩ := t
  cases t with
  | number x =>
    cases h
    exact ⟨[⟨.number x, c⟩], 0, rfl, Nat.zero_le room, .atom (.number x)⟩
  | string s =>
    cases h
    exact ⟨[⟨.string s, c⟩], 0, rfl, Nat.zero_le room, .atom (.string s)⟩
  | name s =>
    have hs : s ≠ "typeof" := by
      rintro rfl
      cases ht
    simp only [primary] at h
    split at h
    · next hname =>
      cases h
      exact ⟨[⟨.name s, c⟩], 0, rfl, Nat.zero_le room, .atom (atom_of_ofName? hname hs)⟩
    · cases h
  | mark m =>
    cases m with
    | leftParen =>
      obtain ⟨⟨e', ts₁⟩, hinside, h₁⟩ := ok_of_bind h
      obtain ⟨⟨u, ts₂⟩, hparen, h₂⟩ := ok_of_bind h₁
      obtain ⟨c', rfl⟩ := expect_inv hparen
      cases h₂
      obtain ⟨pre, x, rfl, hpre, rfl, hn, hd⟩ := he _ _ _ hinside
      refine ⟨⟨.mark .leftParen, c⟩ :: (pre ++ [⟨.mark .rightParen, c'⟩]), x.nesting, by simp, hn, ?_⟩
      simpa [hpre] using hd.parens
    | leftBracket =>
      obtain ⟨⟨es, ts₁⟩, hes, h₁⟩ := ok_of_bind h
      cases h₁
      obtain ⟨pre, xs, rfl, hlist, rfl, hd, hn⟩ := list_expression_inv he hes
      exact ⟨⟨.mark .leftBracket, c⟩ :: pre, _, rfl, hn, .array hd hlist⟩
    | leftBrace =>
      obtain ⟨⟨ms, ts₁⟩, hms, h₁⟩ := ok_of_bind h
      cases h₁
      obtain ⟨pre, es, rfl, hlist, rfl, hk, hd, hn⟩ := list_member_inv he hms
      exact ⟨⟨.mark .leftBrace, c⟩ :: pre, _, rfl, hn, .object hk hd hlist⟩
    | _ => cases h

end

def ReadsOperand (room : Nat) (p : TokenParser Expr) : Prop :=
  ∀ ts e rest, p ts = .ok (e, rest) →
    ∃ pre n, ts = pre ++ rest ∧ n ≤ room ∧ Derives .unary 0 n (tokens pre) e

/-- Whatever is read behind an operation makes it longer, and no operator that belongs to it is left. -/
def ExtendsOperation (room : Nat) (next : Nat → Expr → TokenParser Expr) : Prop :=
  ∀ {min k j n us left ts e rest}, Derives (.operation k) j n us left → n ≤ j + room → min < k →
    NoOperatorAbove k ts → next (min + 1) left ts = .ok (e, rest) →
    ∃ pre i p, ts = pre ++ rest ∧ p ≤ j + room ∧
      Derives (.operation (min + 1)) i p (us ++ tokens pre) e ∧ NoOperatorAbove min rest

def ExtendsSuffixes (room : Nat) (next : Expr → TokenParser Expr) : Prop :=
  ∀ {j n us left ts e rest}, Derives .suffixed j n us left → n ≤ j + room →
    next left ts = .ok (e, rest) →
    ∃ pre i p, ts = pre ++ rest ∧ p ≤ j + room ∧ Derives .suffixed i p (us ++ tokens pre) e

structure Level.Sound (room : Nat) (l : Level) : Prop where
  expression : ReadsOnly l.expression id (IsExpression room)
  unary : ReadsOperand room l.unary
  chain : ExtendsOperation room l.chain
  suffixes : ExtendsSuffixes room l.suffixes

theorem operator_level_le (op : Operator) : op.level ≤ 7 := by
  rcases op with op | op <;> cases op <;> decide

theorem noOperatorAbove_top (ts : List Positioned) : NoOperatorAbove 8 ts := by
  cases ts with
  | nil => trivial
  | cons t ts => exact fun op _ ↦ Nat.le_succ_of_le (operator_level_le op)

theorem Level.Sound.operation {room : Nat} {l : Level} (hl : l.Sound room) {min : Nat} (hm : min < 8)
    {ts rest : List Positioned} {e : Expr} (h : l.operation (min + 1) ts = .ok (e, rest)) :
    ∃ pre j n, ts = pre ++ rest ∧ n ≤ room ∧ Derives (.operation (min + 1)) j n (tokens pre) e ∧
      NoOperatorAbove min rest := by
  obtain ⟨⟨left, ts₁⟩, hleft, hchain⟩ := ok_of_bind h
  obtain ⟨pre, n, rfl, hn, hd⟩ := hl.unary _ _ _ hleft
  obtain ⟨pre', j, p, rfl, hp, hd', ho⟩ :=
    hl.chain hd.operand (by omega) hm (noOperatorAbove_top _) hchain
  exact ⟨pre ++ pre', j, p, by simp, by omega, tokens_append pre pre' ▸ hd', ho⟩

theorem chain_inv {inner : Nat → TokenParser Expr} {next : Nat → Expr → TokenParser Expr} {min : Nat}
    {left e : Expr} {ts rest : List Positioned}
    (h : chain inner next (min + 1) left ts = .ok (e, rest)) :
    (left, ts) = (e, rest) ∧ NoOperatorAbove min ts ∨
      ∃ m op c ts' right ts'', ts = ⟨.mark m, c⟩ :: ts' ∧ Joins op.level m op ∧ min < op.level ∧
        inner (op.level + 1) ts' = .ok (right, ts'') ∧
        next (min + 1) (op.apply left right) ts'' = .ok (e, rest) := by
  cases ts with
  | nil => exact .inl ⟨Except.ok.inj h, trivial⟩
  | cons t ts =>
    rw [chain] at h
    split at h
    · next op hop =>
      split at h
      · next hlt =>
        refine .inl ⟨Except.ok.inj h, fun op' hop' ↦ ?_⟩
        obtain rfl := Option.some.inj (hop.symm.trans hop')
        exact Nat.le_of_lt_succ hlt
      · next hge =>
        obtain ⟨⟨right, ts'⟩, hright, hnext⟩ := ok_of_bind h
        obtain ⟨t, c⟩ := t
        obtain ⟨m, rfl, hm⟩ := joins_of_operator? hop
        exact .inr ⟨m, op, c, ts, right, ts', rfl, hm, by omega, hright, hnext⟩
    · next hop =>
      refine .inl ⟨Except.ok.inj h, fun op' hop' ↦ ?_⟩
      rw [hop] at hop'
      cases hop'

theorem chain_ends {room min k j n : Nat} {us : List Token} {left e : Expr} {ts rest : List Positioned}
    (hd : Derives (.operation k) j n us left) (hn : n ≤ j + room) (hm : min < k)
    (h : (left, ts) = (e, rest) ∧ NoOperatorAbove min ts) :
    ∃ pre i p, ts = pre ++ rest ∧ p ≤ j + room ∧
      Derives (.operation (min + 1)) i p (us ++ tokens pre) e ∧ NoOperatorAbove min rest := by
  obtain ⟨⟨⟩, ho⟩ := h
  exact ⟨[], j, n, rfl, hn, by simpa using hd.loosen hm, ho⟩

theorem suffixes_end {room j n : Nat} {us : List Token} {left e : Expr} {ts rest : List Positioned}
    (hd : Derives .suffixed j n us left) (hn : n ≤ j + room)
    (h : (.ok (left, ts) : Except ParseError _) = .ok (e, rest)) :
    ∃ pre i p, ts = pre ++ rest ∧ p ≤ j + room ∧ Derives .suffixed i p (us ++ tokens pre) e := by
  cases h
  exact ⟨[], j, n, rfl, hn, by simpa using hd⟩

theorem extendsSuffixes_noSuffix : ExtendsSuffixes 0 noSuffix := by
  intro j n us left ts e rest hd hn h
  cases ts with
  | nil => exact suffixes_end hd hn h
  | cons t ts =>
    rw [noSuffix] at h
    split at h
    · cases h
    · cases h
    · cases h
    · exact suffixes_end hd hn h

theorem readsOperand_unary {room : Nat} {inner : TokenParser Expr}
    (hi : ∀ ts e rest, inner ts = .ok (e, rest) →
      ∃ pre n, ts = pre ++ rest ∧ n < room ∧ Derives .unary 0 n (tokens pre) e)
    {expression : TokenParser Expr} (he : ReadsOnly expression id (IsExpression room))
    {next : Expr → TokenParser Expr} (hs : ExtendsSuffixes room next) :
    ReadsOperand room (unary inner (operand expression next)) := by
  intro ts e rest h
  cases ts with
  | nil => cases h
  | cons t ts =>
    rw [unary] at h
    split at h
    · next op hop =>
      obtain ⟨⟨e', ts'⟩, hinner, h₁⟩ := ok_of_bind h
      cases h₁
      obtain ⟨pre, n, rfl, hn, hd⟩ := hi _ _ _ hinner
      exact ⟨t :: pre, n + 1, rfl, hn, .lead (leads_of_unaryOp? hop) hd⟩
    · next hop =>
      obtain ⟨⟨e', ts'⟩, hprimary, hnext⟩ := ok_of_bind h
      obtain ⟨pre, n, hts, hn, hd⟩ := primary_inv he hop hprimary
      obtain ⟨pre', j, p, rfl, hp, hd'⟩ := hs hd.alone (by omega) hnext
      refine ⟨pre ++ pre', p, by simpa using hts, by omega, ?_⟩
      rw [tokens_append]
      exact hd'.bare

theorem readsOnly_tooDeep {ι : Type} (phrase : ι → Phrase α) (P : ι → Prop) :
    ReadsOnly tooDeep phrase P := by
  intro ts a rest h
  cases h

theorem extendsOperation_tooDeep :
    ExtendsOperation 0 (chain (fun _ ↦ tooDeep) fun _ _ ↦ tooDeep) := by
  intro min k j n us left ts e rest hd hn hm ho h
  rcases chain_inv h with hend | ⟨m, op, c, ts', right, ts'', rfl, -, -, hright, -⟩
  · exact chain_ends hd hn hm hend
  · cases hright

theorem sound_zero : (level 0).Sound 0 where
  expression := readsOnly_tooDeep id (IsExpression 0)
  unary := readsOperand_unary (fun _ _ _ h ↦ by cases h) (readsOnly_tooDeep id (IsExpression 0))
    extendsSuffixes_noSuffix
  chain := extendsOperation_tooDeep
  suffixes := extendsSuffixes_noSuffix

section

variable {room : Nat} {l : Level} (hl : l.Sound room)

include hl

theorem extendsOperation_chain : ExtendsOperation (room + 1) (chain l.operation l.chain) := by
  intro min k j n us left ts e rest hd hn hm ho h
  rcases chain_inv h with hend | ⟨m, op, c, ts', right, ts'', rfl, hjoins, hlt, hright, hnext⟩
  · exact chain_ends hd hn hm hend
  · -- the right operand takes all operators above this one, so that the next one is free to join
    have hlevel : op.level ≤ k := ho op (operator?_of_joins hjoins).1
    obtain ⟨pre, i, p, rfl, hp, hdr, hor⟩ :=
      hl.operation (Nat.lt_succ_of_le (operator_level_le op)) hright
    have hjoin := (hd.loosen hlevel).join hjoins hdr
    obtain ⟨pre', i', p', rfl, hp', hd', ho'⟩ := hl.chain hjoin (by omega) hlt hor hnext
    refine ⟨⟨.mark m, c⟩ :: (pre ++ pre'), i', p', by simp, by omega, ?_, ho'⟩
    simpa using hd'

theorem extendsSuffixes_suffixes : ExtendsSuffixes (room + 1) (suffixes l.expression l.suffixes) := by
  intro j n us left ts e rest hd hn h
  -- The suffix before `ts₁` is a link of its own, and the string goes on from it.
  have hlink (pre : List Positioned) {ts₁ : List Positioned} {p : Nat} {e' : Expr} (hp : p ≤ j + 1 + room)
      (hd' : Derives .suffixed (j + 1) p (us ++ tokens pre) e')
      (h' : l.suffixes e' ts₁ = .ok (e, rest)) :
      ∃ pre' i p, pre ++ ts₁ = pre' ++ rest ∧ p ≤ j + (room + 1) ∧
        Derives .suffixed i p (us ++ tokens pre') e := by
    obtain ⟨pre', i, q, rfl, hq, hd''⟩ := hl.suffixes hd' hp h'
    exact ⟨pre ++ pre', i, q, by simp, by omega, by simpa using hd''⟩
  cases ts with
  | nil => exact suffixes_end hd hn h
  | cons t ts =>
    obtain ⟨t, c⟩ := t
    cases t with
    | mark m =>
      cases m with
      | dot =>
        match ts with
        | ⟨.name property, c'⟩ :: ts =>
          exact hlink [⟨.mark .dot, c⟩, ⟨.name property, c'⟩] (by omega)
            (hd.member property) h
        | [] | ⟨.number _, _⟩ :: _ | ⟨.string _, _⟩ :: _ | ⟨.mark _, _⟩ :: _ => cases h
      | leftBracket =>
        rw [suffixes_leftBracket] at h
        obtain ⟨⟨key, ts₁⟩, hkey, h₁⟩ := ok_of_bind h
        obtain ⟨⟨u, ts₂⟩, hbracket, h₂⟩ := ok_of_bind h₁
        obtain ⟨c', rfl⟩ := expect_inv hbracket
        obtain ⟨pre, x, rfl, hpre, rfl, hx, hdx⟩ := hl.expression _ _ _ hkey
        have hd' := hd.index hdx
        rw [show pre ++ ⟨.mark .rightBracket, c'⟩ :: ts₂ = (pre ++ [⟨.mark .rightBracket, c'⟩]) ++ ts₂ by simp]
        exact hlink (⟨.mark .leftBracket, c⟩ :: (pre ++ [⟨.mark .rightBracket, c'⟩]))
          (p := max n (j + 1 + x.nesting)) (by omega) (by simpa [hpre] using hd') h₂
      | leftParen =>
        rw [suffixes_leftParen] at h
        obtain ⟨⟨es, ts₁⟩, hes, h₁⟩ := ok_of_bind h
        obtain ⟨pre, xs, rfl, hlist, rfl, hdx, hx⟩ := list_expression_inv hl.expression hes
        exact hlink (⟨.mark .leftParen, c⟩ :: pre) (by omega) (hd.call hdx hlist) h₁
      | _ => exact suffixes_end hd hn h
    | _ => exact suffixes_end hd hn h

theorem arrow_inv {ts rest : List Positioned} {e : Expr} (h : arrow l.expression ts = .ok (e, rest)) :
    ∃ pre n, ts = pre ++ rest ∧ n ≤ room ∧ Derives .expression 0 (n + 1) (tokens pre) e := by
  obtain ⟨⟨ss, ts₁⟩, hparams, h₁⟩ := ok_of_bind h
  obtain ⟨⟨u, ts₂⟩, harrow, h₂⟩ := ok_of_bind h₁
  obtain ⟨⟨e', ts₃⟩, hbody, h₃⟩ := ok_of_bind h₂
  cases h₃
  obtain ⟨pre, rfl, hp⟩ := params_inv hparams
  obtain ⟨c, rfl⟩ := expect_inv harrow
  obtain ⟨pre', x, rfl, hpre, rfl, hx, hd⟩ := hl.expression _ _ _ hbody
  refine ⟨pre ++ ⟨.mark .arrow, c⟩ :: pre', x.nesting, by simp, hx, ?_⟩
  rw [tokens_append, tokens_cons, hpre]
  exact .arrow hp hd

theorem readsOnly_enclosing : ReadsOnly l.enclosing id (IsExpression (room + 1)) := by
  intro ts e rest h
  unfold Level.enclosing at h
  split at h
  · obtain ⟨pre, n, rfl, hn, hd⟩ := arrow_inv hl h
    exact ⟨pre, ⟨n + 1, tokens pre, e⟩, rfl, rfl, rfl, Nat.succ_le_succ hn, hd⟩
  · obtain ⟨⟨c, ts₁⟩, htest, h₁⟩ := ok_of_bind h
    obtain ⟨pre, j, n, rfl, hn, hd, -⟩ := hl.operation (by decide) htest
    dsimp only at h₁
    split at h₁
    · next hquestion =>
      obtain ⟨col, ts, rfl⟩ := startsWith_inv hquestion
      obtain ⟨⟨a, ts₂⟩, ha, h₂⟩ := ok_of_bind h₁
      obtain ⟨⟨u, ts₃⟩, hcolon, h₃⟩ := ok_of_bind h₂
      obtain ⟨col', rfl⟩ := expect_inv hcolon
      obtain ⟨⟨b, ts₄⟩, hb, h₄⟩ := ok_of_bind h₃
      cases h₄
      obtain ⟨pre₁, x, hx, hpre₁, rfl, hnx, hdx⟩ := hl.expression _ _ _ ha
      obtain ⟨pre₂, y, rfl, hpre₂, rfl, hny, hdy⟩ := hl.expression _ _ _ hb
      rw [List.tail_cons] at hx
      subst hx
      have hd' := hd.conditional hdx hdy
      refine ⟨pre ++ ⟨.mark .question, col⟩ :: (pre₁ ++ ⟨.mark .colon, col'⟩ :: pre₂),
        ⟨_, _, _⟩, by simp, ?_, rfl, ?_, hd'⟩
      · simp [hpre₁, hpre₂]
      · dsimp only
        omega
    · cases h₁
      exact ⟨pre, ⟨n + 1, tokens pre, e⟩, rfl, rfl, rfl, Nat.succ_le_succ hn, hd.plain⟩

end

theorem sound (room : Nat) : (level room).Sound room := by
  induction room with
  | zero => exact sound_zero
  | succ room ih =>
    have he := readsOnly_enclosing ih
    have hs : ExtendsSuffixes (room + 1) (level (room + 1)).suffixes := extendsSuffixes_suffixes ih
    refine ⟨he, readsOperand_unary (fun ts e rest h ↦ ?_) he hs, extendsOperation_chain ih, hs⟩
    obtain ⟨pre, n, rfl, hn, hd⟩ := ih.unary _ _ _ h
    exact ⟨pre, n, rfl, Nat.lt_succ_of_le hn, hd⟩

end TemplatedForms.TokenParser
