import TemplatedForms.Proofs.Expression.Exactness

namespace TemplatedForms

namespace Expr

mutual

/-- The number of nodes on the longest path down to a leaf. Lists without items are leaves. -/
def height : Expr → Nat
  | .literal _ | .name _ => 1
  | .array items => itemsHeight items + 1
  | .object members => membersHeight members + 1
  | .member target _ => target.height + 1
  | .index target key => max target.height key.height + 1
  | .call callee args => max callee.height (itemsHeight args) + 1
  | .unary _ operand => operand.height + 1
  | .binary _ left right | .logical _ left right => max left.height right.height + 1
  | .conditional test consequent alternate => max test.height (max consequent.height alternate.height) + 1
  | .arrow _ body => body.height + 1

def itemsHeight : List Expr → Nat
  | [] => 0
  | e :: es => max e.height (itemsHeight es)

def membersHeight : List (String × Expr) → Nat
  | [] => 0
  | (_, e) :: ms => max e.height (membersHeight ms)

end

def passed (height below : Nat) : Nat := if height ≤ 1 then 0 else below + 1

theorem le_passed (height below : Nat) : height ≤ 1 ∨ below + 1 ≤ passed height below := by
  rw [passed]
  split <;> omega

mutual

/-- The number of nodes on a path that the limit on nesting may miss: operands to the left of an operator,
what suffixes stand behind, and tests, unless they are leaves. -/
def overhang : Expr → Nat
  | .literal _ | .name _ => 0
  | .array items => itemsOverhang items
  | .object members => membersOverhang members
  | .member target _ => passed target.height target.overhang
  | .index target key => max (passed target.height target.overhang) key.overhang
  | .call callee args => max (passed callee.height callee.overhang) (itemsOverhang args)
  | .unary _ operand => operand.overhang
  | .binary _ left right | .logical _ left right => max (passed left.height left.overhang) right.overhang
  | .conditional test consequent alternate =>
    max (passed test.height test.overhang) (max consequent.overhang alternate.overhang)
  | .arrow _ body => body.overhang

def itemsOverhang : List Expr → Nat
  | [] => 0
  | e :: es => max e.overhang (itemsOverhang es)

def membersOverhang : List (String × Expr) → Nat
  | [] => 0
  | (_, e) :: ms => max e.overhang (membersOverhang ms)

end

theorem membersHeight_eq (ms : List (String × Expr)) : membersHeight ms = itemsHeight (ms.map (·.2)) := by
  induction ms with
  | nil => rfl
  | cons m ms ih => rw [membersHeight, List.map_cons, itemsHeight, ih]

theorem membersOverhang_eq (ms : List (String × Expr)) :
    membersOverhang ms = itemsOverhang (ms.map (·.2)) := by
  induction ms with
  | nil => rfl
  | cons m ms ih => rw [membersOverhang, List.map_cons, itemsOverhang, ih]

theorem height_apply (op : Operator) (l r : Expr) : (op.apply l r).height = max l.height r.height + 1 := by
  cases op <;> simp [Operator.apply, height]

theorem overhang_apply (op : Operator) (l r : Expr) :
    (op.apply l r).overhang = max (passed l.height l.overhang) r.overhang := by
  cases op <;> simp [Operator.apply, overhang]

end Expr

namespace Grammar

open TemplatedForms.Expr

/-- What `n` levels of nesting, of them `j` for the links at the outside, mean for the height of a tree with
an overhang. -/
def Fits : Kind → (j n height overhang : Nat) → Prop
  | .expression, _, n, h, o => 1 ≤ n ∧ h ≤ n + o ∧ h ≤ n * n + n - 1
  | .operation _, j, n, h, o => j ≤ n ∧ h ≤ n + 1 + o ∧ h ≤ max 1 (n * n + 2 * n) + j
  | .unary, _, n, h, o => h ≤ n + 1 + o ∧ h ≤ max 1 (n * n + 2 * n)
  | .suffixed, j, n, h, o => j ≤ n ∧ h ≤ n + 1 + o ∧ h ≤ max 1 (n * n + n) + j
  | .primary, _, n, h, o => h ≤ n + 1 + o ∧ h ≤ max 1 (n * n + n)

theorem fits_items {xs : List (Phrase Expr)}
    (h : ∀ x ∈ xs, Fits .expression 0 x.nesting x.tree.height x.tree.overhang) :
    itemsHeight (xs.map (·.tree)) ≤ deepest xs + itemsOverhang (xs.map (·.tree)) ∧
      itemsHeight (xs.map (·.tree)) ≤ deepest xs * deepest xs + deepest xs - 1 := by
  induction xs with
  | nil => exact ⟨Nat.zero_le _, Nat.zero_le _⟩
  | cons x xs ih =>
    obtain ⟨⟨hpos, hover, hsquare⟩, hxs⟩ := List.forall_mem_cons.mp h
    obtain ⟨ihover, ihsquare⟩ := ih hxs
    have hdeepest : deepest (x :: xs) = max x.nesting (deepest xs) := rfl
    rw [List.map_cons, itemsHeight, itemsOverhang, hdeepest]
    have hleft : x.nesting * x.nesting ≤ max x.nesting (deepest xs) * max x.nesting (deepest xs) :=
      Nat.mul_self_le_mul_self (le_max_left _ _)
    have hright : deepest xs * deepest xs ≤ max x.nesting (deepest xs) * max x.nesting (deepest xs) :=
      Nat.mul_self_le_mul_self (le_max_right _ _)
    omega

theorem deepest_members (ms : List Entry) : deepest (ms.map (·.phrase)) = deepest (ms.map (·.value)) := by
  simp only [deepest, List.foldr_map, Entry.phrase]

theorem trees_members (ms : List Entry) :
    (ms.map (·.phrase.tree)).map (·.2) = (ms.map (·.value)).map (·.tree) := by
  simp [Entry.phrase]

theorem DerivesProgram.body {n : Nat} {ts : List Token} {p : Program} (h : DerivesProgram n ts p) :
    ∃ us, Derives .expression 0 n us p.body := by
  cases h with
  | plain hd _ _ | returned hd _ => exact ⟨_, hd⟩

theorem square_lt {p n : Nat} (h : p < n) : p * p + 2 * p + 1 ≤ n * n := by
  have hsquare : (p + 1) * (p + 1) ≤ n * n := Nat.mul_self_le_mul_self h
  rw [Nat.succ_mul_succ] at hsquare
  omega

theorem square_succ (n : Nat) : (n + 1) * (n + 1) = n * n + 2 * n + 1 := by
  rw [Nat.succ_mul_succ]
  omega

theorem Derives.fits {kind : Kind} {j n : Nat} {ts : List Token} {e : Expr} (h : Derives kind j n ts e) :
    Fits kind j n e.height e.overhang := by
  induction h with
  | @arrow params ts us n e _ _ ih =>
    obtain ⟨hpos, hover, hsquare⟩ := ih
    rw [Fits, height, overhang, square_succ]
    omega
  | @plain ts j n e _ ih =>
    obtain ⟨hj, hover, hsquare⟩ := ih
    rw [Fits, square_succ]
    omega
  | @conditional ts us vs j n p q c a b _ _ _ ihc iha ihb =>
    obtain ⟨hj, hover, hsquare⟩ := ihc
    obtain ⟨hpos, hover', hsquare'⟩ := iha
    obtain ⟨-, hover'', hsquare''⟩ := ihb
    have hpassed := le_passed c.height c.overhang
    obtain ⟨d, hd⟩ : ∃ d, d = max n (max p q) := ⟨_, rfl⟩
    have hn := Nat.mul_self_le_mul_self (show n ≤ d by omega)
    have hp := Nat.mul_self_le_mul_self (show p ≤ d by omega)
    have hq := Nat.mul_self_le_mul_self (show q ≤ d by omega)
    rw [← hd, Fits, height, overhang, square_succ]
    omega
  | operand _ ih =>
    obtain ⟨hover, hsquare⟩ := ih
    exact ⟨Nat.zero_le _, hover, hsquare⟩
  | tighter _ ih => exact ih
  | @join k j n i p ts us m op l r _ _ _ ihl ihr =>
    obtain ⟨hj, hover, hsquare⟩ := ihl
    obtain ⟨hi, hover', hsquare'⟩ := ihr
    have hpassed := le_passed l.height l.overhang
    obtain ⟨d, hd⟩ : ∃ d, d = max n (j + 1 + p) := ⟨_, rfl⟩
    have hn := Nat.mul_self_le_mul_self (show n ≤ d by omega)
    have hp := square_lt (show p < d by omega)
    rw [← hd, Fits, height_apply, overhang_apply]
    omega
  | @lead t op ts n e _ _ ih =>
    obtain ⟨hover, hsquare⟩ := ih
    rw [Fits, height, overhang, square_succ]
    omega
  | @bare ts j n e _ ih =>
    obtain ⟨hj, hover, hsquare⟩ := ih
    refine ⟨hover, ?_⟩
    have hn : n = 0 ∨ n * 1 ≤ n * n := (Nat.eq_zero_or_pos n).imp_right fun h ↦ Nat.mul_le_mul_left n h
    rcases hn with rfl | hn <;> omega
  | alone _ ih =>
    obtain ⟨hover, hsquare⟩ := ih
    exact ⟨Nat.zero_le _, hover, hsquare⟩
  | @member ts j n e property _ ih =>
    obtain ⟨hj, hover, hsquare⟩ := ih
    have hpassed := le_passed e.height e.overhang
    obtain ⟨d, hd⟩ : ∃ d, d = max n (j + 1) := ⟨_, rfl⟩
    have hn := Nat.mul_self_le_mul_self (show n ≤ d by omega)
    rw [← hd, Fits, height, overhang]
    omega
  | @index ts us j n p e key _ _ ih ihkey =>
    obtain ⟨hj, hover, hsquare⟩ := ih
    obtain ⟨hpos, hover', hsquare'⟩ := ihkey
    have hpassed := le_passed e.height e.overhang
    obtain ⟨d, hd⟩ : ∃ d, d = max n (j + 1 + p) := ⟨_, rfl⟩
    have hn := Nat.mul_self_le_mul_self (show n ≤ d by omega)
    have hp := Nat.mul_self_le_mul_self (show p ≤ d by omega)
    rw [← hd, Fits, height, overhang]
    omega
  | @call ts us j n e args _ _ _ ih ihargs =>
    obtain ⟨hj, hover, hsquare⟩ := ih
    obtain ⟨hover', hsquare'⟩ := fits_items ihargs
    have hpassed := le_passed e.height e.overhang
    obtain ⟨d, hd⟩ : ∃ d, d = max n (j + 1 + deepest args) := ⟨_, rfl⟩
    have hn := Nat.mul_self_le_mul_self (show n ≤ d by omega)
    have hp := Nat.mul_self_le_mul_self (show deepest args ≤ d by omega)
    rw [← hd, Fits, height, overhang]
    omega
  | atom ht => cases ht <;> simp [Fits, height]
  | @parens ts n e _ ih =>
    obtain ⟨hpos, hover, hsquare⟩ := ih
    rw [Fits]
    omega
  | array _ _ ihitems =>
    obtain ⟨hover, hsquare⟩ := fits_items ihitems
    rw [Fits, height, overhang]
    omega
  | @object us members _ _ _ ihmembers =>
    have hvalues : ∀ x ∈ members.map (·.value), Fits .expression 0 x.nesting x.tree.height x.tree.overhang :=
      List.forall_mem_map.mpr ihmembers
    obtain ⟨hover, hsquare⟩ := fits_items hvalues
    rw [Fits, height, overhang, membersHeight_eq, membersOverhang_eq, trees_members, deepest_members]
    omega

def symbols : List Token :=
  [.name "a", .mark .leftBracket, .mark .rightBracket, .mark .dot, .mark .plus, .mark .question, .mark .colon]

def symbol : Token → Char
  | .mark .leftBracket => '['
  | .mark .rightBracket => ']'
  | .mark .dot => '.'
  | .mark .plus => '+'
  | .mark .question => '?'
  | .mark .colon => ':'
  | _ => 'a'

def spaced (ts : List Token) : String := String.ofList (ts.flatMap fun t ↦ [symbol t, ' '])

theorem reads_symbol {t : Token} (h : t ∈ symbols) (rest : List Char) :
    Text.isBlank (symbol t) = false ∧ Token.Reads (symbol t) (' ' :: rest) t (' ' :: rest) := by
  simp only [symbols, List.mem_cons, List.not_mem_nil, or_false] at h
  rcases h with rfl | rfl | rfl | rfl | rfl | rfl | rfl
  · exact ⟨by decide, .name (by decide) rfl (by decide)⟩
  all_goals exact ⟨by decide, .mark (by decide) rfl (by decide) rfl⟩

theorem lexes_spaced {ts : List Token} (h : ts ⊆ symbols) : Token.Lexes (spaced ts).toList ts := by
  rw [spaced, String.toList_ofList]
  induction ts with
  | nil => exact .done (List.forall_mem_nil _)
  | cons t ts ih =>
    obtain ⟨ht, hts⟩ := List.cons_subset.mp h
    obtain ⟨hblank, hreads⟩ := reads_symbol ht (ts.flatMap fun t ↦ [symbol t, ' '])
    have hblanks : ∀ b ∈ [' '], Text.isBlank b = true := List.forall_mem_singleton.mpr (by decide)
    exact .token (List.forall_mem_nil _) hblank hreads ((ih hts).blanks hblanks)

theorem parse_spaced {ts : List Token} {n : Nat} {e : Expr} (h : Derives .expression 0 n ts e)
    (hts : ts ⊆ symbols) (hn : n ≤ TokenParser.nestingLimit) : parse (spaced ts) = .ok ⟨e, false⟩ := by
  have hhead : ts.head? ≠ some (.name "return") := fun hhead ↦ by
    simpa [symbols] using hts (List.mem_of_head? hhead)
  have hprogram := DerivesProgram.plain h hhead (.inl rfl)
  rw [List.append_nil] at hprogram
  exact parse_of_lexes (lexes_spaced hts) hprogram hn

theorem exists_suffixed {ts : List Token} {n : Nat} {e : Expr} (h : Derives .suffixed 0 n ts e) (j : Nat) :
    ∃ e', Derives .suffixed j (max n j) (ts ++ (List.replicate j [.mark .dot, .name "a"]).flatten) e' ∧
      e'.height = e.height + j := by
  induction j with
  | zero => exact ⟨e, by simpa using h, rfl⟩
  | succ j ih =>
    obtain ⟨e', hd, hheight⟩ := ih
    have hd' := hd.member "a"
    rw [show max (max n j) (j + 1) = max n (j + 1) by omega, List.append_assoc] at hd'
    refine ⟨_, by simpa [List.replicate_succ'] using hd', ?_⟩
    rw [height, hheight]
    omega

theorem derives_atom : Derives .primary 0 0 [.name "a"] (.name "a") := .atom (.name (by decide))

theorem derives_name : Derives .unary 0 0 [.name "a"] (.name "a") := derives_atom.alone.bare

theorem exists_joined {ts : List Token} {n : Nat} {e : Expr} (h : Derives (.operation 6) 0 n ts e)
    (he : 1 ≤ e.height) (j : Nat) :
    ∃ e', Derives (.operation 6) j (max n j) (ts ++ (List.replicate j [.mark .plus, .name "a"]).flatten) e' ∧
      e'.height = e.height + j := by
  induction j with
  | zero => exact ⟨e, by simpa using h, rfl⟩
  | succ j ih =>
    obtain ⟨e', hd, hheight⟩ := ih
    have hd' := hd.join .add derives_name.operand.tighter
    rw [show max (max n j) (j + 1 + 0) = max n (j + 1) by omega, List.append_assoc] at hd'
    refine ⟨_, by simpa [List.replicate_succ'] using hd', ?_⟩
    rw [height_apply, hheight, height]
    omega

/-- A string of suffixes, and a string of as many operators behind it. -/
def strings (j : Nat) : List Token :=
  (List.replicate j [.mark .dot, .name "a"]).flatten ++ (List.replicate j [.mark .plus, .name "a"]).flatten

theorem strings_subset (j : Nat) : strings j ⊆ symbols := by
  have hsubset (link : List Token) (h : link ⊆ symbols) : (List.replicate j link).flatten ⊆ symbols := by
    intro t ht
    obtain ⟨_, hlink, ht⟩ := List.mem_flatten.mp ht
    exact h (List.eq_of_mem_replicate hlink ▸ ht)
  exact List.append_subset.mpr ⟨hsubset _ (by simp [symbols]), hsubset _ (by simp [symbols])⟩

theorem exists_strings {ts : List Token} {n : Nat} {e : Expr} (h : Derives .primary 0 n ts e)
    (he : 1 ≤ e.height) (j : Nat) :
    ∃ e', Derives (.operation 1) j (max n j) (ts ++ strings j) e' ∧ e'.height = e.height + 2 * j := by
  obtain ⟨e', hd, hheight⟩ := exists_suffixed h.alone j
  obtain ⟨e'', hd', hheight'⟩ := exists_joined (hd.bare.operand.loosen (by decide)) (by omega) j
  rw [max_assoc, max_self, List.append_assoc] at hd'
  exact ⟨e'', hd'.loosen (by decide), by omega⟩

/-- For each number of levels there is a tree as high as that number allows. The operand in brackets at the
start of the test is one level below, and the links of both strings behind it are above it. -/
theorem exists_highest (n : Nat) :
    ∃ ts e, Derives .expression 0 (n + 1) ts e ∧ ts ⊆ symbols ∧
      e.height = (n + 1) * (n + 1) + (n + 1) - 1 := by
  have hleaf : Derives .expression 0 1 [.name "a"] (.name "a") :=
    .plain (derives_name.operand.loosen (by decide))
  induction n with
  | zero => exact ⟨_, _, hleaf, by simp [symbols], rfl⟩
  | succ n ih =>
    obtain ⟨ts, e, hd, hts, hheight⟩ := ih
    have hitems :
        Derives .primary 0 (n + 1) (.mark .leftBracket :: (ts ++ [.mark .rightBracket])) (.array [e]) := by
      have hitem : ∀ x ∈ [(⟨n + 1, ts, e⟩ : Phrase Expr)], Derives .expression 0 x.nesting x.tokens x.tree :=
        List.forall_mem_singleton.mpr hd
      exact .array hitem (.last ts)
    obtain ⟨e', hd', hheight'⟩ := exists_strings hitems (by simp [height]) (n + 1)
    have htree := Derives.conditional hd' hleaf hleaf
    rw [show max (max (n + 1) (n + 1)) (max 1 1) + 1 = n + 1 + 1 by omega] at htree
    refine ⟨_, _, htree, ?_, ?_⟩
    · simp only [List.append_subset, List.cons_subset, List.nil_subset, hts, strings_subset, and_true]
      simp [symbols]
    · simp only [height, itemsHeight] at hheight' ⊢
      rw [square_succ (n + 1)]
      omega

end Grammar

def heightLimit : Nat := TokenParser.nestingLimit * TokenParser.nestingLimit + TokenParser.nestingLimit - 1

/-- The tree of a text is higher than the limit on nesting by at most the number of operands, targets and
tests on a path that are no leaves, and it is never higher than the limit and its square, less one. -/
theorem nesting_limit_bounds_height {text : String} {p : Program} (h : parse text = .ok p) :
    p.body.height ≤ TokenParser.nestingLimit + p.body.overhang ∧ p.body.height ≤ heightLimit := by
  obtain ⟨ts, n, hn, hd⟩ := derives_of_parse h
  obtain ⟨us, hbody⟩ := hd.body
  obtain ⟨hpos, hover, hsquare⟩ := hbody.fits
  have hn' := Nat.mul_self_le_mul_self hn
  rw [heightLimit]
  omega

theorem nesting_limit_bounds_height_of_strings :
    ∃ p, parse "a . a + a " = .ok p ∧
      p.body.height ≤ TokenParser.nestingLimit + p.body.overhang ∧ p.body.height ≤ heightLimit := by
  obtain ⟨e, hd, -⟩ := Grammar.exists_strings Grammar.derives_atom (Nat.le_refl 1) 1
  have htext : "a . a + a " = Grammar.spaced ([.name "a"] ++ Grammar.strings 1) := by decide
  have hparse : parse "a . a + a " = .ok ⟨e, false⟩ := by
    rw [htext]
    exact Grammar.parse_spaced hd.plain (by simp [Grammar.symbols, Grammar.strings]) (by decide)
  exact ⟨_, hparse, nesting_limit_bounds_height hparse⟩

theorem heightLimit_reached : ∃ text p, parse text = .ok p ∧ p.body.height = heightLimit := by
  obtain ⟨ts, e, hd, hts, hheight⟩ := Grammar.exists_highest 255
  exact ⟨_, _, Grammar.parse_spaced hd hts (by decide), hheight⟩

/-- A string of suffixes that starts a string of operators: each has as many links as the limit allows. -/
theorem strings_outgrow_nesting_limit :
    ∃ p, parse (String.ofList (['a', ' '] ++ (List.replicate 255 ['.', ' ', 'a', ' ']).flatten ++
        (List.replicate 255 ['+', ' ', 'a', ' ']).flatten)) = .ok p ∧
      TokenParser.nestingLimit < p.body.height := by
  obtain ⟨e, hd, hheight⟩ := Grammar.exists_strings Grammar.derives_atom (Nat.le_refl 1) 255
  have hsymbols : [.name "a"] ++ Grammar.strings 255 ⊆ Grammar.symbols :=
    List.append_subset.mpr ⟨by simp [Grammar.symbols], Grammar.strings_subset 255⟩
  have htext : String.ofList (['a', ' '] ++ (List.replicate 255 ['.', ' ', 'a', ' ']).flatten ++
      (List.replicate 255 ['+', ' ', 'a', ' ']).flatten) =
      Grammar.spaced ([.name "a"] ++ Grammar.strings 255) := by
    refine congrArg String.ofList ?_
    decide +kernel
  rw [htext]
  refine ⟨_, Grammar.parse_spaced hd.plain hsymbols (by decide), ?_⟩
  rw [hheight]
  decide

end TemplatedForms
