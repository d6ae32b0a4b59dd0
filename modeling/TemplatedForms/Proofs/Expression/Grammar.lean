import TemplatedForms.Expression.Basic
import TemplatedForms.Expression.Token

namespace TemplatedForms.Grammar

/-- Marks of operators that stand between their operands. Those of a higher level bind tighter. -/
inductive Joins : Nat → Mark → Operator → Prop
  | nullish : Joins 1 .nullish (.logical .nullish)
  | or : Joins 2 .or (.logical .or)
  | and : Joins 3 .and (.logical .and)
  | strictEq : Joins 4 .strictEq (.binary .strictEq)
  | strictNe : Joins 4 .strictNe (.binary .strictNe)
  | looseEq : Joins 4 .looseEq (.binary .looseEq)
  | looseNe : Joins 4 .looseNe (.binary .looseNe)
  | lt : Joins 5 .lt (.binary .lt)
  | le : Joins 5 .le (.binary .le)
  | gt : Joins 5 .gt (.binary .gt)
  | ge : Joins 5 .ge (.binary .ge)
  | add : Joins 6 .plus (.binary .add)
  | sub : Joins 6 .minus (.binary .sub)
  | mul : Joins 7 .star (.binary .mul)
  | div : Joins 7 .slash (.binary .div)
  | rem : Joins 7 .percent (.binary .rem)

inductive Leads : Token → UnaryOp → Prop
  | not : Leads (.mark .bang) .not
  | neg : Leads (.mark .minus) .neg
  | plus : Leads (.mark .plus) .plus
  | typeOf : Leads (.name "typeof") .typeOf

inductive Atom : Token → Expr → Prop
  | number (x : Float) : Atom (.number x) (.literal (.number x))
  | string (s : String) : Atom (.string s) (.literal (.string s))
  | true : Atom (.name "true") (.literal (.bool .true))
  | false : Atom (.name "false") (.literal (.bool .false))
  | null : Atom (.name "null") (.literal .null)
  | undefined : Atom (.name "undefined") (.literal .undefined)
  | name {s : String} (h : s ∉ ["return", "typeof", "true", "false", "null", "undefined"]) :
      Atom (.name s) (.name s)

inductive Key : Token → String → Prop
  | name (s : String) : Key (.name s) s
  | string (s : String) : Key (.string s) s
  | number (x : Float) : Key (.number x) (Number.text x)

/-- Parts with commas between them and a closing mark behind; a comma may stand before that mark if there
are parts. -/
inductive Listed (closing : Mark) : List (List Token) → List Token → Prop
  | none : Listed closing [] [.mark closing]
  | last (ts : List Token) : Listed closing [ts] (ts ++ [.mark closing])
  | next (ts : List Token) {parts : List (List Token)} {us : List Token} :
      Listed closing parts us → Listed closing (ts :: parts) (ts ++ .mark .comma :: us)

inductive Params : List String → List Token → Prop
  | one (s : String) : Params [s] [.name s]
  | listed {ss : List String} {ts : List Token} :
      Listed .rightParen (ss.map fun s ↦ [.name s]) ts → Params ss (.mark .leftParen :: ts)

/-- A list of tokens with what it stands for and the levels of nesting it takes. -/
structure Phrase (α : Type) where
  nesting : Nat
  tokens : List Token
  tree : α

def deepest {α : Type} (xs : List (Phrase α)) : Nat := xs.foldr (fun x n ↦ max x.nesting n) 0

structure Entry where
  key : Token
  name : String
  value : Phrase Expr

def Entry.phrase (m : Entry) : Phrase (String × Expr) :=
  ⟨m.value.nesting, m.key :: .mark .colon :: m.value.tokens, (m.name, m.value.tree)⟩

/-- The kinds of phrases. Operations of a level have operators of this level or a higher one outside of
all parentheses; those of level 8 have none. -/
inductive Kind
  | expression
  | operation (level : Nat)
  | unary
  | suffixed
  | primary

/-- Derivations of expressions. `links` counts the operators or suffixes strung together at the outside;
each of them takes a level until the string ends, so the operand of a link nests below all links before
it. -/
inductive Derives : Kind → (links nesting : Nat) → List Token → Expr → Prop
  | arrow {params : List String} {ts us : List Token} {n : Nat} {e : Expr} :
      Params params ts → Derives .expression 0 n us e →
      Derives .expression 0 (n + 1) (ts ++ .mark .arrow :: us) (.arrow params e)
  | plain {ts : List Token} {j n : Nat} {e : Expr} :
      Derives (.operation 1) j n ts e → Derives .expression 0 (n + 1) ts e
  | conditional {ts us vs : List Token} {j n p q : Nat} {c a b : Expr} :
      Derives (.operation 1) j n ts c → Derives .expression 0 p us a → Derives .expression 0 q vs b →
      Derives .expression 0 (max n (max p q) + 1) (ts ++ .mark .question :: (us ++ .mark .colon :: vs))
        (.conditional c a b)
  | operand {ts : List Token} {n : Nat} {e : Expr} :
      Derives .unary 0 n ts e → Derives (.operation 8) 0 n ts e
  | tighter {k j n : Nat} {ts : List Token} {e : Expr} :
      Derives (.operation (k + 1)) j n ts e → Derives (.operation k) j n ts e
  | join {k j n i p : Nat} {ts us : List Token} {m : Mark} {op : Operator} {l r : Expr} :
      Derives (.operation k) j n ts l → Joins k m op → Derives (.operation (k + 1)) i p us r →
      Derives (.operation k) (j + 1) (max n (j + 1 + p)) (ts ++ .mark m :: us) (op.apply l r)
  | lead {t : Token} {op : UnaryOp} {ts : List Token} {n : Nat} {e : Expr} :
      Leads t op → Derives .unary 0 n ts e → Derives .unary 0 (n + 1) (t :: ts) (.unary op e)
  | bare {ts : List Token} {j n : Nat} {e : Expr} :
      Derives .suffixed j n ts e → Derives .unary 0 n ts e
  | alone {ts : List Token} {n : Nat} {e : Expr} :
      Derives .primary 0 n ts e → Derives .suffixed 0 n ts e
  | member {ts : List Token} {j n : Nat} {e : Expr} (property : String) :
      Derives .suffixed j n ts e →
      Derives .suffixed (j + 1) (max n (j + 1)) (ts ++ [.mark .dot, .name property])
        (.member e property)
  | index {ts us : List Token} {j n p : Nat} {e key : Expr} :
      Derives .suffixed j n ts e → Derives .expression 0 p us key →
      Derives .suffixed (j + 1) (max n (j + 1 + p))
        (ts ++ .mark .leftBracket :: (us ++ [.mark .rightBracket])) (.index e key)
  | call {ts us : List Token} {j n : Nat} {e : Expr} {args : List (Phrase Expr)} :
      Derives .suffixed j n ts e → (∀ x ∈ args, Derives .expression 0 x.nesting x.tokens x.tree) →
      Listed .rightParen (args.map (·.tokens)) us →
      Derives .suffixed (j + 1) (max n (j + 1 + deepest args)) (ts ++ .mark .leftParen :: us)
        (.call e (args.map (·.tree)))
  | atom {t : Token} {e : Expr} : Atom t e → Derives .primary 0 0 [t] e
  | parens {ts : List Token} {n : Nat} {e : Expr} :
      Derives .expression 0 n ts e →
      Derives .primary 0 n (.mark .leftParen :: (ts ++ [.mark .rightParen])) e
  | array {us : List Token} {items : List (Phrase Expr)} :
      (∀ x ∈ items, Derives .expression 0 x.nesting x.tokens x.tree) →
      Listed .rightBracket (items.map (·.tokens)) us →
      Derives .primary 0 (deepest items) (.mark .leftBracket :: us) (.array (items.map (·.tree)))
  | object {us : List Token} {members : List Entry} :
      (∀ m ∈ members, Key m.key m.name) →
      (∀ m ∈ members, Derives .expression 0 m.value.nesting m.value.tokens m.value.tree) →
      Listed .rightBrace (members.map (·.phrase.tokens)) us →
      Derives .primary 0 (deepest (members.map (·.phrase))) (.mark .leftBrace :: us)
        (.object (members.map (·.phrase.tree)))

/-- Programs: an expression, after `return` or not, with a semicolon behind it or not. A `return` at the
start always is the keyword. -/
inductive DerivesProgram : (nesting : Nat) → List Token → Program → Prop
  | plain {ts ending : List Token} {n : Nat} {e : Expr} :
      Derives .expression 0 n ts e → ts.head? ≠ some (.name "return") →
      ending = [] ∨ ending = [.mark .semicolon] → DerivesProgram n (ts ++ ending) ⟨e, false⟩
  | returned {ts ending : List Token} {n : Nat} {e : Expr} :
      Derives .expression 0 n ts e → ending = [] ∨ ending = [.mark .semicolon] →
      DerivesProgram n (.name "return" :: (ts ++ ending)) ⟨e, true⟩

def Starts : Token → Bool
  | .mark m => [.leftParen, .leftBracket, .leftBrace, .bang, .minus, .plus].contains m
  | _ => true

theorem Leads.starts {t : Token} {op : UnaryOp} (h : Leads t op) : Starts t := by
  cases h <;> rfl

theorem Atom.starts {t : Token} {e : Expr} (h : Atom t e) : Starts t := by
  cases h <;> rfl

theorem Params.starts {ss : List String} {ts : List Token} (h : Params ss ts) :
    ∃ t us, ts = t :: us ∧ Starts t := by
  cases h <;> exact ⟨_, _, rfl, rfl⟩

theorem Derives.starts {kind : Kind} {j n : Nat} {ts : List Token} {e : Expr}
    (h : Derives kind j n ts e) : ∃ t us, ts = t :: us ∧ Starts t := by
  induction h with
  | arrow hp _ _ =>
    obtain ⟨t, us, rfl, ht⟩ := hp.starts
    exact ⟨t, _, List.cons_append, ht⟩
  | plain _ ih | operand _ ih | tighter _ ih | bare _ ih | alone _ ih => exact ih
  | lead ht _ _ => exact ⟨_, _, rfl, ht.starts⟩
  | atom ht => exact ⟨_, _, rfl, ht.starts⟩
  | parens _ _ | array _ _ _ | object _ _ _ _ => exact ⟨_, _, rfl, rfl⟩
  | conditional _ _ _ ih _ _ | join _ _ _ ih _ | member _ _ ih | index _ _ ih _ | call _ _ _ ih _ =>
    obtain ⟨t, us, rfl, ht⟩ := ih
    exact ⟨t, _, by simp only [List.cons_append]; rfl, ht⟩

theorem DerivesProgram.ne_nil {n : Nat} {ts : List Token} {p : Program} (h : DerivesProgram n ts p) :
    ts ≠ [] := by
  cases h with
  | plain hd _ _ =>
    obtain ⟨t, us, rfl, -⟩ := hd.starts
    exact List.cons_ne_nil _ _
  | returned _ _ => exact List.cons_ne_nil _ _

theorem Derives.loosen {k k' j n : Nat} {ts : List Token} {e : Expr}
    (h : Derives (.operation k) j n ts e) (hk : k' ≤ k) : Derives (.operation k') j n ts e := by
  induction hk with
  | refl => exact h
  | step _ ih => exact ih h.tighter

end TemplatedForms.Grammar
