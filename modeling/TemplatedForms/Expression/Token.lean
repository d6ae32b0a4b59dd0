import TemplatedForms.Number.Layout

namespace TemplatedForms

inductive Mark
  | leftParen
  | rightParen
  | leftBracket
  | rightBracket
  | leftBrace
  | rightBrace
  | comma
  | dot
  | colon
  | semicolon
  | question
  | nullish
  | arrow
  | plus
  | minus
  | star
  | slash
  | percent
  | bang
  | strictEq
  | strictNe
  | looseEq
  | looseNe
  | lt
  | le
  | gt
  | ge
  | and
  | or
deriving DecidableEq

namespace Mark

def text : Mark → String
  | .leftParen => "("
  | .rightParen => ")"
  | .leftBracket => "["
  | .rightBracket => "]"
  | .leftBrace => "\x7b"
  | .rightBrace => "\x7d"
  | .comma => ","
  | .dot => "."
  | .colon => ":"
  | .semicolon => ";"
  | .question => "?"
  | .nullish => "??"
  | .arrow => "=>"
  | .plus => "+"
  | .minus => "-"
  | .star => "*"
  | .slash => "/"
  | .percent => "%"
  | .bang => "!"
  | .strictEq => "==="
  | .strictNe => "!=="
  | .looseEq => "=="
  | .looseNe => "!="
  | .lt => "<"
  | .le => "<="
  | .gt => ">"
  | .ge => ">="
  | .and => "&&"
  | .or => "||"

def read? : List Char → Option (Mark × Nat × List Char)
  | '=' :: '=' :: '=' :: rest => some (.strictEq, 3, rest)
  | '!' :: '=' :: '=' :: rest => some (.strictNe, 3, rest)
  | '=' :: '=' :: rest => some (.looseEq, 2, rest)
  | '!' :: '=' :: rest => some (.looseNe, 2, rest)
  | '<' :: '=' :: rest => some (.le, 2, rest)
  | '>' :: '=' :: rest => some (.ge, 2, rest)
  | '=' :: '>' :: rest => some (.arrow, 2, rest)
  | '&' :: '&' :: rest => some (.and, 2, rest)
  | '|' :: '|' :: rest => some (.or, 2, rest)
  | '?' :: '?' :: rest => some (.nullish, 2, rest)
  | '(' :: rest => some (.leftParen, 1, rest)
  | ')' :: rest => some (.rightParen, 1, rest)
  | '[' :: rest => some (.leftBracket, 1, rest)
  | ']' :: rest => some (.rightBracket, 1, rest)
  | '\x7b' :: rest => some (.leftBrace, 1, rest)
  | '\x7d' :: rest => some (.rightBrace, 1, rest)
  | ',' :: rest => some (.comma, 1, rest)
  | '.' :: rest => some (.dot, 1, rest)
  | ':' :: rest => some (.colon, 1, rest)
  | ';' :: rest => some (.semicolon, 1, rest)
  | '?' :: rest => some (.question, 1, rest)
  | '+' :: rest => some (.plus, 1, rest)
  | '-' :: rest => some (.minus, 1, rest)
  | '*' :: rest => some (.star, 1, rest)
  | '/' :: rest => some (.slash, 1, rest)
  | '%' :: rest => some (.percent, 1, rest)
  | '!' :: rest => some (.bang, 1, rest)
  | '<' :: rest => some (.lt, 1, rest)
  | '>' :: rest => some (.gt, 1, rest)
  | _ => none

end Mark

inductive Token
  | number (x : Float)
  | string (s : String)
  | name (s : String)
  | mark (m : Mark)
deriving DecidableEq

def Token.describe : Token → String
  | .number x => Number.text x
  | .string s => "'" ++ s ++ "'"
  | .name s => s
  | .mark m => m.text

/-- A token with the column at which it starts: one more than the number of bytes before it. -/
structure Positioned where
  token : Token
  column : Nat
deriving DecidableEq

def tokens (ts : List Positioned) : List Token := ts.map (·.token)

@[simp] theorem tokens_nil : tokens [] = [] := rfl

@[simp] theorem tokens_cons (t : Positioned) (ts : List Positioned) :
    tokens (t :: ts) = t.token :: tokens ts := rfl

@[simp] theorem tokens_append (ts us : List Positioned) : tokens (ts ++ us) = tokens ts ++ tokens us :=
  List.map_append

theorem tokens_eq_nil {ts : List Positioned} : tokens ts = [] ↔ ts = [] := List.map_eq_nil_iff

theorem tokens_eq_cons {ts : List Positioned} {t : Token} {us : List Token} (h : tokens ts = t :: us) :
    ∃ c ts', ts = ⟨t, c⟩ :: ts' ∧ tokens ts' = us := by
  obtain ⟨⟨t', c⟩, ts', rfl, rfl, h'⟩ := List.map_eq_cons_iff.mp h
  exact ⟨c, ts', rfl, h'⟩

theorem tokens_eq_singleton {ts : List Positioned} {t : Token} (h : tokens ts = [t]) :
    ∃ c, ts = [⟨t, c⟩] := by
  obtain ⟨c, ts', rfl, h'⟩ := tokens_eq_cons h
  exact ⟨c, by rw [tokens_eq_nil.mp h']⟩

theorem tokens_eq_append {ts : List Positioned} {us vs : List Token} (h : tokens ts = us ++ vs) :
    ∃ ts₁ ts₂, ts = ts₁ ++ ts₂ ∧ tokens ts₁ = us ∧ tokens ts₂ = vs :=
  List.map_eq_append_iff.mp h

end TemplatedForms
