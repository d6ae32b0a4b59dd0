import TemplatedForms.Expression.Basic
import TemplatedForms.Expression.Tokenize

namespace TemplatedForms

abbrev TokenParser (α : Type) := List Positioned → Except ParseError (α × List Positioned)

namespace TokenParser

variable {α : Type}

def nestingLimit : Nat := 256

def tooDeep : TokenParser α := fun _ ↦ .error (.nestingTooDeep nestingLimit)

def unexpected (expected : String) : List Positioned → ParseError
  | t :: _ => .unexpectedToken expected t.token.describe t.column
  | [] => .unexpectedEnd

def startsWith (m : Mark) : List Positioned → Bool
  | t :: _ => t.token = .mark m
  | [] => false

def expect (m : Mark) : TokenParser Unit
  | t :: ts => if t.token = .mark m then .ok ((), ts) else .error (unexpected m.text (t :: ts))
  | [] => .error .unexpectedEnd

/-- Whether the parenthesis that closes `depth` open ones is followed by an arrow. -/
def closesBeforeArrow (depth : Nat) : List Positioned → Bool
  | [] => false
  | t :: ts =>
    match t.token with
    | .mark .leftParen => closesBeforeArrow (depth + 1) ts
    | .mark .rightParen => if depth ≤ 1 then startsWith .arrow ts else closesBeforeArrow (depth - 1) ts
    | _ => closesBeforeArrow depth ts

def atArrow : List Positioned → Bool
  | [] => false
  | t :: ts =>
    match t.token with
    | .name _ => startsWith .arrow ts
    | .mark .leftParen => closesBeforeArrow 1 ts
    | _ => false

/-- Items up to a closing mark, separated by commas; a last comma may stand before the mark. -/
def items (item : TokenParser α) (closing : Mark) : Nat → List α → TokenParser (List α)
  | 0, _, _ => .error .unexpectedEnd
  | fuel + 1, found, ts =>
    if startsWith closing ts then .ok (found.reverse, ts.tail)
    else do
      let (x, ts) ← item ts
      if startsWith closing ts then .ok ((x :: found).reverse, ts.tail)
      else
        let ((), ts) ← expect .comma ts
        items item closing fuel (x :: found) ts

def list (item : TokenParser α) (closing : Mark) : TokenParser (List α) := fun ts ↦
  items item closing (ts.length + 1) [] ts

def param : TokenParser String
  | [] => .error (.invalidArrowParams 0)
  | t :: ts =>
    match t.token with
    | .name s => .ok (s, ts)
    | _ => .error (.invalidArrowParams t.column)

def params : TokenParser (List String) := fun ts ↦
  if startsWith .leftParen ts then list param .rightParen ts.tail
  else (param ts).map fun (s, ts) ↦ ([s], ts)

def arrow (body : TokenParser Expr) : TokenParser Expr := fun ts ↦ do
  let (ss, ts) ← params ts
  let ((), ts) ← expect .arrow ts
  let (e, ts) ← body ts
  .ok (.arrow ss e, ts)

def conditional (test branch : TokenParser Expr) : TokenParser Expr := fun ts ↦ do
  let (c, ts) ← test ts
  if startsWith .question ts then
    let (a, ts) ← branch ts.tail
    let ((), ts) ← expect .colon ts
    let (b, ts) ← branch ts
    .ok (.conditional c a b, ts)
  else .ok (c, ts)

def operator? : Token → Option Operator
  | .mark .nullish => some (.logical .nullish)
  | .mark .or => some (.logical .or)
  | .mark .and => some (.logical .and)
  | .mark .strictEq => some (.binary .strictEq)
  | .mark .strictNe => some (.binary .strictNe)
  | .mark .looseEq => some (.binary .looseEq)
  | .mark .looseNe => some (.binary .looseNe)
  | .mark .lt => some (.binary .lt)
  | .mark .le => some (.binary .le)
  | .mark .gt => some (.binary .gt)
  | .mark .ge => some (.binary .ge)
  | .mark .plus => some (.binary .add)
  | .mark .minus => some (.binary .sub)
  | .mark .star => some (.binary .mul)
  | .mark .slash => some (.binary .div)
  | .mark .percent => some (.binary .rem)
  | _ => none

def unaryOp? : Token → Option UnaryOp
  | .mark .bang => some .not
  | .mark .minus => some .neg
  | .mark .plus => some .plus
  | .name "typeof" => some .typeOf
  | _ => none

/-- Operators of at least a level, each taking what stands to the left of it as its left operand. -/
def chain (inner : Nat → TokenParser Expr) (next : Nat → Expr → TokenParser Expr) (level : Nat)
    (left : Expr) : TokenParser Expr
  | [] => .ok (left, [])
  | t :: ts =>
    match operator? t.token with
    | some op =>
      if op.level < level then .ok (left, t :: ts)
      else do
        let (right, ts) ← inner (op.level + 1) ts
        next level (op.apply left right) ts
    | none => .ok (left, t :: ts)

def unary (inner operand : TokenParser Expr) : TokenParser Expr
  | [] => operand []
  | t :: ts =>
    match unaryOp? t.token with
    | some op => do
      let (e, ts) ← inner ts
      .ok (.unary op e, ts)
    | none => operand (t :: ts)

def suffixes (expression : TokenParser Expr) (next : Expr → TokenParser Expr) (e : Expr) :
    TokenParser Expr
  | [] => .ok (e, [])
  | t :: ts =>
    match t.token with
    | .mark .dot =>
      match ts with
      | ⟨.name property, _⟩ :: ts => next (.member e property) ts
      | ts => .error (unexpected "property name" ts)
    | .mark .leftBracket => do
      let (key, ts) ← expression ts
      let ((), ts) ← expect .rightBracket ts
      next (.index e key) ts
    | .mark .leftParen => do
      let (args, ts) ← list expression .rightParen ts
      next (.call e args) ts
    | _ => .ok (e, t :: ts)

def noSuffix (e : Expr) : TokenParser Expr
  | [] => .ok (e, [])
  | t :: ts =>
    match t.token with
    | .mark .dot | .mark .leftBracket | .mark .leftParen => tooDeep (t :: ts)
    | _ => .ok (e, t :: ts)

def key : TokenParser String
  | ⟨.name s, _⟩ :: ts => .ok (s, ts)
  | ⟨.string s, _⟩ :: ts => .ok (s, ts)
  | ⟨.number x, _⟩ :: ts => .ok (Number.text x, ts)
  | ts => .error (unexpected "property key" ts)

def member (expression : TokenParser Expr) : TokenParser (String × Expr) := fun ts ↦ do
  let (name, ts) ← key ts
  let ((), ts) ← expect .colon ts
  let (e, ts) ← expression ts
  .ok ((name, e), ts)

def ofName? : String → Option Expr
  | "true" => some (.literal (.bool true))
  | "false" => some (.literal (.bool false))
  | "null" => some (.literal .null)
  | "undefined" => some (.literal .undefined)
  | "return" => none
  | s => some (.name s)

def primary (expression : TokenParser Expr) : TokenParser Expr
  | [] => .error .unexpectedEnd
  | t :: ts =>
    match t.token with
    | .number x => .ok (.literal (.number x), ts)
    | .string s => .ok (.literal (.string s), ts)
    | .name s =>
      match ofName? s with
      | some e => .ok (e, ts)
      | none => .error (unexpected "expression" (t :: ts))
    | .mark .leftParen => do
      let (e, ts) ← expression ts
      let ((), ts) ← expect .rightParen ts
      .ok (e, ts)
    | .mark .leftBracket => do
      let (es, ts) ← list expression .rightBracket ts
      .ok (.array es, ts)
    | .mark .leftBrace => do
      let (ms, ts) ← list (member expression) .rightBrace ts
      .ok (.object ms, ts)
    | .mark _ => .error (unexpected "expression" (t :: ts))

def operand (expression : TokenParser Expr) (suffixes : Expr → TokenParser Expr) : TokenParser Expr :=
  fun ts ↦ do
    let (e, ts) ← primary expression ts
    suffixes e ts

/-- The parsers for what may stand at one level of nesting. -/
structure Level where
  expression : TokenParser Expr
  unary : TokenParser Expr
  chain : Nat → Expr → TokenParser Expr
  suffixes : Expr → TokenParser Expr

namespace Level

def operation (l : Level) (level : Nat) : TokenParser Expr := fun ts ↦ do
  let (left, ts) ← l.unary ts
  l.chain level left ts

/-- The expression that takes up a level: what is inside it belongs to the level below. -/
def enclosing (inner : Level) : TokenParser Expr := fun ts ↦
  if atArrow ts then TokenParser.arrow inner.expression ts
  else TokenParser.conditional (inner.operation 1) inner.expression ts

end Level

/-- The parsers with room for a number of levels. Without any room, every construct that takes up a
level fails. -/
def level : Nat → Level
  | 0 =>
    { expression := tooDeep
      unary := unary tooDeep (operand tooDeep noSuffix)
      chain := chain (fun _ ↦ tooDeep) (fun _ _ ↦ tooDeep)
      suffixes := noSuffix }
  | room + 1 =>
    let inner := level room
    { expression := inner.enclosing
      unary := unary inner.unary (operand inner.enclosing (suffixes inner.expression inner.suffixes))
      chain := chain inner.operation inner.chain
      suffixes := suffixes inner.expression inner.suffixes }

@[simp] theorem level_zero_expression : (level 0).expression = tooDeep := rfl

@[simp] theorem level_zero_chain :
    (level 0).chain = TokenParser.chain (fun _ ↦ tooDeep) (fun _ _ ↦ tooDeep) := rfl

@[simp] theorem level_zero_suffixes : (level 0).suffixes = noSuffix := rfl

@[simp] theorem level_zero_unary :
    (level 0).unary =
      TokenParser.unary tooDeep (operand (level 0).expression (level 0).suffixes) := rfl

@[simp] theorem level_succ_expression (room : Nat) :
    (level (room + 1)).expression = (level room).enclosing := rfl

@[simp] theorem level_succ_chain (room : Nat) :
    (level (room + 1)).chain = TokenParser.chain (level room).operation (level room).chain := rfl

@[simp] theorem level_succ_suffixes (room : Nat) :
    (level (room + 1)).suffixes =
      TokenParser.suffixes (level room).expression (level room).suffixes := rfl

@[simp] theorem level_succ_unary (room : Nat) :
    (level (room + 1)).unary = TokenParser.unary (level room).unary
      (operand (level (room + 1)).expression (level (room + 1)).suffixes) := rfl

def expression : TokenParser Expr := (level nestingLimit).expression

def program (ts : List Positioned) : Except ParseError Program := do
  let explicitReturn := match ts with
    | t :: _ => t.token == .name "return"
    | [] => false
  let (body, rest) ← expression (if explicitReturn then ts.tail else ts)
  let rest := if startsWith .semicolon rest then rest.tail else rest
  if rest.isEmpty then .ok ⟨body, explicitReturn⟩ else .error (unexpected "end of expression" rest)

end TokenParser

def parse (text : String) : Except ParseError Program := do
  let tokens ← tokenize text
  if tokens.isEmpty then .error .empty else TokenParser.program tokens

end TemplatedForms
