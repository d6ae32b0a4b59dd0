namespace TemplatedForms

inductive UnaryOp
  | not
  | neg
  | plus
  | typeOf
deriving DecidableEq

inductive BinaryOp
  | add
  | sub
  | mul
  | div
  | rem
  | strictEq
  | strictNe
  | looseEq
  | looseNe
  | lt
  | le
  | gt
  | ge
deriving DecidableEq

inductive LogicalOp
  | and
  | or
  | nullish
deriving DecidableEq

inductive Literal
  | number (x : Float)
  | string (s : String)
  | bool (b : Bool)
  | null
  | undefined
deriving DecidableEq

inductive Expr
  | literal (l : Literal)
  | name (s : String)
  | array (items : List Expr)
  | object (members : List (String × Expr))
  | member (target : Expr) (property : String)
  | index (target key : Expr)
  | call (callee : Expr) (args : List Expr)
  | unary (op : UnaryOp) (operand : Expr)
  | binary (op : BinaryOp) (left right : Expr)
  | logical (op : LogicalOp) (left right : Expr)
  | conditional (test consequent alternate : Expr)
  | arrow (params : List String) (body : Expr)

structure Program where
  body : Expr
  explicitReturn : Bool

inductive Operator
  | binary (op : BinaryOp)
  | logical (op : LogicalOp)
deriving DecidableEq

namespace Operator

/-- Operators of a higher level bind tighter. -/
def level : Operator → Nat
  | .logical .nullish => 1
  | .logical .or => 2
  | .logical .and => 3
  | .binary .strictEq | .binary .strictNe | .binary .looseEq | .binary .looseNe => 4
  | .binary .lt | .binary .le | .binary .gt | .binary .ge => 5
  | .binary .add | .binary .sub => 6
  | .binary .mul | .binary .div | .binary .rem => 7

def apply : Operator → Expr → Expr → Expr
  | .binary op => .binary op
  | .logical op => .logical op

end Operator

end TemplatedForms
