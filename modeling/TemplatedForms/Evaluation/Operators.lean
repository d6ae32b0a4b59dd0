import TemplatedForms.Evaluation.Error
import TemplatedForms.Expression.Basic
import TemplatedForms.Value.Equality

namespace TemplatedForms

open Number

namespace Value

def add (a b : Value) : Value :=
  match toPrimitive a, toPrimitive b with
  | .string s, b => .string (s ++ b.display)
  | a, .string t => .string (a.display ++ t)
  | a, b => .number (a.toNumber + b.toNumber)

def ordered (test : Ordering → Bool) (a b : Value) : Value := .bool ((order? a b).any test)

def itemAt : Value → Nat → Value
  | .array items, i => items.getD i .undefined
  | .string s, i => (s.toList[i]?).elim .undefined .ofChar
  | _, _ => .undefined

/-- The position that a property name spells: digits after at most one plus sign. -/
def position? (property : String) : Option Nat :=
  let digits := match property.toList with
    | '+' :: cs => cs
    | cs => cs
  if digits.isEmpty || !digits.all Char.isDigit then none else some (ofDigits digits)

def property (target : Value) (name : String) : Except EvalError Value :=
  match target with
  | .undefined | .null => .error (.propertyOfNothing target.display name)
  | .object members => .ok ((members.lookup name).getD .undefined)
  | .bool _ | .number _ => .ok .undefined
  | .string s =>
    .ok (if name = "length" then .ofNat s.length else ((position? name).map target.itemAt).getD .undefined)
  | .array items =>
    .ok (if name = "length" then .ofNat items.length
      else ((position? name).map target.itemAt).getD .undefined)

def index (target key : Value) : Except EvalError Value :=
  let atNumber (x : Float) : Value :=
    match integer? x with
    | some (.ofNat i) => target.itemAt i
    | _ => .undefined
  match target, key with
  | .string _, .number x => .ok (atNumber x)
  | .array _, .number x => .ok (atNumber x)
  | _, _ => target.property key.display

end Value

open Value

def UnaryOp.apply (op : UnaryOp) (v : Value) : Value :=
  match op with
  | .not => .bool !v.isTruthy
  | .neg => .number (-v.toNumber)
  | .plus => .number v.toNumber
  | .typeOf => .string v.typeName

def BinaryOp.apply (op : BinaryOp) (a b : Value) : Value :=
  match op with
  | .add => a.add b
  | .sub => .number (a.toNumber - b.toNumber)
  | .mul => .number (a.toNumber * b.toNumber)
  | .div => .number (a.toNumber / b.toNumber)
  | .rem => .number (remainder a.toNumber b.toNumber)
  | .strictEq => .bool (strictEquals a b)
  | .strictNe => .bool !strictEquals a b
  | .looseEq => .bool (looseEquals a b)
  | .looseNe => .bool !looseEquals a b
  | .lt => ordered (·.isLT) a b
  | .le => ordered (·.isLE) a b
  | .gt => ordered (·.isGT) a b
  | .ge => ordered (·.isGE) a b

/-- The value of the left operand decides whether the right one is left out. -/
def LogicalOp.decides (op : LogicalOp) (v : Value) : Bool :=
  match op with
  | .and => !v.isTruthy
  | .or => v.isTruthy
  | .nullish => !v.isNullish

def Literal.value : Literal → Value
  | .number x => .number x
  | .string s => .string s
  | .bool b => .bool b
  | .null => .null
  | .undefined => .undefined

end TemplatedForms
