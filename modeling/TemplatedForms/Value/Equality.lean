import TemplatedForms.Value.Basic

namespace TemplatedForms.Value

open Number

mutual

/-- Arrays are equal item by item, objects member by member in any order; NaN differs from itself. -/
def strictEquals : Value → Value → Bool
  | .undefined, .undefined => true
  | .null, .null => true
  | .bool a, .bool b => a == b
  | .number x, .number y => x == y
  | .string s, .string t => s == t
  | .array xs, .array ys => itemsEqual xs ys
  | .object xs, .object ys => xs.length == ys.length && membersEqual xs ys
  | _, _ => false

def itemsEqual : List Value → List Value → Bool
  | [], [] => true
  | x :: xs, y :: ys => strictEquals x y && itemsEqual xs ys
  | _, _ => false

def membersEqual : List (String × Value) → List (String × Value) → Bool
  | [], _ => true
  | (key, x) :: xs, ys =>
    (match ys.lookup key with
    | some y => strictEquals x y
    | none => false) && membersEqual xs ys

end

def toPrimitive : Value → Value
  | .array items => .string (display (.array items))
  | .object members => .string (display (.object members))
  | v => v

def isComposite : Value → Bool
  | .array _ | .object _ => true
  | _ => false

def boolToNumber : Value → Value
  | .bool b => .number (if b then 1 else 0)
  | v => v

def numericEquals : Value → Value → Bool
  | .number x, .string s => x == numeric s
  | .string s, .number y => numeric s == y
  | a, b => strictEquals a b

/-- Equality after conversion. Nullish values equal each other only; an array or object is compared
with a text or number by its text. -/
def looseEquals (a b : Value) : Bool :=
  if a.isNullish || b.isNullish then a.isNullish && b.isNullish
  else
    let a := boolToNumber a
    let b := boolToNumber b
    if isComposite a && !isComposite b then numericEquals (toPrimitive a) b
    else if !isComposite a && isComposite b then numericEquals a (toPrimitive b)
    else numericEquals a b

def sameValueZero : Value → Value → Bool
  | .number x, .number y => (x.isNaN && y.isNaN) || x == y
  | a, b => strictEquals a b

/-- Texts are ordered by code points, everything else as numbers; with NaN there is no order. -/
def order? (a b : Value) : Option Ordering :=
  match toPrimitive a, toPrimitive b with
  | .string s, .string t => some (compare s t)
  | a, b => compare? a.toNumber b.toNumber

def defaultOrder : Value → Value → Ordering
  | .undefined, .undefined => .eq
  | .undefined, _ => .gt
  | _, .undefined => .lt
  | a, b => compare a.display b.display

end TemplatedForms.Value
