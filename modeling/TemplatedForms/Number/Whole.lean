import TemplatedForms.Number.Binary

namespace TemplatedForms.Number

inductive Whole
  | negInfinity
  | int (i : Int)
  | infinity
deriving DecidableEq

namespace Whole

/-- A double without its fraction; NaN counts as zero. -/
def ofFloat (x : Float) : Whole :=
  match binary? x with
  | some b => .int (b.signed b.wholePart)
  | none => if x.isNaN then .int 0 else if x < 0 then .negInfinity else .infinity

def toFloat : Whole → Float
  | .negInfinity => Number.negativeInfinity
  | .int i => Float.ofInt i
  | .infinity => Number.positiveInfinity

def clamp (len : Nat) : Whole → Nat
  | .negInfinity => 0
  | .int i => min i.toNat len
  | .infinity => len

def relative (len : Nat) : Whole → Nat
  | .negInfinity => 0
  | .int i => if i < 0 then (len + i).toNat else min i.toNat len
  | .infinity => len

def index? (len : Nat) : Whole → Option Nat
  | .int (.ofNat n) => if n < len then some n else none
  | _ => none

def relativeIndex? (len : Nat) : Whole → Option Nat
  | .int i => (if i < 0 then int (len + i) else int i).index? len
  | _ => none

def count? : Whole → Option Nat
  | .negInfinity => some 0
  | .int i => some i.toNat
  | .infinity => none

end Whole

end TemplatedForms.Number
