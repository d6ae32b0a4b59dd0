namespace TemplatedForms.Number

/-- The number `± significand * 2 ^ exponent`. -/
structure Binary where
  negative : Bool
  significand : Nat
  exponent : Int
deriving DecidableEq

/-- The exact value of a finite double; `none` for NaN and the infinities. -/
def binary? (x : Float) : Option Binary :=
  match x.toModel.unpack with
  | .finite s m e _ => some ⟨s == .negative, m, e⟩
  | .zero s => some ⟨s == .negative, 0, -1074⟩
  | .infinity _ | .notANumber => none

namespace Binary

def numerator (x : Binary) : Nat := x.significand * Nat.pow 2 x.exponent.toNat

def denominator (x : Binary) : Nat := Nat.pow 2 (-x.exponent).toNat

def isInteger (x : Binary) : Bool := x.numerator % x.denominator == 0

def wholePart (x : Binary) : Nat := x.numerator / x.denominator

def signed (x : Binary) (n : Nat) : Int := if x.negative then -n else n

end Binary

def integer? (x : Float) : Option Int :=
  match binary? x with
  | some b => if b.isInteger then some (b.signed b.wholePart) else none
  | none => none

def positiveInfinity : Float := Float.ofBits 0x7FF0000000000000

def negativeInfinity : Float := Float.ofBits 0xFFF0000000000000

def notANumber : Float := Float.ofBits 0x7FF8000000000000

/-- The remainder of truncated division, with the sign of the dividend. -/
def remainder (x y : Float) : Float :=
  match binary? x, binary? y with
  | some a, some b =>
    if b.significand = 0 then notANumber
    else
      let exponent := min a.exponent b.exponent
      let r := (a.significand * Nat.pow 2 (a.exponent - exponent).toNat) %
        (b.significand * Nat.pow 2 (b.exponent - exponent).toNat)
      if r = 0 then (if a.negative then -0.0 else 0.0)
      else .ofModel (.pack (.round .binary64 (if a.negative then .negative else .positive) r exponent))
  | some _, none => if y.isNaN then notANumber else x
  | none, _ => notANumber

def compare? (x y : Float) : Option Ordering :=
  if x < y then some .lt else if y < x then some .gt else if x == y then some .eq else none

end TemplatedForms.Number
