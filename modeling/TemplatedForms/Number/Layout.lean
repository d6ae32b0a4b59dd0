import TemplatedForms.Number.Shortest

namespace TemplatedForms.Number

/-- The quotient rounded to the nearest integer, ties to even. -/
def roundedQuotient (n d : Nat) : Nat :=
  match compare (2 * (n % d)) d with
  | .lt => n / d
  | .gt => n / d + 1
  | .eq => n / d + n / d % 2

def withPoint (digits : List Char) (places : Nat) : String :=
  if places = 0 then String.ofList digits
  else
    let digits := List.replicate (places + 1 - digits.length) '0' ++ digits
    String.ofList (digits.take (digits.length - places) ++ '.' :: digits.drop (digits.length - places))

namespace Decimal

def digitChars (d : Decimal) : List Char := Nat.toDigits 10 d.digits

def stripped (d : Decimal) : Decimal :=
  let zeros := (d.digitChars.reverse.takeWhile (· == '0')).length
  if d.digits = 0 then ⟨0, 0⟩ else ⟨d.digits / Nat.pow 10 zeros, d.exponent + zeros⟩

def positional (d : Decimal) : String :=
  if 0 ≤ d.exponent then String.ofList (d.digitChars ++ List.replicate d.exponent.toNat '0')
  else withPoint d.digitChars (-d.exponent).toNat

def leadingExponent (d : Decimal) : Int := d.digitChars.length - 1 + d.exponent

def scientific (d : Decimal) : String :=
  let digits := d.digitChars
  let k := d.leadingExponent
  withPoint digits (digits.length - 1) ++ "e" ++ (if k < 0 then "-" else "+") ++ toString k.natAbs

end Decimal

namespace Binary

def sign (x : Binary) : String := if x.negative then "-" else ""

/-- The value rounded to a number of decimal places; ties go to even. -/
def fixed (x : Binary) (places : Nat) : String :=
  x.sign ++ withPoint (Nat.toDigits 10 (roundedQuotient (x.numerator * Nat.pow 10 places) x.denominator)) places

end Binary

/-- The text of a number: integers below `10 ^ 21` exactly, other numbers by their shortest digits in
positional notation, an equally near pair giving the greater. -/
def text (x : Float) : String :=
  match binary? x with
  | none => if x.isNaN then "NaN" else if x < 0 then "-Infinity" else "Infinity"
  | some b =>
    if b.significand = 0 then "0"
    else if b.isInteger && b.wholePart < Nat.pow 10 21 then b.sign ++ toString b.wholePart
    else b.sign ++ (b.shortest .up).stripped.positional

end TemplatedForms.Number
