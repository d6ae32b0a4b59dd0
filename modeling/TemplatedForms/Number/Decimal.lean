import TemplatedForms.Number.Binary

namespace TemplatedForms.Number

/-- The number `digits * 10 ^ exponent`. -/
structure Decimal where
  digits : Nat
  exponent : Int
deriving DecidableEq

def ofDigits (cs : List Char) : Nat :=
  cs.foldl (fun n c ↦ 10 * n + (c.toNat - '0'.toNat)) 0

/-- The nearest double, ties to even. Exponents far outside the range of doubles are not expanded. -/
def Decimal.toFloat (d : Decimal) : Float :=
  if d.digits = 0 then 0
  else if 310 < d.exponent then positiveInfinity
  else if d.exponent + d.digits.log2 / 3 + 1 < -330 then 0
  else Float.ofScientific d.digits (d.exponent < 0) d.exponent.natAbs

structure ExponentPart where
  mark : Char
  sign : Option Char
  digits : List Char
deriving DecidableEq

namespace ExponentPart

def text (e : ExponentPart) : List Char := e.mark :: e.sign.toList ++ e.digits

def value (e : ExponentPart) : Int :=
  if e.sign = some '-' then -ofDigits e.digits else ofDigits e.digits

def readSign (cs : List Char) : Option Char × List Char :=
  match cs with
  | '+' :: rest => (some '+', rest)
  | '-' :: rest => (some '-', rest)
  | cs => (none, cs)

def read? (cs : List Char) : Option (ExponentPart × List Char) :=
  match cs with
  | mark :: rest =>
    if mark = 'e' ∨ mark = 'E' then
      let (sign, rest) := readSign rest
      let digits := rest.takeWhile Char.isDigit
      if digits.isEmpty then none else some (⟨mark, sign, digits⟩, rest.dropWhile Char.isDigit)
    else none
  | [] => none

end ExponentPart

structure Numeral where
  whole : List Char
  fraction : Option (List Char)
  exponent : Option ExponentPart
deriving DecidableEq

namespace Numeral

def text (n : Numeral) : List Char :=
  n.whole ++ (n.fraction.elim [] fun ds ↦ '.' :: ds) ++ n.exponent.elim [] ExponentPart.text

def decimal (n : Numeral) : Decimal :=
  let fraction := n.fraction.getD []
  ⟨ofDigits (n.whole ++ fraction), n.exponent.elim 0 ExponentPart.value - fraction.length⟩

def toFloat (n : Numeral) : Float := n.decimal.toFloat

def readFraction (cs : List Char) : Option (List Char) × List Char :=
  match cs with
  | '.' :: rest => (some (rest.takeWhile Char.isDigit), rest.dropWhile Char.isDigit)
  | cs => (none, cs)

/-- The longest numeral at the start of a text, with at least one digit before or after the point. -/
def read? (cs : List Char) : Option (Numeral × List Char) :=
  let whole := cs.takeWhile Char.isDigit
  let (fraction, rest) := readFraction (cs.dropWhile Char.isDigit)
  if whole.isEmpty && (fraction.getD []).isEmpty then none
  else
    match ExponentPart.read? rest with
    | some (exponent, rest) => some (⟨whole, fraction, some exponent⟩, rest)
    | none => some (⟨whole, fraction, none⟩, rest)

end Numeral

def readFloat? (cs : List Char) : Option Float :=
  let (negative, cs) :=
    match cs with
    | '+' :: rest => (false, rest)
    | '-' :: rest => (true, rest)
    | cs => (false, cs)
  match Numeral.read? cs with
  | some (n, []) => some (if negative then -n.toFloat else n.toFloat)
  | _ => none

end TemplatedForms.Number
