import TemplatedForms.Number.Decimal

namespace TemplatedForms.Number

inductive Tie
  | toEven
  | up
deriving DecidableEq

/-- Compares `a * 10 ^ i` with `n * 2 ^ j`. -/
def compareScaled (a : Nat) (i : Int) (n : Nat) (j : Int) : Ordering :=
  compare (a * Nat.pow 10 i.toNat * Nat.pow 2 (-j).toNat) (n * Nat.pow 2 j.toNat * Nat.pow 10 (-i).toNat)

namespace Binary

/-- Below a power of two the neighbouring double is half as far away as above it. -/
def narrowBelow (x : Binary) : Bool := x.significand == Nat.pow 2 52 && -1074 < x.exponent

/-- A decimal reads back as `x` when it lies among the reals that round to `x`. -/
def readsBack (x : Binary) (d : Decimal) : Bool :=
  let low := if x.narrowBelow then 4 * x.significand - 1 else 4 * x.significand - 2
  let high := 4 * x.significand + 2
  let closed := x.significand % 2 == 0
  let below := compareScaled d.digits d.exponent low (x.exponent - 2)
  let above := compareScaled d.digits d.exponent high (x.exponent - 2)
  (below == .gt || (closed && below == .eq)) && (above == .lt || (closed && above == .eq))

/-- The least `k` for which the magnitude of `x` is below `10 ^ k`. -/
def scale (x : Binary) : Int :=
  let k := (x.significand.log2 + x.exponent) * 30103 / 100000 + 1
  if compareScaled 1 k x.significand x.exponent == .gt then k else k + 1

/-- The nearer neighbour of `x` on the grid of multiples of `10 ^ exponent` that reads back. -/
def onGrid? (tie : Tie) (x : Binary) (exponent : Int) : Option Decimal :=
  let n := x.numerator * Nat.pow 10 (-exponent).toNat
  let d := x.denominator * Nat.pow 10 exponent.toNat
  let low : Decimal := ⟨n / d, exponent⟩
  let high : Decimal := ⟨n / d + 1, exponent⟩
  match x.readsBack low, x.readsBack high with
  | true, true =>
    match compare (2 * (n % d)) d with
    | .lt => some low
    | .gt => some high
    | .eq =>
      match tie with
      | .toEven => some (if low.digits % 2 == 0 then low else high)
      | .up => some high
  | true, false => some low
  | false, true => some high
  | false, false => none

def exact (x : Binary) : Decimal :=
  ⟨x.numerator * Nat.pow 5 (-x.exponent).toNat, min x.exponent 0⟩

/-- The first grid, from coarse to fine, that holds a decimal which reads back as `x`. -/
def shortest (tie : Tie) (x : Binary) : Decimal :=
  if x.significand = 0 then ⟨0, 0⟩
  else ((List.range 17).findSome? fun n : Nat ↦ x.onGrid? tie (x.scale - 1 - n)).getD x.exact

end Binary

end TemplatedForms.Number
