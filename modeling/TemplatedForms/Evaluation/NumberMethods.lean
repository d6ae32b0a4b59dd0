import TemplatedForms.Evaluation.Routine
import TemplatedForms.Number.Radix

namespace TemplatedForms

open Number

variable {φ : Type}

namespace NumberMethod

def toFixed (x : Float) (places : Nat) : String :=
  match binary? x with
  | some b => (if b.significand = 0 then { b with negative := false } else b).fixed places
  | none => text x

/-- An integer of magnitude at most `2 ^ 64` in a base; the limit itself counts as one less. -/
def integerText? (radix : Nat) (i : Int) : Option String :=
  if i.natAbs ≤ UInt64.size then
    some ((if i < 0 then "-" else "") ++ inRadix radix (min i.natAbs (UInt64.size - 1)))
  else none

def toRadix? (x : Float) (radix : Nat) : Option String :=
  if radix = 10 || !x.isFinite then some (text x) else (integer? x).bind (integerText? radix)

end NumberMethod

open NumberMethod

def numberMethod? (x : Float) (name : String) : Option (Args φ → Routine φ Value) :=
  match name with
  | "toFixed" => some fun args ↦ Routine.ofExcept do
    let invalid := args.invalid "toFixed() digits argument must be between 0 and 100"
    match ← args.whole 0 (.int 0) with
    | .int (.ofNat places) => if places ≤ 100 then return .string (toFixed x places) else invalid
    | _ => invalid
  | "toString" => some fun args ↦ Routine.ofExcept do
    let invalid := args.invalid "toString() radix must be between 2 and 36"
    match ← args.whole 0 (.int 10) with
    | .int (.ofNat radix) =>
      if 2 ≤ radix ∧ radix ≤ 36 then
        match toRadix? x radix with
        | some s => return .string s
        | none => args.invalid "only integers can be printed in a radix other than 10"
      else invalid
    | _ => invalid
  | _ => none

end TemplatedForms
