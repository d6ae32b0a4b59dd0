import TemplatedForms.Evaluation.Error
import TemplatedForms.Number.Whole
import TemplatedForms.Value.Basic

namespace TemplatedForms

/-- A computation that calls functions of type `φ`. -/
inductive Routine (φ α : Type)
  | done (a : α)
  | fail (e : EvalError)
  | call (f : φ) (args : List Value) (next : Value → Routine φ α)

namespace Routine

variable {φ α β : Type}

def bind : Routine φ α → (α → Routine φ β) → Routine φ β
  | .done a, k => k a
  | .fail e, _ => .fail e
  | .call f args next, k => .call f args fun v ↦ (next v).bind k

instance : Monad (Routine φ) where
  pure := .done
  bind := bind

def ofExcept : Except EvalError α → Routine φ α
  | .ok a => .done a
  | .error e => .fail e

instance : MonadLift (Except EvalError) (Routine φ) := ⟨ofExcept⟩

def apply (f : φ) (args : List Value) : Routine φ Value := .call f args .done

end Routine

inductive Arg (φ : Type)
  | value (v : Value)
  | function (f : φ)

structure Args (φ : Type) where
  callee : String
  items : List (Arg φ)

namespace Args

variable {φ α : Type}

def invalid (args : Args φ) (reason : String) : Except EvalError α :=
  .error (.invalidArgument args.callee reason)

def value (args : Args φ) (i : Nat) : Except EvalError Value :=
  match args.items[i]? with
  | none => .ok .undefined
  | some (.value v) => .ok v
  | some (.function _) => args.invalid ("argument " ++ toString (i + 1) ++ " must not be a function")

def values (args : Args φ) : Except EvalError (List Value) :=
  (List.range args.items.length).mapM args.value

def function (args : Args φ) (i : Nat) : Except EvalError φ :=
  match args.items[i]? with
  | some (.function f) => .ok f
  | _ => args.invalid ("argument " ++ toString (i + 1) ++ " must be an arrow function")

def text (args : Args φ) (i : Nat) : Except EvalError String := do
  return (← args.value i).display

def whole (args : Args φ) (i : Nat) (default : Number.Whole) : Except EvalError Number.Whole := do
  let v ← args.value i
  if v.isUndefined then return default
  return Number.Whole.ofFloat v.toNumber

end Args

end TemplatedForms
