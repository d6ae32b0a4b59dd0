import TemplatedForms.Evaluation.Globals
import TemplatedForms.Evaluation.Operators
import TemplatedForms.Expression.Parse

namespace TemplatedForms

/-- The state of an evaluation. The parameters of arrow functions are bound in scopes, the innermost first. -/
structure Interpreter where
  stepLimit : Nat
  steps : Nat
  scopes : List (Entries Value)

/-- A computation that goes on counting steps when it has failed. -/
def Evaluation (α : Type) := Interpreter → Except EvalError α × Interpreter

/-- An arrow function, as what it does with its arguments. -/
abbrev Function := List Value → Evaluation Value

namespace Evaluation

variable {α β : Type}

def bind (m : Evaluation α) (k : α → Evaluation β) : Evaluation β := fun i ↦
  match m i with
  | (.ok a, i) => k a i
  | (.error e, i) => (.error e, i)

instance : Monad Evaluation where
  pure a := fun i ↦ (.ok a, i)
  bind := bind

def ofExcept (r : Except EvalError α) : Evaluation α := fun i ↦ (r, i)

instance : MonadLift (Except EvalError) Evaluation := ⟨ofExcept⟩

def fail (e : EvalError) : Evaluation α := fun i ↦ (.error e, i)

def tick : Evaluation Unit := fun i ↦
  let i := { i with steps := i.steps + 1 }
  (if i.steps ≤ i.stepLimit then .ok () else .error (.stepLimit i.stepLimit), i)

def within (scope : Entries Value) (m : Evaluation α) : Evaluation α := fun i ↦
  let (r, i) := m { i with scopes := scope :: i.scopes }
  (r, { i with scopes := i.scopes.tail })

def ofRoutine : Routine Function α → Evaluation α
  | .done a => fun i ↦ (.ok a, i)
  | .fail e => fun i ↦ (.error e, i)
  | .call f args next => fun i ↦
    match f args i with
    | (.ok v, i) => ofRoutine (next v) i
    | (.error e, i) => (.error e, i)

end Evaluation

namespace Interpreter

def defaultStepLimit : Nat := 100000

def new (stepLimit : Nat) : Interpreter := ⟨stepLimit, 0, []⟩

def isBound (i : Interpreter) (name : String) : Bool := i.scopes.any fun scope ↦ scope.contains name

/-- The value of a name: of the innermost parameter that has it, else of a constant. -/
def lookup? (i : Interpreter) (name : String) : Option Value :=
  match i.scopes.findSome? fun scope ↦ scope.get? name with
  | some v => some v
  | none =>
    match name with
    | "NaN" => some (.number Number.notANumber)
    | "Infinity" => some (.number Number.positiveInfinity)
    | _ => none

end Interpreter

open Evaluation

def lookup (name : String) : Evaluation Value := fun i ↦
  match i.lookup? name with
  | some v => (.ok v, i)
  | none => (.error (.undefinedVariable name), i)

/-- Parameters with their arguments. Missing arguments are undefined, superfluous ones are left out. -/
def bindParams : List String → List Value → List (String × Value)
  | [], _ => []
  | p :: ps, [] => (p, .undefined) :: bindParams ps []
  | p :: ps, v :: vs => (p, v) :: bindParams ps vs

def invoke (params : List String) (body : Evaluation Value) : Function := fun args ↦ do
  tick
  within (Entries.ofPairs (bindParams params args)) body

def boundedText (v : Value) : Except EvalError Value :=
  match v with
  | .string s => do
    checkLength s.utf8ByteSize
    return v
  | v => return v

/-- The namespace that an expression names, unless a parameter has its name. -/
def namespaceOf? (e : Expr) (i : Interpreter) : Option String :=
  match e with
  | .name s => if !i.isBound s && isNamespace s then some s else none
  | _ => none

def isUnresolvable (e : Expr) (i : Interpreter) : Bool :=
  match e with
  | .name s => (i.lookup? s).isNone
  | _ => false

def inspect {α : Type} (f : Interpreter → α) : Evaluation α := fun i ↦ (.ok (f i), i)

mutual

def eval : Expr → Evaluation Value
  | .literal l => do
    tick
    return l.value
  | .name s => do
    tick
    lookup s
  | .array items => do
    tick
    return .array (← evalAll items)
  | .object members => do
    tick
    return .object (Entries.ofPairs (← evalMembers members))
  | .member target property => do
    tick
    let v ← eval target
    v.property property
  | .index target key => do
    tick
    let v ← eval target
    let k ← eval key
    v.index k
  | .call (.member target property) args => do
    tick
    match ← inspect (namespaceOf? target) with
    | some space => callGlobal space property (← evalArgs args)
    | none =>
      let v ← eval target
      let args ← evalArgs args
      ofRoutine (callMethod v property args)
  | .call (.name s) args => do
    tick
    if ← inspect fun i ↦ !i.isBound s && isGlobalFunction s then
      callGlobalFunction s (← evalArgs args)
    else
      let _ ← lookup s
      fail (.notCallable s)
  | .call callee _ => do
    tick
    let v ← eval callee
    fail (.notCallable v.display)
  | .unary op operand => do
    tick
    if ← inspect fun i ↦ op = .typeOf && isUnresolvable operand i then return .string "undefined"
    return op.apply (← eval operand)
  | .binary op left right => do
    tick
    let a ← eval left
    let b ← eval right
    boundedText (op.apply a b)
  | .logical op left right => do
    tick
    let a ← eval left
    if op.decides a then return a
    eval right
  | .conditional test consequent alternate => do
    tick
    if (← eval test).isTruthy then eval consequent else eval alternate
  | .arrow _ _ => do
    tick
    fail .unexpectedArrow

def evalAll : List Expr → Evaluation (List Value)
  | [] => return []
  | e :: es => do
    let v ← eval e
    return v :: (← evalAll es)

def evalMembers : List (String × Expr) → Evaluation (List (String × Value))
  | [] => return []
  | (key, e) :: ms => do
    let v ← eval e
    return (key, v) :: (← evalMembers ms)

def evalArgs : List Expr → Evaluation (List (Arg Function))
  | [] => return []
  | .arrow params body :: es => do
    return .function (invoke params (eval body)) :: (← evalArgs es)
  | e :: es => do
    let v ← eval e
    return .value v :: (← evalArgs es)

end

def Interpreter.run (i : Interpreter) (p : Program) : Except EvalError Value × Interpreter :=
  eval p.body { i with steps := 0, scopes := [] }

inductive ExecutionError
  | parse (e : ParseError)
  | eval (e : EvalError)
deriving DecidableEq

def ExecutionError.message : ExecutionError → String
  | .parse e => e.message
  | .eval e => e.message

def execute (stepLimit : Nat) (text : String) : Except ExecutionError Value :=
  match parse text with
  | .error e => .error (.parse e)
  | .ok p =>
    match ((Interpreter.new stepLimit).run p).1 with
    | .error e => .error (.eval e)
    | .ok v => .ok v

end TemplatedForms
