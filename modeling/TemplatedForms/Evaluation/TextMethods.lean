import TemplatedForms.Evaluation.Routine
import TemplatedForms.Text.Casing
import TemplatedForms.Text.Search

namespace TemplatedForms

open Number

variable {φ : Type}

namespace TextMethod

def substring (s : String) (start stop : Nat) : String :=
  String.ofList ((s.toList.take stop).drop start)

def includes (s t : String) (start : Whole) : Bool :=
  Text.contains t.toList (s.toList.drop (start.clamp s.length))

def startsWith (s t : String) (start : Whole) : Bool :=
  t.toList.isPrefixOf (s.toList.drop (start.clamp s.length))

def endsWith (s t : String) (stop : Whole) : Bool :=
  t.toList.isSuffixOf (s.toList.take (stop.clamp s.length))

def indexOf? (s t : String) (start : Whole) : Option Nat :=
  let start := start.clamp s.length
  (Text.find? t.toList (s.toList.drop start)).map fun i ↦ start + i

def slice (s : String) (start stop : Whole) : String :=
  substring s (start.relative s.length) (stop.relative s.length)

/-- As `slice`, with the positions in either order and negative ones at the start. -/
def between (s : String) (a b : Whole) : String :=
  let a := a.clamp s.length
  let b := b.clamp s.length
  substring s (min a b) (max a b)

def charAt (s : String) (i : Whole) : String :=
  match (i.index? s.length).bind fun i ↦ s.toList[i]? with
  | some c => String.singleton c
  | none => ""

def at? (s : String) (i : Whole) : Option Char :=
  (i.relativeIndex? s.length).bind fun i ↦ s.toList[i]?

def split (s separator : String) : List String :=
  if separator.isEmpty then s.toList.map String.singleton
  else (Text.pieces separator.toList s.toList).map String.ofList

/-- What has to be put before or behind a text to make it `target` characters long. -/
def padding (s fill : String) (target : Whole) : Except EvalError String :=
  if fill.isEmpty then .ok ""
  else
    match target with
    | .negInfinity => .ok ""
    | .infinity => .error (.stringTooLong maxStringLength)
    | .int n =>
      if n ≤ s.length then .ok ""
      else if maxStringLength < n then .error (.stringTooLong maxStringLength)
      else do
        let padding := Text.cycled fill (n.toNat - s.length)
        checkLength (padding.utf8ByteSize + s.utf8ByteSize)
        return padding

def repeated (s : String) (n : Nat) : Except EvalError String := do
  if s.isEmpty || n = 0 then return ""
  checkLength (n * s.utf8ByteSize)
  return Text.repeated s n

def concat (s : String) : List Value → Except EvalError String
  | [] => .ok s
  | v :: vs => do
    let part := v.display
    checkLength (s.utf8ByteSize + part.utf8ByteSize)
    concat (s ++ part) vs

/-- Pieces of a text with another text between them, put behind `out`. -/
def joinOnto (replacement out : String) : List (List Char) → Except EvalError String
  | [] => .ok out
  | piece :: pieces => do
    checkLength (out.utf8ByteSize + replacement.utf8ByteSize)
    joinOnto replacement (out ++ replacement ++ String.ofList piece) pieces

/-- As `joinOnto`, with the texts between the pieces given by a function of the pattern and of the
position at which it occurs. -/
def fillOnto (pattern : String) (f : φ) (position : Nat) (out : String) :
    List (List Char) → Routine φ String
  | [] => pure out
  | piece :: pieces => do
    let v ← Routine.apply f [.string pattern, .ofNat position]
    let text := v.display
    checkLength (out.utf8ByteSize + text.utf8ByteSize)
    fillOnto pattern f (position + pattern.length + piece.length) (out ++ text ++ String.ofList piece) pieces

def replacedPieces (all : Bool) (pattern s : String) : List (List Char) :=
  if all then Text.pieces pattern.toList s.toList
  else
    match Text.cut? pattern.toList s.toList with
    | some (before, after) => [before, after]
    | none => [s.toList]

def replace (all : Bool) (s : String) (args : Args φ) : Routine φ String := do
  let pattern ← args.text 0
  match replacedPieces all pattern s with
  | [] => pure ""
  | first :: rest =>
    let out := String.ofList first
    match (args.items[1]? : Option (Arg φ)) with
    | some (.function f) => fillOnto pattern f first.length out rest
    | some (.value v) => joinOnto v.display out rest
    | none => joinOnto "undefined" out rest

end TextMethod

open TextMethod

def textMethod? (s : String) (name : String) : Option (Args φ → Routine φ Value) :=
  let len := s.length
  let ofText (t : String) : Option (Args φ → Routine φ Value) := some fun _ ↦ pure (.string t)
  let ofArgs (f : Args φ → Except EvalError Value) : Option (Args φ → Routine φ Value) :=
    some fun args ↦ Routine.ofExcept (f args)
  match name with
  | "toLowerCase" => ofText (Text.lower s)
  | "toUpperCase" => ofText (Text.upper s)
  | "trim" => ofText (Text.trim s)
  | "trimStart" => ofText (Text.trimStart s)
  | "trimEnd" => ofText (Text.trimEnd s)
  | "toString" => ofText s
  | "includes" => ofArgs fun args ↦ do
    let start ← args.whole 1 (.int 0)
    return .bool (includes s (← args.text 0) start)
  | "startsWith" => ofArgs fun args ↦ do
    let start ← args.whole 1 (.int 0)
    return .bool (startsWith s (← args.text 0) start)
  | "endsWith" => ofArgs fun args ↦ do
    let stop ← args.whole 1 (.int len)
    return .bool (endsWith s (← args.text 0) stop)
  | "indexOf" => ofArgs fun args ↦ do
    let start ← args.whole 1 (.int 0)
    return match indexOf? s (← args.text 0) start with
      | some i => .ofNat i
      | none => .number (-1)
  | "replace" => some fun args ↦ Value.string <$> replace false s args
  | "replaceAll" => some fun args ↦ Value.string <$> replace true s args
  | "split" => ofArgs fun args ↦ do
    let separator ← args.value 0
    let limit ← args.value 1
    let parts := if separator.isUndefined then [s] else split s separator.display
    let limit := if limit.isUndefined then none else (Whole.ofFloat limit.toNumber).count?
    return .array ((limit.elim parts parts.take).map .string)
  | "slice" => ofArgs fun args ↦ do
    let start ← args.whole 0 (.int 0)
    return .string (slice s start (← args.whole 1 (.int len)))
  | "substring" => ofArgs fun args ↦ do
    let a ← args.whole 0 (.int 0)
    return .string (between s a (← args.whole 1 (.int len)))
  | "padStart" => ofArgs fun args ↦ do
    let target ← args.whole 0 (.int 0)
    let fill ← args.value 1
    return .string ((← padding s (if fill.isUndefined then " " else fill.display) target) ++ s)
  | "padEnd" => ofArgs fun args ↦ do
    let target ← args.whole 0 (.int 0)
    let fill ← args.value 1
    return .string (s ++ (← padding s (if fill.isUndefined then " " else fill.display) target))
  | "charAt" => ofArgs fun args ↦ do
    return .string (charAt s (← args.whole 0 (.int 0)))
  | "at" => ofArgs fun args ↦ do
    return (at? s (← args.whole 0 (.int 0))).elim .undefined .ofChar
  | "repeat" => ofArgs fun args ↦ do
    let count ← args.whole 0 (.int 0)
    match count with
    | .int (.ofNat n) => return .string (← repeated s n)
    | _ => args.invalid ("Invalid count value: " ++ text count.toFloat)
  | "concat" => ofArgs fun args ↦ do
    return .string (← concat s (← args.values))
  | _ => none

end TemplatedForms
