import TemplatedForms.Evaluation.Routine
import TemplatedForms.Value.Equality

namespace TemplatedForms

open Number

variable {φ : Type}

namespace ListMethod

/-- The values of a function at each item and its index, put behind the reversed `mapped`. -/
def mapOnto (f : φ) (mapped : List Value) (i : Nat) : List Value → Routine φ (List Value)
  | [] => pure mapped.reverse
  | v :: vs => do
    let w ← Routine.apply f [v, .ofNat i]
    mapOnto f (w :: mapped) (i + 1) vs

def filterOnto (f : φ) (kept : List Value) (i : Nat) : List Value → Routine φ (List Value)
  | [] => pure kept.reverse
  | v :: vs => do
    let w ← Routine.apply f [v, .ofNat i]
    filterOnto f (if w.isTruthy then v :: kept else kept) (i + 1) vs

/-- The first item for which the truth of a function is as `wanted`. -/
def search (f : φ) (wanted : Bool) (i : Nat) : List Value → Routine φ (Option Value)
  | [] => pure none
  | v :: vs => do
    let w ← Routine.apply f [v, .ofNat i]
    if w.isTruthy = wanted then pure (some v) else search f wanted (i + 1) vs

def totalBytes : List String → Nat
  | [] => 0
  | s :: rest => s.utf8ByteSize + totalBytes rest

def join (separator : String) (items : List Value) : Except EvalError String := do
  let parts := Value.displayItems items
  checkLength (totalBytes parts + separator.utf8ByteSize * (parts.length - 1))
  return separator.intercalate parts

def slice (items : List Value) (start stop : Whole) : List Value :=
  (items.take (stop.relative items.length)).drop (start.relative items.length)

def at? (items : List Value) (i : Whole) : Option Value :=
  (i.relativeIndex? items.length).bind fun i ↦ items[i]?

def concat (items : List Value) : List Value → List Value
  | [] => items
  | .array more :: vs => concat (items ++ more) vs
  | v :: vs => concat (items ++ [v]) vs

def flatten : Nat → List Value → List Value
  | 0, vs => vs
  | depth + 1, vs => vs.flatMap fun
    | .array inner => flatten depth inner
    | v => [v]

mutual

def leaves : List Value → List Value
  | [] => []
  | v :: vs => leavesOf v ++ leaves vs

def leavesOf : Value → List Value
  | .array inner => leaves inner
  | .undefined => [.undefined]
  | .null => [.null]
  | .bool b => [.bool b]
  | .number x => [.number x]
  | .string s => [.string s]
  | .object members => [.object members]

end

def flat (items : List Value) (depth : Whole) : List Value :=
  match depth.count? with
  | some n => flatten n items
  | none => leaves items

/-- Puts an item into a list that is sorted backwards: before the first item that it does not belong
before. `passed` are the items before which it does belong, reversed. -/
def insertBy (after : Value → Value → Bool) (item : Value) (passed : List Value) : List Value → List Value
  | [] => passed.reverse ++ [item]
  | v :: vs =>
    if after v item then insertBy after item (v :: passed) vs else passed.reverse ++ item :: v :: vs

/-- Sorts by insertion; `sorted` is the part that is sorted already, backwards. -/
def sortOnto (after : Value → Value → Bool) (sorted : List Value) : List Value → List Value
  | [] => sorted.reverse
  | v :: vs => sortOnto after (insertBy after v [] sorted) vs

/-- As `insertBy`, asking a function for the order of two items; the first belongs after the second
when its value is positive. -/
def insertWith (f : φ) (item : Value) (passed : List Value) : List Value → Routine φ (List Value)
  | [] => pure (passed.reverse ++ [item])
  | v :: vs => do
    let w ← Routine.apply f [v, item]
    if 0 < w.toNumber then insertWith f item (v :: passed) vs
    else pure (passed.reverse ++ item :: v :: vs)

def sortWith (f : φ) (sorted : List Value) : List Value → Routine φ (List Value)
  | [] => pure sorted.reverse
  | v :: vs => do
    let sorted ← insertWith f v [] sorted
    sortWith f sorted vs

def sort (items : List Value) : List Value :=
  sortOnto (fun a b ↦ Value.defaultOrder a b == .gt) [] items

end ListMethod

open ListMethod

def listMethod? (items : List Value) (name : String) : Option (Args φ → Routine φ Value) :=
  let len := items.length
  let ofFunction (f : φ → Routine φ Value) : Option (Args φ → Routine φ Value) :=
    some fun args ↦ do f (← args.function 0)
  let ofArgs (f : Args φ → Except EvalError Value) : Option (Args φ → Routine φ Value) :=
    some fun args ↦ Routine.ofExcept (f args)
  match name with
  | "map" => ofFunction fun f ↦ Value.array <$> mapOnto f [] 0 items
  | "filter" => ofFunction fun f ↦ Value.array <$> filterOnto f [] 0 items
  | "find" => ofFunction fun f ↦ (Option.getD · .undefined) <$> search f true 0 items
  | "some" => ofFunction fun f ↦ (fun r ↦ .bool r.isSome) <$> search f true 0 items
  | "every" => ofFunction fun f ↦ (fun r ↦ .bool r.isNone) <$> search f false 0 items
  | "includes" => ofArgs fun args ↦ do
    let needle ← args.value 0
    return .bool (items.any fun item ↦ Value.sameValueZero item needle)
  | "indexOf" => ofArgs fun args ↦ do
    let needle ← args.value 0
    return match items.findIdx? fun item ↦ Value.strictEquals item needle with
      | some i => .ofNat i
      | none => .number (-1)
  | "join" => ofArgs fun args ↦ do
    let separator ← args.value 0
    return .string (← join (if separator.isUndefined then "," else separator.display) items)
  | "toString" => ofArgs fun _ ↦ return .string (Value.array items).display
  | "slice" => ofArgs fun args ↦ do
    let start ← args.whole 0 (.int 0)
    return .array (slice items start (← args.whole 1 (.int len)))
  | "concat" => ofArgs fun args ↦ return .array (concat items (← args.values))
  | "at" => ofArgs fun args ↦ do
    return (at? items (← args.whole 0 (.int 0))).getD .undefined
  | "reverse" => ofArgs fun _ ↦ return .array items.reverse
  | "flat" => ofArgs fun args ↦ return .array (flat items (← args.whole 0 (.int 1)))
  | "sort" => some fun args ↦
    match args.items.head? with
    | some (.function f) => Value.array <$> sortWith f [] items
    | some (.value .undefined) | none => pure (.array (sort items))
    | some (.value _) =>
      Routine.ofExcept (args.invalid "The comparison function must be either a function or undefined")
  | _ => none

end TemplatedForms
