import TemplatedForms.Json.Basic
import TemplatedForms.Number.Decimal
import TemplatedForms.Text.CodePoint

namespace TemplatedForms

open Number

namespace Json

def isSpace (c : Char) : Bool := c == ' ' || c == '\n' || c == '\t' || c == '\r'

def skipSpace (cs : List Char) : List Char := cs.dropWhile isSpace

/-- A numeral as a significand with a power of ten. Of the digits, those that fit 64 bits count. -/
structure Significand where
  value : Nat
  exponent : Int

namespace Significand

/-- Digits before the point: those from the first that does not fit on count as zeros. -/
def whole (s : Significand) : List Char → Significand
  | [] => s
  | c :: cs =>
    let next := 10 * s.value + (c.toNat - '0'.toNat)
    if next < UInt64.size then whole ⟨next, s.exponent⟩ cs else ⟨s.value, s.exponent + (cs.length + 1)⟩

def fraction (s : Significand) : List Char → Significand
  | [] => s
  | c :: cs =>
    let next := 10 * s.value + (c.toNat - '0'.toNat)
    if next < UInt64.size then fraction ⟨next, s.exponent - 1⟩ cs else s

/-- The double with one rounding for the significand and one for each scaling by a power of ten of at
most 308; `none` when the number is too large. -/
def toFloat? (s : Significand) : Option Float :=
  let x := Float.ofNat s.value
  let scale (e : Nat) := Float.ofScientific 1 false e
  if 0 ≤ s.exponent then
    if s.value = 0 then some x
    else if s.exponent ≤ 308 then
      let y := x * scale s.exponent.toNat
      if y.isFinite then some y else none
    else none
  else
    let e := s.exponent.natAbs
    if e ≤ 308 then some (x / scale e)
    else if e ≤ 616 then some (x / scale 308 / scale (e - 308))
    else some (x / scale 308 / scale 308 / scale (min (e - 616) 308))

end Significand

/-- A number without leading zeros and with digits after its point. Integers outside the range of 64
bits, and a negative zero, are doubles. -/
def readNumber? (cs : List Char) : Option (JsonNumber × List Char) := do
  let (negative, cs) :=
    match cs with
    | '-' :: rest => (true, rest)
    | cs => (false, cs)
  let (n, rest) ← Numeral.read? cs
  if n.whole.isEmpty || (n.whole.head? == some '0' && n.whole.length != 1) || n.fraction == some [] then none
  else
    let s := Significand.whole ⟨0, 0⟩ n.whole
    if n.fraction.isNone && n.exponent.isNone && s.exponent = 0 && !negative then
      some (.int s.value, rest)
    else if n.fraction.isNone && n.exponent.isNone && s.exponent = 0 && 0 < s.value && s.value ≤ Nat.pow 2 63 then
      some (.int (-s.value), rest)
    else
      let s := s.fraction (n.fraction.getD [])
      let x ← Significand.toFloat? ⟨s.value, s.exponent + n.exponent.elim 0 ExponentPart.value⟩
      some (.float (if negative then -x else x), rest)

def readChars? : Nat → List Char → List Char → Option (String × List Char)
  | 0, _, _ => none
  | fuel + 1, read, cs =>
    match cs with
    | '"' :: rest => some (String.ofList read.reverse, rest)
    | '\\' :: 'u' :: rest =>
      match Text.readCodePoint? rest with
      | some (c, _, rest) => readChars? fuel (c :: read) rest
      | none => none
    | '\\' :: c :: rest =>
      match c with
      | '"' | '\\' | '/' => readChars? fuel (c :: read) rest
      | 'b' => readChars? fuel ('\x08' :: read) rest
      | 'f' => readChars? fuel ('\x0c' :: read) rest
      | 'n' => readChars? fuel ('\n' :: read) rest
      | 'r' => readChars? fuel ('\r' :: read) rest
      | 't' => readChars? fuel ('\t' :: read) rest
      | _ => none
    | c :: rest => if c.toNat < 32 || c == '\\' then none else readChars? fuel (c :: read) rest
    | [] => none

def readString? (cs : List Char) : Option (String × List Char) :=
  match cs with
  | '"' :: rest => readChars? (rest.length + 1) [] rest
  | _ => none

section Sequences

variable {α : Type}

def readElements? (element : List Char → Option (α × List Char)) (closing : Char) :
    Nat → List α → List Char → Option (List α × List Char)
  | 0, _, _ => none
  | fuel + 1, read, cs =>
    match element cs with
    | none => none
    | some (x, rest) =>
      match skipSpace rest with
      | ',' :: rest => readElements? element closing fuel (x :: read) (skipSpace rest)
      | c :: rest => if c == closing then some ((x :: read).reverse, rest) else none
      | [] => none

def readSequence? (element : List Char → Option (α × List Char)) (closing : Char) (cs : List Char) :
    Option (List α × List Char) :=
  match skipSpace cs with
  | c :: rest =>
    if c == closing then some ([], rest) else readElements? element closing (rest.length + 1) [] (c :: rest)
  | [] => none

end Sequences

def readMember? (value : List Char → Option (Json × List Char)) (cs : List Char) :
    Option ((String × Json) × List Char) := do
  let (key, rest) ← readString? cs
  match skipSpace rest with
  | ':' :: rest =>
    let (j, rest) ← value (skipSpace rest)
    some ((key, j), rest)
  | _ => none

def readValue? : Nat → List Char → Option (Json × List Char)
  | _, 'n' :: 'u' :: 'l' :: 'l' :: rest => some (.null, rest)
  | _, 't' :: 'r' :: 'u' :: 'e' :: rest => some (.bool true, rest)
  | _, 'f' :: 'a' :: 'l' :: 's' :: 'e' :: rest => some (.bool false, rest)
  | _, '"' :: rest => (readString? ('"' :: rest)).map fun (s, rest) ↦ (.string s, rest)
  | depth + 1, '[' :: rest => do
    let (items, rest) ← readSequence? (readValue? depth) ']' rest
    some (.array items, rest)
  | depth + 1, '\x7b' :: rest => do
    let (members, rest) ← readSequence? (readMember? (readValue? depth)) '\x7d' rest
    some (.object members, rest)
  | _, cs => (readNumber? cs).map fun (n, rest) ↦ (.number n, rest)

def nestingLimit : Nat := 127

/-- A whole text as one value. Members whose keys come more than once are all kept. -/
def parse? (text : String) : Option Json := do
  let (j, rest) ← readValue? nestingLimit (skipSpace text.toList)
  if (skipSpace rest).isEmpty then some j else none

mutual

/-- Of members with the same key the last one counts, in the place of the first. -/
def merged : Json → Json
  | .array items => .array (mergedItems items)
  | .object members => .object (Entries.ofPairs (mergedMembers members))
  | .null => .null
  | .bool b => .bool b
  | .number n => .number n
  | .string s => .string s

def mergedItems : List Json → List Json
  | [] => []
  | j :: js => merged j :: mergedItems js

def mergedMembers : List (String × Json) → List (String × Json)
  | [] => []
  | (key, j) :: ms => (key, merged j) :: mergedMembers ms

end

def read? (text : String) : Option Json := (parse? text).map merged

end Json

end TemplatedForms
