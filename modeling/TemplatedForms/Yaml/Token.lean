import TemplatedForms.Yaml.Scalar
import TemplatedForms.Text.Search

namespace TemplatedForms.Yaml

structure TagName where
  handle : String
  suffix : String
deriving DecidableEq

inductive Bracket
  | sequence
  | mapping
deriving DecidableEq

inductive Token
  | version (major minor : Nat)
  | tagHandle (handle meaning : String)
  | documentStart
  | documentEnd
  | blockStart (kind : Bracket)
  | blockEnd
  | flowStart (kind : Bracket)
  | flowEnd (kind : Bracket)
  | blockEntry
  | flowEntry
  | key
  | value
  | alias (name : String)
  | anchor (name : String)
  | tag (name : TagName)
  | scalar (s : Scalar)
deriving DecidableEq

namespace Cursor

def anchorName? (c : Cursor) : Option (String × Cursor) :=
  let name := c.takeWhile isNameChar
  let c := c.advance name.length
  let ended :=
    match c.rest with
    | [] => true
    | ch :: _ => isBlank ch || isBreak ch || "?:,]\x7d%@\x60".toList.contains ch
  if name.isEmpty || !ended then none else some (String.ofList name, c)

def tagHandle? (c : Cursor) : Option (List Char × Cursor) :=
  match c.rest with
  | '!' :: _ =>
    let c := c.advance 1
    let name := c.takeWhile isNameChar
    let c := c.advance name.length
    match c.rest with
    | '!' :: _ => some ('!' :: name ++ ['!'], c.advance 1)
    | _ => some ('!' :: name, c)
  | _ => none

def escapedByte? (c : Cursor) : Option (Nat × Cursor) :=
  match c.rest with
  | '%' :: a :: b :: _ => do
    let a ← Text.hexValue? a
    let b ← Text.hexValue? b
    some (16 * a + b, c.advance 3)
  | _ => none

/-- A character whose bytes are written after percent signs; `n` of them come after the first, with
`value` read so far. -/
def continuation? : Nat → Nat → Cursor → Option (Nat × Cursor)
  | 0, value, c => some (value, c)
  | n + 1, value, c => do
    let (b, c) ← c.escapedByte?
    if b / 64 = 2 then continuation? n (value * 64 + b % 64) c else none

def escapedChar? (c : Cursor) : Option (Char × Cursor) := do
  let (b, c) ← c.escapedByte?
  let (n, c) ←
    if b < 128 then some (b, c)
    else if b / 32 = 6 then c.continuation? 1 (b % 32)
    else if b / 16 = 14 then c.continuation? 2 (b % 16)
    else if b / 8 = 30 then c.continuation? 3 (b % 8)
    else none
  some (Char.ofNat n, c)

def isTagChar (verbatim : Bool) (c : Char) : Bool :=
  isNameChar c || ";/?:@&=+$.!~*'()".toList.contains c || (verbatim && (c == ',' || c == '[' || c == ']'))

def tagChars? (verbatim : Bool) : Nat → List Char → Cursor → Option (List Char × Cursor)
  | 0, _, _ => none
  | fuel + 1, read, c =>
    match c.rest with
    | '%' :: _ =>
      match c.escapedChar? with
      | some (ch, c) => tagChars? verbatim fuel (ch :: read) c
      | none => none
    | ch :: _ =>
      if isTagChar verbatim ch then tagChars? verbatim fuel (ch :: read) (c.advance 1)
      else some (read.reverse, c)
    | [] => some (read.reverse, c)

def tagName? (inFlow : Bool) (c : Cursor) : Option (TagName × Cursor) := do
  let (name, c) ←
    match c.rest with
    | '!' :: '<' :: _ => do
      let (suffix, c) ← (c.advance 2).tagChars? true (c.rest.length + 1) []
      if suffix.isEmpty || c.rest.head? != some '>' then none
      else some (TagName.mk "" (String.ofList suffix), c.advance 1)
    | _ => do
      let (handle, c) ← c.tagHandle?
      let (suffix, c) ← c.tagChars? false (c.rest.length + 1) []
      if handle.length ≥ 2 && handle.getLast? == some '!' then
        if suffix.isEmpty then none else some (TagName.mk (String.ofList handle) (String.ofList suffix), c)
      else
        let suffix := handle.drop 1 ++ suffix
        some (if suffix.isEmpty then TagName.mk "" "!" else TagName.mk "!" (String.ofList suffix), c)
  if (inFlow && c.rest.head? == some ',') || c.endsWordAt 0 then some (name, c) else none

def versionNumber? (c : Cursor) : Option (Nat × Cursor) :=
  let digits := c.takeWhile Char.isDigit
  if digits.isEmpty || 9 < digits.length then none
  else some (digits.foldl (fun n d ↦ 10 * n + (d.toNat - '0'.toNat)) 0, c.advance digits.length)

def directive? (c : Cursor) : Option (Token × Cursor) := do
  let name := c.takeWhile isNameChar
  let c := c.advance name.length
  if name.isEmpty || !c.endsWordAt 0 then none
  let c := c.skipWhile isBlank
  if name = "YAML".toList then
    let (major, c) ← c.versionNumber?
    if c.rest.head? != some '.' then none
    let (minor, c) ← (c.advance 1).versionNumber?
    some (.version major minor, ← c.lineEnd?)
  else if name = "TAG".toList then
    let (handle, c) ← c.tagHandle?
    if handle.getLast? != some '!' || !c.rest.head?.any isBlank then none
    let (meaning, c) ← (c.skipWhile isBlank).tagChars? true (c.rest.length + 1) []
    if meaning.isEmpty || !c.endsWordAt 0 then none
    some (.tagHandle (String.ofList handle) (String.ofList meaning), ← c.lineEnd?)
  else none

end Cursor

end TemplatedForms.Yaml
