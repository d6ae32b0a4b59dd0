import TemplatedForms.Json.Basic
import TemplatedForms.Number.Decimal
import TemplatedForms.Text.CodePoint
import TemplatedForms.Yaml.Node

namespace TemplatedForms.Yaml

open Number

def digits? (radix : Nat) (cs : List Char) : Option Nat := do
  let ds ← cs.mapM Text.hexValue?
  if ds.isEmpty || ds.any (radix ≤ ·) then none else some (ds.foldl (fun n d ↦ radix * n + d) 0)

/-- Several decimal digits of which the first is zero spell no number. -/
def paddedWithZero (cs : List Char) : Bool := 1 < cs.length && cs.head? == some '0' && cs.all Char.isDigit

def magnitude? : List Char → Option Nat
  | '0' :: 'x' :: cs => digits? 16 cs
  | '0' :: 'o' :: cs => digits? 8 cs
  | '0' :: 'b' :: cs => digits? 2 cs
  | cs => if paddedWithZero cs then none else digits? 10 cs

def signed : List Char → Bool × List Char
  | '-' :: cs => (true, cs)
  | '+' :: cs => (false, cs)
  | cs => (false, cs)

/-- The reading of an integer: it has to fit 64 bits. One that does not even fit 128 bits is read as no
integer. -/
inductive IntegerReading
  | int (i : Int)
  | tooLarge
  | other

def readInteger (cs : List Char) : IntegerReading :=
  let (negative, rest) := signed cs
  match magnitude? rest with
  | none => .other
  | some n =>
    if negative then
      if n ≤ Nat.pow 2 63 then .int (-n) else if n ≤ Nat.pow 2 127 then .tooLarge else .other
    else if n < UInt64.size then .int n
    else if n < Nat.pow 2 128 then .tooLarge
    else .other

def readFraction? (cs : List Char) : Option Json :=
  let (_, rest) := signed cs
  if [".inf", ".Inf", ".INF"].contains (String.ofList rest) then some .null
  else if [".nan", ".NaN", ".NAN"].contains (String.ofList cs) then some .null
  else
    match readFloat? cs with
    | some x => if x.isFinite then some (.number (.float x)) else none
    | none => none

def readBool? (text : String) : Option Bool :=
  if ["true", "True", "TRUE"].contains text then some true
  else if ["false", "False", "FALSE"].contains text then some false
  else none

def isNullText (text : String) : Bool := ["null", "Null", "NULL", "~"].contains text

def plainJson? (cs : List Char) : Option Json :=
  let text := String.ofList cs
  if text.isEmpty || isNullText text then some .null
  else
    match readBool? text with
    | some b => some (.bool b)
    | none =>
      match readInteger cs with
      | .int i => some (.number (.int i))
      | .tooLarge => none
      | .other =>
        if paddedWithZero (signed cs).2 then some (.string text)
        else some ((readFraction? cs).getD (.string text))

def isLocalTag (tag : String) : Bool := tag.toList.head? == some '!'

/-- A scalar with a tag: the tags of the scalar types ask for that type, other ones for a text. -/
def scalarJson? (tag : Option String) (s : Scalar) : Option Json :=
  let text := String.ofList s.text
  match tag with
  | none => if s.plain then plainJson? s.text else some (.string text)
  | some "tag:yaml.org,2002:bool" => (readBool? text).map .bool
  | some "tag:yaml.org,2002:null" => if isNullText text then some .null else none
  | some "tag:yaml.org,2002:int" =>
    match readInteger s.text with
    | .int i => some (.number (.int i))
    | _ => none
  | some "tag:yaml.org,2002:float" => readFraction? s.text
  | some tag => if isLocalTag tag then none else some (.string text)

def nestingLimit : Nat := 128

/-- A node, and how often aliases have been followed so far. The nodes with anchors are given with their
numbers, the last one first. -/
abbrev Follow := StateT Nat Option

section Conversion

variable (anchored : List (Nat × Node)) (limit : Nat)

def follow : Node → Follow Node
  | .alias id => do
    let n ← get
    if limit ≤ n then failure
    set (n + 1)
    match anchored.lookup id with
    | some node => return node
    | none => failure
  | node => return node

/-- Keys are the texts of scalars, whatever these stand for as values. -/
def keyText (key : Node) : Follow String := do
  match ← follow anchored limit key with
  | .scalar _ _ s => return String.ofList s.text
  | _ => failure

def convert : Nat → Node → Follow Json
  | depth, node => do
    match depth, ← follow anchored limit node with
    | _, .scalar _ tag s => fun n ↦ (scalarJson? tag s).map (·, n)
    | depth + 1, .sequence _ tag items =>
      if tag.any isLocalTag then failure
      return .array (← items.mapM (convert depth))
    | depth + 1, .mapping _ tag members =>
      if tag.any isLocalTag then failure
      let members ← members.mapM fun (key, value) ↦ do
        return (← keyText anchored limit key, ← convert depth value)
      return .object (Entries.ofPairs members)
    | _, _ => failure

end Conversion

/-- The data of a document. Aliases are followed at most a hundred times as often as it has steps. -/
def Node.toJson? (root : Node) : Option Json :=
  let anchored := root.all.filterMap fun n ↦ n.anchor?.map (·, n)
  ((convert anchored.reverse (100 * root.size) nestingLimit root).run 0).map (·.1)

def read? (text : String) : Option Json := do
  (← Compose.document? (← tokenize? text)).toJson?

end TemplatedForms.Yaml
