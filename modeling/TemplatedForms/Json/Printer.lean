import TemplatedForms.Json.Basic
import TemplatedForms.Number.Layout

namespace TemplatedForms

open Number

/-- Numbers with a leading exponent from -5 to 15 are written positionally, always with a point; others
with an exponent. The nearest of the shortest decimals is taken, of two equally near the even one. -/
def JsonNumber.text : JsonNumber → String
  | .int i => toString i
  | .float x =>
    match binary? x with
    | none => "null"
    | some b =>
      let d := (b.shortest .toEven).stripped
      b.sign ++
        (if -5 ≤ d.leadingExponent && d.leadingExponent < 16 then
          d.positional ++ if 0 ≤ d.exponent then ".0" else ""
        else d.scientific)

namespace Json

def escapedChar (c : Char) : List Char :=
  match c with
  | '"' => ['\\', '"']
  | '\\' => ['\\', '\\']
  | '\x08' => ['\\', 'b']
  | '\x0c' => ['\\', 'f']
  | '\n' => ['\\', 'n']
  | '\r' => ['\\', 'r']
  | '\t' => ['\\', 't']
  | c =>
    if c.toNat < 32 then
      ['\\', 'u', '0', '0', Nat.digitChar (c.toNat / 16), Nat.digitChar (c.toNat % 16)]
    else [c]

def quoted (s : String) : String :=
  String.ofList ('"' :: s.toList.flatMap escapedChar ++ ['"'])

mutual

def compact : Json → String
  | .null => "null"
  | .bool b => if b then "true" else "false"
  | .number n => n.text
  | .string s => quoted s
  | .array items => "[" ++ ",".intercalate (compactItems items) ++ "]"
  | .object members => "\x7b" ++ ",".intercalate (compactMembers members) ++ "\x7d"

def compactItems : List Json → List String
  | [] => []
  | j :: js => compact j :: compactItems js

def compactMembers : List (String × Json) → List String
  | [] => []
  | (key, j) :: ms => (quoted key ++ ":" ++ compact j) :: compactMembers ms

end

def block (opening closing margin indent : String) (lines : List String) : String :=
  if lines.isEmpty then opening ++ closing
  else
    opening ++ "\n" ++ (",\n".intercalate (lines.map fun l ↦ margin ++ indent ++ l)) ++ "\n" ++ margin ++
      closing

mutual

def prettyAt (indent margin : String) : Json → String
  | .array items => block "[" "]" margin indent (prettyItems indent (margin ++ indent) items)
  | .object members =>
    block "\x7b" "\x7d" margin indent (prettyMembers indent (margin ++ indent) members)
  | .null => "null"
  | .bool b => if b then "true" else "false"
  | .number n => n.text
  | .string s => quoted s

def prettyItems (indent margin : String) : List Json → List String
  | [] => []
  | j :: js => prettyAt indent margin j :: prettyItems indent margin js

def prettyMembers (indent margin : String) : List (String × Json) → List String
  | [] => []
  | (key, j) :: ms => (quoted key ++ ": " ++ prettyAt indent margin j) :: prettyMembers indent margin ms

end

def pretty (j : Json) (indent : String) : String := j.prettyAt indent ""

def document (j : Json) : String := j.pretty "  "

end Json

end TemplatedForms
