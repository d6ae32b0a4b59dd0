import TemplatedForms.Entries
import TemplatedForms.Number.Layout
import TemplatedForms.Text.Blank

namespace TemplatedForms

open Number

inductive Value
  | undefined
  | null
  | bool (b : Bool)
  | number (x : Float)
  | string (s : String)
  | array (items : List Value)
  | object (members : List (String × Value))

namespace Value

instance : Inhabited Value := ⟨.undefined⟩

def typeName : Value → String
  | .undefined => "undefined"
  | .bool _ => "boolean"
  | .number _ => "number"
  | .string _ => "string"
  | .null | .array _ | .object _ => "object"

def isUndefined : Value → Bool
  | .undefined => true
  | _ => false

def isNullish : Value → Bool
  | .undefined | .null => true
  | _ => false

def isTruthy : Value → Bool
  | .undefined | .null => false
  | .bool b => b
  | .number x => !(x == 0) && !x.isNaN
  | .string s => !s.isEmpty
  | .array _ | .object _ => true

mutual

/-- The text of a value. Items of an array are joined by commas, missing ones as empty texts. -/
def display : Value → String
  | .undefined => "undefined"
  | .null => "null"
  | .bool b => if b then "true" else "false"
  | .number x => Number.text x
  | .string s => s
  | .array items => ",".intercalate (displayItems items)
  | .object _ => "[object Object]"

def displayItems : List Value → List String
  | [] => []
  | .undefined :: vs | .null :: vs => "" :: displayItems vs
  | v :: vs => display v :: displayItems vs

end

/-- The number that a text spells, blanks around it aside; the empty text spells zero. -/
def numeric (s : String) : Float :=
  let cs := (Text.trim s).toList
  if cs.isEmpty then 0
  else if cs == "Infinity".toList || cs == "+Infinity".toList then positiveInfinity
  else if cs == "-Infinity".toList then negativeInfinity
  else (readFloat? cs).getD notANumber

def toNumber : Value → Float
  | .undefined | .object _ => notANumber
  | .null => 0
  | .bool b => if b then 1 else 0
  | .number x => x
  | .string s => numeric s
  | .array items => numeric (display (.array items))

def asString? : Value → Option String
  | .string s => some s
  | _ => none

def asNumber? : Value → Option Float
  | .number x => some x
  | _ => none

def asArray? : Value → Option (List Value)
  | .array items => some items
  | _ => none

def ofNat (n : Nat) : Value := .number (Float.ofNat n)

def ofChar (c : Char) : Value := .string (String.singleton c)

end Value

end TemplatedForms
