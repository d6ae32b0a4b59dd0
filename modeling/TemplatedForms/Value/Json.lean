import TemplatedForms.Value.Basic
import TemplatedForms.Json.Basic

namespace TemplatedForms.Value

open Number

/-- An integer of magnitude at most `2 ^ 63` becomes a 64-bit integer, the upper end itself the
greatest one; other finite numbers stay doubles. -/
def numberToJson (x : Float) : Json :=
  match binary? x, integer? x with
  | none, _ => .null
  | some _, some i => if i.natAbs ≤ Nat.pow 2 63 then .number (.int (min i 0x7FFFFFFFFFFFFFFF)) else .number (.float x)
  | some _, none => .number (.float x)

mutual

/-- What JSON cannot hold becomes null; undefined members are left out. -/
def toJson : Value → Json
  | .undefined | .null => .null
  | .bool b => .bool b
  | .number x => numberToJson x
  | .string s => .string s
  | .array items => .array (itemsToJson items)
  | .object members => .object (membersToJson members)

def itemsToJson : List Value → List Json
  | [] => []
  | v :: vs => toJson v :: itemsToJson vs

def membersToJson : List (String × Value) → List (String × Json)
  | [] => []
  | (key, v) :: ms => if v.isUndefined then membersToJson ms else (key, toJson v) :: membersToJson ms

end

mutual

def ofJson : Json → Value
  | .null => .null
  | .bool b => .bool b
  | .number n => .number n.toFloat
  | .string s => .string s
  | .array items => .array (itemsOfJson items)
  | .object members => .object (membersOfJson members)

def itemsOfJson : List Json → List Value
  | [] => []
  | j :: js => ofJson j :: itemsOfJson js

def membersOfJson : List (String × Json) → List (String × Value)
  | [] => []
  | (key, j) :: ms => (key, ofJson j) :: membersOfJson ms

end

end TemplatedForms.Value
