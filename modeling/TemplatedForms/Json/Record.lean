import TemplatedForms.Json.Basic

namespace TemplatedForms.Json

def text? : Json → Option String
  | .string s => some s
  | _ => none

def bool? : Json → Option Bool
  | .bool b => some b
  | _ => none

def float? : Json → Option Float
  | .number n => some n.toFloat
  | _ => none

def list? {α : Type} (item? : Json → Option α) : Json → Option (List α)
  | .array items => items.mapM item?
  | _ => none

def orNull? {α : Type} (value? : Json → Option α) : Json → Option (Option α)
  | .null => some none
  | j => (value? j).map some

def members? : Json → Option (List (String × Json))
  | .object members => some members
  | _ => none

/-- The members of a record with the given keys, which can also be written as an array of its first
members. -/
def positional? (keys : List String) : Json → Option (List (String × Json))
  | .object members => some members
  | .array items => if items.length ≤ keys.length then some (keys.zip items) else none
  | _ => none

section Members

variable {α : Type}

def find? (key : String) (members : List (String × Json)) : Option (Option Json) :=
  match members.filter (·.1 == key) with
  | [] => some none
  | [(_, j)] => some (some j)
  | _ => none

def required? (key : String) (value? : Json → Option α) (members : List (String × Json)) : Option α := do
  value? (← (← find? key members))

def withDefault? (default : α) (key : String) (value? : Json → Option α) (members : List (String × Json)) :
    Option α := do
  match ← find? key members with
  | some j => value? j
  | none => some default

def optional? (key : String) (value? : Json → Option α) (members : List (String × Json)) :
    Option (Option α) :=
  withDefault? none key (orNull? value?) members

def member? (key : String) (write : α → Json) (value : Option α) : List (String × Json) :=
  (value.map fun a ↦ (key, write a)).toList

end Members

end TemplatedForms.Json
