namespace TemplatedForms

variable {α : Type}

abbrev Entries (α : Type) := List (String × α)

namespace Entries

def get? (key : String) : Entries α → Option α := List.lookup key

def contains (key : String) (es : Entries α) : Bool := es.any (·.1 == key)

/-- A key that is there already keeps its place and takes the new value. -/
def put (key : String) (value : α) : Entries α → Entries α
  | [] => [(key, value)]
  | e :: es => if e.1 == key then (key, value) :: es else e :: put key value es

def erase (key : String) : Entries α → Entries α
  | [] => []
  | e :: es => if e.1 == key then es else e :: erase key es

def ofPairs (pairs : List (String × α)) : Entries α :=
  pairs.foldl (fun es e ↦ es.put e.1 e.2) []

def keys (es : Entries α) : List String := es.map (·.1)

def Distinct (es : Entries α) : Prop := es.keys.Nodup

end Entries

end TemplatedForms
