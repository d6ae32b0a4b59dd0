import TemplatedForms.Entries

namespace TemplatedForms

inductive JsonNumber
  | int (i : Int)
  | float (x : Float)
deriving DecidableEq

inductive Json
  | null
  | bool (b : Bool)
  | number (n : JsonNumber)
  | string (s : String)
  | array (items : List Json)
  | object (members : List (String × Json))

instance : Inhabited Json := ⟨.null⟩

namespace JsonNumber

def toFloat : JsonNumber → Float
  | .int i => Float.ofInt i
  | .float x => x

end JsonNumber

end TemplatedForms
