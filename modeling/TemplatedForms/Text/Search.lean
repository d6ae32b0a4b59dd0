namespace TemplatedForms.Text

/-- The text before and the text after the first occurrence of `p`; `before` is read already, and
reversed. -/
def cutFrom? (p before : List Char) : List Char → Option (List Char × List Char)
  | [] => if p.isEmpty then some (before.reverse, []) else none
  | c :: cs =>
    if p.isPrefixOf (c :: cs) then some (before.reverse, (c :: cs).drop p.length)
    else cutFrom? p (c :: before) cs

def cut? (p cs : List Char) : Option (List Char × List Char) := cutFrom? p [] cs

def find? (p cs : List Char) : Option Nat := (cut? p cs).map fun (before, _) ↦ before.length

def contains (p cs : List Char) : Bool := (cut? p cs).isSome

def piecesOnto (p : List Char) : Nat → List (List Char) → List Char → List (List Char)
  | 0, found, cs => (cs :: found).reverse
  | fuel + 1, found, cs =>
    match cut? p cs with
    | some (before, after) => piecesOnto p fuel (before :: found) after
    | none => (cs :: found).reverse

/-- What lies between the occurrences of `p`. The empty text occurs before every character and at the
end. -/
def pieces (p cs : List Char) : List (List Char) :=
  if p.isEmpty then [] :: cs.map (fun c ↦ [c]) ++ [[]] else piecesOnto p (cs.length + 1) [] cs

def repeated (s : String) (n : Nat) : String := n.repeat (fun t ↦ t ++ s) ""

def cycled (s : String) (n : Nat) : String :=
  repeated s (n / s.length) ++ String.ofList (s.toList.take (n % s.length))

end TemplatedForms.Text
