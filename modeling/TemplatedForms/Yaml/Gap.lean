import TemplatedForms.Yaml.Cursor

namespace TemplatedForms.Yaml

/-- What lies between two words: blanks in a line, or line breaks, with the blanks around them left
out. -/
inductive Gap
  | blanks (cs : List Char)
  | breaks (first more : List Char)
deriving DecidableEq

namespace Gap

/-- A single break becomes a blank; of several, the first is left out. -/
def text : Gap → List Char
  | .blanks cs => cs
  | .breaks ['\n'] [] => [' ']
  | .breaks ['\n'] more => more
  | .breaks first more => first ++ more

def isBreak : Gap → Bool
  | .blanks _ => false
  | .breaks _ _ => true

end Gap

namespace Cursor

/-- The breaks before the next word of a scalar. A tab before the column `margin` is refused. -/
def breaks? (margin : Nat) : Nat → List Char → Cursor → Option (List Char × Cursor)
  | 0, _, _ => none
  | fuel + 1, found, c =>
    let blanks := c.takeWhile isBlank
    if (blanks.take (margin - c.column)).contains '\t' then none
    else
      let c := c.skipWhile isBlank
      match c.break? with
      | some (b, c) => breaks? margin fuel (found ++ b) c
      | none => some (found, c)

def gap? (margin : Nat) (c : Cursor) : Option (Gap × Cursor) :=
  let blanks := c.takeWhile isBlank
  let c := c.skipWhile isBlank
  match c.break? with
  | none => some (.blanks blanks, c)
  | some (first, c) =>
    (c.breaks? margin (c.rest.length + 1) []).map fun (more, c) ↦ (.breaks first more, c)

end Cursor

end TemplatedForms.Yaml
