import TemplatedForms.Text.Blank
import TemplatedForms.Text.Search

namespace TemplatedForms

structure Template where
  before : String
  body : String
  after : String
deriving DecidableEq

namespace Template

def opening : List Char := ['\x7b', '\x7b']

def closing : List Char := ['\x7d', '\x7d']

def literal (text : String) : Template := ⟨text, "", ""⟩

/-- Splits a text at its first opening mark and the first closing mark after it. Without both of them
everything is literal; a blank body counts as empty. -/
def split (text : String) : Template :=
  match Text.cut? opening text.toList with
  | none => literal text
  | some (before, rest) =>
    match Text.cut? closing rest with
    | none => literal text
    | some (body, after) =>
      ⟨String.ofList before, if body.all Text.isBlank then "" else String.ofList body, String.ofList after⟩

def hasExpression (t : Template) : Bool := !t.body.isEmpty

def hasLiteral (t : Template) : Bool := !t.before.isEmpty || !t.after.isEmpty

end Template

end TemplatedForms
