import TemplatedForms.Text.Blank
import TemplatedForms.Text.Casing

namespace TemplatedForms

inductive Required
  | flag (b : Bool)
  | expression (text : String)
deriving DecidableEq

/-- Where the options of a dropdown come from: a list, or a templated text, which goes first. -/
structure DropdownOptions where
  value : Option (List String)
  expression : Option String
deriving DecidableEq

namespace DropdownOptions

def none : DropdownOptions := ⟨.none, .none⟩

def literal (options : List String) : DropdownOptions := ⟨some options, .none⟩

def ofExpression (text : String) : DropdownOptions := ⟨.none, some text⟩

end DropdownOptions

inductive FieldKind
  | text
  | date
  | time
  | dropdown (options : DropdownOptions)
  | toggle
  | number (min max : Option Float)
deriving DecidableEq

namespace FieldKind

def tag : FieldKind → String
  | .text => "text"
  | .date => "date"
  | .time => "time"
  | .dropdown _ => "dropdown"
  | .toggle => "toggle"
  | .number _ _ => "number"

def all : List FieldKind := [.text, .date, .time, .dropdown .none, .toggle, .number none none]

def tags : List String := all.map tag

def ofTag? (tag : String) : Option FieldKind := all.find? (·.tag == tag)

/-- How a tag is compared: without blanks around it, in lower case. -/
def normalizedTag (text : String) : String := Text.lower (Text.trim text)

end FieldKind

structure Field where
  name : String
  className : String
  kind : FieldKind
  description : Option String
  placeholder : Option String
  hideExpression : Option String
  required : Required
  /-- The text in `expression` is the value itself and is not evaluated. -/
  bypass : Bool
  expression : Option String
deriving DecidableEq

namespace Field

def new (name className : String) (kind : FieldKind) : Field :=
  ⟨name, className, kind, none, none, none, .flag false, false, none⟩

def options? (f : Field) : Option DropdownOptions :=
  match f.kind with
  | .dropdown options => some options
  | _ => none

/-- Everything about a field that is evaluated, in the order of evaluation. -/
def templatedTexts (f : Field) : List String :=
  (if f.bypass then [] else f.expression.toList) ++ f.hideExpression.toList ++
    (match f.required with
    | .flag _ => []
    | .expression text => [text]) ++
    (f.options?.bind (·.expression)).toList

end Field

structure Form where
  title : String
  path : String
  submitLabel : String
  fields : List Field
deriving DecidableEq

namespace Form

def position? (form : Form) (className : String) : Option Nat :=
  form.fields.findIdx? (·.className == className)

def field? (form : Form) (className : String) : Option Field :=
  form.fields.find? (·.className == className)

end Form

end TemplatedForms
