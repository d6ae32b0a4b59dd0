import TemplatedForms.Form.Basic
import TemplatedForms.Text.Search
import TemplatedForms.Value.Basic

namespace TemplatedForms

inductive FieldError
  | nameMissing
  | unknownKind (tag : String)
deriving DecidableEq

def FieldError.message : FieldError → String
  | .nameMissing => "invalid field: a field name is required"
  | .unknownKind tag => "Unknown field type: " ++ tag

def FieldKind.ofText (text : String) : Except FieldError FieldKind :=
  let tag := normalizedTag text
  (ofTag? tag).elim (.error (.unknownKind tag)) .ok

namespace Editor

def kindField : String := "field-type"

def nameField : String := "field-name"

def classNameField : String := "field-class-name"

def descriptionField : String := "field-description"

def placeholderField : String := "field-placeholder"

def hideField : String := "field-hide-expression"

def requiredField : String := "field-required"

def minField : String := "field-min"

def maxField : String := "field-max"

def defaultField : String := "field-default-value"

def optionsField : String := "field-dropdown-options"

def expr (text : String) : String := "\x7b\x7b" ++ text ++ "\x7d\x7d"

def form : Form where
  title := "Field"
  path := ""
  submitLabel := "Submit"
  fields := [
    .new "Type" kindField (.dropdown (.literal FieldKind.tags)),
    { Field.new "Name" nameField .text with
      description := some "Enter the field name"
      required := .flag true },
    { Field.new "Class name" classNameField .text with
      expression := some ("field-" ++ expr "$$.field-name.toLowerCase().replaceAll(' ', '-')") },
    .new "Description" descriptionField .text,
    { Field.new "Placeholder" placeholderField .text with
      hideExpression := some (expr "['dropdown', 'toggle'].includes($$.field-type)") },
    { Field.new "Hide Expression" hideField .text with
      placeholder := some (expr "$$.field-foo === 'bar'")
      bypass := true },
    { Field.new "Required" requiredField .toggle with
      hideExpression := some (expr "$$.field-type === 'toggle'")
      expression := some (expr "$$.field-type === 'toggle' ? 'false' : 'true'") },
    { Field.new "Min" minField (.number none none) with
      placeholder := some "1"
      hideExpression := some (expr "$$.field-type !== 'number'") },
    { Field.new "Max" maxField (.number none none) with
      placeholder := some "10"
      hideExpression := some (expr "$$.field-type !== 'number'") },
    { Field.new "Default Value" defaultField .text with bypass := true },
    { Field.new "Options" optionsField .text with
      placeholder := some (expr "['itemA', 'itemB']")
      hideExpression := some (expr "$$.field-type !== 'dropdown'") }]

section Entry

variable (values : Entries Value)

/-- The text that was entered, without blanks around it; nothing if that is empty. -/
def entered (className : String) : Option String := do
  let v ← values.get? className
  let text := Text.trim v.display
  if v.isNullish || text.isEmpty then none else some text

/-- Whether a text is taken for an expression: both marks are in it. -/
def isExpression (text : String) : Bool :=
  Text.contains ['\x7b', '\x7b'] text.toList && Text.contains ['\x7d', '\x7d'] text.toList

def enteredNumber (className : String) : Option Float := do
  match ← values.get? className with
  | .number x => some x
  | v => some ((Number.readFloat? (← entered values className).toList).getD v.toNumber)

def bound (className : String) : Option Float := (enteredNumber values className).filter Float.isFinite

def required : Required :=
  match values.get? requiredField with
  | some (.bool b) => .flag b
  | _ =>
    match entered values requiredField with
    | some text =>
      if isExpression text then .expression text else .flag (text != "false" && text != "0")
    | none => .flag false

def listed (text : String) : List String :=
  ((text.toList.splitOn ',').map fun cs ↦ Text.trim (String.ofList cs)).filter (!·.isEmpty)

def options : DropdownOptions :=
  match values.get? optionsField with
  | some (.array items) => .literal (items.map Value.display)
  | _ =>
    match entered values optionsField with
    | some text => if isExpression text then .ofExpression text else .literal (listed text)
    | none => .none

def kind : Except FieldError FieldKind := do
  match ← FieldKind.ofText ((entered values kindField).getD FieldKind.text.tag) with
  | .dropdown _ => return .dropdown (options values)
  | .number _ _ => return .number (bound values minField) (bound values maxField)
  | kind => return kind

def defaultClassName (name : String) : String :=
  "field-" ++ (Text.lower name).map fun c ↦ if c = ' ' then '-' else c

def field : Except FieldError Field := do
  let kind ← kind values
  match entered values nameField with
  | none => throw .nameMissing
  | some name =>
    let className := (entered values classNameField).filter (· != "field-")
    return {
      name
      className := className.getD (defaultClassName name)
      kind
      description := entered values descriptionField
      placeholder := entered values placeholderField
      hideExpression := entered values hideField
      required := required values
      bypass := false
      expression := entered values defaultField }

end Entry

end Editor

end TemplatedForms
