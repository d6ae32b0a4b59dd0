import TemplatedForms.Evaluate
import TemplatedForms.Form.Basic

namespace TemplatedForms

structure FieldState where
  field : Field
  value : Value
  hidden : Bool
  required : Bool
  options : List String

namespace FieldState

def isFilled (s : FieldState) : Bool :=
  match s.value with
  | .undefined | .null => false
  | .string text => !Text.allBlank text
  | .array items => !items.isEmpty
  | _ => true

def extend (s : FieldState) (scope : Entries Value) : Entries Value :=
  if s.value.isUndefined then scope else scope.put s.field.className s.value

end FieldState

structure FormState where
  title : String
  path : String
  submitLabel : String
  fields : List FieldState

namespace FormState

/-- The values that are submitted: those of the fields that are not hidden. -/
def values (s : FormState) : Entries Value :=
  Entries.ofPairs ((s.fields.filter (!·.hidden)).map fun f ↦ (f.field.className, f.value))

def allValues (s : FormState) : Entries Value :=
  Entries.ofPairs (s.fields.map fun f ↦ (f.field.className, f.value))

def missing (s : FormState) : List String :=
  (s.fields.filter fun f ↦ !f.hidden && f.required && !f.isFilled).map (·.field.className)

end FormState

/-- Whether a result switches something on. Besides the empty text, the texts of false and zero do not. -/
def Value.isSet (v : Value) : Bool :=
  match v with
  | .string text => !(["", "false", "0"].contains (Text.trim text))
  | v => v.isTruthy

/-- Fields with the values that they have already, in the same order. -/
def withValues : List Field → List Value → List (Field × Value)
  | [], _ => []
  | f :: fs, values => (f, values.headD .undefined) :: withValues fs values.tail

namespace Context

variable (c : Context)

def content (scope : Entries Value) (field : Field) (value : Value) : Noticed Value :=
  match field.expression with
  | some text => if field.bypass then return .string text else c.evaluate scope text
  | none => return value

def hidden (scope : Entries Value) (field : Field) : Noticed Bool :=
  match field.hideExpression with
  | some text => return (← c.evaluate scope text).isSet
  | none => return false

def required (scope : Entries Value) (field : Field) : Noticed Bool :=
  match field.required with
  | .flag b => return b
  | .expression text => return (← c.evaluate scope text).isSet

def options (scope : Entries Value) (field : Field) : Noticed (List String) :=
  match field.options? with
  | some ⟨_, some text⟩ => do
    match ← c.evaluate scope text with
    | .array items => return items.map Value.display
    | v =>
      Noticed.raise (.invalidOptions field.className ("expected a list, got " ++ v.typeName))
      return []
  | some ⟨some options, none⟩ => return options
  | _ => return []

/-- The state of a field with a value, which it sees itself. -/
def state (scope : Entries Value) (field : Field) (value : Value) : Noticed FieldState := do
  let scope := if value.isUndefined then scope else scope.put field.className value
  let hidden ← c.hidden scope field
  let required ← c.required scope field
  let options ← c.options scope field
  return ⟨field, value, hidden, required, options⟩

def renderFrom (scope : Entries Value) : List (Field × Value) → Noticed (List FieldState)
  | [] => return []
  | (field, value) :: rest => do
    let s ← c.state scope field (← c.content scope field value)
    return s :: (← renderFrom (s.extend scope) rest)

/-- The state of a form whose first fields have values already. -/
def render (form : Form) (initial : List Value) : Noticed FormState := do
  return ⟨form.title, form.path, form.submitLabel, ← c.renderFrom [] (withValues form.fields initial)⟩

end Context

end TemplatedForms
