import TemplatedForms.Form.Basic
import TemplatedForms.Json.Record

namespace TemplatedForms

namespace Required

def toJson : Required → Json
  | .flag b => .bool b
  | .expression text => .string text

def ofJson? : Json → Option Required
  | .bool b => some (.flag b)
  | .string text => some (.expression text)
  | _ => none

end Required

namespace DropdownOptions

def toJson (o : DropdownOptions) : Json :=
  .object (Json.member? "value" (fun options ↦ .array (options.map .string)) o.value ++
    Json.member? "expression" .string o.expression)

def ofJson? (j : Json) : Option DropdownOptions := do
  let members ← j.positional? ["value", "expression"]
  let value ← Json.optional? "value" (Json.list? Json.text?) members
  let expression ← Json.optional? "expression" Json.text? members
  return ⟨value, expression⟩

end DropdownOptions

namespace FieldKind

def members (kind : FieldKind) : List (String × Json) :=
  ("type", .string kind.tag) ::
    match kind with
    | .dropdown options => [("options", options.toJson)]
    | .number min max =>
      let bound (x : Float) : Json := .number (.float x)
      Json.member? "min" bound min ++ Json.member? "max" bound max
    | _ => []

/-- A tag as a text or as its place in the order of the tags. -/
def tagged? : Json → Option FieldKind
  | .string tag => ofTag? tag
  | .number (.int (.ofNat n)) => all[n]?
  | _ => none

def ofMembers? (members : List (String × Json)) : Option FieldKind := do
  match ← Json.required? "type" tagged? members with
  | .dropdown _ =>
    return .dropdown (← Json.withDefault? DropdownOptions.none "options" DropdownOptions.ofJson? members)
  | .number _ _ =>
    return .number (← Json.optional? "min" Json.float? members) (← Json.optional? "max" Json.float? members)
  | kind => return kind

end FieldKind

namespace Field

def contentToJson (expression : Option String) : Json :=
  .object (Json.member? "expression" .string expression)

def contentOfJson? (j : Json) : Option (Option String) := do
  Json.optional? "expression" Json.text? (← j.positional? ["expression"])

def toJson (f : Field) : Json :=
  .object ([("name", .string f.name), ("className", .string f.className)] ++ f.kind.members ++
    Json.member? "description" .string f.description ++
    Json.member? "placeholder" .string f.placeholder ++
    Json.member? "hideExpression" .string f.hideExpression ++
    [("required", f.required.toJson), ("bypassValueExpressionEvaluation", .bool f.bypass),
      ("content", contentToJson f.expression)])

def ofJson? (j : Json) : Option Field := do
  let members ← j.members?
  let name ← Json.required? "name" Json.text? members
  let className ← Json.required? "className" Json.text? members
  let kind ← FieldKind.ofMembers? members
  let description ← Json.optional? "description" Json.text? members
  let placeholder ← Json.optional? "placeholder" Json.text? members
  let hideExpression ← Json.optional? "hideExpression" Json.text? members
  let required ← Json.withDefault? (.flag false) "required" Required.ofJson? members
  let bypass ← Json.withDefault? false "bypassValueExpressionEvaluation" Json.bool? members
  let expression ← Json.withDefault? none "content" contentOfJson? members
  return ⟨name, className, kind, description, placeholder, hideExpression, required, bypass, expression⟩

end Field

namespace Form

def keys : List String := ["title", "path", "submitLabel", "formFields"]

def members (form : Form) : List (String × Json) :=
  [("title", .string form.title), ("path", .string form.path), ("submitLabel", .string form.submitLabel),
    ("formFields", .array (form.fields.map Field.toJson))]

def toJson (form : Form) : Json := .object form.members

def ofMembers? (members : List (String × Json)) : Option Form := do
  let title ← Json.required? "title" Json.text? members
  let path ← Json.required? "path" Json.text? members
  let submitLabel ← Json.required? "submitLabel" Json.text? members
  let fields ← Json.withDefault? [] "formFields" (Json.list? Field.ofJson?) members
  return ⟨title, path, submitLabel, fields⟩

def ofJson? (j : Json) : Option Form := do ofMembers? (← j.positional? keys)

end Form

end TemplatedForms
