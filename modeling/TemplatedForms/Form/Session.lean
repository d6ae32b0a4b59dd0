import TemplatedForms.Form.Rendering

namespace TemplatedForms

namespace Context

variable (c : Context)

/-- The state of a field after an earlier one has changed. What is not evaluated stays as it is. -/
def refreshOne (scope : Entries Value) (s : FieldState) : Noticed FieldState :=
  if s.field.templatedTexts.isEmpty then return s
  else do c.state scope s.field (← c.content scope s.field s.value)

def refresh (scope : Entries Value) : List FieldState → Noticed (List FieldState)
  | [] => return []
  | s :: rest => do
    let s ← c.refreshOne scope s
    return s :: (← refresh (s.extend scope) rest)

def setFrom? (className : String) (v : Value) (scope : Entries Value) :
    List FieldState → Option (Noticed (List FieldState))
  | [] => none
  | s :: rest =>
    if s.field.className == className then
      some do
        let s ← c.state scope s.field v
        return s :: (← c.refresh (s.extend scope) rest)
    else
      (setFrom? className v (s.extend scope) rest).map fun m ↦ do return s :: (← m)

def set? (className : String) (v : Value) (form : FormState) : Option (Noticed FormState) :=
  (c.setFrom? className v [] form.fields).map fun m ↦ do return { form with fields := ← m }

end Context

end TemplatedForms
