import TemplatedForms.Form.Basic
import TemplatedForms.Reference
import TemplatedForms.Template

namespace TemplatedForms

def textReferences (text : String) : List String :=
  (fieldReferences (Template.split text).body).map (·.className)

def Field.references (f : Field) : List String := (f.templatedTexts.flatMap textReferences).eraseDups

end TemplatedForms
