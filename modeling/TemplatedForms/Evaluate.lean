import TemplatedForms.Evaluation.Interpreter
import TemplatedForms.Resolution
import TemplatedForms.Template

namespace TemplatedForms

structure Context where
  store : Store
  stepLimit : Nat

namespace Context

def resolve (c : Context) (values : Entries Value) (body : String) : Noticed String :=
  resolveDocuments c.store (resolveFields values body)

/-- A text without an expression stands for what is before it. An expression on its own keeps the type
of its value; with literal text around it the value is put in as text. A failure is reported, and
leaves the literal text. -/
def evaluate (c : Context) (values : Entries Value) (templated : String) : Noticed Value := do
  let t := Template.split templated
  if !t.hasExpression then return .string t.before
  let body ← c.resolve values t.body
  match execute c.stepLimit body with
  | .ok v =>
    return if t.hasLiteral then .string (t.before ++ v.display ++ t.after) else v
  | .error e =>
    Noticed.raise (.evaluationFailed templated e.message)
    return .string (t.before ++ t.after)

end Context

end TemplatedForms
