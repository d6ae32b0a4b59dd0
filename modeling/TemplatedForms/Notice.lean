namespace TemplatedForms

inductive Notice
  | folderNotFound (path : String)
  | documentNotFound (path : String)
  | unsupportedExtension (path extension : String)
  | evaluationFailed (expression reason : String)
  | invalidOptions (className reason : String)
deriving DecidableEq

namespace Notice

def kind : Notice → String
  | .folderNotFound _ => "folder-not-found"
  | .documentNotFound _ => "document-not-found"
  | .unsupportedExtension _ _ => "unsupported-extension"
  | .evaluationFailed _ _ => "evaluation-error"
  | .invalidOptions _ _ => "invalid-options"

def text : Notice → String
  | .folderNotFound path => "Folder not found at " ++ path
  | .documentNotFound path => "File not found at " ++ path
  | .unsupportedExtension _ extension => "Can't handle ." ++ extension ++ " extension, .md expected"
  | .evaluationFailed expression _ => "Error on evaluating " ++ expression ++ " expression"
  | .invalidOptions className reason => "Invalid options for " ++ className ++ ": " ++ reason

end Notice

/-- A result with the notices raised on the way, in order. -/
structure Noticed (α : Type) where
  value : α
  notices : List Notice

namespace Noticed

variable {α β : Type}

def bind (m : Noticed α) (k : α → Noticed β) : Noticed β :=
  let r := k m.value
  ⟨r.value, m.notices ++ r.notices⟩

instance : Monad Noticed where
  pure a := ⟨a, []⟩
  bind := bind

def raise (n : Notice) : Noticed Unit := ⟨(), [n]⟩

end Noticed

end TemplatedForms
