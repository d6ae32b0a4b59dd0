import TemplatedForms.Json.Basic
import TemplatedForms.Text.Blank

namespace TemplatedForms

inductive StoreError
  | documentNotFound (path : String)
  | folderNotFound (path : String)
  | unsupportedFormat (path extension : String)
  | invalidData (path reason : String)
  | unreadable
deriving DecidableEq

namespace StoreError

def message : StoreError → String
  | .documentNotFound path => "File not found at " ++ path
  | .folderNotFound path => "Folder not found at " ++ path
  | .unsupportedFormat _ extension => "Can't handle ." ++ extension ++ " extension, .md expected"
  | .invalidData path reason => "Invalid structured data in " ++ path ++ ": " ++ reason
  | .unreadable => "I/O error"

def isNotFound : StoreError → Bool
  | .documentNotFound _ | .folderNotFound _ => true
  | _ => false

end StoreError

namespace Path

/-- The folder and the name in it, cut at the last separator; `none` without a separator. -/
def cutLast? (cs : List Char) : Option (List Char × List Char) :=
  let name := (cs.reverse.takeWhile (· != '/')).reverse
  if name.length = cs.length then none
  else some (cs.take (cs.length - name.length - 1), name)

def parent (path : String) : String :=
  (cutLast? path.toList).elim "" fun (folder, _) ↦ String.ofList folder

def name (path : String) : String :=
  (cutLast? path.toList).elim path fun (_, name) ↦ String.ofList name

/-- A name cut at its last dot, which is not its first character. -/
def cutExtension? (name : String) : Option (String × String) :=
  let extension := (name.toList.reverse.takeWhile (· != '.')).reverse
  let stem := name.toList.take (name.length - extension.length - 1)
  if extension.length = name.length || stem.isEmpty then none
  else some (String.ofList stem, String.ofList extension)

def extension? (path : String) : Option String := (cutExtension? (name path)).map (·.2)

def baseName (path : String) : String := (cutExtension? (name path)).elim (name path) (·.1)

def trimSeparatorsStart (path : String) : String := String.ofList (path.toList.dropWhile (· == '/'))

/-- The path of a document: `.md` is added when there is no extension, and no other one is allowed. -/
def ofDocument (path : String) : Except StoreError String :=
  let path := trimSeparatorsStart (Text.trim path)
  match extension? path with
  | none => .ok (path ++ ".md")
  | some extension => if extension = "md" then .ok path else .error (.unsupportedFormat path extension)

def ofFolder (path : String) : String :=
  let path := (trimSeparatorsStart (Text.trim path)).toList
  String.ofList (path.reverse.dropWhile (· == '/')).reverse

def segments (path : String) : List String :=
  (path.toList.splitOn '/').filterMap fun cs ↦ if cs.isEmpty then none else some (String.ofList cs)

end Path

structure Document where
  path : String
deriving DecidableEq

/-- A folder that exists, by its path; the root has the empty path. -/
structure Folder where
  path : String
deriving DecidableEq

structure Child where
  name : String
  baseName : Option String
deriving DecidableEq

def Child.displayName (c : Child) : String := c.baseName.getD c.name

/-- What can be asked of a store. The answers do not change. -/
structure Store where
  document : String → Except StoreError Document
  folder : String → Except StoreError Folder
  structuredData : Document → Except StoreError (Entries Json)
  children : Folder → Except StoreError (List Child)

end TemplatedForms
