import TemplatedForms.Store.FileTree
import TemplatedForms.Store.FrontMatter

namespace TemplatedForms.FileTree

/-- The path in the tree of a path in the store; none that leads out of the tree. -/
def inside? (path : String) : Option (List String) :=
  let segments := Path.segments path
  if segments.any fun s ↦ s == "." || s == ".." then none else some segments

def at? (t : FileTree) (path : String) : Option FileTree := (inside? path).bind t.get?

def passesFile : FileTree → List String → Bool
  | _, [] => false
  | .file _, _ :: _ => true
  | .directory entries, name :: path => (entries.lookup name).elim false (passesFile · path)

/-- The short name of a directory is its name, that of a file lacks the extension. -/
def child (name : String) : FileTree → Child
  | .directory _ => ⟨name, some name⟩
  | .file _ => ⟨name, some (Path.baseName name)⟩

/-- The store of the files in a directory. Names that start with a dot are not listed. -/
def toStore (t : FileTree) : Store where
  document path := do
    let path ← Path.ofDocument path
    if isFile (t.at? path) then return ⟨path⟩ else throw (.documentNotFound path)
  folder path :=
    let path := Path.ofFolder path
    if isDirectory (t.at? path) then .ok ⟨path⟩ else .error (.folderNotFound path)
  structuredData d :=
    match inside? d.path with
    | none => .error (.documentNotFound d.path)
    | some segments =>
      match t.get? segments with
      | some (.file text) => FrontMatter.read d.path text
      | some (.directory _) => .error .unreadable
      | none => if t.passesFile segments then .error .unreadable else .error (.documentNotFound d.path)
  children f :=
    match inside? f.path with
    | none => .error (.folderNotFound f.path)
    | some segments =>
      match t.get? segments with
      | some (.directory entries) =>
        let visible := entries.filter fun e ↦ e.1.toList.head? != some '.'
        .ok ((visible.map fun e ↦ child e.1 e.2).mergeSort fun a b ↦ a.name ≤ b.name)
      | _ => .error .unreadable

end TemplatedForms.FileTree
