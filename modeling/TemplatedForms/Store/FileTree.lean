import TemplatedForms.Store.Basic

namespace TemplatedForms

inductive FileTree
  | file (text : String)
  | directory (entries : List (String × FileTree))

instance : Inhabited FileTree := ⟨.directory []⟩

namespace FileTree

def entries : FileTree → List (String × FileTree)
  | .file _ => []
  | .directory entries => entries

def get? : FileTree → List String → Option FileTree
  | t, [] => some t
  | .file _, _ :: _ => none
  | .directory entries, name :: path =>
    match entries.lookup name with
    | some t => t.get? path
    | none => none

/-- Puts something at the end of a path, with the directories on the way. -/
def put (new : FileTree) : List String → FileTree → FileTree
  | [], _ => new
  | name :: path, t =>
    let inner := (Entries.get? name t.entries).getD (.directory [])
    .directory (Entries.put name (put new path inner) t.entries)

def remove : List String → FileTree → FileTree
  | [], t => t
  | _, .file text => .file text
  | [name], .directory entries => .directory (Entries.erase name entries)
  | name :: path, .directory entries =>
    match Entries.get? name entries with
    | some t => .directory (Entries.put name (remove path t) entries)
    | none => .directory entries

/-- Adds a file, or, if the path ends with a separator, a directory. -/
def insert (t : FileTree) (path text : String) : FileTree :=
  let segments := Path.segments path
  if path.toList.getLast? == some '/' then
    match t.get? segments with
    | some (.directory _) => t
    | _ => put (.directory []) segments t
  else put (.file text) segments t

def ofFiles (files : List (String × String)) : FileTree :=
  files.foldl (fun t f ↦ t.insert f.1 f.2) (.directory [])

mutual

def filesUnder (before : String) : FileTree → List (String × String)
  | .file text => [(before, text)]
  | .directory entries => entriesUnder before entries

def entriesUnder (before : String) : List (String × FileTree) → List (String × String)
  | [] => []
  | (name, t) :: rest =>
    filesUnder (if before.isEmpty then name else before ++ "/" ++ name) t ++ entriesUnder before rest

end

def files (t : FileTree) : List (String × String) := filesUnder "" t

/-- The files of a tree that an earlier one does not have, by their paths. -/
def changes (before after : FileTree) : List (String × String) :=
  (after.files.filter fun f ↦ !before.files.contains f).mergeSort fun a b ↦ a.1 ≤ b.1

def isFile : Option FileTree → Bool
  | some (.file _) => true
  | _ => false

def isDirectory : Option FileTree → Bool
  | some (.directory _) => true
  | _ => false

end FileTree

end TemplatedForms
