import TemplatedForms.Store.Basic

namespace TemplatedForms

structure MemoryStore where
  documents : Entries (Entries Json)
  folders : Entries (List Child)

namespace MemoryStore

def empty : MemoryStore := ⟨[], [("", [])]⟩

/-- Lists an entry in a folder, unless there is no such folder or it lists the name already. -/
def addChild (m : MemoryStore) (folder : String) (child : Child) : MemoryStore :=
  match m.folders.get? folder with
  | none => m
  | some children =>
    if children.any (·.name == child.name) then m
    else { m with folders := m.folders.put folder (children ++ [child]) }

def addFolder (m : MemoryStore) (path : String) : MemoryStore :=
  { m with folders := m.folders.put path [] }

def addDocument (m : MemoryStore) (path : String) (data : Entries Json) : MemoryStore :=
  { m with documents := m.documents.put path data }

/-- Creates a folder and those that it lies in. The depth of the path bounds the recursion. -/
def insertFolderWithin : Nat → MemoryStore → String → MemoryStore
  | 0, m, _ => m
  | depth + 1, m, path =>
    let path := Path.ofFolder path
    if m.folders.contains path then m
    else
      let m :=
        if path.isEmpty then m
        else (insertFolderWithin depth m (Path.parent path)).addChild (Path.parent path) ⟨Path.name path, none⟩
      m.addFolder path

def insertFolder (m : MemoryStore) (path : String) : MemoryStore :=
  insertFolderWithin (path.length + 1) m path

/-- The path that a document is kept under: the path itself if it is no path of a document. -/
def documentPath (path : String) : String :=
  match Path.ofDocument path with
  | .ok path => path
  | .error _ => Path.trimSeparatorsStart path

/-- Creates a document in its folder. Data that is not an object counts as empty. -/
def insertDocument (m : MemoryStore) (path : String) (data : Json) : MemoryStore :=
  let path := documentPath path
  let data := match data with
    | .object members => members
    | _ => []
  let m := (m.insertFolder (Path.parent path)).addChild (Path.parent path)
    ⟨Path.name path, some (Path.baseName path)⟩
  m.addDocument path data

def toStore (m : MemoryStore) : Store where
  document path := do
    let path ← Path.ofDocument path
    if m.documents.contains path then return ⟨path⟩ else throw (.documentNotFound path)
  folder path :=
    let path := Path.ofFolder path
    if m.folders.contains path then .ok ⟨path⟩ else .error (.folderNotFound path)
  structuredData d := (m.documents.get? d.path).elim (.error (.documentNotFound d.path)) .ok
  children f := (m.folders.get? f.path).elim (.error (.folderNotFound f.path)) .ok

end MemoryStore

end TemplatedForms
