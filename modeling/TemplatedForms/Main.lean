import TemplatedForms.CommandLine.Run

namespace TemplatedForms

def machinePath (place : List String) : String := "/" ++ "/".intercalate place

partial def readTree (path : String) : IO FileTree := do
  let dir := (← IO.currentDir) / path
  if ← dir.isDir then
    let entries ← dir.readDir
    return .directory (← entries.toList.mapM fun e ↦ do
      return (e.fileName, ← readTree (path ++ "/" ++ e.fileName)))
  else
    try return .file (← IO.FS.readFile dir)
    catch _ => return .file ""

def readAlong (root : FileTree) (place : List String) : List String → IO FileTree
  | [] => do
    let path := (← IO.currentDir) / machinePath place
    if ← path.pathExists then return FileTree.put (← readTree (machinePath place)) place root else return root
  | step :: steps => do
    let path := (← IO.currentDir) / machinePath place
    if !(← path.isDir) then return root
    else
      let root := if (root.get? place).isSome then root else FileTree.put (.directory []) place root
      if step == "." then readAlong root place steps
      else if step == ".." then readAlong root place.dropLast steps
      else readAlong root (place ++ [step]) steps

def Workspace.read (w : Workspace) (path : String) : IO Workspace := do
  let start := if path.toList.head? == some '/' then [] else w.directory
  return { w with root := ← readAlong w.root start (Path.segments path) }

def Command.paths : Command → List String
  | eval vault _ _ => [vault]
  | render vault settings _ _ => [vault, settings]
  | forms settings | toggle settings _ | delete settings _ => [settings]

def Request.paths : Request → List String
  | .run command => command.paths
  | _ => []

def writeFile (path text : String) : IO Unit := do
  let folder := Path.parent path
  let temporary := folder ++ "/" ++ Settings.temporaryName (Path.name path)
  IO.FS.writeFile temporary text
  IO.FS.rename temporary path

def Ending.perform (e : Ending) (before : FileTree) : IO UInt32 := do
  IO.eprint e.errors
  try
    for (path, text) in before.changes e.files do
      writeFile ("/" ++ path) text
    IO.print e.output
    return e.code
  catch _ =>
    IO.eprintln ("error: " ++ (SettingsError.unreadable).message)
    return 1

end TemplatedForms

open TemplatedForms in
def main (args : List String) : IO UInt32 := do
  let directory := Path.segments (← IO.currentDir).toString
  let start : Workspace := ⟨FileTree.put (.directory []) directory (.directory []), directory⟩
  let w ← (Request.ofArguments args).paths.foldlM (fun w path ↦ w.read path) start
  (w.call args).perform w.root
