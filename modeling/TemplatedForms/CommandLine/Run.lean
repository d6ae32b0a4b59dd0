import TemplatedForms.CommandLine.Help
import TemplatedForms.Form.Session
import TemplatedForms.Settings
import TemplatedForms.Store.Vault

namespace TemplatedForms

/-- The tree of all files, and the working directory in it. -/
structure Workspace where
  root : FileTree
  directory : List String

namespace Workspace

/-- Where some steps lead from a directory. Only the last step may lead to nothing. -/
def walk? (root : FileTree) (place : List String) : List String → Option (List String)
  | [] => some place
  | step :: steps =>
    if !FileTree.isDirectory (root.get? place) then none
    else if step == "." then walk? root place steps
    else if step == ".." then walk? root place.dropLast steps
    else walk? root (place ++ [step]) steps

/-- The place that a path names, which may be empty. With a separator at its end a path names a
directory. -/
def locate? (w : Workspace) (path : String) : Option (List String) := do
  let cs := path.toList
  if cs.isEmpty then none
  else
    let start := if cs.head? == some '/' then [] else w.directory
    let place ← walk? w.root start (Path.segments path)
    if cs.getLast? == some '/' && !FileTree.isDirectory (w.root.get? place) then none else some place

def at? (w : Workspace) (path : String) : Option FileTree := (w.locate? path).bind w.root.get?

end Workspace

inductive CommandError
  | settings (e : SettingsError)
  | vaultNotFound (path : String)
deriving DecidableEq

def CommandError.message : CommandError → String
  | .settings e => e.message
  | .vaultNotFound path => "vault not found: " ++ path

structure Outcome where
  output : String
  notices : List Notice
  files : FileTree

namespace Settings

def load (w : Workspace) (path : String) : Except SettingsError Settings :=
  match w.at? path with
  | none => .ok empty
  | some (.directory _) => .error .unreadable
  | some (.file text) => ofText text

def temporaryName (name : String) : String := Path.baseName name ++ ".json.tmp"

def temporaryPlace (place : List String) : List String :=
  place.dropLast ++ [temporaryName (place.getLast?.getD "")]

/-- Writes a file that exists, by way of a temporary one beside it. -/
def save (w : Workspace) (path : String) (s : Settings) : Except SettingsError FileTree :=
  match w.locate? path with
  | none => .error .unreadable
  | some place =>
    match w.root.get? (temporaryPlace place) with
    | some (.directory _) => .error .unreadable
    | _ => .ok (FileTree.put (.file s.text) place (FileTree.remove (temporaryPlace place) w.root))

end Settings

namespace FieldState

def toJson (s : FieldState) : Json :=
  .object [("className", .string s.field.className), ("type", .string s.field.kind.tag),
    ("hidden", .bool s.hidden), ("required", .bool s.required), ("value", s.value.toJson),
    ("options", .array (s.options.map .string))]

end FieldState

namespace FormState

def toJson (s : FormState) : Json :=
  .object [("title", .string s.title), ("path", .string s.path), ("submitLabel", .string s.submitLabel),
    ("fields", .array (s.fields.map FieldState.toJson)), ("values", (Value.object s.values).toJson),
    ("missingRequired", .array (s.missing.map .string))]

end FormState

/-- Sets fields one after the other. Names that no field has are passed over. -/
def Context.setAll (c : Context) (form : FormState) : List Assignment → Noticed FormState
  | [] => return form
  | (className, v) :: rest =>
    match c.set? className v form with
    | some m => do setAll c (← m) rest
    | none => setAll c form rest

def FormRecord.line (r : FormRecord) : String :=
  (if r.active then "* " else "  ") ++ r.id ++ "  " ++ r.form.title ++ " (" ++
    toString r.form.fields.length ++ " fields)\n"

namespace Command

abbrev Run := Except CommandError

def vault (w : Workspace) (path : String) : Run Context :=
  match w.at? path with
  | some (.directory entries) => .ok ⟨(FileTree.directory entries).toStore, Interpreter.defaultStepLimit⟩
  | _ => .error (.vaultNotFound path)

def withSettings {α : Type} : Except SettingsError α → Run α := Except.mapError .settings

def run (w : Workspace) : Command → Run Outcome
  | eval vaultPath fields template => do
    let context ← vault w vaultPath
    let r := context.evaluate (Entries.ofPairs fields) template
    return ⟨r.value.toJson.document ++ "\n", r.notices, w.root⟩
  | render vaultPath path sets id => do
    let context ← vault w vaultPath
    let settings ← withSettings (Settings.load w path)
    let record ← withSettings (settings.get id)
    let r := (context.render record.form []).bind fun form ↦ context.setAll form sets
    return ⟨r.value.toJson.document ++ "\n", r.notices, w.root⟩
  | forms path => do
    let settings ← withSettings (Settings.load w path)
    return ⟨String.join (settings.records.map FormRecord.line), [], w.root⟩
  | toggle path id => do
    let settings ← withSettings (Settings.load w path)
    let (active, settings) ← withSettings (settings.toggle id)
    let files ← withSettings (settings.save w path)
    return ⟨id ++ " is now " ++ (if active then "active" else "inactive") ++ "\n", [], files⟩
  | delete path id => do
    let settings ← withSettings (Settings.load w path)
    let (record, settings) ← withSettings (settings.delete id)
    let files ← withSettings (settings.save w path)
    return ⟨"deleted " ++ record.id ++ " (" ++ record.form.title ++ ")\n", [], files⟩

end Command

structure Ending where
  code : UInt32
  output : String
  errors : String
  files : FileTree

/-- What the program does when it is called with arguments. A command that fails changes no file. -/
def Workspace.call (w : Workspace) (args : List String) : Ending :=
  match Request.ofArguments args with
  | .run command =>
    match command.run w with
    | .ok r => ⟨0, r.output, String.join (r.notices.map fun n ↦ "notice: " ++ n.text ++ "\n"), r.files⟩
    | .error e => ⟨1, "", "error: " ++ e.message ++ "\n", w.root⟩
  | .showHelp topic => ⟨0, Help.text topic, "", w.root⟩
  | .showVersion => ⟨0, Help.version, "", w.root⟩
  | .refused => ⟨2, "", Help.text .program, w.root⟩

end TemplatedForms
