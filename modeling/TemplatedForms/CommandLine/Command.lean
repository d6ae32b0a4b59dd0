import TemplatedForms.Json.Reader
import TemplatedForms.Text.Blank
import TemplatedForms.Text.Search
import TemplatedForms.Value.Json

namespace TemplatedForms

abbrev Assignment := String × Value

/-- An assignment as an argument: the value is JSON, or else a text. -/
def readAssignment? (arg : String) : Option Assignment := do
  let (className, raw) ← Text.cut? ['='] arg.toList
  let className := Text.trim (String.ofList className)
  let raw := String.ofList raw
  if className.isEmpty then none
  else some (className, ((Json.read? raw).map Value.ofJson).getD (.string raw))

inductive Command
  | eval (vault : String) (fields : List Assignment) (template : String)
  | render (vault settings : String) (sets : List Assignment) (id : String)
  | forms (settings : String)
  | toggle (settings id : String)
  | delete (settings id : String)

inductive OptionKind
  | path
  | assignment
deriving DecidableEq

structure CommandOption where
  name : String
  kind : OptionKind
  value : String
  about : String

structure Verb where
  name : String
  about : String
  options : List CommandOption
  operand : Option String

structure Arguments where
  paths : Entries String
  assignments : List Assignment
  operands : List String

namespace Verb

def vault (about : String) : CommandOption := ⟨"vault", .path, "VAULT", about⟩

def settings : CommandOption := ⟨"settings", .path, "SETTINGS", ""⟩

def assignment (name about : String) : CommandOption := ⟨name, .assignment, "CLASS=VALUE", about⟩

def all : List Verb := [
  ⟨"eval", "Evaluate one templated string and print the result as JSON",
    [vault "Vault root documents and folders are read from",
      assignment "field" "Sibling field value, as class=value (value may be JSON)"], some "TEMPLATE"⟩,
  ⟨"render", "Render a stored form and print every field's state",
    [vault "", settings, assignment "set" "Set a field as a user would, in order, after the first render"],
    some "FORM_ID"⟩,
  ⟨"forms", "List stored forms", [settings], none⟩,
  ⟨"toggle", "Flip a form's active flag", [settings], some "FORM_ID"⟩,
  ⟨"delete", "Remove a form", [settings], some "FORM_ID"⟩]

def ofName? (name : String) : Option Verb := all.find? (·.name == name)

end Verb

inductive HelpTopic
  | program
  | verb (verb : Verb)
  | help

inductive Request
  | run (command : Command)
  | showHelp (topic : HelpTopic)
  | showVersion
  | refused

/-- Whether an argument is read as an option: a dash with something after it. -/
def isOption (arg : String) : Bool :=
  match arg.toList with
  | '-' :: _ :: _ => true
  | _ => false

namespace Arguments

/-- Adds the value of an option. A path must not be empty, and not come twice. -/
def add? (o : CommandOption) (value : String) (a : Arguments) : Option Arguments :=
  match o.kind with
  | .path =>
    if value.isEmpty || a.paths.contains o.name then none
    else some { a with paths := a.paths.put o.name value }
  | .assignment => (readAssignment? value).map fun v ↦ { a with assignments := a.assignments ++ [v] }

def addOperand? (verb : Verb) (value : String) (a : Arguments) : Option Arguments :=
  if verb.operand.isSome && a.operands.isEmpty then some { a with operands := [value] } else none

def path? (a : Arguments) (name : String) : Option String := a.paths.get? name

def command? (verb : Verb) (a : Arguments) : Option Command :=
  match verb.name with
  | "eval" => do some (.eval (← a.path? "vault") a.assignments (← a.operands.head?))
  | "render" => do
    some (.render (← a.path? "vault") (← a.path? "settings") a.assignments (← a.operands.head?))
  | "forms" => do some (.forms (← a.path? "settings"))
  | "toggle" => do some (.toggle (← a.path? "settings") (← a.operands.head?))
  | "delete" => do some (.delete (← a.path? "settings") (← a.operands.head?))
  | _ => none

def finish (verb : Verb) (a : Arguments) : Request := (a.command? verb).elim .refused .run

def splitOption (arg : String) : String × Option String :=
  let cs := arg.toList.drop 2
  match Text.cut? ['='] cs with
  | some (name, value) => (String.ofList name, some (String.ofList value))
  | none => (String.ofList cs, none)

/-- The value of an option: in the same argument, or the next one unless that is an option. -/
def optionValue? (attached : Option String) (rest : List String) : Option (String × List String) :=
  match attached, rest with
  | some value, rest => some (value, rest)
  | none, value :: rest => if isOption value then none else some (value, rest)
  | none, [] => none

/-- Reads the arguments after the name of a command. After two dashes there are no options any more. -/
def read (verb : Verb) : Nat → List String → Arguments → Request
  | 0, _, _ => .refused
  | _, [], a => a.finish verb
  | _, "--" :: rest, a => (rest.foldlM (fun a value ↦ addOperand? verb value a) a).elim .refused (finish verb)
  | fuel + 1, arg :: rest, a =>
    if !isOption arg then
      match a.addOperand? verb arg with
      | some a => read verb fuel rest a
      | none => .refused
    else
      match arg.toList with
      | '-' :: '-' :: _ =>
        let (name, attached) := splitOption arg
        if name == "help" && attached.isNone then .showHelp (.verb verb)
        else
          match verb.options.find? (·.name == name) with
          | none => .refused
          | some o =>
            match optionValue? attached rest with
            | none => .refused
            | some (value, rest) =>
              match a.add? o value with
              | some a => read verb fuel rest a
              | none => .refused
      | '-' :: 'h' :: _ => .showHelp (.verb verb)
      | _ => .refused

end Arguments

def Request.ofArguments : List String → Request
  | [] => .refused
  | "--help" :: _ => .showHelp .program
  | "--version" :: _ => .showVersion
  | ["help"] => .showHelp .program
  | ["help", "help"] => .showHelp .help
  | ["help", name] => (Verb.ofName? name).elim .refused fun verb ↦ .showHelp (.verb verb)
  | name :: rest =>
    match name.toList, Verb.ofName? name with
    | '-' :: 'h' :: _, _ => .showHelp .program
    | '-' :: 'V' :: _, _ => .showVersion
    | _, some verb => Arguments.read verb (rest.length + 1) rest ⟨[], [], []⟩
    | _, none => .refused

end TemplatedForms
