import TemplatedForms.CommandLine.Command

namespace TemplatedForms.Help

def program : String := "formwork"

def version : String := program ++ " 0.1.0\n"

def columns (rows : List (String × String)) : String :=
  let width := rows.foldl (fun w r ↦ max w r.1.length) 0
  String.join (rows.map fun (left, right) ↦
    left ++ String.ofList (List.replicate (width + 2 - left.length) ' ') ++ right ++ "\n")

def titled (title : String) (rows : List (String × String)) : String :=
  "\n" ++ title ++ ":\n" ++ columns rows

def angled (name : String) : String := "<" ++ name ++ ">"

def optionText (o : CommandOption) : String := "--" ++ o.name ++ " " ++ angled o.value

def helpRow : String × String := ("  -h, --help", "Print help")

def ofVerb (verb : Verb) : String :=
  let required := verb.options.filter (·.kind == .path)
  let words := ["Usage: " ++ program ++ " " ++ verb.name] ++
    (if required.length < verb.options.length then ["[OPTIONS]"] else []) ++
    required.map optionText ++ verb.operand.toList.map angled
  verb.about ++ "\n\n" ++ " ".intercalate words ++ "\n" ++
    (verb.operand.elim "" fun name ↦ titled "Arguments" [("  " ++ angled name, "")]) ++
    titled "Options" (verb.options.map (fun o ↦ ("      " ++ optionText o, o.about)) ++ [helpRow])

def aboutHelp : String := "Print this message or the help of the given subcommand(s)"

def ofHelp : String :=
  aboutHelp ++ "\n\nUsage: " ++ program ++ " help [COMMAND]...\n" ++
    titled "Arguments" [("  [COMMAND]...", "Print help for the subcommand(s)")]

def ofProgram : String :=
  "Evaluate templated strings and render forms against a vault\n\nUsage: " ++ program ++ " <COMMAND>\n" ++
    titled "Commands" (Verb.all.map (fun v ↦ ("  " ++ v.name, v.about)) ++
      [("  help", aboutHelp)]) ++
    titled "Options" [helpRow, ("  -V, --version", "Print version")]

def text : HelpTopic → String
  | .program => ofProgram
  | .verb verb => ofVerb verb
  | .help => ofHelp

end TemplatedForms.Help
