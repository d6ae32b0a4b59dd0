import TemplatedForms.Json.Printer
import TemplatedForms.Store.Basic
import TemplatedForms.Yaml.Data

namespace TemplatedForms.FrontMatter

def fence : String := "---"

/-- The lines of a text without their ends. A last line that is empty does not count. -/
def lines (text : String) : List String :=
  let all := text.toList.splitOn '\n'
  let all := if all.getLast? == some [] then all.dropLast else all
  all.map fun cs ↦ String.ofList (if cs.getLast? == some '\r' then cs.dropLast else cs)

def isFence (line : String) : Bool := Text.trimEnd line == fence

/-- The text between the first line, which has to be a fence, and the next fence. -/
def block? (content : String) : Option String :=
  let content := match content.toList with
    | '\ufeff' :: cs => String.ofList cs
    | _ => content
  match lines content with
  | [] => none
  | first :: rest =>
    let inner := rest.takeWhile fun l ↦ !isFence l
    if !isFence first || inner.length = rest.length then none
    else some (String.join (inner.map (· ++ "\n")))

def read (path content : String) : Except StoreError (Entries Json) :=
  match block? content with
  | none => .ok []
  | some text =>
    if Text.allBlank text then .ok []
    else
      match Yaml.read? text with
      | some (.object members) => .ok members
      | some .null => .ok []
      | some data => .error (.invalidData path ("front matter is not a mapping: " ++ data.compact))
      | none => .error (.invalidData path "<yaml>")

end TemplatedForms.FrontMatter
