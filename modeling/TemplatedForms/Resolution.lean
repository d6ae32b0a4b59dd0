import TemplatedForms.Json.Printer
import TemplatedForms.Notice
import TemplatedForms.Reference
import TemplatedForms.Store.Basic
import TemplatedForms.Value.Basic

namespace TemplatedForms

def literalChar : Char → List Char
  | '\\' => ['\\', '\\']
  | '\'' => ['\\', '\'']
  | '\n' => ['\\', 'n']
  | '\r' => ['\\', 'r']
  | c => [c]

def quoteLiteral (text : String) : String :=
  String.ofList ('\'' :: text.toList.flatMap literalChar ++ ['\''])

def fieldText (values : Entries Value) (className : String) : String :=
  (values.get? className).elim "" Value.display

def Part.filled (write : String → String) (values : Entries Value) : Part → String
  | .text s => s
  | .field className => write (fieldText values className)

def Part.fill (write : String → String) (values : Entries Value) (text : String) : String :=
  String.join ((Part.ofText text).map (Part.filled write values))

/-- Field references become string literals; in a path they become part of the path. -/
def Segment.fill (values : Entries Value) : Segment → String
  | .literal text => Part.fill quoteLiteral values text
  | .document path => (Segment.document (Part.fill id values path)).text

def resolveFields (values : Entries Value) (body : String) : String :=
  String.join ((Segment.ofBody body).map (Segment.fill values))

/-- The notice of a failed lookup; failures to read a document raise none. -/
def StoreError.notice? : StoreError → Option Notice
  | .folderNotFound path => some (.folderNotFound path)
  | .documentNotFound path => some (.documentNotFound path)
  | .unsupportedFormat path extension => some (.unsupportedExtension path extension)
  | .invalidData _ _ | .unreadable => none

namespace Store

def folderText (store : Store) (path : String) : Except StoreError String := do
  let children ← store.children (← store.folder path)
  return (Json.array (children.map fun c ↦ .string c.displayName)).compact

/-- What a reference is replaced by, if anything, and the failure of its lookup. -/
def lookup (store : Store) (path : String) : Option String × Option StoreError :=
  if path.toList.getLast? == some '/' then
    match store.folderText path with
    | .ok text => (some text, none)
    | .error e => (none, some e)
  else
    match store.document path with
    | .error (.unsupportedFormat path extension) => (some "", some (.unsupportedFormat path extension))
    | .error e => (none, some e)
    | .ok d =>
      match store.structuredData d with
      | .ok data => (some (Json.object data).compact, none)
      | .error e => (none, some e)

end Store

/-- A reference to a document or folder is replaced by its data; one that cannot be looked up stays. -/
def Segment.resolve (store : Store) (s : Segment) : Noticed String :=
  match s with
  | .literal text => ⟨text, []⟩
  | .document path =>
    let (text?, error?) := store.lookup path
    ⟨text?.getD s.text, (error?.bind StoreError.notice?).toList⟩

def Segment.resolveAll (store : Store) : List Segment → Noticed String
  | [] => ⟨"", []⟩
  | s :: rest =>
    let r := s.resolve store
    let rs := resolveAll store rest
    ⟨r.value ++ rs.value, r.notices ++ rs.notices⟩

def resolveDocuments (store : Store) (body : String) : Noticed String :=
  Segment.resolveAll store (Segment.ofBody body)

end TemplatedForms
