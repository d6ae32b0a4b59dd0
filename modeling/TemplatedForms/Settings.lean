import TemplatedForms.Form.Json
import TemplatedForms.Form.Validation
import TemplatedForms.Json.Printer
import TemplatedForms.Json.Reader
import TemplatedForms.Number.Radix

namespace TemplatedForms

structure FormRecord where
  id : String
  active : Bool
  form : Form
deriving DecidableEq

/-- The stored forms, the newest one first. -/
structure Settings where
  records : List FormRecord
deriving DecidableEq

inductive SettingsError
  | unreadable
  | malformed
  | formNotFound (id : String)
  | invalidForm (title : String) (problems : List FormProblem)
deriving DecidableEq

def SettingsError.message : SettingsError → String
  | .unreadable => "io error"
  | .malformed => "json error"
  | .formNotFound id => "form not found: " ++ id
  | .invalidForm title problems =>
    "invalid form " ++ title ++ ": " ++ "; ".intercalate (problems.map FormProblem.message)

/-- An identifier: the title, with dashes for blanks, and the time of creation in milliseconds. -/
def formId (title : String) (time : UInt64) : String :=
  title.map (fun c ↦ if Text.isBlank c then '-' else c) ++ "-" ++ Number.inRadix 36 time.toNat

/-- The identifier for a title from a time on that is not taken. One of as many as there are taken ones,
and one more, is free. -/
def freeId (taken : List String) (title : String) : Nat → UInt64 → String
  | 0, time => formId title time
  | tries + 1, time =>
    if taken.contains (formId title time) then freeId taken title tries (time + 1) else formId title time

namespace FormRecord

def toJson (r : FormRecord) : Json :=
  .object ([("id", .string r.id), ("active", .bool r.active)] ++ r.form.members)

def ofJson? (j : Json) : Option FormRecord := do
  let members ← j.members?
  let id ← Json.required? "id" Json.text? members
  let active ← Json.withDefault? true "active" Json.bool? members
  let form ← Form.ofMembers? members
  return ⟨id, active, form⟩

end FormRecord

namespace Settings

def empty : Settings := ⟨[]⟩

def toJson (s : Settings) : Json := .object [("forms", .array (s.records.map FormRecord.toJson))]

def ofJson? (j : Json) : Option Settings := do
  let members ← j.positional? ["forms"]
  return ⟨← Json.withDefault? [] "forms" (Json.list? FormRecord.ofJson?) members⟩

def text (s : Settings) : String := s.toJson.document

def ofText (text : String) : Except SettingsError Settings :=
  if Text.allBlank text then .ok empty
  else (((Json.parse? text).bind ofJson?).elim (.error .malformed) .ok)

def ids (s : Settings) : List String := s.records.map (·.id)

def active (s : Settings) : List FormRecord := s.records.filter (·.active)

def get (s : Settings) (id : String) : Except SettingsError FormRecord :=
  (s.records.find? (·.id == id)).elim (.error (.formNotFound id)) .ok

def change (id : String) (f : FormRecord → FormRecord) : List FormRecord → List FormRecord
  | [] => []
  | r :: rs => if r.id == id then f r :: rs else r :: change id f rs

def check (form : Form) : Except SettingsError Unit :=
  if form.problems.isEmpty then .ok () else .error (.invalidForm form.title form.problems)

def create (s : Settings) (form : Form) (time : UInt64) : Except SettingsError (String × Settings) := do
  check form
  let id := freeId s.ids form.title s.records.length time
  return (id, ⟨⟨id, true, form⟩ :: s.records⟩)

def update (s : Settings) (id : String) (form : Form) : Except SettingsError Settings := do
  check form
  let _ ← s.get id
  return ⟨change id (fun r ↦ { r with form }) s.records⟩

def toggle (s : Settings) (id : String) : Except SettingsError (Bool × Settings) := do
  let r ← s.get id
  return (!r.active, ⟨change id (fun r ↦ { r with active := !r.active }) s.records⟩)

def delete (s : Settings) (id : String) : Except SettingsError (FormRecord × Settings) := do
  let r ← s.get id
  return (r, ⟨s.records.eraseP (·.id == id)⟩)

end Settings

end TemplatedForms
