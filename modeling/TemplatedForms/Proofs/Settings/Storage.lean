import TemplatedForms.CommandLine.Run
import TemplatedForms.Proofs.Form.Json
import TemplatedForms.Proofs.Store.FileTree

namespace TemplatedForms

open Json

def FieldKind.bounds : FieldKind → List Float
  | .number min max => min.toList ++ max.toList
  | _ => []

def Form.bounds (form : Form) : List Float := form.fields.flatMap (·.kind.bounds)

theorem Required.readable_toJson (r : Required) {depth : Nat} : Readable depth r.toJson := by
  cases r with
  | flag b => exact .bool b
  | expression text => exact .string text

theorem DropdownOptions.readable_toJson (o : DropdownOptions) : Readable 2 o.toJson := by
  refine .object (List.forall_mem_append.mpr
    ⟨.member? fun options _ ↦ .array ?_, .member? fun text _ ↦ .string text⟩)
  exact List.forall_mem_map.mpr fun option _ ↦ .string option

theorem FieldKind.readable_members {kind : FieldKind} (h : ∀ x ∈ kind.bounds, (JsonNumber.float x).ReadsBack) :
    ∀ m ∈ kind.members, Readable 2 m.2 := by
  refine List.forall_mem_cons.mpr ⟨.string kind.tag, ?_⟩
  cases kind with
  | text | date | time | toggle => exact fun m hm ↦ absurd hm List.not_mem_nil
  | dropdown options => exact List.forall_mem_singleton.mpr options.readable_toJson
  | number min max =>
    refine List.forall_mem_append.mpr
      ⟨.member? fun x hx ↦ .number (h x ?_), .member? fun x hx ↦ .number (h x ?_)⟩
    · exact List.mem_append_left _ (Option.mem_toList.mpr hx)
    · exact List.mem_append_right _ (Option.mem_toList.mpr hx)

theorem Field.readable_toJson {f : Field} (h : ∀ x ∈ f.kind.bounds, (JsonNumber.float x).ReadsBack) :
    Readable 3 f.toJson := by
  have htext (key : String) (value : Option String) : ∀ m ∈ member? key .string value, Readable 2 m.2 :=
    .member? fun text _ ↦ .string text
  have hkind := FieldKind.readable_members h
  have hcontent : Readable 2 (contentToJson f.expression) := .object (.member? fun text _ ↦ .string text)
  refine .object ?_
  simp only [List.forall_mem_append, List.forall_mem_cons]
  exact ⟨⟨⟨⟨⟨⟨.string _, .string _, by simp⟩, hkind⟩, htext _ _⟩, htext _ _⟩, htext _ _⟩,
    f.required.readable_toJson, .bool _, hcontent, by simp⟩

theorem Form.readable_members {form : Form} (h : ∀ x ∈ form.bounds, (JsonNumber.float x).ReadsBack) :
    ∀ m ∈ form.members, Readable 4 m.2 := by
  have hfields : Readable 4 (.array (form.fields.map Field.toJson)) := by
    refine .array (List.forall_mem_map.mpr fun f hf ↦ Field.readable_toJson fun x hx ↦ h x ?_)
    exact List.mem_flatMap.mpr ⟨f, hf, hx⟩
  simp [members, Readable.string, hfields]

namespace FormRecord

theorem ofJson?_toJson (r : FormRecord) : ofJson? r.toJson = some r := by
  let members : List (String × Json) := [("id", .string r.id), ("active", .bool r.active)] ++ r.form.members
  have hid : required? "id" text? members = some r.id :=
    required?_of_filter (j := .string r.id) (by simp [members, Form.members]) rfl
  have hactive : withDefault? true "active" bool? members = some r.active :=
    withDefault?_of_filter (j := .bool r.active) (by simp [members, Form.members]) rfl
  have hform : Form.ofMembers? members = some r.form := by
    apply Form.ofMembers?_of_filter
    simp [members, Form.keys]
  have hread : ofJson? r.toJson = do
      let id ← required? "id" text? members
      let active ← withDefault? true "active" bool? members
      let form ← Form.ofMembers? members
      return ⟨id, active, form⟩ := rfl
  rw [hread, hid, hactive, hform]
  rfl

end FormRecord

namespace Settings

theorem ofJson?_toJson (s : Settings) : ofJson? s.toJson = some s := by
  have hforms : withDefault? [] "forms" (list? FormRecord.ofJson?)
      [("forms", .array (s.records.map FormRecord.toJson))] = some s.records :=
    withDefault?_of_filter rfl (list?_map FormRecord.ofJson?_toJson s.records)
  have hread : ofJson? s.toJson =
      (withDefault? [] "forms" (list? FormRecord.ofJson?) [("forms", .array (s.records.map FormRecord.toJson))]).bind
        fun records ↦ some ⟨records⟩ := rfl
  rw [hread, hforms]
  rfl

def bounds (s : Settings) : List Float := s.records.flatMap (·.form.bounds)

theorem readable_toJson {s : Settings} (h : ∀ x ∈ s.bounds, (JsonNumber.float x).ReadsBack) :
    Readable 7 s.toJson := by
  refine .object (List.forall_mem_singleton.mpr (.array (List.forall_mem_map.mpr fun r hr ↦ .object ?_)))
  have hform : ∀ m ∈ r.form.members, Readable 4 m.2 :=
    Form.readable_members fun x hx ↦ h x (List.mem_flatMap.mpr ⟨r, hr, hx⟩)
  refine List.forall_mem_append.mpr ⟨?_, hform⟩
  exact List.forall_mem_cons.mpr ⟨.string _, List.forall_mem_singleton.mpr (.bool _)⟩

theorem ofText_text {s : Settings} (h : ∀ x ∈ s.bounds, (JsonNumber.float x).ReadsBack) :
    ofText s.text = .ok s := by
  have hparse : Json.parse? s.text = some s.toJson := (readable_toJson h).parse?_document (by decide)
  have hblank : Text.allBlank s.text = false := by
    simp [Text.allBlank, text, document, pretty, toJson, prettyAt, prettyMembers, block, Text.isBlank]
  rw [ofText, hblank, hparse, Option.bind_some, ofJson?_toJson]
  rfl

theorem get?_of_save {s : Settings} {w : Workspace} {path : String} {files : FileTree}
    (h : s.save w path = .ok files) :
    ∃ place, w.locate? path = some place ∧ files.get? place = some (.file s.text) := by
  rw [save] at h
  split at h
  · cases h
  · next place hplace =>
    split at h
    · cases h
    · cases h
      exact ⟨place, hplace, FileTree.get?_put _ _ _⟩

/-- Stored settings are read back from their JSON, and from the text of the file they are saved in, if the
texts of the bounds in them are read back as these bounds. -/
theorem saved_settings_are_read_back (s : Settings) :
    ofJson? s.toJson = some s ∧
      ((∀ x ∈ s.bounds, (JsonNumber.float x).ReadsBack) → ofText s.text = .ok s) ∧
      ∀ w path files, s.save w path = .ok files →
        ∃ place, w.locate? path = some place ∧ files.get? place = some (.file s.text) :=
  ⟨s.ofJson?_toJson, ofText_text, fun _ _ _ ↦ get?_of_save⟩

theorem saved_settings_are_read_back_every_kind :
    let fields : List Field :=
      [⟨"Name", "name", .text, some "Given name", some "Ada", none, .flag true, false, none⟩,
        ⟨"Day", "day", .date, none, none, some "{% $$.all %}", .flag false, false, some "{% today() %}"⟩,
        ⟨"Hour", "hour", .time, none, none, none, .expression "{% $$.all %}", true, some "12:00"⟩,
        ⟨"Room", "room", .dropdown ⟨some ["A \"1\"", "B"], some "{% [] %}"⟩, none, none, none, .flag false, false, none⟩,
        ⟨"All", "all", .toggle, none, none, none, .flag false, false, none⟩,
        ⟨"Share", "share", .number (some (-0.5)) (some 100), none, none, none, .flag false, false, none⟩]
    let s : Settings := ⟨[⟨"Visit-a", false, ⟨"Visit", "a/\n", "Submit", fields⟩⟩, ⟨"-b", true, ⟨"", "", "", []⟩⟩]⟩
    let w : Workspace := ⟨.directory [], []⟩
    (∀ x ∈ s.bounds, (JsonNumber.float x).ReadsBack) ∧ ofText s.text = .ok s ∧
      ∃ files, s.save w "forms.json" = .ok files ∧
        ∃ place, w.locate? "forms.json" = some place ∧ files.get? place = some (.file s.text) := by
  intro fields s w
  have hbounds : ∀ x ∈ s.bounds, (JsonNumber.float x).ReadsBack := by
    have hshare : s.bounds = [-0.5, 100] := rfl
    have hlow : (JsonNumber.float (-0.5)).ReadsBack := by
      unfold JsonNumber.ReadsBack
      decide +kernel
    have hhigh : (JsonNumber.float 100).ReadsBack := by
      unfold JsonNumber.ReadsBack
      decide +kernel
    rw [hshare]
    exact List.forall_mem_cons.mpr ⟨hlow, List.forall_mem_singleton.mpr hhigh⟩
  have hsave : s.save w "forms.json" = .ok (.directory [("forms.json", .file s.text)]) := rfl
  obtain ⟨-, hread, hfile⟩ := saved_settings_are_read_back s
  exact ⟨hbounds, hread hbounds, _, hsave, hfile w _ _ hsave⟩

end Settings

end TemplatedForms
