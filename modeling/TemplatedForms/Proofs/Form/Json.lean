import TemplatedForms.Form.Json
import TemplatedForms.Proofs.Json.Record

namespace TemplatedForms

open Json

theorem Required.ofJson?_toJson (r : Required) : ofJson? r.toJson = some r := by
  cases r <;> rfl

theorem DropdownOptions.ofJson?_toJson (o : DropdownOptions) : ofJson? o.toJson = some o := by
  let members := member? "value" (fun options ↦ .array (options.map .string)) o.value ++
    member? "expression" .string o.expression
  have hlist : ∀ options : List String, list? text? (.array (options.map .string)) = some options :=
    list?_map fun _ ↦ rfl
  have hvalue : optional? "value" (list? text?) members = some o.value :=
    optional?_of_filter (fun options ↦ .array (options.map .string)) (by simp [members])
      fun options ↦ by simp [orNull?, hlist]
  have hexpression : optional? "expression" text? members = some o.expression :=
    optional?_of_filter .string (by simp [members]) fun _ ↦ rfl
  have hread : ofJson? o.toJson = do
      let value ← optional? "value" (list? text?) members
      let expression ← optional? "expression" text? members
      return ⟨value, expression⟩ := rfl
  rw [hread, hvalue, hexpression]
  rfl

namespace FieldKind

@[simp]
def keys : List String := ["type", "options", "min", "max"]

theorem ofMembers?_of_filter {kind : FieldKind} {members : List (String × Json)}
    (h : ∀ key ∈ keys, members.filter (·.1 == key) = kind.members.filter (·.1 == key)) :
    ofMembers? members = some kind := by
  have htype : required? "type" tagged? members = tagged? (.string kind.tag) := by
    rw [required?, find?_of_filter (j := .string kind.tag)]
    · rfl
    · rw [h "type" (by decide)]
      cases kind <;> simp [FieldKind.members]
  rw [ofMembers?, htype]
  cases kind with
  | text | date | time | toggle => rfl
  | dropdown options =>
    have hoptions : withDefault? DropdownOptions.none "options" DropdownOptions.ofJson? members = some options :=
      withDefault?_of_filter (h "options" (by decide)) options.ofJson?_toJson
    have htag : tagged? (.string (dropdown options).tag) = some (.dropdown .none) := rfl
    simp only [htag, Option.bind_eq_bind, Option.bind_some, hoptions]
    rfl
  | number min max =>
    let bound (x : Float) : Json := .number (.float x)
    have hmin : optional? "min" float? members = some min :=
      optional?_of_filter bound (by simp [h "min" (by decide), FieldKind.members, bound]) fun _ ↦ rfl
    have hmax : optional? "max" float? members = some max :=
      optional?_of_filter bound (by simp [h "max" (by decide), FieldKind.members, bound]) fun _ ↦ rfl
    have htag : tagged? (.string (number min max).tag) = some (.number .none .none) := rfl
    simp only [htag, Option.bind_eq_bind, Option.bind_some, hmin, hmax]
    rfl

theorem mem_keys {kind : FieldKind} {m : String × Json} (h : m ∈ kind.members) : m.1 ∈ keys := by
  cases kind with
  | text | date | time | toggle =>
    obtain rfl := List.mem_singleton.mp h
    simp [keys]
  | dropdown options =>
    simp only [members, List.mem_cons, List.not_mem_nil, or_false] at h
    obtain rfl | rfl := h <;> simp [keys]
  | number min max =>
    simp only [members, List.mem_cons, List.mem_append, mem_member?] at h
    obtain rfl | ⟨x, -, rfl⟩ | ⟨x, -, rfl⟩ := h <;> simp [keys]

@[simp]
theorem filter_members {key : String} (h : key ∉ keys) (kind : FieldKind) :
    kind.members.filter (·.1 == key) = [] := by
  rw [List.filter_eq_nil_iff]
  rintro m hm heq
  exact h (eq_of_beq heq ▸ mem_keys hm)

end FieldKind

namespace Field

theorem contentOfJson?_contentToJson (expression : Option String) :
    contentOfJson? (contentToJson expression) = some expression :=
  optional?_of_filter .string (by simp) fun _ ↦ rfl

def members (f : Field) : List (String × Json) :=
  [("name", .string f.name), ("className", .string f.className)] ++ f.kind.members ++
    member? "description" .string f.description ++ member? "placeholder" .string f.placeholder ++
    member? "hideExpression" .string f.hideExpression ++
    [("required", f.required.toJson), ("bypassValueExpressionEvaluation", .bool f.bypass),
      ("content", contentToJson f.expression)]

theorem ofJson?_toJson (f : Field) : ofJson? f.toJson = some f := by
  have hname : required? "name" text? f.members = some f.name :=
    required?_of_filter (j := .string f.name) (by simp [members]) rfl
  have hclass : required? "className" text? f.members = some f.className :=
    required?_of_filter (j := .string f.className) (by simp [members]) rfl
  have hkind : FieldKind.ofMembers? f.members = some f.kind := by
    apply FieldKind.ofMembers?_of_filter
    simp [members]
  have hdescription : optional? "description" text? f.members = some f.description :=
    optional?_of_filter .string (by simp [members]) fun _ ↦ rfl
  have hplaceholder : optional? "placeholder" text? f.members = some f.placeholder :=
    optional?_of_filter .string (by simp [members]) fun _ ↦ rfl
  have hhide : optional? "hideExpression" text? f.members = some f.hideExpression :=
    optional?_of_filter .string (by simp [members]) fun _ ↦ rfl
  have hrequired : withDefault? (.flag false) "required" Required.ofJson? f.members = some f.required :=
    withDefault?_of_filter (by simp [members]) f.required.ofJson?_toJson
  have hbypass : withDefault? false "bypassValueExpressionEvaluation" bool? f.members = some f.bypass :=
    withDefault?_of_filter (j := .bool f.bypass) (by simp [members]) rfl
  have hcontent : withDefault? none "content" contentOfJson? f.members = some f.expression :=
    withDefault?_of_filter (by simp [members])
      (contentOfJson?_contentToJson f.expression)
  have hmembers : f.toJson = .object f.members := rfl
  simp [ofJson?, hmembers, members?, hname, hclass, hkind, hdescription, hplaceholder, hhide, hrequired, hbypass,
    hcontent]

end Field

namespace Form

theorem ofMembers?_of_filter {form : Form} {members : List (String × Json)}
    (h : ∀ key ∈ keys, members.filter (·.1 == key) = form.members.filter (·.1 == key)) :
    ofMembers? members = some form := by
  have htitle : required? "title" text? members = some form.title :=
    required?_of_filter (j := .string form.title) (by simp [h "title" (by decide), Form.members]) rfl
  have hpath : required? "path" text? members = some form.path :=
    required?_of_filter (j := .string form.path) (by simp [h "path" (by decide), Form.members]) rfl
  have hlabel : required? "submitLabel" text? members = some form.submitLabel :=
    required?_of_filter (j := .string form.submitLabel) (by simp [h "submitLabel" (by decide), Form.members]) rfl
  have hfields : withDefault? [] "formFields" (list? Field.ofJson?) members = some form.fields :=
    withDefault?_of_filter (by simp [h "formFields" (by decide), Form.members])
      (list?_map Field.ofJson?_toJson form.fields)
  simp [ofMembers?, htitle, hpath, hlabel, hfields]

theorem ofJson?_toJson (form : Form) : ofJson? form.toJson = some form :=
  ofMembers?_of_filter fun _ _ ↦ rfl

end Form

end TemplatedForms
