import TemplatedForms.Form.Editor
import TemplatedForms.Form.Rendering
import TemplatedForms.Proofs.Reference.ClassName
import TemplatedForms.Proofs.Template

namespace TemplatedForms

theorem Field.options?_eq_some_iff {f : Field} {o : DropdownOptions} :
    f.options? = some o ↔ f.kind = .dropdown o := by
  rw [options?]
  cases f.kind <;> simp

namespace Editor

variable {values : Entries Value}

theorem options_of_kind {o : DropdownOptions} (h : kind values = .ok (.dropdown o)) : o = options values := by
  rw [kind] at h
  cases htag : FieldKind.ofText ((entered values kindField).getD FieldKind.text.tag) with
  | error e =>
    rw [htag] at h
    cases h
  | ok k =>
    rw [htag] at h
    cases k with
    | dropdown _ =>
      cases h
      rfl
    | _ => cases h

theorem exists_of_field {f : Field} (h : field values = .ok f) :
    ∃ k name, kind values = .ok k ∧ entered values nameField = some name ∧ f = {
      name
      className := ((entered values classNameField).filter (· != "field-")).getD (defaultClassName name)
      kind := k
      description := entered values descriptionField
      placeholder := entered values placeholderField
      hideExpression := entered values hideField
      required := required values
      bypass := false
      expression := entered values defaultField } := by
  rw [field] at h
  cases hkind : kind values with
  | error e =>
    rw [hkind] at h
    cases h
  | ok k =>
    rw [hkind] at h
    cases hname : entered values nameField with
    | none =>
      simp only [hname] at h
      cases h
    | some name =>
      simp only [hname] at h
      cases h
      exact ⟨k, name, rfl, rfl, rfl⟩

theorem isExpression_iff {text : String} :
    isExpression text = true ↔ (Template.split text).hasExpression = true ∨ Template.Stray text := by
  rw [← Template.marks_iff, isExpression, Bool.and_eq_true]
  have hcontains {p : List Char} (hp : p ≠ []) : Text.contains p text.toList = true ↔ p <:+: text.toList := by
    rw [Text.contains, Option.isSome_iff_ne_none, ne_eq, Text.cut?_eq_none hp, not_not]
  exact and_congr (hcontains Template.opening_ne_nil) (hcontains Template.closing_ne_nil)

theorem ite_isExpression_iff {α : Type} {text : String} {expression plain : α} (hne : expression ≠ plain) :
    ((if isExpression text then expression else plain) =
      if (Template.split text).hasExpression then expression else plain) ↔ ¬Template.Stray text := by
  constructor
  · intro h hstray
    rw [if_pos (isExpression_iff.mpr (.inr hstray)), if_neg (by simp [hstray.not_hasExpression])] at h
    exact hne h
  · intro hstray
    have h : isExpression text = true ↔ (Template.split text).hasExpression = true :=
      isExpression_iff.trans (or_iff_left hstray)
    rw [Bool.eq_iff_iff.mpr h]

theorem entered_of_bool {className : String} {b : Bool} (h : values.get? className = some (.bool b)) :
    entered values className = some (if b then "true" else "false") := by
  rw [entered, h]
  cases b <;> rfl

theorem required_of_entered {text : String} (h : entered values requiredField = some text) :
    required values =
      if isExpression text then .expression text else .flag (text != "false" && text != "0") := by
  rw [required]
  split
  · next b hb =>
    rw [entered_of_bool hb] at h
    cases h
    cases b <;> rfl
  · rw [h]

theorem options_of_entered {text : String} (hlist : ∀ items, values.get? optionsField ≠ some (.array items))
    (h : entered values optionsField = some text) :
    options values = if isExpression text then .ofExpression text else .literal (listed text) := by
  rw [options]
  split
  · next items hitems => exact absurd hitems (hlist items)
  · rw [h]

/-- For an entry that is accepted, the text entered for the flag or for the options is kept as an expression,
and evaluated when the field is, exactly when its template has one, and it is read as a flag or as a list
otherwise; unless its marks are stray. Such a text is kept as an expression as well, but nothing is ever
executed for it: the literal text in front of the marks decides on the flag, and there are no options. -/
theorem entered_text_is_read_as_template_iff {f : Field} (h : field values = .ok f) :
    (∀ text, entered values requiredField = some text →
      ((f.required = if (Template.split text).hasExpression then .expression text
          else .flag (text != "false" && text != "0")) ↔ ¬Template.Stray text) ∧
      ((Template.split text).hasExpression = true → ∀ (c : Context) (scope : Entries Value),
        c.required scope f = do return (← c.evaluate scope text).isSet) ∧
      (Template.Stray text → f.required = .expression text ∧ ∀ (c : Context) (scope : Entries Value),
        c.required scope f = return (Value.string (Template.split text).before).isSet)) ∧
    ∀ o text, f.options? = some o → (∀ items, values.get? optionsField ≠ some (.array items)) →
      entered values optionsField = some text →
      ((o = if (Template.split text).hasExpression then .ofExpression text
          else .literal (listed text)) ↔ ¬Template.Stray text) ∧
      ((Template.split text).hasExpression = true → ∀ (c : Context) (scope : Entries Value) (items : List Value),
        (c.evaluate scope text).value = .array items →
          c.options scope f = ⟨items.map Value.display, (c.evaluate scope text).notices⟩) ∧
      (Template.Stray text → o = .ofExpression text ∧ ∀ (c : Context) (scope : Entries Value),
        c.options scope f = ⟨[], [.invalidOptions f.className "expected a list, got string"]⟩) := by
  obtain ⟨k, name, hkind, -, hf⟩ := exists_of_field h
  refine ⟨fun text htext ↦ ?_, fun o text ho hlist htext ↦ ?_⟩
  · have hrequired : f.required = required values := by rw [hf]
    rw [required_of_entered htext] at hrequired
    have hexpression (hkept : isExpression text = true) : f.required = .expression text := by
      rw [hrequired, if_pos hkept]
    refine ⟨hrequired ▸ ite_isExpression_iff (by simp), fun hregion c scope ↦ ?_, fun hstray ↦ ?_⟩
    · rw [Context.required, hexpression (isExpression_iff.mpr (.inl hregion))]
    · have hkept := hexpression (isExpression_iff.mpr (.inr hstray))
      refine ⟨hkept, fun c scope ↦ ?_⟩
      simp only [Context.required, hkept, c.evaluate_of_not_hasExpression scope hstray.not_hasExpression,
        Noticed.pure_bind]
  · have hk : k = .dropdown o := by
      rw [← Field.options?_eq_some_iff.mp ho, hf]
    have hoptions := options_of_kind (hk ▸ hkind)
    rw [options_of_entered hlist htext] at hoptions
    have hexpression (hkept : isExpression text = true) : f.options? = some (.ofExpression text) := by
      rw [ho, hoptions, if_pos hkept]
    have hne : DropdownOptions.ofExpression text ≠ .literal (listed text) := fun heq ↦ by cases heq
    refine ⟨hoptions ▸ ite_isExpression_iff hne, fun hregion c scope items hitems ↦ ?_, fun hstray ↦ ?_⟩
    · have hkept := hexpression (isExpression_iff.mpr (.inl hregion))
      simp only [Context.options, hkept, DropdownOptions.ofExpression]
      generalize c.evaluate scope text = r at hitems ⊢
      obtain ⟨v, notices⟩ := r
      obtain rfl : v = .array items := hitems
      exact congrArg (Noticed.mk _) (List.append_nil notices)
    · have hkept := hexpression (isExpression_iff.mpr (.inr hstray))
      refine ⟨Option.some.inj (ho.symm.trans hkept), fun c scope ↦ ?_⟩
      simp only [Context.options, hkept, DropdownOptions.ofExpression,
        c.evaluate_of_not_hasExpression scope hstray.not_hasExpression, Noticed.pure_bind]
      rfl

def dropdownEntry (flag options : String) : Entries Value :=
  [(kindField, .string "dropdown"), (nameField, .string "Kind"), (requiredField, .string flag),
    (optionsField, .string options)]

theorem entered_text_is_read_as_template_iff_of_dropdown :
    field (dropdownEntry "\x7b\x7b$$.a\x7d\x7d" "a, b") = .ok
        { Field.new "Kind" (defaultClassName "Kind") (.dropdown (.literal ["a", "b"])) with
          required := .expression "\x7b\x7b$$.a\x7d\x7d" } ∧
      ¬Template.Stray "\x7b\x7b$$.a\x7d\x7d" ∧ ¬Template.Stray "a, b" := by
  have hfield : field (dropdownEntry "\x7b\x7b$$.a\x7d\x7d" "a, b") = .ok
      { Field.new "Kind" (defaultClassName "Kind") (.dropdown (.literal ["a", "b"])) with
        required := .expression "\x7b\x7b$$.a\x7d\x7d" } := rfl
  obtain ⟨hflag, hoptions⟩ := entered_text_is_read_as_template_iff hfield
  have hlist (items : List Value) :
      (dropdownEntry "\x7b\x7b$$.a\x7d\x7d" "a, b").get? optionsField ≠ some (.array items) := by
    rintro ⟨⟩
  exact ⟨hfield, (hflag _ rfl).1.mp rfl, (hoptions _ "a, b" rfl hlist rfl).1.mp rfl⟩

/-- A text with its marks in the wrong order is kept as an expression, although it has none. -/
theorem stray_marks_are_kept_as_expression :
    ∃ f, field (dropdownEntry "false" "\x7d\x7d,\x7b\x7b") = .ok f ∧
      entered (dropdownEntry "false" "\x7d\x7d,\x7b\x7b") optionsField = some "\x7d\x7d,\x7b\x7b" ∧
      f.options? = some (.ofExpression "\x7d\x7d,\x7b\x7b") ∧
      (Template.split "\x7d\x7d,\x7b\x7b").hasExpression = false :=
  ⟨Field.new "Kind" (defaultClassName "Kind") (.dropdown (.ofExpression "\x7d\x7d,\x7b\x7b")), rfl, rfl, rfl,
    rfl⟩

theorem entered_ne_empty {className text : String} (h : entered values className = some text) : text ≠ "" := by
  rintro rfl
  rw [entered] at h
  cases hv : values.get? className with
  | none =>
    rw [hv] at h
    cases h
  | some v =>
    rw [hv] at h
    change (if v.isNullish || (Text.trim v.display).isEmpty then none else some (Text.trim v.display)) = _ at h
    split at h
    · cases h
    · next hempty =>
      simp [Option.some.inj h] at hempty

theorem isClassNameChar_default {name : String} :
    (∀ c ∈ (defaultClassName name).toList, Part.isClassNameChar c = true) ↔
      ∀ c ∈ (Text.lower name).toList, Part.isClassNameChar c = true ∨ c = ' ' := by
  have hprefix : ∀ c ∈ "field-".toList, Part.isClassNameChar c = true := List.all_eq_true.mp rfl
  have hchar (c : Char) : Part.isClassNameChar (if c = ' ' then '-' else c) = true ↔
      Part.isClassNameChar c = true ∨ c = ' ' := by
    split
    · next hc => exact iff_of_true rfl (.inr hc)
    · next hc => exact (or_iff_left hc).symm
  rw [defaultClassName, String.toList_append, String.toList_map, List.forall_mem_append,
    and_iff_right hprefix, List.forall_mem_map]
  exact forall₂_congr fun c _ ↦ hchar c

/-- For an entry that is accepted, the class name of its field can be referred to exactly when each character
of the class name that was entered, or else of the name in lower case, is one of class names; a blank in the
name is put right. A reference to any other class name is one to another field, whose class name is the start
of this one. -/
theorem class_name_is_reference_iff {f : Field} (h : field values = .ok f) :
    (∀ className, (entered values classNameField).filter (· != "field-") = some className →
      ((fieldReferences (Part.mark ++ f.className)).map (·.className) = [f.className] ↔
        ∀ c ∈ className.toList, Part.isClassNameChar c = true)) ∧
    ((entered values classNameField).filter (· != "field-") = none →
      ((fieldReferences (Part.mark ++ f.className)).map (·.className) = [f.className] ↔
        ∀ c ∈ (Text.lower f.name).toList, Part.isClassNameChar c = true ∨ c = ' ')) ∧
    ((fieldReferences (Part.mark ++ f.className)).map (·.className) ≠ [f.className] →
      FieldReference.key f.className ≠ f.className ∧
      (FieldReference.key f.className ≠ "" →
        ⟨FieldReference.key f.className, ⟨0, (Part.mark ++ FieldReference.key f.className).utf8ByteSize⟩, false⟩ ∈
          fieldReferences (Part.mark ++ f.className))) := by
  obtain ⟨k, name, -, -, hf⟩ := exists_of_field h
  have hname : f.name = name := by rw [hf]
  have hclass : f.className =
      ((entered values classNameField).filter (· != "field-")).getD (defaultClassName name) := by rw [hf]
  have hne : f.className ≠ "" := by
    rw [hclass]
    cases hgiven : (entered values classNameField).filter (· != "field-") with
    | none => simp [defaultClassName]
    | some className => exact entered_ne_empty (Option.eq_some_of_filter_eq_some hgiven)
  have hiff := FieldReference.references_of_mark_iff hne
  refine ⟨fun className hgiven ↦ ?_, fun hgiven ↦ ?_, fun hno ↦ ⟨?_, FieldReference.key_mem⟩⟩
  · rw [hiff, hclass, hgiven, Option.getD_some]
  · rw [hiff, hclass, hgiven, Option.getD_none, hname, isClassNameChar_default]
  · rwa [ne_eq, FieldReference.key_eq_self_iff, ← hiff]

def namedEntry (name : String) : Entries Value := [(nameField, .string name)]

theorem class_name_is_reference_iff_of_name :
    field (namedEntry "Due date 2") = .ok (Field.new "Due date 2" (defaultClassName "Due date 2") .text) ∧
      (fieldReferences (Part.mark ++ defaultClassName "Due date 2")).map (·.className) =
        [defaultClassName "Due date 2"] := by
  have hfield : field (namedEntry "Due date 2") =
      .ok (Field.new "Due date 2" (defaultClassName "Due date 2") .text) := rfl
  have hchars : ∀ c ∈ (Text.lower "Due date 2").toList, Part.isClassNameChar c = true ∨ c = ' ' := by
    have hlower : (Text.lower "Due date 2").toList = "due date 2".toList := by decide +kernel
    simp [hlower, Part.isClassNameChar]
  exact ⟨hfield, ((class_name_is_reference_iff hfield).2.1 rfl).mpr hchars⟩

/-- A sign in the name of a field is in its class name as well, and ends every reference to it. -/
theorem class_name_with_sign_is_cut :
    ∃ f, field (namedEntry "Tom & Jerry") = .ok f ∧ f.className = "field-tom-&-jerry" ∧
      (fieldReferences (Part.mark ++ f.className)).map (·.className) = ["field-tom-"] :=
  ⟨Field.new "Tom & Jerry" (defaultClassName "Tom & Jerry") .text, rfl, by decide +kernel, by decide +kernel⟩

end Editor

end TemplatedForms
