import TemplatedForms.Form.Rendering

namespace TemplatedForms

namespace FieldState

def scopeAfter (scope : Entries Value) (fs : List FieldState) : Entries Value :=
  fs.foldl (fun scope s ↦ s.extend scope) scope

theorem scopeAfter_append (scope : Entries Value) (fs gs : List FieldState) :
    scopeAfter scope (fs ++ gs) = scopeAfter (scopeAfter scope fs) gs :=
  List.foldl_append

def EachInScope (P : Entries Value → FieldState → Prop) : Entries Value → List FieldState → Prop
  | _, [] => True
  | scope, s :: rest => P scope s ∧ EachInScope P (s.extend scope) rest

variable {P : Entries Value → FieldState → Prop}

theorem eachInScope_append (scope : Entries Value) (fs gs : List FieldState) :
    EachInScope P scope (fs ++ gs) ↔ EachInScope P scope fs ∧ EachInScope P (scopeAfter scope fs) gs := by
  induction fs generalizing scope with
  | nil => simp [EachInScope, scopeAfter]
  | cons s fs ih => simp [EachInScope, ih, scopeAfter, and_assoc]

theorem EachInScope.getElem? {scope : Entries Value} {fs : List FieldState}
    (h : EachInScope P scope fs) {k : Nat} {s : FieldState} (hs : fs[k]? = some s) :
    P (scopeAfter scope (fs.take k)) s := by
  induction fs generalizing scope k with
  | nil => simp at hs
  | cons f fs ih =>
    cases k with
    | zero =>
      obtain rfl : f = s := by simpa using hs
      exact h.1
    | succ k => exact ih h.2 (by simpa using hs)

theorem EachInScope.exists_scope {scope : Entries Value} {fs : List FieldState}
    (h : EachInScope P scope fs) : ∀ s ∈ fs, ∃ scope', P scope' s := by
  induction fs generalizing scope with
  | nil => simp
  | cons f fs ih =>
    intro s hs
    rcases List.mem_cons.mp hs with rfl | hs
    · exact ⟨scope, h.1⟩
    · exact ih h.2 s hs

end FieldState

namespace FormState

/-- The values that the field at a position sees: those of the fields before it, without the undefined
ones. -/
def scopeAt (form : FormState) (k : Nat) : Entries Value :=
  Entries.ofPairs
    (((form.fields.take k).filter (!·.value.isUndefined)).map fun s ↦ (s.field.className, s.value))

theorem scopeAt_eq (form : FormState) (k : Nat) :
    form.scopeAt k = FieldState.scopeAfter [] (form.fields.take k) := by
  have h (fs : List FieldState) (scope : Entries Value) :
      ((fs.filter (!·.value.isUndefined)).map fun s ↦ (s.field.className, s.value)).foldl
        (fun es e ↦ es.put e.1 e.2) scope = FieldState.scopeAfter scope fs := by
    induction fs generalizing scope with
    | nil => rfl
    | cons s fs ih =>
      rw [FieldState.scopeAfter, List.foldl_cons, ← FieldState.scopeAfter, ← ih]
      cases hs : s.value.isUndefined <;> simp [FieldState.extend, hs]
  exact h _ []

end FormState

namespace Context

variable (c : Context)

@[simp] theorem state_field (scope : Entries Value) (f : Field) (v : Value) :
    (c.state scope f v).value.field = f := rfl

@[simp] theorem state_value (scope : Entries Value) (f : Field) (v : Value) :
    (c.state scope f v).value.value = v := rfl

def Settled (scope : Entries Value) (s : FieldState) : Prop :=
  s = (c.state scope s.field s.value).value

/-- The value of a field is that of its expression, if it has one that is evaluated. -/
def Computed (scope : Entries Value) (s : FieldState) : Prop :=
  ∀ text, s.field.expression = some text → s.field.bypass = false →
    s.value = (c.evaluate scope text).value

theorem state_settled (scope : Entries Value) (f : Field) (v : Value) :
    c.Settled scope (c.state scope f v).value := rfl

theorem content_computed (scope : Entries Value) (f : Field) (v : Value) :
    c.Computed scope (c.state scope f (c.content scope f v).value).value := by
  intro text ht hb
  simp only [state_field] at ht hb
  simp [content, ht, hb]

theorem state_of_no_texts {f : Field} (h : f.templatedTexts = []) (scope scope' : Entries Value)
    (v : Value) : (c.state scope f v).value = (c.state scope' f v).value := by
  obtain ⟨name, className, kind, description, placeholder, hideExpression, required, bypass, expression⟩ := f
  simp only [Field.templatedTexts, List.append_eq_nil_iff, Option.toList_eq_nil_iff] at h
  obtain ⟨⟨⟨-, rfl⟩, hr⟩, ho⟩ := h
  cases required with
  | expression text => simp at hr
  | flag b =>
    cases kind with
    | dropdown options =>
      obtain ⟨value, expression⟩ := options
      obtain rfl : expression = none := by simpa [Field.options?] using ho
      cases value <;> rfl
    | _ => rfl

theorem computed_of_no_texts {s : FieldState} (h : s.field.templatedTexts = []) (scope : Entries Value) :
    c.Computed scope s := by
  intro text ht hb
  simp [Field.templatedTexts, ht, hb] at h

theorem renderFrom_settled (scope : Entries Value) (fs : List (Field × Value)) :
    FieldState.EachInScope c.Settled scope (c.renderFrom scope fs).value := by
  induction fs generalizing scope with
  | nil => trivial
  | cons f fs ih => exact ⟨c.state_settled _ _ _, ih _⟩

theorem renderFrom_computed (scope : Entries Value) (fs : List (Field × Value)) :
    FieldState.EachInScope c.Computed scope (c.renderFrom scope fs).value := by
  induction fs generalizing scope with
  | nil => trivial
  | cons f fs ih => exact ⟨c.content_computed scope f.1 f.2, ih _⟩

theorem renderFrom_fields (scope : Entries Value) (fs : List (Field × Value)) :
    (c.renderFrom scope fs).value.map (·.field) = fs.map (·.1) := by
  induction fs generalizing scope with
  | nil => rfl
  | cons f fs ih => exact congrArg (f.1 :: ·) (ih _)

theorem withValues_fields (fs : List Field) (values : List Value) :
    (withValues fs values).map (·.1) = fs := by
  induction fs generalizing values with
  | nil => rfl
  | cons f fs ih => exact congrArg (f :: ·) (ih _)

theorem render_fields (form : Form) (initial : List Value) :
    (c.render form initial).value.fields.map (·.field) = form.fields :=
  (c.renderFrom_fields _ _).trans (withValues_fields _ _)

end Context

end TemplatedForms
