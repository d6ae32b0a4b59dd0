import Mathlib.Data.List.Induction
import TemplatedForms.Form.Session
import TemplatedForms.Proofs.Form.Rendering

namespace TemplatedForms

open FieldState (EachInScope scopeAfter)

namespace FormState

def position? (form : FormState) (className : String) : Option Nat :=
  form.fields.findIdx? (·.field.className == className)

theorem split_of_position? {form : FormState} {className : String} {i : Nat}
    (h : form.position? className = some i) :
    ∃ before s rest, form.fields = before ++ s :: rest ∧ before.length = i ∧
      (∀ f ∈ before, f.field.className ≠ className) ∧ s.field.className = className := by
  obtain ⟨hi, hs, hbefore⟩ := List.findIdx?_eq_some_iff_getElem.mp h
  refine ⟨form.fields.take i, form.fields[i], form.fields.drop (i + 1), ?_, ?_, ?_, by simpa using hs⟩
  · rw [List.getElem_cons_drop, List.take_append_drop]
  · rw [List.length_take, Nat.min_eq_left (Nat.le_of_lt hi)]
  · intro f hf
    obtain ⟨j, hj, rfl⟩ := List.mem_take_iff_getElem.mp hf
    simpa using hbefore j (by omega)

end FormState

/-- A field was set to a value after the last edit of an earlier one, and not again since. -/
def LastSetTo (form : Form) (k : Nat) (v : Value) (edits : List (String × Value)) : Prop :=
  ∃ before className after, edits = before ++ (className, v) :: after ∧ form.position? className = some k ∧
    ∀ e ∈ after, ∀ i, form.position? e.1 = some i → k < i

namespace Context

variable (c : Context)

/-- An edit of a form. One of a field that the form does not have changes nothing. -/
def edit (form : FormState) (e : String × Value) : FormState :=
  (c.set? e.1 e.2 form).elim form (·.value)

def edits (form : FormState) (es : List (String × Value)) : FormState := es.foldl c.edit form

theorem refreshOne_field (scope : Entries Value) (s : FieldState) :
    (c.refreshOne scope s).value.field = s.field := by
  unfold refreshOne
  split <;> rfl

theorem refreshOne_settled {scope' : Entries Value} {s : FieldState} (h : c.Settled scope' s)
    (scope : Entries Value) : c.Settled scope (c.refreshOne scope s).value := by
  unfold refreshOne
  split
  · next ht => exact h.trans (c.state_of_no_texts (List.isEmpty_iff.mp ht) scope' scope s.value)
  · exact c.state_settled _ _ _

theorem refreshOne_computed (scope : Entries Value) (s : FieldState) :
    c.Computed scope (c.refreshOne scope s).value := by
  unfold refreshOne
  split
  · next ht => exact c.computed_of_no_texts (List.isEmpty_iff.mp ht) scope
  · exact c.content_computed scope s.field s.value

theorem refresh_fields (scope : Entries Value) (fs : List FieldState) :
    (c.refresh scope fs).value.map (·.field) = fs.map (·.field) := by
  induction fs generalizing scope with
  | nil => rfl
  | cons s fs ih =>
    rw [List.map_cons, ← c.refreshOne_field scope s, ← ih]
    rfl

theorem refresh_settled {fs : List FieldState} (h : ∀ s ∈ fs, ∃ scope', c.Settled scope' s)
    (scope : Entries Value) : EachInScope c.Settled scope (c.refresh scope fs).value := by
  induction fs generalizing scope with
  | nil => trivial
  | cons s fs ih =>
    obtain ⟨scope', hs⟩ := h s List.mem_cons_self
    exact ⟨c.refreshOne_settled hs scope, ih (fun s hs ↦ h s (List.mem_cons_of_mem _ hs)) _⟩

theorem refresh_computed (scope : Entries Value) (fs : List FieldState) :
    EachInScope c.Computed scope (c.refresh scope fs).value := by
  induction fs generalizing scope with
  | nil => trivial
  | cons s fs ih => exact ⟨c.refreshOne_computed scope s, ih _⟩

theorem setFrom?_append {className : String} {before : List FieldState} {s : FieldState}
    (rest : List FieldState) (hb : ∀ f ∈ before, f.field.className ≠ className) (hs : s.field.className = className)
    (v : Value) (scope : Entries Value) :
    (c.setFrom? className v scope (before ++ s :: rest)).map (·.value) =
      some (before ++ (c.state (scopeAfter scope before) s.field v).value ::
        (c.refresh ((c.state (scopeAfter scope before) s.field v).value.extend (scopeAfter scope before))
          rest).value) := by
  induction before generalizing scope with
  | nil =>
    rw [List.nil_append, setFrom?, if_pos (by simpa using hs)]
    rfl
  | cons f before ih =>
    obtain ⟨hf, hb⟩ := List.forall_mem_cons.mp hb
    have h := ih hb (f.extend scope)
    rw [List.cons_append, setFrom?, if_neg (by simpa using hf), Option.map_map]
    obtain ⟨m, hm, hv⟩ := Option.map_eq_some_iff.mp h
    rw [hm]
    exact congrArg (fun fs ↦ some (f :: fs)) hv

theorem setFrom?_eq_none {className : String} {fs : List FieldState}
    (h : ∀ f ∈ fs, f.field.className ≠ className) (v : Value) (scope : Entries Value) :
    c.setFrom? className v scope fs = none := by
  induction fs generalizing scope with
  | nil => rfl
  | cons f fs ih =>
    obtain ⟨hf, h⟩ := List.forall_mem_cons.mp h
    rw [setFrom?, if_neg (by simpa using hf), ih h]
    rfl

theorem set?_eq_none {form : FormState} {className : String} (h : form.position? className = none)
    (v : Value) : c.set? className v form = none := by
  have h' : ∀ f ∈ form.fields, f.field.className ≠ className := by
    simpa [FormState.position?, List.findIdx?_eq_none_iff] using h
  rw [set?, c.setFrom?_eq_none h']
  rfl

theorem set?_of_split {form : FormState} {className : String} {before rest : List FieldState} {s : FieldState}
    (hf : form.fields = before ++ s :: rest) (hb : ∀ f ∈ before, f.field.className ≠ className)
    (hs : s.field.className = className) (v : Value) :
    (c.set? className v form).map (·.value) = some { form with
      fields := before ++ (c.state (scopeAfter [] before) s.field v).value ::
        (c.refresh ((c.state (scopeAfter [] before) s.field v).value.extend (scopeAfter [] before))
          rest).value } := by
  obtain ⟨m, hm, hv⟩ := Option.map_eq_some_iff.mp (c.setFrom?_append rest hb hs v [])
  rw [← hf] at hm
  rw [set?, hm, ← hv]
  rfl

theorem set?_eq_some {form : FormState} {className : String} {i : Nat}
    (h : form.position? className = some i) (v : Value) :
    ∃ r before s rest, c.set? className v form = some r ∧ form.fields = before ++ s :: rest ∧
      before.length = i ∧
      r.value = { form with
        fields := before ++ (c.state (scopeAfter [] before) s.field v).value ::
          (c.refresh ((c.state (scopeAfter [] before) s.field v).value.extend (scopeAfter [] before))
            rest).value } := by
  obtain ⟨before, s, rest, hf, hi, hb, hs⟩ := FormState.split_of_position? h
  obtain ⟨r, hr, hv⟩ := Option.map_eq_some_iff.mp (c.set?_of_split hf hb hs v)
  exact ⟨r, before, s, rest, hr, hf, hi, hv⟩

theorem edit_of_position {form : FormState} {className : String} {i : Nat}
    (h : form.position? className = some i) (v : Value) :
    ∃ before s rest, form.fields = before ++ s :: rest ∧ before.length = i ∧
      (c.edit form (className, v)).fields =
        before ++ (c.state (scopeAfter [] before) s.field v).value ::
          (c.refresh ((c.state (scopeAfter [] before) s.field v).value.extend (scopeAfter [] before))
            rest).value := by
  obtain ⟨r, before, s, rest, hr, hf, hi, hv⟩ := c.set?_eq_some h v
  refine ⟨before, s, rest, hf, hi, ?_⟩
  rw [edit, hr, Option.elim_some, hv]

theorem edit_of_no_position {form : FormState} {className : String}
    (h : form.position? className = none) (v : Value) : c.edit form (className, v) = form := by
  rw [edit, c.set?_eq_none h, Option.elim_none]

theorem edit_fields (form : FormState) (e : String × Value) :
    (c.edit form e).fields.map (·.field) = form.fields.map (·.field) := by
  obtain ⟨className, v⟩ := e
  cases h : form.position? className with
  | none => rw [c.edit_of_no_position h]
  | some i =>
    obtain ⟨before, s, rest, hf, -, he⟩ := c.edit_of_position h v
    simp [hf, he, c.refresh_fields]

theorem edit_settled {form : FormState} (h : EachInScope c.Settled [] form.fields)
    (e : String × Value) : EachInScope c.Settled [] (c.edit form e).fields := by
  obtain ⟨className, v⟩ := e
  cases hp : form.position? className with
  | none => rwa [c.edit_of_no_position hp]
  | some i =>
    obtain ⟨before, s, rest, hf, -, he⟩ := c.edit_of_position hp v
    rw [hf, FieldState.eachInScope_append] at h
    rw [he, FieldState.eachInScope_append]
    exact ⟨h.1, c.state_settled _ _ _, c.refresh_settled h.2.2.exists_scope _⟩

theorem position?_eq {s : FormState} {form : Form} (h : s.fields.map (·.field) = form.fields)
    (className : String) : s.position? className = form.position? className := by
  rw [Form.position?, ← h, List.findIdx?_map]
  rfl

end Context

namespace LastSetTo

variable {form : Form} {k : Nat} {className : String} {v : Value} {edits : List (String × Value)}

theorem of_edit (h : form.position? className = some k) : LastSetTo form k v (edits ++ [(className, v)]) :=
  ⟨edits, className, [], rfl, h, by simp⟩

theorem append (h : LastSetTo form k v edits) {e : String × Value}
    (he : ∀ i, form.position? e.1 = some i → k < i) : LastSetTo form k v (edits ++ [e]) := by
  obtain ⟨before, className, after, rfl, hp, ha⟩ := h
  refine ⟨before, className, after ++ [e], by simp, hp, fun e' he' ↦ ?_⟩
  rcases List.mem_append.mp he' with he' | he'
  · exact ha e' he'
  · obtain rfl := List.mem_singleton.mp he'
    exact he

end LastSetTo

namespace Context

variable (c : Context) {form : Form}

/-- Each field has the value of its expression, or the one that it was set to by an edit that still
stands. -/
def Current (form : Form) (es : List (String × Value)) (s : FormState) : Prop :=
  ∀ k f, s.fields[k]? = some f →
    c.Computed (scopeAfter [] (s.fields.take k)) f ∨ LastSetTo form k f.value es

theorem edit_current {s : FormState} {es : List (String × Value)}
    (hs : s.fields.map (·.field) = form.fields) (h : c.Current form es s) (e : String × Value) :
    c.Current form (es ++ [e]) (c.edit s e) := by
  obtain ⟨className, v⟩ := e
  intro k f hk
  cases hp : s.position? className with
  | none =>
    rw [c.edit_of_no_position hp] at hk ⊢
    refine (h k f hk).imp_right fun hl ↦ hl.append fun i hi ↦ ?_
    rw [← position?_eq hs, hp] at hi
    cases hi
  | some i =>
    have hp' : form.position? className = some i := by rw [← position?_eq hs, hp]
    obtain ⟨before, s', rest, hf, rfl, he⟩ := c.edit_of_position hp v
    rw [he] at hk ⊢
    rcases Nat.lt_trichotomy k before.length with hlt | rfl | hlt
    · -- the fields before the edited one and their scopes are the old ones
      rw [List.getElem?_append_left hlt] at hk
      rw [List.take_append_of_le_length (Nat.le_of_lt hlt)]
      have hold := h k f (by rw [hf, List.getElem?_append_left hlt, hk])
      rw [hf, List.take_append_of_le_length (Nat.le_of_lt hlt)] at hold
      refine hold.imp_right fun hl ↦ hl.append fun i hi ↦ ?_
      rw [hp'] at hi
      cases hi
      exact hlt
    · obtain rfl : (c.state (scopeAfter [] before) s'.field v).value = f := by
        simpa using hk
      exact .inr (.of_edit hp')
    · -- the fields after it have been computed anew
      obtain ⟨j, rfl⟩ : ∃ j, k = before.length + (j + 1) := ⟨k - before.length - 1, by omega⟩
      rw [List.getElem?_append_right (by omega), Nat.add_sub_cancel_left, List.getElem?_cons_succ] at hk
      left
      have hc := (c.refresh_computed _ rest).getElem? hk
      rwa [List.take_length_add_append, List.take_succ_cons, FieldState.scopeAfter_append]

theorem edits_invariant (s : FormState) (hs : s.fields.map (·.field) = form.fields)
    (hsettled : EachInScope c.Settled [] s.fields) (hc : EachInScope c.Computed [] s.fields)
    (es : List (String × Value)) :
    (c.edits s es).fields.map (·.field) = form.fields ∧
      EachInScope c.Settled [] (c.edits s es).fields ∧ c.Current form es (c.edits s es) := by
  induction es using List.reverseRecOn with
  | nil => exact ⟨hs, hsettled, fun k f hk ↦ .inl (hc.getElem? hk)⟩
  | append_singleton es e ih =>
    obtain ⟨hf, hst, hcur⟩ := ih
    rw [edits, List.foldl_append, ← edits]
    exact ⟨(c.edit_fields _ e).trans hf, c.edit_settled hst e, c.edit_current hf hcur e⟩

/-- After any sequence of edits of a rendered form, the state of each field is the one that its value and
the values before it give; its value is that of its expression, unless it was set after the last edit of
an earlier field. An edit changes no field before the one that it sets and no definition of a field. -/
theorem edits_agree_with_rendering (form : Form) (initial : List Value) (es : List (String × Value)) :
    let s := c.edits (c.render form initial).value es
    (∀ k f, s.fields[k]? = some f → f = (c.state (s.scopeAt k) f.field f.value).value) ∧
    (∀ k f text, s.fields[k]? = some f → f.field.expression = some text → f.field.bypass = false →
      f.value = (c.evaluate (s.scopeAt k) text).value ∨ LastSetTo form k f.value es) ∧
    (∀ className v, s.position? className = none → c.set? className v s = none) ∧
    (∀ className v i, s.position? className = some i → ∃ r, c.set? className v s = some r ∧
      r.value.fields.take i = s.fields.take i ∧ r.value.fields[i]?.map (·.value) = some v ∧
      r.value.fields.map (·.field) = s.fields.map (·.field) ∧
      (r.value.title, r.value.path, r.value.submitLabel) = (s.title, s.path, s.submitLabel)) := by
  intro s
  obtain ⟨-, hsettled, hcurrent⟩ := c.edits_invariant (c.render form initial).value
    (c.render_fields form initial) (c.renderFrom_settled _ _) (c.renderFrom_computed _ _) es
  refine ⟨fun k f hk ↦ ?_, fun k f text hk ht hb ↦ ?_, fun className v h ↦ c.set?_eq_none h v,
    fun className v i h ↦ ?_⟩
  · rw [FormState.scopeAt_eq]
    exact hsettled.getElem? hk
  · rw [FormState.scopeAt_eq]
    exact (hcurrent k f hk).imp_left fun hc ↦ hc text ht hb
  · obtain ⟨r, before, s', rest, hr, hf, rfl, hv⟩ := c.set?_eq_some h v
    refine ⟨r, hr, ?_⟩
    rw [hv, hf]
    simp [c.refresh_fields]

end Context

end TemplatedForms
