import TemplatedForms.Proofs.Form.Editing
import TemplatedForms.Store.Memory

namespace TemplatedForms

open FieldState (scopeAfter)

namespace Field

/-- The value of the field comes from the user: it has no expression, or one that is not evaluated. -/
def TakesInput (f : Field) : Prop := f.expression = none ∨ f.bypass = true

def refreshedInput (f : Field) (v : Value) : Value :=
  if f.templatedTexts.isEmpty then v else (f.expression.map Value.string).getD v

theorem refreshedInput_refreshedInput (f : Field) (v : Value) :
    f.refreshedInput (f.refreshedInput v) = f.refreshedInput v := by
  rw [refreshedInput, refreshedInput]
  split
  · rfl
  · cases f.expression <;> rfl

theorem refreshedInput_eq_self_iff {f : Field} {v : Value} :
    f.refreshedInput v = v ↔
      f.expression = none ∨ f.templatedTexts = [] ∨ f.expression.map Value.string = some v := by
  rw [refreshedInput, ← List.isEmpty_iff]
  split
  · next h => simp [h]
  · next h =>
    cases f.expression with
    | none => simp
    | some text => simp [h]

theorem map_string_expression_of_ne {f : Field} {v : Value} (h : f.refreshedInput v ≠ v) :
    f.expression.map Value.string = some (f.refreshedInput v) := by
  rw [refreshedInput] at h ⊢
  split at h
  · exact absurd rfl h
  · next ht =>
    rw [if_neg ht]
    cases he : f.expression with
    | none => simp [he] at h
    | some text => rfl

end Field

namespace FormState

def isBefore (form : FormState) (className : String) (k : Nat) : Bool :=
  (form.position? className).any (· < k)

theorem position?_injective {form : FormState} {className className' : String} {i : Nat}
    (h : form.position? className = some i) (h' : form.position? className' = some i) :
    className = className' := by
  obtain ⟨_, hs, -⟩ := List.findIdx?_eq_some_iff_getElem.mp h
  obtain ⟨_, hs', -⟩ := List.findIdx?_eq_some_iff_getElem.mp h'
  exact (beq_iff_eq.mp hs).symm.trans (beq_iff_eq.mp hs')

end FormState

namespace Context

variable (c : Context)

theorem refresh_cons (scope : Entries Value) (s : FieldState) (rest : List FieldState) :
    (c.refresh scope (s :: rest)).value = (c.refreshOne scope s).value ::
      (c.refresh ((c.refreshOne scope s).value.extend scope) rest).value := rfl

theorem refresh_append (scope : Entries Value) (fs gs : List FieldState) :
    (c.refresh scope (fs ++ gs)).value = (c.refresh scope fs).value ++
      (c.refresh (scopeAfter scope (c.refresh scope fs).value) gs).value := by
  induction fs generalizing scope with
  | nil => rfl
  | cons s fs ih => exact congrArg ((c.refreshOne scope s).value :: ·) (ih _)

theorem refreshOne_of_no_texts {s : FieldState} (h : s.field.templatedTexts = []) (scope : Entries Value) :
    (c.refreshOne scope s).value = s := by
  rw [refreshOne, if_pos (List.isEmpty_iff.mpr h)]
  rfl

theorem refreshOne_of_texts {s : FieldState} (h : s.field.templatedTexts ≠ []) (scope : Entries Value) :
    (c.refreshOne scope s).value =
      (c.state scope s.field (c.content scope s.field s.value).value).value := by
  rw [refreshOne, if_neg (by simpa using h)]
  rfl

theorem content_content (scope scope' : Entries Value) (f : Field) (v : Value) :
    c.content scope f (c.content scope' f v).value = c.content scope f v := by
  cases he : f.expression with
  | none => simp only [content, he, pure]
  | some text => simp only [content, he]

theorem content_of_takesInput {f : Field} (h : f.TakesInput) (scope : Entries Value) (v : Value) :
    (c.content scope f v).value = (f.expression.map Value.string).getD v := by
  cases he : f.expression with
  | none =>
    simp only [content, he]
    rfl
  | some text =>
    have hbypass : f.bypass = true := by
      apply h.resolve_left
      simp [he]
    simp only [content, he, hbypass, if_true]
    rfl

theorem refreshOne_value {s : FieldState} (h : s.field.TakesInput) (scope : Entries Value) :
    (c.refreshOne scope s).value.value = s.field.refreshedInput s.value := by
  by_cases ht : s.field.templatedTexts = []
  · rw [c.refreshOne_of_no_texts ht, Field.refreshedInput, if_pos (List.isEmpty_iff.mpr ht)]
  · rw [c.refreshOne_of_texts ht, state_value, c.content_of_takesInput h, Field.refreshedInput,
      if_neg (by simpa using ht)]

theorem refreshOne_state {f : Field} (h : f.expression = none) (scope scope' : Entries Value) (v : Value) :
    (c.refreshOne scope (c.state scope' f v).value).value = (c.state scope f v).value := by
  by_cases ht : f.templatedTexts = []
  · rw [c.refreshOne_of_no_texts ht]
    exact c.state_of_no_texts ht scope' scope v
  · rw [c.refreshOne_of_texts ht, state_field, state_value, c.content_of_takesInput (.inl h), h]
    rfl

theorem refreshOne_refreshOne (scope scope' : Entries Value) (s : FieldState) :
    (c.refreshOne scope (c.refreshOne scope' s).value).value = (c.refreshOne scope s).value := by
  by_cases ht : s.field.templatedTexts = []
  · rw [c.refreshOne_of_no_texts ht]
  · have ht' : (c.refreshOne scope' s).value.field.templatedTexts ≠ [] := by rwa [c.refreshOne_field]
    rw [c.refreshOne_of_texts ht', c.refreshOne_of_texts ht scope', state_field, state_value,
      c.content_content, ← c.refreshOne_of_texts ht]

theorem refresh_refresh (scope scope' : Entries Value) (fs : List FieldState) :
    (c.refresh scope (c.refresh scope' fs).value).value = (c.refresh scope fs).value := by
  induction fs generalizing scope scope' with
  | nil => rfl
  | cons s fs ih =>
    rw [c.refresh_cons, c.refresh_cons, c.refresh_cons, c.refreshOne_refreshOne, ih]

theorem refresh_getElem? {fs : List FieldState} {k : Nat} {s : FieldState} (h : fs[k]? = some s)
    (scope : Entries Value) :
    ∃ scope', (c.refresh scope fs).value[k]? = some (c.refreshOne scope' s).value := by
  induction fs generalizing scope k with
  | nil => simp at h
  | cons f fs ih =>
    cases k with
    | zero =>
      obtain rfl : f = s := by simpa using h
      exact ⟨scope, rfl⟩
    | succ k => exact ih (by simpa using h) _

def setAfter (before : List FieldState) (s : FieldState) (v : Value) (rest : List FieldState) :
    List FieldState :=
  before ++ (c.state (scopeAfter [] before) s.field v).value ::
    (c.refresh ((c.state (scopeAfter [] before) s.field v).value.extend (scopeAfter [] before)) rest).value

theorem edit_of_split {form : FormState} {className : String} {before rest : List FieldState} {s : FieldState}
    (hf : form.fields = before ++ s :: rest) (hb : ∀ f ∈ before, f.field.className ≠ className)
    (hs : s.field.className = className) (v : Value) :
    c.edit form (className, v) = { form with fields := c.setAfter before s v rest } := by
  obtain ⟨r, hr, hv⟩ := Option.map_eq_some_iff.mp (c.set?_of_split hf hb hs v)
  rw [edit, hr, Option.elim_some, hv, setAfter]

theorem edit_position? (form : FormState) (e : String × Value) (className : String) :
    (c.edit form e).position? className = form.position? className := by
  have h (form : FormState) : form.position? className =
      (form.fields.map (·.field)).findIdx? (·.className == className) := by
    rw [List.findIdx?_map]
    rfl
  rw [h, h, c.edit_fields]

theorem edit_isBefore (form : FormState) (e : String × Value) (className : String) (k : Nat) :
    (c.edit form e).isBefore className k = form.isBefore className k := by
  rw [FormState.isBefore, c.edit_position?, FormState.isBefore]

theorem edit_value {form : FormState} {k : Nat} {s : FieldState} (hk : form.fields[k]? = some s)
    (hinput : s.field.TakesInput) {e : String × Value} (he : form.position? e.1 ≠ some k) :
    ∃ s', (c.edit form e).fields[k]? = some s' ∧ s'.field = s.field ∧
      s'.value = if form.isBefore e.1 k then s.field.refreshedInput s.value else s.value := by
  obtain ⟨className, v⟩ := e
  cases hp : form.position? className with
  | none =>
    rw [c.edit_of_no_position hp, FormState.isBefore, hp]
    exact ⟨s, hk, rfl, rfl⟩
  | some i =>
    obtain ⟨before, t, rest, hf, rfl, hb, ht⟩ := FormState.split_of_position? hp
    rw [c.edit_of_split hf hb ht, setAfter, FormState.isBefore, hp]
    rw [hf] at hk
    rcases Nat.lt_trichotomy k before.length with hlt | rfl | hlt
    · rw [List.getElem?_append_left hlt] at hk ⊢
      refine ⟨s, hk, rfl, ?_⟩
      rw [if_neg]
      simp [Nat.le_of_lt hlt]
    · exact absurd hp he
    · obtain ⟨j, rfl⟩ : ∃ j, k = before.length + (j + 1) := ⟨k - before.length - 1, by omega⟩
      rw [List.getElem?_append_right (Nat.le_add_right _ _), Nat.add_sub_cancel_left,
        List.getElem?_cons_succ] at hk ⊢
      obtain ⟨scope, hrefreshed⟩ := c.refresh_getElem? hk _
      refine ⟨_, hrefreshed, c.refreshOne_field scope s, ?_⟩
      rw [c.refreshOne_value hinput, if_pos]
      simp

theorem edits_value {form : FormState} {k : Nat} {s : FieldState} (hk : form.fields[k]? = some s)
    (hinput : s.field.TakesInput) {es : List (String × Value)}
    (hes : ∀ e ∈ es, form.position? e.1 ≠ some k) :
    ∃ s', (c.edits form es).fields[k]? = some s' ∧ s'.field = s.field ∧
      s'.value = if es.any (form.isBefore ·.1 k) then s.field.refreshedInput s.value else s.value := by
  induction es generalizing form s with
  | nil => exact ⟨s, hk, rfl, rfl⟩
  | cons e es ih =>
    obtain ⟨he, hes⟩ := List.forall_mem_cons.mp hes
    obtain ⟨t, ht, hfield, hvalue⟩ := c.edit_value hk hinput he
    rw [← hfield] at hinput
    obtain ⟨s', hs', hfield', hvalue'⟩ := ih ht hinput fun e' he' ↦ by
      rw [c.edit_position?]
      exact hes e' he'
    refine ⟨s', hs', hfield'.trans hfield, ?_⟩
    simp only [hvalue', hfield, hvalue, c.edit_isBefore, List.any_cons]
    by_cases hb : form.isBefore e.1 k = true
    · simp only [hb, Bool.true_or, if_true, Field.refreshedInput_refreshedInput, ite_self]
    · simp only [hb, Bool.false_or, Bool.false_eq_true, if_false]

theorem edit_self {form : FormState} {className : String} {k : Nat} {s : FieldState}
    (h : form.position? className = some k) (hk : form.fields[k]? = some s) (v : Value) :
    ∃ s', (c.edit form (className, v)).fields[k]? = some s' ∧ s'.field = s.field ∧ s'.value = v := by
  obtain ⟨before, t, rest, hf, rfl, hb, ht⟩ := FormState.split_of_position? h
  obtain rfl : t = s := by simpa [hf] using hk
  rw [c.edit_of_split hf hb ht, setAfter]
  exact ⟨(c.state (scopeAfter [] before) t.field v).value, by simp, rfl, rfl⟩

/-- The value that a user has put into a field is still there after edits of other fields, unless the field
has an expression that is not evaluated, next to something that is, and a field before it is edited. Then
the text of the expression has taken its place. -/
theorem input_is_kept_iff (form : FormState) {className : String} {k : Nat} {s : FieldState}
    (h : form.position? className = some k) (hk : form.fields[k]? = some s) (hinput : s.field.TakesInput)
    (v : Value) {es : List (String × Value)} (hes : ∀ e ∈ es, e.1 ≠ className) :
    ∃ s', (c.edits (c.edit form (className, v)) es).fields[k]? = some s' ∧ s'.field = s.field ∧
      (s'.value = v ↔ s.field.expression = none ∨ s.field.templatedTexts = [] ∨
        s.field.expression.map Value.string = some v ∨ ∀ e ∈ es, form.isBefore e.1 k = false) ∧
      (s'.value ≠ v → s.field.expression.map Value.string = some s'.value) := by
  obtain ⟨t, ht, hfield, rfl⟩ := c.edit_self h hk v
  rw [← hfield] at hinput ⊢
  have hother : ∀ e ∈ es, (c.edit form (className, t.value)).position? e.1 ≠ some k := by
    intro e he hp
    rw [c.edit_position?] at hp
    exact hes e he (FormState.position?_injective hp h)
  obtain ⟨s', hs', hfield', hvalue⟩ := c.edits_value ht hinput hother
  simp only [c.edit_isBefore] at hvalue
  refine ⟨s', hs', hfield', ?_⟩
  by_cases hbefore : es.any (form.isBefore ·.1 k) = true
  · have hsome : ¬ ∀ e ∈ es, form.isBefore e.1 k = false := by
      obtain ⟨e, he, hk⟩ := List.any_eq_true.mp hbefore
      intro hall
      simp [hall e he] at hk
    rw [if_pos hbefore] at hvalue
    rw [hvalue]
    refine ⟨?_, Field.map_string_expression_of_ne⟩
    rw [Field.refreshedInput_eq_self_iff]
    simp only [hsome, or_false]
  · have hall : ∀ e ∈ es, form.isBefore e.1 k = false := by simpa using hbefore
    rw [if_neg hbefore] at hvalue
    exact ⟨⟨fun _ ↦ .inr (.inr (.inr hall)), fun _ ↦ hvalue⟩, fun hne ↦ absurd hvalue hne⟩

theorem input_is_kept_iff_hidden_by_other_field :
    let form : Form := ⟨"T", "p.md", "Save", [Field.new "A" "a" .text,
      { Field.new "B" "b" .text with hideExpression := some "\x7b\x7b$$.a == 'x'\x7d\x7d" }]⟩
    let c : Context := ⟨MemoryStore.empty.toStore, 100⟩
    let start := (c.render form []).value
    let es : List (String × Value) := [("a", .string "x"), ("ghost", .null), ("a", .string "y")]
    ∃ s, start.position? "b" = some 1 ∧ start.fields[1]? = some s ∧ s.field.TakesInput ∧
      (∀ e ∈ es, e.1 ≠ "b") ∧
      ∃ s', (c.edits (c.edit start ("b", .string "typed")) es).fields[1]? = some s' ∧
        s'.value = .string "typed" := by
  intro form c start es
  have hes : ∀ e ∈ es, e.1 ≠ "b" := by simp [es]
  refine ⟨_, rfl, rfl, .inl rfl, hes, ?_⟩
  obtain ⟨s', hs', -, hkept, -⟩ := c.input_is_kept_iff start rfl rfl (.inl rfl) (.string "typed") hes
  exact ⟨s', hs', hkept.mpr (.inl rfl)⟩

theorem input_is_lost_to_unevaluated_expression :
    let form : Form := ⟨"T", "p.md", "Save", [Field.new "A" "a" .text,
      { Field.new "B" "b" .text with
        expression := some "shown", bypass := true, hideExpression := some "\x7b\x7b$$.a == 'x'\x7d\x7d" }]⟩
    let c : Context := ⟨MemoryStore.empty.toStore, 100⟩
    let start := (c.render form []).value
    (c.edits start [("b", .string "typed")]).fields[1]?.map (·.value) = some (.string "typed") ∧
    (c.edits start [("b", .string "typed"), ("a", .string "y")]).fields[1]?.map (·.value) =
      some (.string "shown") :=
  ⟨rfl, rfl⟩

theorem setAfter_append (before : List FieldState) (s : FieldState) (v : Value) (mid rest : List FieldState) :
    c.setAfter before s v (mid ++ rest) =
      c.setAfter before s v mid ++ (c.refresh (scopeAfter [] (c.setAfter before s v mid)) rest).value := by
  simp only [setAfter, c.refresh_append, FieldState.scopeAfter_append, List.append_assoc, List.cons_append]
  rfl

theorem setAfter_fields (before : List FieldState) (s : FieldState) (v : Value) (rest : List FieldState) :
    (c.setAfter before s v rest).map (·.field) = (before ++ s :: rest).map (·.field) := by
  simp [setAfter, c.refresh_fields]

theorem setAfter_refreshed (front : List FieldState) (t : FieldState) (y : Value) (rest : List FieldState)
    (scope scope' : Entries Value) :
    c.setAfter front (c.refreshOne scope t).value y (c.refresh scope' rest).value =
      c.setAfter front t y rest := by
  rw [setAfter, c.refreshOne_field, c.refresh_refresh, setAfter]

section

variable {form : FormState} {before mid rest : List FieldState} {s t : FieldState} {a b : String}
  (hf : form.fields = before ++ s :: (mid ++ t :: rest)) (ha : ∀ f ∈ before, f.field.className ≠ a)
  (hs : s.field.className = a) (hb : ∀ f ∈ before ++ s :: mid, f.field.className ≠ b)
  (ht : t.field.className = b)

include hf ha hs hb ht

theorem edit_then_later (x y : Value) :
    c.edit (c.edit form (a, x)) (b, y) =
      { form with fields := c.setAfter (c.setAfter before s x mid) t y rest } := by
  have hfirst := c.edit_of_split hf ha hs x
  rw [c.setAfter_append] at hfirst
  have hb' : ∀ f ∈ c.setAfter before s x mid, f.field.className ≠ b := by
    intro f hmem
    have hfield := List.mem_map_of_mem (f := (·.field)) hmem
    rw [c.setAfter_fields] at hfield
    obtain ⟨f', hf', heq⟩ := List.mem_map.mp hfield
    rw [← heq]
    exact hb f' hf'
  have ht' (scope : Entries Value) : (c.refreshOne scope t).value.field.className = b := by
    rw [c.refreshOne_field, ht]
  rw [hfirst, c.edit_of_split rfl hb' (ht' _) y, c.setAfter_refreshed]

theorem edit_then_earlier (hexpression : t.field.expression = none) (x y : Value) :
    c.edit (c.edit form (b, y)) (a, x) =
      { form with fields := c.setAfter (c.setAfter before s x mid) t y rest } := by
  have hsplit : form.fields = (before ++ s :: mid) ++ t :: rest := by simp [hf]
  have hfirst := c.edit_of_split hsplit hb ht y
  rw [setAfter, List.append_assoc, List.cons_append] at hfirst
  rw [hfirst, c.edit_of_split rfl ha hs x, c.setAfter_append, c.refresh_cons, c.refreshOne_state hexpression,
    c.refresh_refresh]
  rfl

end

/-- Edits of two fields of which the later one has no expression come to the same in either order. -/
theorem edits_of_two_fields_commute (form : FormState) {a b : String} {i j : Nat}
    (ha : form.position? a = some i) (hb : form.position? b = some j) (hij : i < j)
    (hexpression : ∀ t, form.fields[j]? = some t → t.field.expression = none) (x y : Value) :
    c.edit (c.edit form (a, x)) (b, y) = c.edit (c.edit form (b, y)) (a, x) := by
  obtain ⟨before, s, rest', hf, rfl, hbefore, hs⟩ := FormState.split_of_position? ha
  obtain ⟨front, t, rest, hf', rfl, hfront, ht⟩ := FormState.split_of_position? hb
  -- the form is split at either field; these are one split at both
  obtain ⟨mid, rfl, rfl⟩ : ∃ mid, front = before ++ s :: mid ∧ rest' = mid ++ t :: rest := by
    obtain ⟨after, rfl, hafter⟩ | ⟨after, rfl, -⟩ := List.append_eq_append_iff.mp (hf.symm.trans hf')
    · cases after with
      | nil => simp at hij
      | cons s' mid =>
        obtain ⟨rfl, rfl⟩ := List.cons.inj hafter
        exact ⟨mid, rfl, rfl⟩
    · rw [List.length_append] at hij
      omega
  have ht' : form.fields[(before ++ s :: mid).length]? = some t := by
    rw [hf', List.getElem?_append_right (Nat.le_refl _), Nat.sub_self, List.getElem?_cons_zero]
  rw [c.edit_then_later hf hbefore hs hfront ht,
    c.edit_then_earlier hf hbefore hs hfront ht (hexpression t ht')]

theorem edits_of_two_fields_commute_before_dependent_field :
    let form : Form := ⟨"T", "p.md", "Save", [Field.new "A" "a" .text,
      { Field.new "B" "b" .text with hideExpression := some "\x7b\x7b$$.a == 'x'\x7d\x7d" },
      { Field.new "C" "c" .text with expression := some "\x7b\x7b$$.a + $$.b\x7d\x7d" }]⟩
    let c : Context := ⟨MemoryStore.empty.toStore, 100⟩
    let start := (c.render form []).value
    start.position? "a" = some 0 ∧ start.position? "b" = some 1 ∧ 0 < 1 ∧
      (∀ t, start.fields[1]? = some t → t.field.expression = none) ∧
      c.edit (c.edit start ("a", .string "x")) ("b", .string "y") =
        c.edit (c.edit start ("b", .string "y")) ("a", .string "x") := by
  intro form c start
  have hexpression : ∀ t, start.fields[1]? = some t → t.field.expression = none := by
    intro t ht
    obtain rfl := Option.some.inj ht
    rfl
  exact ⟨rfl, rfl, by decide, hexpression,
    c.edits_of_two_fields_commute start rfl rfl (by decide) hexpression _ _⟩

end Context

end TemplatedForms
