import TemplatedForms.Proofs.Form.Validation
import TemplatedForms.Proofs.Resolution.SingleReference

namespace TemplatedForms

theorem Value.isUndefined_iff {v : Value} : v.isUndefined = true ↔ v = .undefined := by
  cases v <;> simp [isUndefined]

namespace FieldState

def lastValue? (fs : List FieldState) (className : String) : Option Value :=
  (fs.filter (·.field.className == className)).getLast?.map (·.value)

theorem lastValue?_append_singleton (fs : List FieldState) (f : FieldState) (className : String) :
    lastValue? (fs ++ [f]) className =
      if f.field.className = className then some f.value else lastValue? fs className := by
  rw [lastValue?, List.filter_append]
  split
  · next hf => simp [hf]
  · next hf => simp [hf, lastValue?]

theorem get?_ofPairs_eq_lastValue? (fs : List FieldState) (className : String) :
    (Entries.ofPairs (fs.map fun f ↦ (f.field.className, f.value))).get? className = lastValue? fs className := by
  induction fs using List.reverseRecOn with
  | nil => rfl
  | append_singleton fs f ih =>
    rw [lastValue?_append_singleton, ← ih, Entries.get?_ofPairs, Entries.get?_ofPairs, List.map_append,
      List.reverse_append, List.map_singleton, List.reverse_singleton, List.singleton_append, Entries.get?_cons]
    simp only [eq_comm]

theorem lastValue?_filter {fs : List FieldState} {className : String}
    (h : lastValue? fs className ≠ some .undefined) :
    lastValue? (fs.filter (!·.value.isUndefined)) className = lastValue? fs className := by
  induction fs using List.reverseRecOn with
  | nil => rfl
  | append_singleton fs f ih =>
    rw [lastValue?_append_singleton] at h
    rw [List.filter_append]
    cases hf : f.value.isUndefined with
    | true =>
      -- the field is left out, and it is not the last one of the name
      have hname : f.field.className ≠ className := by
        rintro hname
        rw [if_pos hname] at h
        exact h (congrArg some (Value.isUndefined_iff.mp hf))
      rw [if_neg hname] at h
      rw [lastValue?_append_singleton, if_neg hname, ← ih h]
      simp [hf]
    | false =>
      have hkept : [f].filter (!·.value.isUndefined) = [f] := by simp [hf]
      rw [hkept, lastValue?_append_singleton, lastValue?_append_singleton]
      split
      · rfl
      · next hname =>
        rw [if_neg hname] at h
        exact ih h

end FieldState

namespace FormState

variable (s : FormState)

/-- The last field of a name is undefined, and the scope has another text for the name. -/
def Lost (className : String) : Prop :=
  FieldState.lastValue? s.fields className = some .undefined ∧ fieldText s.scope className ≠ "undefined"

theorem fieldText_allValues (className : String) :
    fieldText s.allValues className =
      (FieldState.lastValue? s.fields className).elim "" Value.display := by
  rw [fieldText, allValues, FieldState.get?_ofPairs_eq_lastValue?]

theorem fieldText_scope_of_ne {className : String}
    (h : FieldState.lastValue? s.fields className ≠ some .undefined) :
    fieldText s.scope className = fieldText s.allValues className := by
  rw [fieldText_allValues, fieldText, scope, FieldState.get?_ofPairs_eq_lastValue?, FieldState.lastValue?_filter h]

theorem sameTexts_of_not_lost {keys : List String} (h : ∀ n ∈ keys, ¬s.Lost n) :
    SameTexts keys s.allValues s.scope := by
  intro n hn
  by_cases hlast : FieldState.lastValue? s.fields n = some .undefined
  · rw [fieldText_allValues, hlast]
    exact (not_not.mp (not_and.mp (h n hn) hlast)).symm
  · exact (s.fieldText_scope_of_ne hlast).symm

theorem evaluate_allValues {className : String} (hname : Part.IsName className.toList [])
    (hlast : FieldState.lastValue? s.fields className = some .undefined) {c : Context} (hc : 0 < c.stepLimit) :
    c.evaluate s.allValues (referenceTo className) = ⟨.string "undefined", []⟩ := by
  have htext : fieldText s.allValues className = "undefined" := by
    rw [fieldText_allValues, hlast]
    rfl
  exact c.evaluate_referenceTo_of_fieldText hname hc htext (by decide)

theorem evaluate_scope_ne {className : String} (hname : Part.IsName className.toList [])
    (hne : fieldText s.scope className ≠ "undefined") :
    (Context.mk .bare 1).evaluate s.scope (referenceTo className) ≠ ⟨.string "undefined", []⟩ := by
  intro heq
  by_cases hpaired : Segment.Paired (quoteLiteral (fieldText s.scope className))
  · exact Context.notices_referenceTo_of_paired hname hpaired (congrArg Noticed.notices heq)
  · rw [Context.evaluate_referenceTo_of_not_paired _ hname Nat.one_pos hpaired] at heq
    exact hne (Value.string.inj (congrArg Noticed.value heq))

/-- The values of all fields and the scope behind the last one evaluate a text alike, value and notices, unless
it refers to a name whose last field is undefined: the values of all fields have the text of undefined for
it. Both evaluate all texts alike exactly when no such name can be referred to. A reference to a name that no
field with a value has is missing in the scope, and is the text of undefined in the values of all fields. -/
theorem collected_values_evaluate_alike_iff :
    (∀ (c : Context) (text : String), (∀ n ∈ textReferences text, ¬s.Lost n) →
      c.evaluate s.allValues text = c.evaluate s.scope text) ∧
    ((∀ (c : Context) (text : String), c.evaluate s.allValues text = c.evaluate s.scope text) ↔
      ∀ className : String, Part.IsName className.toList [] → ¬s.Lost className) ∧
    ∀ className : String, Part.IsName className.toList [] →
      FieldState.lastValue? s.fields className = some .undefined → s.scope.get? className = none →
      ∀ c : Context, 0 < c.stepLimit →
        c.evaluate s.allValues (referenceTo className) = ⟨.string "undefined", []⟩ ∧
        c.evaluate s.scope (referenceTo className) = ⟨.string "", []⟩ := by
  have halike (c : Context) (text : String) (h : ∀ n ∈ textReferences text, ¬s.Lost n) :
      c.evaluate s.allValues text = c.evaluate s.scope text :=
    c.evaluate_congr (s.sameTexts_of_not_lost h)
  refine ⟨halike, ⟨fun hall className hname hlost ↦ ?_, fun hno c text ↦ halike c text fun n hn ↦ ?_⟩, ?_⟩
  · refine s.evaluate_scope_ne hname hlost.2 ?_
    rw [← hall, s.evaluate_allValues hname hlost.1 Nat.one_pos]
  · obtain ⟨r, hr, rfl⟩ := List.mem_map.mp hn
    obtain ⟨⟨before, after, -, hname, -⟩, -⟩ := (FieldReference.mem_iff_standsIn _ r).mp hr
    exact hno _ ⟨hname.nonempty, hname.isClassNameChar, by simp⟩
  · intro className hname hlast hmissing c hc
    have htext : fieldText s.scope className = "" := by rw [fieldText, hmissing, Option.elim_none]
    exact ⟨s.evaluate_allValues hname hlast hc, c.evaluate_referenceTo_of_fieldText hname hc htext (by decide)⟩

/-- A field without a value is collected as undefined, so a reference to it is not missing. -/
theorem undefined_field_is_collected :
    let c : Context := ⟨.bare, 10⟩
    let s := (c.render ⟨"T", "p.md", "Save", [Field.new "A" "a" .text]⟩ []).value
    c.evaluate s.allValues (referenceTo "a") = ⟨.string "undefined", []⟩ ∧
      c.evaluate s.scope (referenceTo "a") = ⟨.string "", []⟩ :=
  ⟨rfl, rfl⟩

end FormState

end TemplatedForms
