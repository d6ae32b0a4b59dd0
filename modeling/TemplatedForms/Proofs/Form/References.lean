import TemplatedForms.Form.References
import TemplatedForms.Form.Rendering
import TemplatedForms.Proofs.Entries
import TemplatedForms.Store.Memory

namespace TemplatedForms

open Entries (AgreeOn)

variable {values values' : Entries Value}

/-- Two scopes have the same texts for some names. -/
def SameTexts (keys : List String) (values values' : Entries Value) : Prop :=
  ∀ k ∈ keys, fieldText values k = fieldText values' k

theorem SameTexts.mono {keys keys' : List String} (h : SameTexts keys values values') (hk : keys' ⊆ keys) :
    SameTexts keys' values values' := fun k hk' ↦ h k (hk hk')

theorem Entries.AgreeOn.sameTexts {keys : List String} (h : AgreeOn keys values values') :
    SameTexts keys values values' := by
  intro k hk
  rw [fieldText, h k hk, fieldText]

namespace Part

theorem mem_partReferences {className : String} {parts : List Part} (h : .field className ∈ parts)
    (inPath : Bool) (offset : Nat) : className ∈ (partReferencesFrom inPath offset parts).map (·.className) := by
  induction parts generalizing offset with
  | nil => cases h
  | cons p parts ih =>
    cases p with
    | text s =>
      obtain h | h := List.mem_cons.mp h
      · cases h
      · exact ih h _
    | field name =>
      obtain h | h := List.mem_cons.mp h
      · cases h
        exact List.mem_cons_self
      · exact List.mem_cons_of_mem _ (ih h _)

theorem fill_congr {text : String} {write : String → String} {inPath : Bool} {offset : Nat}
    (h : SameTexts ((partReferencesFrom inPath offset (ofText text)).map (·.className)) values values') :
    fill write values text = fill write values' text := by
  refine congrArg String.join (List.map_congr_left fun p hp ↦ ?_)
  cases p with
  | text s => rfl
  | field className => exact congrArg write (h _ (mem_partReferences hp inPath offset))

end Part

theorem Segment.fill_congr {segments : List Segment} {offset : Nat}
    (h : SameTexts ((fieldReferencesFrom offset segments).map (·.className)) values values') :
    segments.map (Segment.fill values) = segments.map (Segment.fill values') := by
  induction segments generalizing offset with
  | nil => rfl
  | cons s segments ih =>
    cases s with
    | literal text =>
      rw [fieldReferencesFrom, List.map_append] at h
      have htext : Part.fill quoteLiteral values text = Part.fill quoteLiteral values' text :=
        Part.fill_congr (h.mono (List.subset_append_left _ _))
      rw [List.map_cons, List.map_cons, ih (h.mono (List.subset_append_right _ _)), fill, fill, htext]
    | document path =>
      rw [fieldReferencesFrom, List.map_append] at h
      have hpath : Part.fill id values path = Part.fill id values' path :=
        Part.fill_congr (h.mono (List.subset_append_left _ _))
      rw [List.map_cons, List.map_cons, ih (h.mono (List.subset_append_right _ _)), fill, fill, hpath]

theorem resolveFields_congr {body : String}
    (h : SameTexts ((fieldReferences body).map (·.className)) values values') :
    resolveFields values body = resolveFields values' body :=
  congrArg String.join (Segment.fill_congr h)

def Field.RefersTo (f : Field) (className : String) : Prop :=
  ∃ text ∈ f.templatedTexts, className ∈ textReferences text

instance (f : Field) (className : String) : Decidable (f.RefersTo className) :=
  inferInstanceAs (Decidable (∃ text ∈ f.templatedTexts, className ∈ textReferences text))

theorem Field.mem_references {f : Field} {className : String} :
    className ∈ f.references ↔ f.RefersTo className :=
  List.mem_eraseDups.trans List.mem_flatMap

theorem Field.textReferences_subset {f : Field} {text : String} (h : text ∈ f.templatedTexts) :
    textReferences text ⊆ f.references := fun _ hr ↦
  Field.mem_references.mpr ⟨text, h, hr⟩

namespace Context

variable (c : Context)

theorem evaluate_congr {text : String} (h : SameTexts (textReferences text) values values') :
    c.evaluate values text = c.evaluate values' text := by
  simp only [evaluate, resolve, resolveFields_congr h]

section

variable {f : Field} (h : AgreeOn f.references values values')

include h

theorem evaluate_text_congr {text : String} (ht : text ∈ f.templatedTexts) :
    c.evaluate values text = c.evaluate values' text :=
  c.evaluate_congr (h.mono (Field.textReferences_subset ht)).sameTexts

theorem content_congr (v : Value) : c.content values f v = c.content values' f v := by
  cases he : f.expression with
  | none => simp only [content, he]
  | some text =>
    cases hb : f.bypass with
    | true => simp only [content, he, hb, if_true]
    | false =>
      have ht : text ∈ f.templatedTexts := by simp [Field.templatedTexts, he, hb]
      simp only [content, he, hb, Bool.false_eq_true, if_false, c.evaluate_text_congr h ht]

theorem hidden_congr : c.hidden values f = c.hidden values' f := by
  cases hh : f.hideExpression with
  | none => simp only [hidden, hh]
  | some text =>
    have ht : text ∈ f.templatedTexts := by simp [Field.templatedTexts, hh]
    simp only [hidden, hh, c.evaluate_text_congr h ht]

theorem required_congr : c.required values f = c.required values' f := by
  cases hr : f.required with
  | flag b => simp only [required, hr]
  | expression text =>
    have ht : text ∈ f.templatedTexts := by simp [Field.templatedTexts, hr]
    simp only [required, hr, c.evaluate_text_congr h ht]

theorem options_congr : c.options values f = c.options values' f := by
  rcases ho : f.options? with _ | ⟨_ | value, _ | text⟩
  · simp only [options, ho]
  · simp only [options, ho]
  · have ht : text ∈ f.templatedTexts := by simp [Field.templatedTexts, ho]
    simp only [options, ho, c.evaluate_text_congr h ht]
  · simp only [options, ho]
  · have ht : text ∈ f.templatedTexts := by simp [Field.templatedTexts, ho]
    simp only [options, ho, c.evaluate_text_congr h ht]

theorem state_congr (v : Value) : c.state values f v = c.state values' f v := by
  cases hv : v.isUndefined with
  | true =>
    simp only [state, hv, if_true]
    rw [c.hidden_congr h, c.required_congr h, c.options_congr h]
  | false =>
    have hput := h.put f.className v
    simp only [state, hv, Bool.false_eq_true, if_false]
    rw [c.hidden_congr hput, c.required_congr hput, c.options_congr hput]

end

/-- In scopes that agree on the names that a field refers to, the field has the same value, the same flags
and the same options, and the same notices are raised in the same order. -/
theorem field_depends_on_references (f : Field) (v : Value) {scope scope' : Entries Value}
    (h : AgreeOn f.references scope scope') :
    (c.content scope f v >>= c.state scope f) = (c.content scope' f v >>= c.state scope' f) := by
  rw [c.content_congr h]
  exact congrArg (c.content scope' f v >>= ·) (funext (c.state_congr h))

theorem field_depends_on_references_and_no_other_field :
    let f : Field :=
      { Field.new "B" "b" .text with hideExpression := some "\x7b\x7b$$.a + $$.b\x7d\x7d" }
    let c : Context := ⟨MemoryStore.empty.toStore, 10⟩
    let scope : Entries Value := [("a", .bool true)]
    let scope' : Entries Value := [("c", .null), ("a", .bool true)]
    AgreeOn f.references scope scope' ∧
      (c.content scope f .null >>= c.state scope f) = (c.content scope' f .null >>= c.state scope' f) := by
  intro f c scope scope'
  have hreferences : f.references = ["a", "b"] := rfl
  have hagree : AgreeOn f.references scope scope' := by
    intro k hk
    rw [hreferences, List.mem_cons, List.mem_singleton] at hk
    obtain rfl | rfl := hk <;> rfl
  exact ⟨hagree, c.field_depends_on_references f .null hagree⟩

end Context

end TemplatedForms
