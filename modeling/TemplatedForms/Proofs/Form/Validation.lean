import TemplatedForms.Form.Validation
import TemplatedForms.Proofs.Form.References
import TemplatedForms.Proofs.Form.Rendering

namespace TemplatedForms

open Entries (AgreeOn agreeOn_put)
open FieldState (EachInScope scopeAfter)

namespace Form

theorem nodup_of_secondPlaces {before ns : List String} (h : secondPlaces before ns = [])
    (hb : before.Nodup) : ns.Nodup ∧ ∀ n ∈ ns, n ∉ before := by
  induction ns generalizing before with
  | nil => exact ⟨.nil, by simp⟩
  | cons n ns ih =>
    rw [secondPlaces] at h
    split at h
    · cases h
    · next hn =>
      have hfresh : n ∉ before := fun hm ↦
        hn (Nat.le_antisymm (List.nodup_iff_count.mp hb n) (List.one_le_count_iff.mpr hm))
      obtain ⟨hns, hrest⟩ := ih h (List.nodup_cons.mpr ⟨hfresh, hb⟩)
      refine ⟨List.nodup_cons.mpr ⟨fun hm ↦ hrest n hm List.mem_cons_self, hns⟩, ?_⟩
      exact List.forall_mem_cons.mpr ⟨hfresh, fun m hm hmb ↦ hrest m hm (List.mem_cons_of_mem _ hmb)⟩

theorem mem_before_of_referenceProblem? {form : Form} {before after : List Field} {f : Field}
    (hf : form.fields = before ++ f :: after) {reference : String}
    (h : form.referenceProblem? before.length f reference = none) :
    reference ∈ before.map (·.className) := by
  rw [referenceProblem?] at h
  split at h
  · cases h
  next hself =>
  split at h
  · cases h
  next target htarget =>
  split at h
  · cases h
  next hle =>
  obtain ⟨hlt, hname, -⟩ := List.findIdx?_eq_some_iff_getElem.mp htarget
  have hne : target ≠ before.length := by
    rintro rfl
    simp only [hf, List.getElem_append_right (Nat.le_refl _), Nat.sub_self, List.getElem_cons_zero] at hname
    exact hself (beq_iff_eq.mp hname).symm
  have hbefore : target < before.length := by omega
  simp only [hf, List.getElem_append_left hbefore] at hname
  exact List.mem_map.mpr ⟨before[target], List.getElem_mem hbefore, beq_iff_eq.mp hname⟩

/-- No two fields have the same name, and each field refers to fields before it only. -/
structure WellOrdered (form : Form) : Prop where
  distinct : (form.fields.map (·.className)).Nodup
  backwards : ∀ before f after, form.fields = before ++ f :: after →
    f.references ⊆ before.map (·.className)

theorem wellOrdered_of_problems {form : Form} (h : form.problems = []) : form.WellOrdered := by
  simp only [problems, List.append_eq_nil_iff, List.map_eq_nil_iff, List.flatMap_eq_nil_iff] at h
  obtain ⟨⟨hnames, hfields⟩, -⟩ := h
  refine ⟨(nodup_of_secondPlaces hnames .nil).1, fun before f after hf reference hr ↦ ?_⟩
  have hmem : (f, before.length) ∈ form.fields.zipIdx := by
    simp [List.mem_zipIdx_iff_getElem?, hf]
  exact mem_before_of_referenceProblem? hf (List.filterMap_eq_nil_iff.mp (hfields _ hmem) reference hr)

end Form

namespace FieldState

theorem agreeOn_scopeAfter {keys : List String} {fs : List FieldState}
    (h : ∀ s ∈ fs, s.field.className ∉ keys) (scope : Entries Value) :
    AgreeOn keys (scopeAfter scope fs) scope := by
  induction fs generalizing scope with
  | nil => exact fun _ _ ↦ rfl
  | cons s fs ih =>
    obtain ⟨hs, h⟩ := List.forall_mem_cons.mp h
    refine (ih h (s.extend scope)).trans ?_
    rw [extend]
    split
    · exact fun _ _ ↦ rfl
    · exact agreeOn_put hs _ _

end FieldState

namespace FormState

def scope (form : FormState) : Entries Value :=
  Entries.ofPairs ((form.fields.filter (!·.value.isUndefined)).map fun s ↦ (s.field.className, s.value))

theorem scope_eq (form : FormState) : form.scope = scopeAfter [] form.fields := by
  have h := form.scopeAt_eq form.fields.length
  rwa [scopeAt, List.take_length] at h

section

variable {form : Form} {s : FieldState} (h : form.WellOrdered) {rendered : FormState}
  (hfields : rendered.fields.map (·.field) = form.fields) {before after : List FieldState}
  (hs : rendered.fields = before ++ s :: after)

include h hfields hs

theorem className_notMem_references : ∀ t ∈ s :: after, t.field.className ∉ s.field.references := by
  have hsplit : form.fields = before.map (·.field) ++ s.field :: after.map (·.field) := by
    rw [← hfields, hs, List.map_append, List.map_cons]
  have hdistinct := h.distinct
  rw [hsplit, List.map_append] at hdistinct
  intro t ht hr
  have hname : t.field.className ∈ (s.field :: after.map (·.field)).map (·.className) :=
    List.mem_map_of_mem (List.mem_map_of_mem ht)
  exact (List.nodup_append.mp hdistinct).2.2 _ (h.backwards _ _ _ hsplit hr) _ hname rfl

theorem agreeOn_scope : AgreeOn s.field.references (scopeAfter [] before) rendered.scope := by
  rw [scope_eq, hs, FieldState.scopeAfter_append]
  exact (FieldState.agreeOn_scopeAfter (className_notMem_references h hfields hs) _).symm

end

end FormState

namespace Context

variable (c : Context)

/-- What a field has is what its expressions give in a scope, its own value not added to it. -/
structure FixedIn (scope : Entries Value) (s : FieldState) : Prop where
  value : ∀ text, s.field.expression = some text → s.field.bypass = false →
    s.value = (c.evaluate scope text).value
  hidden : s.hidden = match s.field.hideExpression with
    | none => false
    | some text => (c.evaluate scope text).value.isSet
  required : s.required = match s.field.required with
    | .flag b => b
    | .expression text => (c.evaluate scope text).value.isSet
  options : s.options = match s.field.options? with
    | none => []
    | some ⟨listed, none⟩ => listed.getD []
    | some ⟨_, some text⟩ =>
      match (c.evaluate scope text).value with
      | .array items => items.map Value.display
      | _ => []

theorem fixedIn_of_agreeOn {scope scope' : Entries Value} {s : FieldState} (hs : c.Settled scope s)
    (hc : c.Computed scope s) (hself : s.field.className ∉ s.field.references)
    (h : AgreeOn s.field.references scope scope') : c.FixedIn scope' s := by
  have hown : AgreeOn s.field.references
      (if s.value.isUndefined then scope else scope.put s.field.className s.value) scope' := by
    split
    · exact h
    · exact (agreeOn_put hself _ _).trans h
  constructor
  case value =>
    intro text ht hb
    have hm : text ∈ s.field.templatedTexts := by simp [Field.templatedTexts, ht, hb]
    rw [← c.evaluate_text_congr h hm]
    exact hc text ht hb
  case hidden =>
    have hhidden : s.hidden = (c.hidden scope' s.field).value := by
      rw [← c.hidden_congr hown]
      exact congrArg FieldState.hidden hs
    rw [hhidden, hidden]
    cases s.field.hideExpression <;> rfl
  case required =>
    have hrequired : s.required = (c.required scope' s.field).value := by
      rw [← c.required_congr hown]
      exact congrArg FieldState.required hs
    rw [hrequired, required]
    cases s.field.required <;> rfl
  case options =>
    have hoptions : s.options = (c.options scope' s.field).value := by
      rw [← c.options_congr hown]
      exact congrArg FieldState.options hs
    rw [hoptions, options]
    rcases s.field.options? with _ | ⟨listed, _ | text⟩
    · rfl
    · cases listed <;> rfl
    · dsimp only
      obtain ⟨v, notices⟩ := c.evaluate scope' text
      cases v <;> rfl

/-- Rendering a form without problems keeps its fields, and gives each of them what its expressions give in
the scope of all the values together. -/
theorem validated_form_renders_to_fixpoint (form : Form) (initial : List Value) (h : form.problems = []) :
    let rendered := (c.render form initial).value
    rendered.fields.map (·.field) = form.fields ∧ ∀ s ∈ rendered.fields, c.FixedIn rendered.scope s := by
  intro rendered
  have horder := Form.wellOrdered_of_problems h
  have hfields : rendered.fields.map (·.field) = form.fields := c.render_fields form initial
  refine ⟨hfields, fun s hs ↦ ?_⟩
  obtain ⟨before, after, hsplit⟩ := List.append_of_mem hs
  have hsettled := c.renderFrom_settled [] (withValues form.fields initial)
  have hcomputed := c.renderFrom_computed [] (withValues form.fields initial)
  change EachInScope _ _ rendered.fields at hsettled hcomputed
  rw [hsplit, FieldState.eachInScope_append] at hsettled hcomputed
  exact c.fixedIn_of_agreeOn hsettled.2.1 hcomputed.2.1
    (FormState.className_notMem_references horder hfields hsplit s List.mem_cons_self)
    (FormState.agreeOn_scope horder hfields hsplit)

theorem validated_form_renders_to_fixpoint_two_fields :
    let form : Form := ⟨"T", "p.md", "Save", [
      { Field.new "A" "a" .text with expression := some "\x7b\x7b1 + 1\x7d\x7d" },
      { Field.new "B" "b" .text with
        expression := some "\x7b\x7b$$.a * 2\x7d\x7d", hideExpression := some "\x7b\x7b$$.a == 2\x7d\x7d" }]⟩
    let c : Context := ⟨MemoryStore.empty.toStore, 10⟩
    let rendered := (c.render form []).value
    form.problems = [] ∧
      rendered.fields.map (fun s ↦ (s.value.display, s.hidden)) = [("2", false), ("4", true)] ∧
      rendered.fields.map (·.field) = form.fields ∧ ∀ s ∈ rendered.fields, c.FixedIn rendered.scope s := by
  intro form c rendered
  have h : form.problems = [] := by rfl
  have hvalues : rendered.fields.map (fun s ↦ (s.value.display, s.hidden)) = [("2", false), ("4", true)] := by
    decide +kernel
  exact ⟨h, hvalues, c.validated_form_renders_to_fixpoint form [] h⟩

end Context

end TemplatedForms
