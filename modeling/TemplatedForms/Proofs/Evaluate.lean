import TemplatedForms.Proofs.Resolution.Places
import TemplatedForms.Proofs.Template

namespace TemplatedForms

namespace Template

/-- A closing mark stands somewhere behind an opening mark. -/
def Bracketed (text : String) : Prop :=
  ∃ front between back, text.toList = front ++ (opening ++ (between ++ (closing ++ back)))

theorem Region.bracketed {text : String} {before body after : List Char} (h : Region text before body after) :
    Bracketed text := ⟨before, body, after, h.text_eq⟩

/-- Whatever closing mark stands behind whatever opening mark, the first opening mark is in front of it, too. -/
theorem Bracketed.exists_region {text : String} (h : Bracketed text) :
    ∃ before body after, Region text before body after := by
  obtain ⟨front, between, back, htext⟩ := h
  cases hopening : Text.cut? opening text.toList with
  | none =>
    refine absurd ?_ ((Text.cut?_eq_none opening_ne_nil).mp hopening)
    exact ⟨front, between ++ (closing ++ back), by rw [htext, List.append_assoc]⟩
  | some found =>
    obtain ⟨before, rest⟩ := found
    obtain ⟨hbefore, hclear⟩ := (Text.cut?_eq_some opening_ne_nil).mp hopening
    rw [htext] at hopening
    have hrest : between ++ (closing ++ back) <:+ rest := Text.suffix_of_cut? opening_ne_nil hopening
    cases hclosing : Text.cut? closing rest with
    | none =>
      refine absurd ?_ ((Text.cut?_eq_none closing_ne_nil).mp hclosing)
      refine List.IsInfix.trans ?_ hrest.isInfix
      exact ⟨between, back, List.append_assoc between closing back⟩
    | some found' =>
      obtain ⟨body, after⟩ := found'
      obtain ⟨rfl, hbody⟩ := (Text.cut?_eq_some closing_ne_nil).mp hclosing
      exact ⟨before, body, after, hbefore, hclear, hbody⟩

theorem split_of_not_bracketed {text : String} (h : ¬Bracketed text) : split text = ⟨text, "", ""⟩ := by
  rcases region_or_literal text with ⟨before, body, after, hregion⟩ | ⟨hliteral, -⟩
  · exact absurd hregion.bracketed h
  · exact hliteral

end Template

theorem StoreError.kind_of_notice? {e : StoreError} {n : Notice} (h : e.notice? = some n) :
    n.kind ≠ "evaluation-error" := by
  cases e with
  | folderNotFound | documentNotFound | unsupportedFormat =>
    cases h
    simp [Notice.kind]
  | invalidData | unreadable => cases h

theorem kind_of_mem_resolveDocuments {store : Store} {body : String} :
    ∀ n ∈ (resolveDocuments store body).notices, n.kind ≠ "evaluation-error" := by
  intro n hn
  rw [resolveDocuments, notices_resolveAll store 0] at hn
  obtain ⟨r, -, hr⟩ := List.mem_filterMap.mp hn
  obtain ⟨e, -, he⟩ := Option.bind_eq_some_iff.mp hr
  exact e.kind_of_notice? he

theorem Template.hasExpression_of_body {t : Template} (h : t.body ≠ "") : t.hasExpression = true := by
  simpa [hasExpression] using h

theorem Template.ite_hasLiteral {α : Type} (t : Template) (joined bare : α) :
    (if t.hasLiteral then joined else bare) = if t.before = "" ∧ t.after = "" then bare else joined := by
  by_cases h : t.before = "" ∧ t.after = ""
  · simp [hasLiteral, h]
  · have hliteral : t.hasLiteral = true := by simpa [hasLiteral, imp_iff_not_or] using h
    rw [if_pos hliteral, if_neg h]

namespace Context

variable {c : Context} {values : Entries Value} {text : String}

theorem evaluate_of_not_bracketed (h : ¬Template.Bracketed text) :
    c.evaluate values text = ⟨.string text, []⟩ := by
  have hsplit := Template.split_of_not_bracketed h
  rw [c.evaluate_of_not_hasExpression values (by rw [hsplit]; rfl), hsplit]
  rfl

section

variable {t : Template} {resolved : Noticed String} (ht : Template.split text = t) (h : t.body ≠ "")
  (hresolved : c.resolve values t.body = resolved)

include ht h hresolved

theorem evaluate_of_body :
    c.evaluate values text =
      match execute c.stepLimit resolved.value with
      | .ok v =>
        ⟨if t.before = "" ∧ t.after = "" then v else .string (t.before ++ v.display ++ t.after),
          resolved.notices⟩
      | .error e => ⟨.string (t.before ++ t.after), resolved.notices ++ [.evaluationFailed text e.message]⟩ := by
  have hbind : c.evaluate values text = resolved.bind fun body ↦
      match execute c.stepLimit body with
      | .ok v => ⟨if t.hasLiteral then .string (t.before ++ v.display ++ t.after) else v, []⟩
      | .error e => ⟨.string (t.before ++ t.after), [.evaluationFailed text e.message]⟩ := by
    simp only [evaluate, ht, hresolved, Template.hasExpression_of_body h, Bool.not_true, Bool.false_eq_true,
      if_false]
    rfl
  rw [hbind, Noticed.bind]
  cases execute c.stepLimit resolved.value with
  | ok v =>
    dsimp only
    rw [List.append_nil, Template.ite_hasLiteral]
  | error e => rfl

theorem evaluate_of_ok {v : Value} (hv : execute c.stepLimit resolved.value = .ok v) :
    c.evaluate values text =
      ⟨if t.before = "" ∧ t.after = "" then v else .string (t.before ++ v.display ++ t.after),
        resolved.notices⟩ := by
  rw [evaluate_of_body ht h hresolved, hv]

theorem evaluate_of_error {e : ExecutionError} (he : execute c.stepLimit resolved.value = .error e) :
    c.evaluate values text =
      ⟨.string (t.before ++ t.after), resolved.notices ++ [.evaluationFailed text e.message]⟩ := by
  rw [evaluate_of_body ht h hresolved, he]

theorem reports_iff :
    (∃ n ∈ (c.evaluate values text).notices, n.kind = "evaluation-error") ↔
      ∃ e, execute c.stepLimit resolved.value = .error e := by
  cases hrun : execute c.stepLimit resolved.value with
  | ok v =>
    rw [evaluate_of_ok ht h hresolved hrun, ← hresolved]
    refine iff_of_false ?_ ?_
    · rintro ⟨n, hn, hkind⟩
      exact kind_of_mem_resolveDocuments n hn hkind
    · rintro ⟨e, he⟩
      cases he
  | error e =>
    rw [evaluate_of_error ht h hresolved hrun]
    exact iff_of_true ⟨_, List.mem_append_right _ List.mem_cons_self, rfl⟩ ⟨e, rfl⟩

end

/-- A text in which no closing mark stands behind an opening mark is literal and stands for itself. Any other
text is cut at its first opening mark and the first closing mark behind it; what is between them is the
expression, or nothing if it is blank. An expression raises the notices of its documents. Its value stands on
its own when there is no literal text around it, and as a text in between otherwise. If it cannot be executed,
one notice more is raised, the only one about an expression, and the literal text is left. -/
theorem splitting_settles_evaluation (c : Context) (values : Entries Value) (text : String) :
    let t := Template.split text
    let resolved := resolveDocuments c.store (resolveFields values t.body)
    let result := c.evaluate values text
    (¬Template.Bracketed text → t = ⟨text, "", ""⟩ ∧ result = ⟨.string text, []⟩) ∧
    (Template.Bracketed text → ∃ before body after : List Char,
      text.toList = before ++ (Template.opening ++ (body ++ (Template.closing ++ after))) ∧
      (∀ i < before.length, ¬Template.opening <+: text.toList.drop i) ∧
      (∀ i, Template.closing <+: (body ++ Template.closing).drop i ↔ i = body.length) ∧
      t = ⟨String.ofList before, if body.all Text.isBlank then "" else String.ofList body,
        String.ofList after⟩) ∧
    (t.body ≠ "" →
      ((∃ n ∈ result.notices, n.kind = "evaluation-error") ↔
        ∃ e, execute c.stepLimit resolved.value = .error e) ∧
      (∀ n ∈ resolved.notices, n.kind ≠ "evaluation-error") ∧
      (∀ e, execute c.stepLimit resolved.value = .error e → result =
        ⟨.string (t.before ++ t.after), resolved.notices ++ [.evaluationFailed text e.message]⟩) ∧
      ∀ v, execute c.stepLimit resolved.value = .ok v → result =
        ⟨if t.before = "" ∧ t.after = "" then v else .string (t.before ++ v.display ++ t.after),
          resolved.notices⟩) := by
  intro t resolved result
  refine ⟨fun h ↦ ⟨Template.split_of_not_bracketed h, evaluate_of_not_bracketed h⟩, fun h ↦ ?_, fun h ↦ ?_⟩
  · obtain ⟨before, body, after, hregion⟩ := h.exists_region
    refine ⟨before, body, after, hregion.text_eq, fun i hi ↦ ?_,
      hregion.body_clear.prefix_drop_iff Template.closing_ne_nil, Template.split_of_region hregion⟩
    rw [hregion.text_eq]
    exact hregion.before_clear.not_prefix_drop _ hi
  · exact ⟨reports_iff rfl h rfl, kind_of_mem_resolveDocuments, fun e ↦ evaluate_of_error rfl h rfl,
      fun v ↦ evaluate_of_ok rfl h rfl⟩

end Context

/-- Braces in a row: the first two open, and the first two behind them close. -/
example : Template.split "a\x7b\x7b\x7b1\x7d\x7d\x7d" = ⟨"a", "\x7b1", "\x7d"⟩ := by decide

end TemplatedForms
