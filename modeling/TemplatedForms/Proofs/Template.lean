import TemplatedForms.Evaluate
import TemplatedForms.Proofs.Text.Search

namespace TemplatedForms

namespace Template

/-- The region of a text: the first opening mark, and the first closing mark behind it. -/
structure Region (text : String) (before body after : List Char) : Prop where
  text_eq : text.toList = before ++ (opening ++ (body ++ (closing ++ after)))
  before_clear : Text.Clear opening before
  body_clear : Text.Clear closing body

/-- Both marks are in a text, but there is nothing to evaluate: no closing mark stands behind the first
opening mark, or only blanks stand between the two. -/
structure Stray (text : String) : Prop where
  opening_infix : opening <:+: text.toList
  closing_infix : closing <:+: text.toList
  blank : ∀ {before body after : List Char}, Region text before body after → body.all Text.isBlank = true

theorem opening_ne_nil : opening ≠ [] := List.cons_ne_nil _ _

theorem closing_ne_nil : closing ≠ [] := List.cons_ne_nil _ _

section

variable {text : String} {before body after : List Char}

theorem Region.cut? (h : Region text before body after) :
    Text.cut? opening text.toList = some (before, body ++ (closing ++ after)) ∧
      Text.cut? closing (body ++ (closing ++ after)) = some (body, after) :=
  ⟨(Text.cut?_eq_some opening_ne_nil).mpr ⟨h.text_eq, h.before_clear⟩,
    (Text.cut?_eq_some closing_ne_nil).mpr ⟨rfl, h.body_clear⟩⟩

theorem split_of_region (h : Region text before body after) :
    split text =
      ⟨String.ofList before, if body.all Text.isBlank then "" else String.ofList body, String.ofList after⟩ := by
  obtain ⟨hopening, hclosing⟩ := h.cut?
  simp only [split, hopening, hclosing]

theorem region_or_literal (text : String) :
    (∃ before body after, Region text before body after) ∨
      split text = literal text ∧ ∀ before body after, ¬Region text before body after := by
  cases hopening : Text.cut? opening text.toList with
  | none =>
    refine .inr ⟨by simp only [split, hopening], fun before body after h ↦ ?_⟩
    rw [h.cut?.1] at hopening
    cases hopening
  | some r =>
    obtain ⟨before, rest⟩ := r
    cases hclosing : Text.cut? closing rest with
    | none =>
      refine .inr ⟨by simp only [split, hopening, hclosing], fun before' body after h ↦ ?_⟩
      rw [h.cut?.1] at hopening
      cases hopening
      rw [h.cut?.2] at hclosing
      cases hclosing
    | some r' =>
      obtain ⟨body, after⟩ := r'
      obtain ⟨htext, hbefore⟩ := (Text.cut?_eq_some opening_ne_nil).mp hopening
      obtain ⟨rfl, hbody⟩ := (Text.cut?_eq_some closing_ne_nil).mp hclosing
      exact .inl ⟨before, body, after, htext, hbefore, hbody⟩

theorem Region.hasExpression_iff (h : Region text before body after) :
    (split text).hasExpression = true ↔ body.all Text.isBlank = false := by
  rw [split_of_region h, hasExpression]
  cases hblank : body.all Text.isBlank with
  | true => simp
  | false =>
    have hbody : body ≠ [] := by
      rintro rfl
      cases hblank
    simpa using hbody

theorem hasExpression_iff : (split text).hasExpression = true ↔
    ∃ before body after, Region text before body after ∧ body.all Text.isBlank = false := by
  constructor
  · intro h
    rcases region_or_literal text with ⟨before, body, after, hregion⟩ | ⟨hliteral, -⟩
    · exact ⟨before, body, after, hregion, hregion.hasExpression_iff.mp h⟩
    · rw [hliteral] at h
      cases h
  · rintro ⟨before, body, after, hregion, hbody⟩
    exact hregion.hasExpression_iff.mpr hbody

theorem marks_iff : opening <:+: text.toList ∧ closing <:+: text.toList ↔
    (split text).hasExpression = true ∨ Stray text := by
  constructor
  · rintro ⟨hopening, hclosing⟩
    by_cases h : (split text).hasExpression = true
    · exact .inl h
    · refine .inr ⟨hopening, hclosing, fun hregion ↦ ?_⟩
      rw [hregion.hasExpression_iff] at h
      simpa using h
  · rintro (h | h)
    · obtain ⟨before, body, after, hregion, -⟩ := hasExpression_iff.mp h
      rw [hregion.text_eq]
      exact ⟨List.infix_append' _ _ _, by
        rw [← List.append_assoc, ← List.append_assoc]
        exact List.infix_append' _ _ _⟩
    · exact ⟨h.opening_infix, h.closing_infix⟩

theorem Stray.not_hasExpression (h : Stray text) : (split text).hasExpression = false := by
  refine Bool.eq_false_iff.mpr fun hexpression ↦ ?_
  obtain ⟨before, body, after, hregion, hbody⟩ := hasExpression_iff.mp hexpression
  rw [h.blank hregion] at hbody
  cases hbody

end

end Template

theorem Noticed.pure_bind {α β : Type} (a : α) (k : α → Noticed β) : pure a >>= k = k a := rfl

theorem Context.evaluate_of_not_hasExpression (c : Context) (scope : Entries Value) {text : String}
    (h : (Template.split text).hasExpression = false) :
    c.evaluate scope text = return .string (Template.split text).before := by
  simp only [evaluate, h, Bool.not_false, if_true]

end TemplatedForms
