import Mathlib.Data.String.Basic
import TemplatedForms.Value.Equality

namespace TemplatedForms

/-- Among some values, a relation "comes after" is that of a total preorder: no two of them come after each
other, and with two steps that do not go back the whole way does not go back. -/
structure TotalPreorderOn (after : Value → Value → Prop) (vs : List Value) : Prop where
  total : ∀ a ∈ vs, ∀ b ∈ vs, ¬after a b ∨ ¬after b a
  trans : ∀ a ∈ vs, ∀ b ∈ vs, ∀ c ∈ vs, ¬after a b → ¬after b c → ¬after a c

theorem TotalPreorderOn.mono {after : Value → Value → Prop} {us vs : List Value} (h : TotalPreorderOn after vs)
    (hsub : us ⊆ vs) : TotalPreorderOn after us where
  total a ha b hb := h.total a (hsub ha) b (hsub hb)
  trans a ha b hb c hc := h.trans a (hsub ha) b (hsub hb) c (hsub hc)

namespace Value

/-- A value comes after another one, which is not undefined, when it is undefined or has a greater text. -/
def LaterByText (a b : Value) : Prop :=
  b.isUndefined = false ∧ (a.isUndefined = true ∨ b.display < a.display)

theorem defaultOrder_eq_gt_iff {a b : Value} : defaultOrder a b = .gt ↔ LaterByText a b := by
  cases a <;> cases b <;> simp [defaultOrder, LaterByText, isUndefined, compare_gt_iff_gt]

theorem not_laterByText_iff {a b : Value} :
    ¬LaterByText a b ↔ b.isUndefined = true ∨ (a.isUndefined = false ∧ a.display ≤ b.display) := by
  rw [LaterByText, not_and_or, not_or, Bool.not_eq_false, Bool.not_eq_true, not_lt]

theorem laterByText_totalPreorderOn (vs : List Value) : TotalPreorderOn LaterByText vs where
  total a _ b _ := by
    rw [not_laterByText_iff, not_laterByText_iff]
    have htexts := le_total a.display b.display
    cases a.isUndefined <;> cases b.isUndefined <;> simp [htexts]
  trans a _ b _ c _ hab hbc := by
    rw [not_laterByText_iff] at hab hbc ⊢
    refine hbc.imp_right fun ⟨hb, htext⟩ ↦ ?_
    obtain ⟨ha, htext'⟩ := hab.resolve_left (by simp [hb])
    exact ⟨ha, htext'.trans htext⟩

end Value

end TemplatedForms
