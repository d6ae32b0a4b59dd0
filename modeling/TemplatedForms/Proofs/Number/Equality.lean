import TemplatedForms.Number.Binary

namespace TemplatedForms.Number

open Float.Model (UnpackedFloat)
open Float.Model.UnpackedFloat (Sign)

theorem compare_fields_eq_iff {e e' : Int} {m m' : Nat} :
    (compare e e').then (compare m m') = .eq ↔ e = e' ∧ m = m' :=
  Ordering.then_eq_eq.trans (and_congr Int.compare_eq_eq Nat.compare_eq_eq)

theorem compare_self {a : UnpackedFloat} (h : a ≠ .notANumber) : a.compare a = some .eq := by
  cases a with
  | notANumber => exact absurd rfl h
  | infinity s | zero s => cases s <;> rfl
  | finite s m e hm =>
    have hfields := (compare_fields_eq_iff (e := e) (m := m)).mpr ⟨rfl, rfl⟩
    cases s
    · exact congrArg (some ·.swap) hfields
    · exact congrArg some hfields

theorem compare_eq_iff {a b : UnpackedFloat} :
    a.compare b = some .eq ↔ (a = b ∧ a ≠ .notANumber) ∨ ∃ s t, a = .zero s ∧ b = .zero t := by
  constructor
  · intro h
    cases a with
    | notANumber => cases h
    | infinity s =>
      cases b with
      | notANumber => cases h
      | zero | finite => cases s <;> cases h
      | infinity t =>
        obtain rfl : s = t := by cases s <;> cases t <;> first | rfl | cases h
        exact .inl ⟨rfl, nofun⟩
    | zero s =>
      cases b with
      | notANumber => cases h
      | infinity t | finite t => cases t <;> cases h
      | zero t => exact .inr ⟨s, t, rfl, rfl⟩
    | finite s m e =>
      cases b with
      | notANumber => cases h
      | infinity t => cases t <;> cases h
      | zero => cases s <;> cases h
      | finite t m' e' =>
        obtain ⟨rfl, hfields⟩ : s = t ∧ (compare e e').then (compare m m') = .eq := by
          cases s <;> cases t <;> first | cases h | refine ⟨rfl, ?_⟩
          · exact Ordering.swap_eq_eq.mp (Option.some.inj h)
          · exact Option.some.inj h
        obtain ⟨rfl, rfl⟩ := compare_fields_eq_iff.mp hfields
        exact .inl ⟨rfl, nofun⟩
  · rintro (⟨rfl, h⟩ | ⟨s, t, rfl, rfl⟩)
    · exact compare_self h
    · rfl

variable {x y z : Float}

theorem float_beq_iff : (x == y) = true ↔
    (x.toModel.unpack = y.toModel.unpack ∧ x.toModel.unpack ≠ .notANumber) ∨
      ∃ s t, x.toModel.unpack = .zero s ∧ y.toModel.unpack = .zero t := by
  rw [← compare_eq_iff]
  change (x.toModel.unpack.compare y.toModel.unpack == some .eq) = true ↔ _
  exact beq_iff_eq

theorem float_beq_symm (h : (x == y) = true) : (y == x) = true := by
  rw [float_beq_iff] at h ⊢
  rcases h with ⟨heq, hnan⟩ | ⟨s, t, hx, hy⟩
  · exact .inl ⟨heq.symm, heq ▸ hnan⟩
  · exact .inr ⟨t, s, hy, hx⟩

theorem float_beq_comm (x y : Float) : (x == y) = (y == x) :=
  Bool.eq_iff_iff.mpr ⟨float_beq_symm, float_beq_symm⟩

theorem float_beq_trans (h : (x == y) = true) (h' : (y == z) = true) : (x == z) = true := by
  rw [float_beq_iff] at h h' ⊢
  rcases h with ⟨heq, hnan⟩ | ⟨s, t, hx, hy⟩
  · rwa [heq]
  · rcases h' with ⟨heq, -⟩ | ⟨-, u, -, hz⟩
    · exact .inr ⟨s, t, hx, heq ▸ hy⟩
    · exact .inr ⟨s, u, hx, hz⟩

theorem isNaN_iff : x.isNaN = true ↔ x.toModel.unpack = .notANumber := by
  change x.toModel.unpack.isNaN = true ↔ _
  cases x.toModel.unpack with
  | notANumber => exact iff_of_true rfl rfl
  | infinity | zero | finite => exact iff_of_false Bool.false_ne_true nofun

theorem float_beq_self_iff : (x == x) = true ↔ ¬x.isNaN = true := by
  rw [float_beq_iff, isNaN_iff]
  constructor
  · rintro (⟨-, hnan⟩ | ⟨s, t, hx, -⟩)
    · exact hnan
    · rw [hx]
      nofun
  · exact fun h ↦ .inl ⟨rfl, h⟩

end TemplatedForms.Number
