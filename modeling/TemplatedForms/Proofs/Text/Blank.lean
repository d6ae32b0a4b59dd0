import Mathlib.Data.List.TakeWhile
import Mathlib.Data.String.Basic
import TemplatedForms.Text.Blank

namespace TemplatedForms.Text

theorem trimStart_sublist (s : String) : (trimStart s).toList.Sublist s.toList := by
  rw [trimStart, String.toList_ofList]
  exact List.dropWhile_sublist _

theorem trimEnd_sublist (s : String) : (trimEnd s).toList.Sublist s.toList := by
  rw [trimEnd, String.toList_ofList]
  simpa using (List.dropWhile_sublist isBlank (l := s.toList.reverse)).reverse

theorem trim_sublist (s : String) : (trim s).toList.Sublist s.toList :=
  (trimEnd_sublist _).trans (trimStart_sublist s)

theorem trimStart_eq_self_iff {s : String} :
    trimStart s = s ↔ ∀ c, s.toList.head? = some c → isBlank c = false := by
  rw [trimStart, ← String.toList_inj, String.toList_ofList]
  cases s.toList with
  | nil => simp
  | cons c cs => simp [List.dropWhile_eq_self_iff]

theorem trimEnd_eq_self_iff {s : String} :
    trimEnd s = s ↔ ∀ c, s.toList.getLast? = some c → isBlank c = false := by
  rw [trimEnd, ← String.toList_inj, String.toList_ofList, ← List.head?_reverse]
  rw [List.reverse_eq_iff]
  cases s.toList.reverse with
  | nil => simp
  | cons c cs => simp [List.dropWhile_eq_self_iff]

theorem trim_eq_self_iff {s : String} : trim s = s ↔ trimStart s = s ∧ trimEnd s = s := by
  constructor
  · intro h
    have hle := trimEnd_sublist (trimStart s)
    rw [← trim, h] at hle
    have hstart := String.toList_inj.mp ((trimStart_sublist s).antisymm hle)
    rw [trim, hstart] at h
    exact ⟨hstart, h⟩
  · rintro ⟨hstart, hend⟩
    rw [trim, hstart, hend]

theorem trimStart_append_iff {s : String} (h : s ≠ "") (t : String) :
    trimStart (s ++ t) = s ++ t ↔ trimStart s = s := by
  rw [trimStart_eq_self_iff, trimStart_eq_self_iff, String.toList_append, List.head?_append_of_ne_nil]
  exact fun hnil ↦ h (String.toList_inj.mp hnil)

theorem trimEnd_append_iff (s : String) {t : String} (h : t ≠ "") :
    trimEnd (s ++ t) = s ++ t ↔ trimEnd t = t := by
  rw [trimEnd_eq_self_iff, trimEnd_eq_self_iff, String.toList_append, List.getLast?_append_of_ne_nil]
  exact fun hnil ↦ h (String.toList_inj.mp hnil)

end TemplatedForms.Text
