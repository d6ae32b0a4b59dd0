import Mathlib.Data.List.TakeWhile
import TemplatedForms.Evaluation.ListMethods
import TemplatedForms.Proofs.Value.Order

namespace TemplatedForms

/-- A list of values sorted by a relation "comes after". -/
structure StablySorted (after : Value → Value → Prop) (items sorted : List Value) : Prop where
  perm : sorted.Perm items
  ordered : TotalPreorderOn after items → sorted.Pairwise fun a b ↦ ¬after a b
  stable : ∀ vs : List Value, vs.Sublist items → (∀ a ∈ vs, ∀ b ∈ vs, ¬after a b) → vs.Sublist sorted

namespace ListMethod

open scoped List

variable {after : Value → Value → Bool} {item : Value} {us vs sorted : List Value}

theorem insertBy_eq (after : Value → Value → Bool) (item : Value) (passed vs : List Value) :
    insertBy after item passed vs =
      passed.reverse ++ (vs.takeWhile (after · item) ++ item :: vs.dropWhile (after · item)) := by
  induction vs generalizing passed with
  | nil => rfl
  | cons v vs ih =>
    rw [insertBy, List.takeWhile_cons, List.dropWhile_cons]
    split
    · rw [ih, List.reverse_cons, List.append_assoc, List.singleton_append, List.cons_append]
    · rfl

theorem perm_insertBy (after : Value → Value → Bool) (item : Value) (vs : List Value) :
    insertBy after item [] vs ~ item :: vs := by
  rw [insertBy_eq]
  calc vs.takeWhile (after · item) ++ item :: vs.dropWhile (after · item)
    _ ~ item :: (vs.takeWhile (after · item) ++ vs.dropWhile (after · item)) := List.perm_middle
    _ = item :: vs := by rw [List.takeWhile_append_dropWhile]

theorem sublist_dropWhile {p : Value → Bool} (h : us.Sublist vs) (hp : ∀ u ∈ us, p u = false) :
    us.Sublist (vs.dropWhile p) := by
  induction h with
  | slnil => exact .slnil
  | cons v h ih =>
    rw [List.dropWhile_cons]
    split
    · exact ih hp
    · exact h.cons v
  | cons_cons v h ih =>
    rw [List.dropWhile_cons, if_neg (by simp [hp v List.mem_cons_self])]
    exact h.cons_cons v

theorem sublist_insertBy (h : us.Sublist (item :: vs)) (htied : ∀ a ∈ us, ∀ b ∈ us, after a b = false) :
    us.Sublist (insertBy after item [] vs) := by
  rw [insertBy_eq]
  rcases List.sublist_cons_iff.mp h with hold | ⟨rest, rfl, hrest⟩
  · have hvs : vs.Sublist (vs.takeWhile (after · item) ++ item :: vs.dropWhile (after · item)) := by
      conv_lhs => rw [← List.takeWhile_append_dropWhile (p := (after · item)) (l := vs)]
      exact (List.Sublist.refl _).append (List.sublist_cons_self item _)
    exact hold.trans hvs
  · have hdrop : rest.Sublist (vs.dropWhile (after · item)) :=
      sublist_dropWhile hrest fun u hu ↦ htied u (List.mem_cons_of_mem item hu) item List.mem_cons_self
    exact (hdrop.cons_cons item).trans (List.sublist_append_right _ _)

theorem pairwise_insertBy (h : TotalPreorderOn (after · · = true) (item :: vs))
    (hvs : vs.Pairwise fun a b ↦ after b a = false) :
    (insertBy after item [] vs).Pairwise fun a b ↦ after b a = false := by
  have hparts : (vs.takeWhile (after · item) ++ vs.dropWhile (after · item)).Pairwise
      fun a b ↦ after b a = false := by
    rwa [List.takeWhile_append_dropWhile]
  obtain ⟨htake, hdrop, hcross⟩ := List.pairwise_append.mp hparts
  have hmem {v : Value} (hv : v ∈ vs) : v ∈ item :: vs := List.mem_cons_of_mem item hv
  have hbelow : ∀ b ∈ vs.dropWhile (after · item), after b item = false := by
    have hhead := List.head?_dropWhile_not (after · item) vs
    have hsub : vs.dropWhile (after · item) ⊆ vs := (List.dropWhile_sublist _).subset
    cases hrest : vs.dropWhile (after · item) with
    | nil => exact List.forall_mem_nil _
    | cons d ds =>
      rw [hrest] at hhead hdrop hsub
      rw [List.forall_mem_cons]
      refine ⟨hhead, fun b hb ↦ ?_⟩
      have hstep : after b d = false := (List.pairwise_cons.mp hdrop).1 b hb
      have htrans := h.trans b (hmem (hsub (List.mem_cons_of_mem d hb))) d (hmem (hsub List.mem_cons_self)) item
        List.mem_cons_self
      simpa using htrans (by simp [hstep]) (by simp [show after d item = false from hhead])
  rw [insertBy_eq, List.reverse_nil, List.nil_append, List.pairwise_append, List.pairwise_cons]
  refine ⟨htake, ⟨hbelow, hdrop⟩, fun a ha ↦ List.forall_mem_cons.mpr ⟨?_, hcross a ha⟩⟩
  have hafter : after a item = true := by simpa using List.mem_takeWhile_imp ha
  have htotal := h.total a (hmem ((List.takeWhile_sublist _).subset ha)) item List.mem_cons_self
  simpa [hafter] using htotal

theorem perm_sortOnto (after : Value → Value → Bool) (sorted vs : List Value) :
    sortOnto after sorted vs ~ sorted ++ vs := by
  induction vs generalizing sorted with
  | nil => simp [sortOnto]
  | cons v vs ih =>
    calc sortOnto after (insertBy after v [] sorted) vs
      _ ~ insertBy after v [] sorted ++ vs := ih _
      _ ~ v :: sorted ++ vs := (perm_insertBy after v sorted).append_right vs
      _ ~ sorted ++ v :: vs := List.perm_middle.symm

theorem pairwise_sortOnto (h : TotalPreorderOn (after · · = true) (sorted ++ vs))
    (hsorted : sorted.Pairwise fun a b ↦ after b a = false) :
    (sortOnto after sorted vs).Pairwise fun a b ↦ after a b = false := by
  induction vs generalizing sorted with
  | nil => exact List.pairwise_reverse.mpr hsorted
  | cons v vs ih =>
    have hperm : insertBy after v [] sorted ++ vs ~ sorted ++ v :: vs :=
      ((perm_insertBy after v sorted).append_right vs).trans List.perm_middle.symm
    refine ih (h.mono hperm.subset) (pairwise_insertBy (h.mono ?_) hsorted)
    exact List.cons_subset.mpr ⟨by simp, List.subset_append_left _ _⟩

theorem sublist_sortOnto (h : us.Sublist (sorted.reverse ++ vs))
    (htied : ∀ a ∈ us, ∀ b ∈ us, after a b = false) : us.Sublist (sortOnto after sorted vs) := by
  induction vs generalizing sorted with
  | nil => simpa [sortOnto] using h
  | cons v vs ih =>
    rw [← List.singleton_append, ← List.append_assoc, ← List.reverse_cons] at h
    obtain ⟨front, back, rfl, hfront, hback⟩ := List.sublist_append_iff.mp h
    refine ih ?_
    have hinserted : front.reverse.Sublist (insertBy after v [] sorted) := by
      refine sublist_insertBy (by simpa using hfront.reverse) fun a ha b hb ↦ ?_
      exact htied a (List.mem_append_left back (List.mem_reverse.mp ha)) b
        (List.mem_append_left back (List.mem_reverse.mp hb))
    exact List.Sublist.append (by simpa using hinserted.reverse) hback

theorem sortOnto_stablySorted (after : Value → Value → Bool) (items : List Value) :
    StablySorted (after · · = true) items (sortOnto after [] items) where
  perm := perm_sortOnto after [] items
  ordered h := by
    have hsorted : (sortOnto after [] items).Pairwise fun a b ↦ after a b = false := pairwise_sortOnto h .nil
    simpa using hsorted
  stable vs h htied := sublist_sortOnto h (by simpa using htied)

end ListMethod

end TemplatedForms
