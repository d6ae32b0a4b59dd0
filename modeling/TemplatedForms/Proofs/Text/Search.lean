import Mathlib.Data.List.Infix
import TemplatedForms.Text.Search

namespace TemplatedForms.Text

variable {p : List Char}

/-- No occurrence of `p` starts inside of `cs` when `p` follows it. -/
def Clear (p cs : List Char) : Prop := ¬p <:+: cs ++ p.dropLast

theorem Clear.suffix {front cs : List Char} (h : Clear p (front ++ cs)) : Clear p cs := by
  intro hp
  rw [Clear, List.append_assoc] at h
  exact h (hp.trans (List.suffix_append front _).isInfix)

theorem Clear.tail {c : Char} {cs : List Char} (h : Clear p (c :: cs)) : Clear p cs := by
  rw [← List.singleton_append] at h
  exact h.suffix

theorem infix_append_cons (hp : p ≠ []) {c : Char} (hc : c ∉ p) {front rest : List Char} :
    p <:+: front ++ c :: rest ↔ p <:+: front ∨ p <:+: rest := by
  constructor
  · rintro ⟨before, after, h⟩
    rw [List.append_assoc] at h
    rcases List.append_eq_append_iff.mp h with ⟨x, rfl, hx⟩ | ⟨x, rfl, hx⟩
    · rcases List.append_eq_append_iff.mp hx with ⟨y, rfl, hy⟩ | ⟨y, rfl, hy⟩
      · exact .inl ⟨before, y, by rw [List.append_assoc]⟩
      · cases y with
        | nil => exact .inl ⟨before, [], by simp⟩
        | cons d y =>
          obtain ⟨rfl, -⟩ := List.cons.inj hy
          simp at hc
    · cases x with
      | nil =>
        obtain ⟨d, p, rfl⟩ := List.exists_cons_of_ne_nil hp
        obtain ⟨rfl, -⟩ := List.cons.inj hx
        simp at hc
      | cons d x =>
        obtain ⟨-, hrest⟩ := List.cons.inj hx
        exact .inr ⟨x, after, (List.append_assoc x p after).trans hrest.symm⟩
  · rintro (h | h)
    · exact h.trans (List.prefix_append front _).isInfix
    · exact h.trans (List.suffix_cons c rest |>.isInfix.trans (List.suffix_append front _).isInfix)

theorem clear_append_cons (hp : p ≠ []) {c : Char} (hc : c ∉ p) {front rest : List Char} :
    Clear p (front ++ c :: rest) ↔ ¬p <:+: front ∧ Clear p rest := by
  rw [Clear, List.append_assoc, List.cons_append, infix_append_cons hp hc, not_or]
  rfl

theorem Clear.not_prefix {c : Char} {cs : List Char} (h : Clear p (c :: cs))
    (rest : List Char) : ¬p <+: c :: cs ++ (p ++ rest) := by
  intro hpre
  have hlength : p.length ≤ (c :: cs ++ p.dropLast).length := by
    rw [List.length_append, List.length_cons, List.length_dropLast]
    omega
  have hlast : p.dropLast <+: p ++ rest := (List.dropLast_prefix p).trans (List.prefix_append p rest)
  have hshort : c :: cs ++ p.dropLast <+: c :: cs ++ (p ++ rest) :=
    (List.prefix_append_right_inj (c :: cs)).mpr hlast
  exact h (List.prefix_of_prefix_length_le hpre hshort hlength).isInfix

theorem Clear.not_prefix_drop {front : List Char} (h : Clear p front) (rest : List Char) {i : Nat}
    (hi : i < front.length) : ¬p <+: (front ++ (p ++ rest)).drop i := by
  have hclear : Clear p (front.drop i) := by
    rw [← List.take_append_drop i front] at h
    exact h.suffix
  rw [List.drop_append_of_le_length (Nat.le_of_lt hi)]
  rw [List.drop_eq_getElem_cons hi] at hclear ⊢
  exact hclear.not_prefix rest

theorem Clear.prefix_drop_iff {front : List Char} (h : Clear p front) (hp : p ≠ []) (i : Nat) :
    p <+: (front ++ p).drop i ↔ i = front.length := by
  constructor
  · intro hpre
    have hlength := hpre.length_le
    rw [List.length_drop, List.length_append] at hlength
    have hpos := List.length_pos_iff.mpr hp
    rcases Nat.lt_or_ge i front.length with hlt | hge
    · have hnot := h.not_prefix_drop [] hlt
      rw [List.append_nil] at hnot
      exact absurd hpre hnot
    · omega
  · rintro rfl
    rw [List.drop_left]

theorem cutFrom?_of_clear (hp : p ≠ []) {front : List Char} (h : Clear p front) (before rest : List Char) :
    cutFrom? p before (front ++ (p ++ rest)) = some (before.reverse ++ front, rest) := by
  induction front generalizing before with
  | nil =>
    obtain ⟨c, p, rfl⟩ := List.exists_cons_of_ne_nil hp
    rw [List.nil_append, List.cons_append, cutFrom?, if_pos (by simp)]
    simp
  | cons c front ih =>
    have hpre := h.not_prefix rest
    rw [← List.isPrefixOf_iff_prefix] at hpre
    rw [List.cons_append] at hpre ⊢
    rw [cutFrom?, if_neg hpre, ih h.tail]
    simp

theorem cutFrom?_inv (hp : p ≠ []) {before cs x rest : List Char}
    (h : cutFrom? p before cs = some (x, rest)) :
    ∃ front, x = before.reverse ++ front ∧ cs = front ++ (p ++ rest) ∧ Clear p front := by
  induction cs generalizing before with
  | nil =>
    rw [cutFrom?, if_neg (by simpa using hp)] at h
    cases h
  | cons c cs ih =>
    rw [cutFrom?] at h
    split at h
    · next hpre =>
      cases h
      have hdrop := List.prefix_iff_eq_append.mp (List.isPrefixOf_iff_prefix.mp hpre)
      refine ⟨[], by simp, by rw [List.nil_append, hdrop], fun hclear ↦ ?_⟩
      have hle := hclear.length_le
      rw [List.nil_append, List.length_dropLast] at hle
      have hpos := List.length_pos_iff.mpr hp
      omega
    · next hpre =>
      obtain ⟨front, rfl, rfl, hclear⟩ := ih h
      refine ⟨c :: front, by simp, rfl, fun hinfix ↦ ?_⟩
      rw [List.cons_append] at hinfix
      rcases List.infix_cons_iff.mp hinfix with hfront | hrest
      · refine hpre (List.isPrefixOf_iff_prefix.mpr (hfront.trans ?_))
        have hlast : p.dropLast <+: p ++ rest :=
          (List.dropLast_prefix p).trans (List.prefix_append p rest)
        exact (List.prefix_append_right_inj (c :: front)).mpr hlast
      · exact hclear hrest

theorem cutFrom?_eq_none (hp : p ≠ []) {before cs : List Char} :
    cutFrom? p before cs = none ↔ ¬p <:+: cs := by
  induction cs generalizing before with
  | nil => simp [cutFrom?, hp]
  | cons c cs ih =>
    rw [cutFrom?, List.infix_cons_iff, ← List.isPrefixOf_iff_prefix]
    split
    · next hpre => simp [hpre]
    · next hpre => simp [hpre, ih]

theorem cut?_eq_some (hp : p ≠ []) {cs front rest : List Char} :
    cut? p cs = some (front, rest) ↔ cs = front ++ (p ++ rest) ∧ Clear p front := by
  constructor
  · intro h
    obtain ⟨front, rfl, rfl, hclear⟩ := cutFrom?_inv hp h
    exact ⟨rfl, hclear⟩
  · rintro ⟨rfl, hclear⟩
    exact cutFrom?_of_clear hp hclear [] rest

theorem suffix_of_cut? (hp : p ≠ []) {front rest before after : List Char}
    (h : cut? p (before ++ (p ++ after)) = some (front, rest)) : after <:+ rest := by
  obtain ⟨hcs, hclear⟩ := (cut?_eq_some hp).mp h
  have hpos := List.length_pos_iff.mpr hp
  have hlength := congrArg List.length hcs
  simp only [List.length_append] at hlength
  have hle : front.length ≤ before.length := by
    -- an earlier occurrence would lie in the text that is clear of it
    refine Nat.le_of_not_lt fun hlt ↦ ?_
    have hlast : front ++ p.dropLast <+: front ++ (p ++ rest) :=
      (List.prefix_append_right_inj front).mpr
        ((List.dropLast_prefix p).trans (List.prefix_append p rest))
    have hbefore : before ++ p <+: front ++ (p ++ rest) := by
      rw [← hcs, ← List.append_assoc]
      exact List.prefix_append _ _
    have hshort : before ++ p <+: front ++ p.dropLast := by
      refine List.prefix_of_prefix_length_le hbefore hlast ?_
      simp only [List.length_append, List.length_dropLast]
      omega
    exact hclear ((List.suffix_append before p).isInfix.trans hshort.isInfix)
  have hafter : after <:+ front ++ (p ++ rest) := by
    rw [← hcs, ← List.append_assoc]
    exact List.suffix_append _ _
  have hrest : rest <:+ front ++ (p ++ rest) := by
    rw [← List.append_assoc]
    exact List.suffix_append _ _
  exact List.suffix_of_suffix_length_le hafter hrest (by omega)

theorem cut?_eq_none (hp : p ≠ []) {cs : List Char} : cut? p cs = none ↔ ¬p <:+: cs :=
  cutFrom?_eq_none hp

theorem length_lt_of_cut? (hp : p ≠ []) {cs front rest : List Char}
    (h : cut? p cs = some (front, rest)) : rest.length < cs.length := by
  obtain ⟨rfl, -⟩ := (cut?_eq_some hp).mp h
  have hpos := List.length_pos_iff.mpr hp
  simp only [List.length_append]
  omega

theorem piecesOnto_found (fuel : Nat) (found : List (List Char)) (cs : List Char) :
    piecesOnto p fuel found cs = found.reverse ++ piecesOnto p fuel [] cs := by
  induction fuel generalizing found cs with
  | zero => simp [piecesOnto]
  | succ fuel ih =>
    rw [piecesOnto, piecesOnto]
    split
    · rw [ih, ih [_]]
      simp
    · simp

theorem piecesOnto_fuel (hp : p ≠ []) {fuel fuel' : Nat} {cs : List Char} (hf : cs.length < fuel)
    (hf' : cs.length < fuel') (found : List (List Char)) :
    piecesOnto p fuel found cs = piecesOnto p fuel' found cs := by
  induction fuel generalizing fuel' cs found with
  | zero => omega
  | succ fuel ih =>
    obtain ⟨fuel', rfl⟩ : ∃ n, fuel' = n + 1 := ⟨fuel' - 1, by omega⟩
    rw [piecesOnto, piecesOnto]
    split
    · next front rest h =>
      have hlt := length_lt_of_cut? hp h
      exact ih (by omega) (by omega) (front :: found)
    · rfl

theorem pieces_of_none (hp : p ≠ []) {cs : List Char} (h : cut? p cs = none) : pieces p cs = [cs] := by
  rw [pieces, if_neg (by simpa using hp), piecesOnto, h]
  rfl

theorem pieces_of_some (hp : p ≠ []) {cs front rest : List Char} (h : cut? p cs = some (front, rest)) :
    pieces p cs = front :: pieces p rest := by
  have hlt := length_lt_of_cut? hp h
  rw [pieces, if_neg (by simpa using hp), piecesOnto, h, pieces, if_neg (by simpa using hp)]
  dsimp only
  rw [piecesOnto_found, piecesOnto_fuel hp hlt (Nat.lt_succ_self rest.length)]
  rfl

theorem pieces_ne_nil (hp : p ≠ []) (cs : List Char) : pieces p cs ≠ [] := by
  cases hcut : cut? p cs with
  | none => simp [pieces_of_none hp hcut]
  | some found => simp [pieces_of_some hp hcut]

theorem pieces_spec (hp : p ≠ []) (cs : List Char) :
    p.intercalate (pieces p cs) = cs ∧ ∀ piece ∈ pieces p cs, ¬p <:+: piece := by
  induction hn : cs.length using Nat.strong_induction_on generalizing cs with
  | _ n ih =>
    cases hcut : cut? p cs with
    | none =>
      rw [pieces_of_none hp hcut]
      exact ⟨List.intercalate_singleton, List.forall_mem_singleton.mpr ((cut?_eq_none hp).mp hcut)⟩
    | some found =>
      obtain ⟨front, rest⟩ := found
      obtain ⟨hjoin, hrest⟩ := ih rest.length (hn ▸ length_lt_of_cut? hp hcut) rest rfl
      obtain ⟨rfl, hclear⟩ := (cut?_eq_some hp).mp hcut
      have hfront : ¬p <:+: front := fun h ↦ hclear (h.trans (List.prefix_append front _).isInfix)
      rw [pieces_of_some hp hcut]
      refine ⟨?_, List.forall_mem_cons.mpr ⟨hfront, hrest⟩⟩
      rw [List.intercalate_cons_of_ne_nil (pieces_ne_nil hp rest), hjoin, List.append_assoc]

end TemplatedForms.Text
