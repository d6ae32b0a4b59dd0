import TemplatedForms.Expression.Parse
import TemplatedForms.Proofs.Expression.Grammar

namespace TemplatedForms

open Grammar

namespace TokenParser

@[simp] theorem startsWith_cons (m : Mark) (t : Token) (c : Nat) (ts : List Positioned) :
    startsWith m (⟨t, c⟩ :: ts) = decide (t = .mark m) := rfl

@[simp] theorem expect_mark (m : Mark) (c : Nat) (ts : List Positioned) :
    expect m (⟨.mark m, c⟩ :: ts) = .ok ((), ts) := if_pos rfl

/-- The search for an arrow passes over these tokens. -/
def Balanced (us : List Token) : Prop :=
  ∀ ts rest depth, tokens ts = us → 1 ≤ depth →
    closesBeforeArrow depth (ts ++ rest) = closesBeforeArrow depth rest

namespace Balanced

theorem nil : Balanced [] := by
  intro ts rest depth h _
  rw [tokens_eq_nil.mp h, List.nil_append]

theorem append {us vs : List Token} (hu : Balanced us) (hv : Balanced vs) : Balanced (us ++ vs) := by
  intro ts rest depth h hd
  obtain ⟨ts₁, ts₂, rfl, h₁, h₂⟩ := tokens_eq_append h
  rw [List.append_assoc, hu ts₁ _ _ h₁ hd, hv ts₂ _ _ h₂ hd]

theorem singleton {t : Token} (hl : t ≠ .mark .leftParen) (hr : t ≠ .mark .rightParen) :
    Balanced [t] := by
  intro ts rest depth h _
  obtain ⟨c, rfl⟩ := tokens_eq_singleton h
  rw [List.singleton_append, closesBeforeArrow]
  split
  · next h => exact absurd h hl
  · next h => exact absurd h hr
  · rfl

theorem cons {t : Token} {us : List Token} (hl : t ≠ .mark .leftParen) (hr : t ≠ .mark .rightParen)
    (hu : Balanced us) : Balanced (t :: us) := (singleton hl hr).append hu

theorem parens {us : List Token} (hu : Balanced us) :
    Balanced (.mark .leftParen :: (us ++ [.mark .rightParen])) := by
  intro ts rest depth h hd
  obtain ⟨c, ts', rfl, h'⟩ := tokens_eq_cons h
  obtain ⟨ts₁, ts₂, rfl, h₁, h₂⟩ := tokens_eq_append h'
  obtain ⟨c', rfl⟩ := tokens_eq_singleton h₂
  rw [List.cons_append, closesBeforeArrow, List.append_assoc, hu ts₁ _ _ h₁ (by omega),
    List.singleton_append, closesBeforeArrow, if_neg (by omega), Nat.add_sub_cancel]

theorem listed {closing : Mark} {parts : List (List Token)} {us : List Token}
    (h : Listed closing parts us) (hp : ∀ part ∈ parts, Balanced part) :
    ∃ vs, us = vs ++ [.mark closing] ∧ Balanced vs := by
  induction h with
  | none => exact ⟨[], rfl, nil⟩
  | last ts => exact ⟨ts, rfl, hp ts List.mem_cons_self⟩
  | next ts _ ih =>
    obtain ⟨hts, hp⟩ := List.forall_mem_cons.mp hp
    obtain ⟨vs, rfl, hvs⟩ := ih hp
    exact ⟨ts ++ .mark .comma :: vs, by simp, hts.append (cons (by decide) (by decide) hvs)⟩

theorem list_in_parens {parts : List (List Token)} {us : List Token} (h : Listed .rightParen parts us)
    (hp : ∀ part ∈ parts, Balanced part) : Balanced (.mark .leftParen :: us) := by
  obtain ⟨vs, rfl, hvs⟩ := listed h hp
  exact hvs.parens

theorem list_behind {opening closing : Mark} {parts : List (List Token)} {us : List Token}
    (h : Listed closing parts us) (hp : ∀ part ∈ parts, Balanced part)
    (ho : opening ≠ .leftParen ∧ opening ≠ .rightParen)
    (hc : closing ≠ .leftParen ∧ closing ≠ .rightParen) : Balanced (.mark opening :: us) := by
  obtain ⟨vs, rfl, hvs⟩ := listed h hp
  exact cons (by simpa using ho.1) (by simpa using ho.2)
    (hvs.append (singleton (by simpa using hc.1) (by simpa using hc.2)))

end Balanced

theorem balanced_params {ss : List String} {ts : List Token} (h : Params ss ts) : Balanced ts := by
  cases h with
  | one s => exact .singleton (by simp) (by simp)
  | listed h =>
    refine .list_in_parens h fun part hp ↦ ?_
    obtain ⟨s, -, rfl⟩ := List.mem_map.mp hp
    exact .singleton (by simp) (by simp)

theorem balanced_of_derives {kind : Kind} {j n : Nat} {us : List Token} {e : Expr}
    (h : Derives kind j n us e) : Balanced us := by
  induction h with
  | arrow hp _ ih => exact (balanced_params hp).append (.cons (by decide) (by decide) ih)
  | plain _ ih | operand _ ih | tighter _ ih | bare _ ih | alone _ ih => exact ih
  | conditional _ _ _ ihc iha ihb =>
    exact ihc.append (.cons (by decide) (by decide) (iha.append (.cons (by decide) (by decide) ihb)))
  | join _ hm _ ihl ihr => exact ihl.append (.cons (by cases hm <;> decide) (by cases hm <;> decide) ihr)
  | lead ht _ ih => exact .cons (by cases ht <;> decide) (by cases ht <;> decide) ih
  | member property _ ih => exact ih.append (.cons (by decide) (by decide) (.singleton (by simp) (by simp)))
  | index _ _ ihe ihk =>
    exact ihe.append (.cons (by decide) (by decide) (ihk.append (.singleton (by decide) (by decide))))
  | call _ _ hl ihe ihs =>
    refine ihe.append (.list_in_parens hl fun part hp ↦ ?_)
    obtain ⟨x, hx, rfl⟩ := List.mem_map.mp hp
    exact ihs x hx
  | atom ht => exact .singleton (by cases ht <;> simp) (by cases ht <;> simp)
  | parens _ ih => exact ih.parens
  | array _ hl ihs =>
    refine .list_behind hl (fun part hp ↦ ?_) (by decide) (by decide)
    obtain ⟨x, hx, rfl⟩ := List.mem_map.mp hp
    exact ihs x hx
  | object hk _ hl ihs =>
    refine .list_behind hl (fun part hp ↦ ?_) (by decide) (by decide)
    obtain ⟨⟨key, name, value⟩, hm, rfl⟩ := List.mem_map.mp hp
    have hkey : Key key name := hk _ hm
    exact .cons (by cases hkey <;> simp) (by cases hkey <;> simp)
      (.cons (by decide) (by decide) (ihs _ hm))

theorem atArrow_eq_false {kind : Kind} {j n : Nat} {us : List Token} {e : Expr}
    (h : Derives kind j n us e) (hk : kind ≠ .expression) {ts : List Positioned}
    (hts : tokens ts = us) (rest : List Positioned) (hr : startsWith .arrow rest = false) :
    atArrow (ts ++ rest) = false := by
  induction h generalizing ts rest with
  | arrow | plain | conditional => exact absurd rfl hk
  | operand _ ih | bare _ ih | alone _ ih | tighter _ ih => exact ih (by simp) hts rest hr
  | join _ hm _ ih _ =>
    obtain ⟨ts₁, ts₂, rfl, h₁, h₂⟩ := tokens_eq_append hts
    obtain ⟨c, ts₂, rfl, -⟩ := tokens_eq_cons h₂
    rw [List.append_assoc]
    refine ih (by simp) h₁ _ ?_
    cases hm <;> rfl
  | lead ht hd _ =>
    obtain ⟨c, ts₁, rfl, h₁⟩ := tokens_eq_cons hts
    obtain ⟨t, us, rfl, hs⟩ := hd.starts
    obtain ⟨c', ts₂, rfl, -⟩ := tokens_eq_cons h₁
    cases ht with
    | typeOf =>
      -- a name like the parameter of an arrow function, but an operand does not start with an arrow
      rw [List.cons_append, List.cons_append, atArrow, startsWith_cons]
      cases t with
      | mark m => cases m <;> first | rfl | cases hs
      | _ => rfl
    | _ => rfl
  | member _ _ ih | index _ _ ih _ | call _ _ _ ih _ =>
    obtain ⟨ts₁, ts₂, rfl, h₁, h₂⟩ := tokens_eq_append hts
    obtain ⟨c, ts₂, rfl, -⟩ := tokens_eq_cons h₂
    rw [List.append_assoc]
    exact ih (by simp) h₁ _ rfl
  | atom ht =>
    obtain ⟨c, rfl⟩ := tokens_eq_singleton hts
    cases ht <;> first | rfl | exact hr
  | parens hd _ =>
    obtain ⟨c, ts', rfl, h'⟩ := tokens_eq_cons hts
    obtain ⟨ts₁, ts₂, rfl, h₁, h₂⟩ := tokens_eq_append h'
    obtain ⟨c', rfl⟩ := tokens_eq_singleton h₂
    rw [List.cons_append, atArrow, List.append_assoc, balanced_of_derives hd ts₁ _ _ h₁ (Nat.le_refl 1),
      List.singleton_append, closesBeforeArrow, if_pos (Nat.le_refl 1), hr]
  | array | object =>
    obtain ⟨c, ts', rfl, -⟩ := tokens_eq_cons hts
    rfl

theorem atArrow_params {ss : List String} {us : List Token} (h : Params ss us) {ts : List Positioned}
    (hts : tokens ts = us) (rest : List Positioned) (hr : startsWith .arrow rest = true) :
    atArrow (ts ++ rest) = true := by
  cases h with
  | one s =>
    obtain ⟨c, rfl⟩ := tokens_eq_singleton hts
    exact hr
  | listed h =>
    obtain ⟨vs, rfl, hvs⟩ := Balanced.listed h fun part hp ↦ by
      obtain ⟨s, -, rfl⟩ := List.mem_map.mp hp
      exact .singleton (by simp) (by simp)
    obtain ⟨c, ts', rfl, h'⟩ := tokens_eq_cons hts
    obtain ⟨ts₁, ts₂, rfl, h₁, h₂⟩ := tokens_eq_append h'
    obtain ⟨c', rfl⟩ := tokens_eq_singleton h₂
    rw [List.cons_append, atArrow, List.append_assoc, hvs ts₁ _ _ h₁ (Nat.le_refl 1),
      List.singleton_append, closesBeforeArrow, if_pos (Nat.le_refl 1), hr]

end TokenParser

end TemplatedForms
