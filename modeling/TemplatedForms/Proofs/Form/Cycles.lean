import Mathlib.Data.List.Chain
import Mathlib.Data.List.Nodup
import Mathlib.Data.List.Perm.Subperm
import Mathlib.Logic.Relation
import TemplatedForms.Form.Validation
import TemplatedForms.Proofs.Entries
import TemplatedForms.Proofs.Form.References

namespace TemplatedForms

open Relation (TransGen ReflTransGen)

namespace Graph

variable {g : Graph} {path ns : List String} {s s' : Search}

def Edge (g : Graph) (a b : String) : Prop := b ∈ g.links a

def Ends (g : Graph) (n : String) : Prop := Acc (fun b a ↦ g.Edge a b) n

/-- A path along edges back to the node where it starts, with no other node twice on it. -/
def IsCycle (g : Graph) (cycle : List String) : Prop :=
  ∃ n ns, cycle = n :: ns ++ [n] ∧ (n :: ns).Nodup ∧ cycle.IsChain g.Edge

/-- What the search comes to from some nodes, one after the other, at the end of a path. -/
inductive Visits (g : Graph) : List String → List String → Search → Search → Prop
  | done (path : List String) (s : Search) : Visits g path [] s s
  | finished {path : List String} {n : String} {ns : List String} {s s' : Search} :
      n ∈ s.finished → Visits g path ns s s' → Visits g path (n :: ns) s s'
  | cycle {path : List String} {n : String} {ns : List String} {s s' : Search} :
      n ∉ s.finished → n ∈ path →
      Visits g path ns { s with cycles := s.cycles ++ [cycleOf n path] } s' →
      Visits g path (n :: ns) s s'
  | follow {path : List String} {n : String} {ns : List String} {s t s' : Search} :
      n ∉ s.finished → n ∉ path → Visits g (n :: path) (g.links n) s t →
      Visits g path ns { t with finished := n :: t.finished } s' → Visits g path (n :: ns) s s'

theorem Visits.unique {t t' : Search} (h : g.Visits path ns s t) (h' : g.Visits path ns s t') : t = t' := by
  induction h generalizing t' with
  | done path s =>
    cases h'
    rfl
  | finished hf _ ih =>
    cases h' with
    | finished _ h' => exact ih h'
    | cycle hf' => exact absurd hf hf'
    | follow hf' => exact absurd hf hf'
  | cycle hf hp _ ih =>
    cases h' with
    | finished hf' => exact absurd hf' hf
    | cycle _ _ h' => exact ih h'
    | follow _ hp' => exact absurd hp hp'
  | follow hf hp _ _ ihin ih =>
    cases h' with
    | finished hf' => exact absurd hf' hf
    | cycle _ hp' => exact absurd hp' hp
    | follow _ _ hin h' =>
      cases ihin hin
      exact ih h'

theorem isCycle_cycleOf {n : String} (hd : path.Nodup) (hn : n ∈ path)
    (hc : (n :: path).IsChain fun b a ↦ g.Edge a b) : g.IsCycle (cycleOf n path) := by
  obtain ⟨front, back, rfl, hfront⟩ := List.eq_append_cons_of_mem hn
  have htake : (front ++ n :: back).takeWhile (· != n) = front := by
    rw [List.takeWhile_append_of_pos, List.takeWhile_cons_of_neg (by simp), List.append_nil]
    intro m hm
    exact bne_iff_ne.mpr (ne_of_mem_of_not_mem hm hfront)
  have hback : (n :: front.reverse ++ [n]).reverse = n :: front ++ [n] := by simp
  refine ⟨n, front.reverse, by rw [cycleOf, htake], ?_, ?_⟩
  · rw [List.nodup_cons, List.mem_reverse, List.nodup_reverse]
    exact ⟨hfront, (List.nodup_append.mp hd).1⟩
  · -- the path is kept from its end, so its edges run the other way
    rw [cycleOf, htake, ← List.isChain_reverse, hback]
    apply hc.prefix
    exact ⟨back, by simp⟩

/-- The nodes of a path are kept from its end; each node that is visited there continues it. -/
theorem Visits.sound (h : g.Visits path ns s s') (hd : path.Nodup)
    (hc : ∀ n ∈ ns, (n :: path).IsChain fun b a ↦ g.Edge a b)
    (hs : ∀ cycle ∈ s.cycles, g.IsCycle cycle) :
    ∀ cycle ∈ s'.cycles, g.IsCycle cycle := by
  induction h with
  | done => exact hs
  | finished _ _ ih => exact ih hd (List.forall_mem_cons.mp hc).2 hs
  | cycle _ hp _ ih =>
    obtain ⟨hn, hrest⟩ := List.forall_mem_cons.mp hc
    apply ih hd hrest
    intro cycle hcycle
    obtain hcycle | hcycle := List.mem_append.mp hcycle
    · exact hs cycle hcycle
    · rw [List.mem_singleton.mp hcycle]
      exact isCycle_cycleOf hd hp hn
  | follow _ hp _ _ ihin ih =>
    obtain ⟨hn, hrest⟩ := List.forall_mem_cons.mp hc
    apply ih hd hrest
    apply ihin (List.nodup_cons.mpr ⟨hp, hd⟩) _ hs
    intro m hm
    exact List.isChain_cons_cons.mpr ⟨hm, hn⟩

theorem Visits.cycles_prefix (h : g.Visits path ns s s') : s.cycles <+: s'.cycles := by
  induction h with
  | done => exact List.prefix_rfl
  | finished _ _ ih => exact ih
  | cycle _ _ _ ih => exact (List.prefix_append _ _).trans ih
  | follow _ _ _ _ ihin ih => exact ihin.trans ih

theorem Visits.finished_subset (h : g.Visits path ns s s') : s.finished ⊆ s'.finished := by
  induction h with
  | done => exact List.Subset.refl _
  | finished _ _ ih => exact ih
  | cycle _ _ _ ih => exact ih
  | follow _ _ _ _ ihin ih => exact fun n hn ↦ ih (List.mem_cons_of_mem _ (ihin hn))

/-- As long as nothing is reported, a node is finished only when all paths from it come to an end: a
finished node that is left out hides no cycle. -/
theorem Visits.ends (h : g.Visits path ns s s') (hnone : s'.cycles = [])
    (hs : ∀ n ∈ s.finished, g.Ends n) : (∀ n ∈ s'.finished, g.Ends n) ∧ ns ⊆ s'.finished := by
  induction h with
  | done => exact ⟨hs, List.nil_subset _⟩
  | finished hf hrest ih =>
    obtain ⟨hends, hns⟩ := ih hnone hs
    exact ⟨hends, List.cons_subset.mpr ⟨hrest.finished_subset hf, hns⟩⟩
  | cycle _ _ hrest _ =>
    -- a report is never taken back
    have hprefix := hrest.cycles_prefix
    rw [hnone, List.prefix_nil] at hprefix
    simp at hprefix
  | @follow path n ns s t s' _ _ hin hrest ihin ih =>
    have hprefix : t.cycles <+: s'.cycles := hrest.cycles_prefix
    rw [hnone, List.prefix_nil] at hprefix
    obtain ⟨hfinished, hlinks⟩ := ihin hprefix hs
    have hn : g.Ends n := .intro n fun m hm ↦ hfinished m (hlinks hm)
    obtain ⟨hends, hns⟩ := ih hnone (List.forall_mem_cons.mpr ⟨hn, hfinished⟩)
    exact ⟨hends, List.cons_subset.mpr ⟨hrest.finished_subset List.mem_cons_self, hns⟩⟩

end Graph

namespace Form

variable {form : Form}

end Form

end TemplatedForms
