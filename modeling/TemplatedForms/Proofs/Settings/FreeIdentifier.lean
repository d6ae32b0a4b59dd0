import Mathlib.Order.Bounds.Basic
import TemplatedForms.Proofs.Settings.Operation

namespace TemplatedForms

/-- A search for an identifier that is not taken, from one time on to another one, with the number of times
that are passed because theirs is taken. -/
inductive Search (taken : List String) (title : String) : Nat → UInt64 → UInt64 → Prop
  | stop {t : UInt64} : formId title t ∉ taken → Search taken title 0 t t
  | next {n : Nat} {t m : UInt64} :
      formId title t ∈ taken → Search taken title n (t + 1) m → Search taken title (n + 1) t m

variable {taken : List String} {title : String} {time m : UInt64} {n : Nat}

theorem Search.freeId_eq (h : Search taken title n time m) {tries : Nat} (hn : n ≤ tries) :
    freeId taken title tries time = formId title m := by
  induction h generalizing tries with
  | stop hfree =>
    cases tries with
    | zero => rfl
    | succ tries => rw [freeId, if_neg (by simpa using hfree)]
  | next htaken _ ih =>
    cases tries with
    | zero => omega
    | succ tries => rw [freeId, if_pos (by simpa using htaken), ih (Nat.le_of_succ_le_succ hn)]

theorem toNat_add_of_lt {s t : UInt64} (h : s.toNat + t.toNat < 2 ^ 64) : (s + t).toNat = s.toNat + t.toNat := by
  rw [UInt64.toNat_add, Nat.mod_eq_of_lt h]

theorem exists_search {t : UInt64} (hle : time ≤ t) (hfree : formId title t ∉ taken) :
    ∃ n m, Search taken title n time m ∧ m.toNat = time.toNat + n ∧
      IsLeast {t | time ≤ t ∧ formId title t ∉ taken} m := by
  -- on how far the time is away
  induction hk : t.toNat - time.toNat generalizing time with
  | zero =>
    rw [UInt64.le_iff_toNat_le] at hle
    obtain rfl : time = t := UInt64.toNat_inj.mp (by omega)
    exact ⟨0, time, .stop hfree, rfl, ⟨UInt64.le_refl time, hfree⟩, fun s hs ↦ hs.1⟩
  | succ k ih =>
    by_cases htime : formId title time ∈ taken
    · have hlt : t.toNat < 2 ^ 64 := t.toNat_lt
      have hnext : (time + 1).toNat = time.toNat + 1 := toNat_add_of_lt (by rw [UInt64.toNat_one]; omega)
      have hle' : time + 1 ≤ t := UInt64.le_iff_toNat_le.mpr (by omega)
      obtain ⟨n, m, hsearch, hm, hmem, hleast⟩ := ih hle' (by omega)
      have hbefore : time ≤ m := UInt64.le_iff_toNat_le.mpr (by omega)
      refine ⟨n + 1, m, .next htime hsearch, by omega, ⟨hbefore, hmem.2⟩, fun s hs ↦ hleast ⟨?_, hs.2⟩⟩
      have hne : time.toNat ≠ s.toNat := by
        intro heq
        rw [UInt64.toNat_inj.mp heq] at htime
        exact hs.2 htime
      have hsle : time.toNat ≤ s.toNat := UInt64.le_iff_toNat_le.mp hs.1
      exact UInt64.le_iff_toNat_le.mpr (by omega)
    · exact ⟨0, time, .stop htime, rfl, ⟨UInt64.le_refl time, htime⟩, fun s hs ↦ hs.1⟩

theorem exists_short_search (title : String) (h : time.toNat + taken.length < 2 ^ 64) :
    ∃ n ≤ taken.length, ∃ m, Search taken title n time m ∧ m.toNat = time.toNat + n ∧
      IsLeast {t | time ≤ t ∧ formId title t ∉ taken} m := by
  obtain ⟨k, hk, hfree⟩ := exists_notMem_of_small taken title time h
  have hsmall : (UInt64.ofNat k).toNat = k := UInt64.toNat_ofNat_of_lt' (by rw [UInt64.size]; omega)
  have hsum : (time + UInt64.ofNat k).toNat = time.toNat + (UInt64.ofNat k).toNat := toNat_add_of_lt (by omega)
  have hle : time ≤ time + UInt64.ofNat k := UInt64.le_iff_toNat_le.mpr (by omega)
  obtain ⟨n, m, hsearch, hm, hleast⟩ := exists_search hle hfree
  have hbound := UInt64.le_iff_toNat_le.mp (hleast.2 ⟨hle, hfree⟩)
  exact ⟨n, by omega, m, hsearch, hm, hleast⟩

namespace Settings

/-- A form without problems is stored under the first identifier from its time on that no form has. The search
for it goes on from each time to the next one and ends, having passed no more times than there are stored forms.
Times are written in base 36 without zeros in front, and read back as themselves. -/
theorem create_takes_first_free_time (s : Settings) (form : Form) (time : UInt64) (hform : form.problems = [])
    (h : time.toNat + s.records.length < 2 ^ 64) :
    (∃ n ≤ s.records.length, ∃ m, Search s.ids form.title n time m ∧
      IsLeast {t | time ≤ t ∧ formId form.title t ∉ s.ids} m ∧ m.toNat ≤ time.toNat + s.records.length ∧
      s.create form time =
        .ok (formId form.title m, ⟨⟨formId form.title m, true, form⟩ :: s.records⟩)) ∧
    (∀ t : UInt64, Number.Writes 36 t.toNat (Number.inRadix 36 t.toNat).toList) ∧
    Function.Injective fun t : UInt64 ↦ Number.inRadix 36 t.toNat := by
  have hlength : s.ids.length = s.records.length := List.length_map _
  have hsmall : time.toNat + s.ids.length < 2 ^ 64 := hlength ▸ h
  obtain ⟨n, hn, m, hsearch, hm, hleast⟩ := exists_short_search form.title hsmall
  refine ⟨⟨n, by omega, m, hsearch, hleast, by omega, ?_⟩, fun t ↦ ?_, fun t t' heq ↦ ?_⟩
  · rw [create, check_eq, if_pos hform, hsearch.freeId_eq (by omega)]
    rfl
  · exact Number.inRadix_writes (by decide) (by decide) t.toNat
  · exact UInt64.toNat_inj.mp (Number.inRadix_injective (by decide) (by decide) heq)

/-- Two forms have the same identifier, and a third one has the next. -/
theorem create_takes_first_free_time_behind_three_forms :
    let form : Form := ⟨"Same", "a/", "Submit", [Field.new "A" "a" .text]⟩
    let s : Settings := ⟨[⟨"Same-a", true, form⟩, ⟨"Same-b", true, form⟩, ⟨"Same-a", false, form⟩]⟩
    form.problems = [] ∧ (10 : UInt64).toNat + s.records.length < 2 ^ 64 ∧
      (s.create form 10).map (·.1) = .ok "Same-c" ∧
      ∃ n ≤ s.records.length, ∃ m, Search s.ids form.title n 10 m ∧
        IsLeast {t | 10 ≤ t ∧ formId form.title t ∉ s.ids} m ∧ m.toNat ≤ 10 + s.records.length ∧
        s.create form 10 = .ok (formId form.title m, ⟨⟨formId form.title m, true, form⟩ :: s.records⟩) := by
  intro form s
  have hform : form.problems = [] := by decide +kernel
  have hsmall : (10 : UInt64).toNat + s.records.length < 2 ^ 64 := by decide
  have hid : (s.create form 10).map (·.1) = .ok "Same-c" := by decide +kernel
  obtain ⟨hcreate, -⟩ := create_takes_first_free_time s form 10 hform hsmall
  exact ⟨hform, hsmall, hid, hcreate⟩

end Settings

end TemplatedForms
