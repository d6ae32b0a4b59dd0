import Mathlib.Algebra.Group.Nat.Defs
import Mathlib.Data.List.Nodup
import Mathlib.Data.List.Perm.Subperm
import TemplatedForms.Proofs.Number.Radix
import TemplatedForms.Settings

namespace TemplatedForms

theorem formId_injective {title : String} {s t : UInt64} (h : formId title s = formId title t) : s = t :=
  UInt64.toNat_inj.mp (Number.inRadix_injective (by decide) (by decide) ((String.append_right_inj _).mp h))

theorem taken_of_freeId_mem {taken : List String} {title : String} {tries : Nat} {time : UInt64}
    (h : freeId taken title tries time ∈ taken) {n : Nat} (hn : n ≤ tries) :
    formId title (time + UInt64.ofNat n) ∈ taken := by
  induction tries generalizing time n with
  | zero =>
    obtain rfl : n = 0 := by omega
    simpa [freeId] using h
  | succ tries ih =>
    rw [freeId] at h
    split at h
    · next htaken =>
      cases n with
      | zero => simpa using htaken
      | succ n =>
        have hlater := ih h (Nat.le_of_succ_le_succ hn)
        rwa [UInt64.add_assoc, UInt64.add_comm 1, ← UInt64.ofNat_one, ← UInt64.ofNat_add] at hlater
    · next hfree => exact absurd (List.contains_iff_mem.mpr h) hfree

theorem exists_notMem_of_small (taken : List String) (title : String) (time : UInt64)
    (h : time.toNat + taken.length < 2 ^ 64) :
    ∃ n ≤ taken.length, formId title (time + UInt64.ofNat n) ∉ taken := by
  by_contra! hall
  let tried := (List.range (taken.length + 1)).map fun n ↦ formId title (time + UInt64.ofNat n)
  have hnodup : tried.Nodup := by
    refine List.Nodup.map_on (fun m hm n hn heq ↦ ?_) List.nodup_range
    have hsum := congrArg UInt64.toNat (formId_injective heq)
    rw [List.mem_range] at hm hn
    simp only [UInt64.toNat_add, UInt64.toNat_ofNat'] at hsum
    omega
  have hsubset : tried ⊆ taken := by
    intro id hid
    obtain ⟨n, hn, rfl⟩ := List.mem_map.mp hid
    exact hall n (Nat.le_of_lt_succ (List.mem_range.mp hn))
  have hle := (hnodup.subperm hsubset).length_le
  simp only [tried, List.length_map, List.length_range] at hle
  omega

theorem freeId_notMem {taken : List String} {title : String} {time : UInt64}
    (h : ∃ t, time ≤ t ∧ formId title t ∉ taken) : freeId taken title taken.length time ∉ taken := by
  obtain ⟨t, hle, ht⟩ := h
  intro hmem
  have htried (n : Nat) (hn : n ≤ taken.length) := taken_of_freeId_mem hmem hn
  have hle' : time.toNat ≤ t.toNat := UInt64.le_iff_toNat_le.mp hle
  have hlt : t.toNat < 2 ^ 64 := t.toNat_lt
  rcases Nat.lt_or_ge taken.length (t.toNat - time.toNat) with hn | hn
  · obtain ⟨n, hn, hfree⟩ := exists_notMem_of_small taken title time (by omega)
    exact hfree (htried n hn)
  · have ht' : time + UInt64.ofNat (t.toNat - time.toNat) = t := by
      apply UInt64.toNat_inj.mp
      simp only [UInt64.toNat_add, UInt64.toNat_ofNat']
      omega
    exact ht (ht' ▸ htried _ hn)

namespace Settings

inductive Operation
  | create (form : Form) (time : UInt64)
  | update (id : String) (form : Form)
  | toggle (id : String)
  | delete (id : String)

inductive Answer
  | created (id : String)
  | updated
  | switched (active : Bool)
  | removed (r : FormRecord)

def perform (s : Settings) : Operation → Except SettingsError (Answer × Settings)
  | .create form time => (s.create form time).map fun (id, s) ↦ (.created id, s)
  | .update id form => (s.update id form).map fun s ↦ (.updated, s)
  | .toggle id => (s.toggle id).map fun (active, s) ↦ (.switched active, s)
  | .delete id => (s.delete id).map fun (r, s) ↦ (.removed r, s)

def after (s : Settings) (op : Operation) : Settings :=
  match s.perform op with
  | .ok (_, s') => s'
  | .error _ => s

def run (s : Settings) (ops : List Operation) : Settings := ops.foldl after s

/-- Why an operation cannot be done, if it cannot: a form with problems, or an identifier that no form
has. -/
def refusal? (s : Settings) : Operation → Option SettingsError
  | .create form _ => if form.problems = [] then none else some (.invalidForm form.title form.problems)
  | .update id form =>
    if form.problems ≠ [] then some (.invalidForm form.title form.problems)
    else if id ∈ s.ids then none else some (.formNotFound id)
  | .toggle id | .delete id => if id ∈ s.ids then none else some (.formNotFound id)

/-- What an operation that can be done changes: a new form goes in front, a form is replaced, switched or
removed in its place, and everything else stays. -/
inductive Changes (s : Settings) : Operation → Answer → Settings → Prop
  | create {form : Form} {time : UInt64} {id : String} (hform : form.problems = []) (hid : id ∉ s.ids) :
      Changes s (.create form time) (.created id) ⟨⟨id, true, form⟩ :: s.records⟩
  | update {before after : List FormRecord} {r : FormRecord} {form : Form} (hform : form.problems = [])
      (hs : s.records = before ++ r :: after) :
      Changes s (.update r.id form) .updated ⟨before ++ { r with form } :: after⟩
  | toggle {before after : List FormRecord} {r : FormRecord} (hs : s.records = before ++ r :: after) :
      Changes s (.toggle r.id) (.switched !r.active) ⟨before ++ { r with active := !r.active } :: after⟩
  | delete {before after : List FormRecord} {r : FormRecord} (hs : s.records = before ++ r :: after) :
      Changes s (.delete r.id) (.removed r) ⟨before ++ after⟩

/-- The search for an identifier ends before the times do. -/
def InTime (s : Settings) : Operation → Prop
  | .create form time => form.problems = [] → ∃ t, time ≤ t ∧ formId form.title t ∉ s.ids
  | _ => True

def AllInTime : Settings → List Operation → Prop
  | _, [] => True
  | s, op :: ops => s.InTime op ∧ AllInTime (s.after op) ops

theorem change_append {id : String} {before after : List FormRecord} {r : FormRecord}
    (hb : ∀ r' ∈ before, r'.id ≠ id) (hr : r.id = id) (f : FormRecord → FormRecord) :
    change id f (before ++ r :: after) = before ++ f r :: after := by
  induction before with
  | nil => simp [change, hr]
  | cons r' before ih =>
    obtain ⟨hne, hb⟩ := List.forall_mem_cons.mp hb
    simp [change, hne, ih hb]

theorem eraseP_append {id : String} {before after : List FormRecord} {r : FormRecord}
    (hb : ∀ r' ∈ before, r'.id ≠ id) (hr : r.id = id) :
    (before ++ r :: after).eraseP (·.id == id) = before ++ after := by
  rw [List.eraseP_append_right _ (by simpa using hb)]
  simp [hr]

theorem exists_first {s : Settings} {id : String} (h : id ∈ s.ids) :
    ∃ before r after, s.records = before ++ r :: after ∧ r.id = id ∧ (∀ r' ∈ before, r'.id ≠ id) ∧
      s.get id = .ok r := by
  obtain ⟨r, hr⟩ : ∃ r, s.records.find? (·.id == id) = some r := by
    rw [← Option.isSome_iff_exists, List.find?_isSome]
    obtain ⟨r, hr, rfl⟩ := List.mem_map.mp h
    exact ⟨r, hr, beq_self_eq_true r.id⟩
  obtain ⟨hid, before, after, hs, hb⟩ := List.find?_eq_some_iff_append.mp hr
  refine ⟨before, r, after, hs, beq_iff_eq.mp hid, fun r' hr' ↦ ?_, by rw [get, hr, Option.elim_some]⟩
  simpa using hb r' hr'

theorem get_of_notMem {s : Settings} {id : String} (h : id ∉ s.ids) : s.get id = .error (.formNotFound id) := by
  have hnone : s.records.find? (·.id == id) = none := by
    refine List.find?_eq_none.mpr fun r hr hid ↦ h ?_
    exact List.mem_map.mpr ⟨r, hr, beq_iff_eq.mp hid⟩
  rw [get, hnone, Option.elim_none]

theorem check_eq (form : Form) :
    check form =
      if form.problems = [] then .ok () else .error (.invalidForm form.title form.problems) := by
  simp only [check, List.isEmpty_iff]

section

variable {s : Settings}

def Settled (s : Settings) (op : Operation) : Prop :=
  match s.refusal? op with
  | some e => s.perform op = .error e
  | none => ∃ answer s', s.perform op = .ok (answer, s') ∧ Changes s op answer s'

theorem settled_create {form : Form} {time : UInt64} (h : s.InTime (.create form time)) :
    s.Settled (.create form time) := by
  rw [Settled, refusal?, perform, create, check_eq]
  by_cases hform : form.problems = []
  · simp only [if_pos hform]
    refine ⟨_, _, rfl, .create hform ?_⟩
    have hfree := freeId_notMem (h hform)
    rwa [ids, List.length_map] at hfree
  · simp only [if_neg hform]
    rfl

theorem settled_update (id : String) (form : Form) : s.Settled (.update id form) := by
  rw [Settled, refusal?, perform, update, check_eq]
  by_cases hform : form.problems = []
  · by_cases hid : id ∈ s.ids
    · obtain ⟨before, r, after, hs, rfl, hb, hget⟩ := exists_first hid
      simp only [if_pos hform, if_neg (not_not_intro hform), if_pos hid, hget]
      refine ⟨_, _, rfl, ?_⟩
      rw [hs, change_append hb rfl]
      exact .update hform hs
    · simp only [if_pos hform, if_neg (not_not_intro hform), if_neg hid, get_of_notMem hid]
      rfl
  · simp only [if_neg hform, if_pos (show form.problems ≠ [] from hform)]
    rfl

theorem settled_toggle (id : String) : s.Settled (.toggle id) := by
  rw [Settled, refusal?, perform, toggle]
  by_cases hid : id ∈ s.ids
  · obtain ⟨before, r, after, hs, rfl, hb, hget⟩ := exists_first hid
    simp only [if_pos hid, hget]
    refine ⟨_, _, rfl, ?_⟩
    rw [hs, change_append hb rfl]
    exact .toggle hs
  · simp only [if_neg hid, get_of_notMem hid]
    rfl

theorem settled_delete (id : String) : s.Settled (.delete id) := by
  rw [Settled, refusal?, perform, delete]
  by_cases hid : id ∈ s.ids
  · obtain ⟨before, r, after, hs, rfl, hb, hget⟩ := exists_first hid
    simp only [if_pos hid, hget]
    refine ⟨_, _, rfl, ?_⟩
    rw [hs, eraseP_append hb rfl]
    exact .delete hs
  · simp only [if_neg hid, get_of_notMem hid]
    rfl

theorem settled {op : Operation} (h : s.InTime op) : s.Settled op := by
  cases op with
  | create form time => exact settled_create h
  | update id form => exact settled_update id form
  | toggle id => exact settled_toggle id
  | delete id => exact settled_delete id

theorem after_cases {op : Operation} (h : s.InTime op) :
    s.after op = s ∨ ∃ answer, Changes s op answer (s.after op) := by
  have hsettled := settled h
  rw [Settled] at hsettled
  split at hsettled
  · exact .inl (by rw [after, hsettled])
  · obtain ⟨answer, s', hperform, hchanges⟩ := hsettled
    exact .inr ⟨answer, by rwa [after, hperform]⟩

end

/-- No two forms have the same identifier, and all forms are without problems. -/
structure Consistent (s : Settings) : Prop where
  distinct : s.ids.Nodup
  valid : ∀ r ∈ s.records, r.form.problems = []

theorem consistent_empty : empty.Consistent := ⟨.nil, nofun⟩

theorem Changes.consistent {s s' : Settings} {op : Operation} {answer : Answer}
    (h : Changes s op answer s') (hs : s.Consistent) : s'.Consistent := by
  obtain ⟨hdistinct, hvalid⟩ := hs
  cases h with
  | create hform hid => exact ⟨List.nodup_cons.mpr ⟨hid, hdistinct⟩, List.forall_mem_cons.mpr ⟨hform, hvalid⟩⟩
  | update hform hs =>
    rw [ids, hs] at hdistinct
    rw [hs, List.forall_mem_append, List.forall_mem_cons] at hvalid
    refine ⟨by simpa [ids] using hdistinct, ?_⟩
    exact List.forall_mem_append.mpr ⟨hvalid.1, List.forall_mem_cons.mpr ⟨hform, hvalid.2.2⟩⟩
  | toggle hs =>
    rw [ids, hs] at hdistinct
    rw [hs, List.forall_mem_append, List.forall_mem_cons] at hvalid
    refine ⟨by simpa [ids] using hdistinct, ?_⟩
    exact List.forall_mem_append.mpr ⟨hvalid.1, List.forall_mem_cons.mpr hvalid.2⟩
  | delete hs =>
    rw [ids, hs] at hdistinct
    rw [hs, List.forall_mem_append, List.forall_mem_cons] at hvalid
    refine ⟨hdistinct.sublist (by simp [ids]), ?_⟩
    exact List.forall_mem_append.mpr ⟨hvalid.1, hvalid.2.2⟩

theorem Changes.length_le {s s' : Settings} {op : Operation} {answer : Answer} (h : Changes s op answer s') :
    s'.records.length ≤ s.records.length + 1 := by
  cases h with
  | create => exact Nat.le_refl _
  | update _ hs | toggle hs | delete hs =>
    simp only [hs, List.length_append, List.length_cons]
    omega

theorem consistent_after {s : Settings} {op : Operation} (h : s.InTime op) (hs : s.Consistent) :
    (s.after op).Consistent := by
  rcases after_cases h with heq | ⟨answer, hchanges⟩
  · rwa [heq]
  · exact hchanges.consistent hs

theorem consistent_run {s : Settings} {ops : List Operation} (h : s.AllInTime ops) (hs : s.Consistent) :
    (s.run ops).Consistent := by
  induction ops generalizing s with
  | nil => exact hs
  | cons op ops ih => exact ih h.2 (consistent_after h.1 hs)

theorem allInTime_of_small {s : Settings} {ops : List Operation}
    (h : ∀ form time, .create form time ∈ ops → time.toNat + s.records.length + ops.length ≤ 2 ^ 64) :
    s.AllInTime ops := by
  induction ops generalizing s with
  | nil => trivial
  | cons op ops ih =>
    have hop : s.InTime op := by
      cases op with
      | create form time =>
        have hsmall := h form time List.mem_cons_self
        rw [List.length_cons] at hsmall
        have hids : s.ids.length = s.records.length := List.length_map _
        obtain ⟨n, hn, hfree⟩ := exists_notMem_of_small s.ids form.title time (by omega)
        refine fun _ ↦ ⟨_, UInt64.le_iff_toNat_le.mpr ?_, hfree⟩
        simp only [UInt64.toNat_add, UInt64.toNat_ofNat']
        omega
      | update id form | toggle id | delete id => trivial
    refine ⟨hop, ih fun form time hmem ↦ ?_⟩
    have hsmall := h form time (List.mem_cons_of_mem op hmem)
    rw [List.length_cons] at hsmall
    rcases after_cases hop with heq | ⟨answer, hchanges⟩
    · rw [heq]
      omega
    · have hlength := hchanges.length_le
      omega

/-- After any operations on no forms at all, no two forms have the same identifier and all forms are without
problems. Whatever is done next is refused and changes nothing, or it changes what it is to change and
nothing else. -/
theorem operations_keep_settings_consistent (ops : List Operation) (h : empty.AllInTime ops) :
    let s := empty.run ops
    s.ids.Nodup ∧ (∀ r ∈ s.records, r.form.problems = []) ∧
    ∀ op, s.InTime op →
      (∀ e, s.refusal? op = some e → s.perform op = .error e ∧ s.after op = s) ∧
      (s.refusal? op = none → ∃ answer s',
        s.perform op = .ok (answer, s') ∧ s.after op = s' ∧ Changes s op answer s') := by
  intro s
  obtain ⟨hdistinct, hvalid⟩ := consistent_run h consistent_empty
  refine ⟨hdistinct, hvalid, fun op hop ↦ ?_⟩
  have hsettled := settled hop
  rw [Settled] at hsettled
  refine ⟨fun e he ↦ ?_, fun hnone ↦ ?_⟩
  · simp only [he] at hsettled
    exact ⟨hsettled, by rw [after, hsettled]⟩
  · simp only [hnone] at hsettled
    obtain ⟨answer, s', hperform, hchanges⟩ := hsettled
    exact ⟨answer, s', hperform, by rw [after, hperform], hchanges⟩

theorem operations_keep_settings_consistent_two_forms_of_a_time :
    let form : Form := ⟨"Same", "a/", "Submit", [Field.new "A" "a" .text]⟩
    let ops : List Operation := [.create form 10, .create form 10, .toggle "Same-a", .delete "Same-b"]
    let s := empty.run ops
    empty.AllInTime ops ∧ s.records = [⟨"Same-a", false, form⟩] ∧
      s.ids.Nodup ∧ (∀ r ∈ s.records, r.form.problems = []) ∧
      ∀ op, s.InTime op →
        (∀ e, s.refusal? op = some e → s.perform op = .error e ∧ s.after op = s) ∧
        (s.refusal? op = none → ∃ answer s',
          s.perform op = .ok (answer, s') ∧ s.after op = s' ∧ Changes s op answer s') := by
  intro form ops s
  have h : empty.AllInTime ops := by
    refine allInTime_of_small fun form' time hmem ↦ ?_
    obtain ⟨-, rfl⟩ : form' = form ∧ time = 10 := by simpa [ops] using hmem
    decide
  have hrecords : (empty.run ops).records = [⟨"Same-a", false, form⟩] := by
    decide +kernel
  exact ⟨h, hrecords, operations_keep_settings_consistent ops h⟩

end Settings

end TemplatedForms
