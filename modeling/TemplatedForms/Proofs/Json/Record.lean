import TemplatedForms.Json.Record
import TemplatedForms.Proofs.Json.Reading

namespace TemplatedForms.Json

theorem list?_map {α : Type} {write : α → Json} {item? : Json → Option α} (h : ∀ a, item? (write a) = some a)
    (as : List α) : list? item? (.array (as.map write)) = some as := by
  rw [list?]
  induction as with
  | nil => rfl
  | cons a as ih => simp [h, ih]

section Members

variable {α : Type} {key : String} {value? : Json → Option α} {members : List (String × Json)}

theorem find?_of_filter {j : Json} (h : members.filter (·.1 == key) = [(key, j)]) :
    find? key members = some (some j) := by
  rw [find?, h]

theorem required?_of_filter {j : Json} {a : α} (h : members.filter (·.1 == key) = [(key, j)])
    (hj : value? j = some a) : required? key value? members = some a := by
  rw [required?, find?_of_filter h]
  exact hj

theorem withDefault?_of_filter {default : α} {j : Json} {a : α} (h : members.filter (·.1 == key) = [(key, j)])
    (hj : value? j = some a) : withDefault? default key value? members = some a := by
  rw [withDefault?, find?_of_filter h]
  exact hj

theorem optional?_of_filter (write : α → Json) {value : Option α}
    (h : members.filter (·.1 == key) = member? key write value)
    (hj : ∀ a, orNull? value? (write a) = some (some a)) : optional? key value? members = some value := by
  rw [optional?]
  cases value with
  | none =>
    have hfind : find? key members = some none := by
      rw [find?, h]
      rfl
    rw [withDefault?, hfind]
    rfl
  | some a => exact withDefault?_of_filter h (hj a)

theorem mem_member? {write : α → Json} {value : Option α} {m : String × Json} :
    m ∈ member? key write value ↔ ∃ a ∈ value, m = (key, write a) := by
  cases value <;> simp [member?]

@[simp]
theorem filter_member? {write : α → Json} {value : Option α} (key' : String) :
    (member? key write value).filter (·.1 == key') = if key = key' then member? key write value else [] := by
  cases value <;> simp [member?, List.filter_cons]

end Members

/-- At most `depth` levels of brackets, and numbers that are read back. -/
structure Readable (depth : Nat) (j : Json) : Prop where
  depth_le : j.depth ≤ depth
  readsBack : ∀ n ∈ j.numbers, n.ReadsBack

namespace Readable

variable {depth : Nat}

theorem string (s : String) : Readable depth (.string s) := ⟨Nat.zero_le _, by simp [numbers]⟩

theorem bool (b : Bool) : Readable depth (.bool b) := ⟨Nat.zero_le _, by simp [numbers]⟩

theorem number {n : JsonNumber} (h : n.ReadsBack) : Readable depth (.number n) :=
  ⟨Nat.zero_le _, by simpa [numbers] using h⟩

theorem items {js : List Json} (h : ∀ j ∈ js, Readable depth j) :
    itemsDepth js ≤ depth ∧ ∀ n ∈ itemsNumbers js, n.ReadsBack := by
  induction js with
  | nil => simp [itemsDepth, itemsNumbers]
  | cons j js ih =>
    obtain ⟨hj, hjs⟩ := List.forall_mem_cons.mp h
    rw [itemsDepth, itemsNumbers]
    exact ⟨Nat.max_le.mpr ⟨hj.depth_le, (ih hjs).1⟩, List.forall_mem_append.mpr ⟨hj.readsBack, (ih hjs).2⟩⟩

theorem array {js : List Json} (h : ∀ j ∈ js, Readable depth j) : Readable (depth + 1) (.array js) :=
  ⟨Nat.succ_le_succ (items h).1, (items h).2⟩

theorem members {ms : List (String × Json)} (h : ∀ m ∈ ms, Readable depth m.2) :
    membersDepth ms ≤ depth ∧ ∀ n ∈ membersNumbers ms, n.ReadsBack := by
  induction ms with
  | nil => simp [membersDepth, membersNumbers]
  | cons m ms ih =>
    obtain ⟨hm, hms⟩ := List.forall_mem_cons.mp h
    rw [membersDepth, membersNumbers]
    exact ⟨Nat.max_le.mpr ⟨hm.depth_le, (ih hms).1⟩, List.forall_mem_append.mpr ⟨hm.readsBack, (ih hms).2⟩⟩

theorem object {ms : List (String × Json)} (h : ∀ m ∈ ms, Readable depth m.2) :
    Readable (depth + 1) (.object ms) :=
  ⟨Nat.succ_le_succ (members h).1, (members h).2⟩

theorem member? {α : Type} {key : String} {write : α → Json} {value : Option α}
    (h : ∀ a ∈ value, Readable depth (write a)) : ∀ m ∈ member? key write value, Readable depth m.2 := by
  intro m hm
  obtain ⟨a, ha, rfl⟩ := mem_member?.mp hm
  exact h a ha

theorem parse?_document {j : Json} (h : Readable depth j) (hd : depth ≤ nestingLimit) :
    parse? j.document = some j :=
  Json.parse?_document h.readsBack (h.depth_le.trans hd)

end Readable

end TemplatedForms.Json
