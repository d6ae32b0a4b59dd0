import TemplatedForms.Proofs.Entries
import TemplatedForms.Store.FileTree

namespace TemplatedForms.FileTree

theorem get?_put (new : FileTree) (path : List String) (t : FileTree) :
    (put new path t).get? path = some new := by
  induction path generalizing t with
  | nil => rfl
  | cons name path ih =>
    have hlookup (inner : FileTree) : List.lookup name (Entries.put name inner t.entries) = some inner := by
      have hput := Entries.get?_put name name inner t.entries
      rwa [if_pos rfl] at hput
    rw [put, get?, hlookup]
    exact ih _

theorem get?_directory_cons (entries : List (String × FileTree)) (name : String) (path : List String) :
    (directory entries).get? (name :: path) = (Entries.get? name entries).bind (·.get? path) := by
  rw [get?, Entries.get?]
  cases List.lookup name entries <;> rfl

theorem get?_append (t : FileTree) (front path : List String) :
    t.get? (front ++ path) = (t.get? front).bind (·.get? path) := by
  induction front generalizing t with
  | nil => rw [List.nil_append, get?, Option.bind_some]
  | cons name front ih =>
    cases t with
    | file text => rfl
    | directory entries =>
      rw [List.cons_append, get?_directory_cons, get?_directory_cons, Option.bind_assoc]
      exact congrArg _ (funext fun inner ↦ ih inner)

theorem exists_of_get?_cons {t found : FileTree} {name : String} {path : List String}
    (h : t.get? (name :: path) = some found) :
    ∃ entries inner, t = .directory entries ∧ Entries.get? name entries = some inner ∧
      inner.get? path = some found := by
  cases t with
  | file text => cases h
  | directory entries =>
    rw [get?_directory_cons, Option.bind_eq_some_iff] at h
    obtain ⟨inner, hinner, hfound⟩ := h
    exact ⟨entries, inner, rfl, hinner, hfound⟩

theorem get?_put_file {t : FileTree} {place : List String} {old : String}
    (h : t.get? place = some (.file old)) (new : String) {q : List String} (hq : q ≠ place) :
    (put (.file new) place t).get? q = t.get? q ∨
      isDirectory (t.get? q) = true ∧ isDirectory ((put (.file new) place t).get? q) = true := by
  induction place generalizing t q with
  | nil =>
    cases h
    cases q with
    | nil => exact absurd rfl hq
    | cons n q => exact .inl rfl
  | cons name place ih =>
    obtain ⟨entries, inner, rfl, hinner, hplace⟩ := exists_of_get?_cons h
    cases q with
    | nil => exact .inr ⟨rfl, rfl⟩
    | cons n q =>
      rw [put, FileTree.entries, hinner, Option.getD_some, get?_directory_cons, get?_directory_cons,
        Entries.get?_put]
      by_cases hn : n = name
      · subst hn
        rw [if_pos rfl, hinner]
        exact ih hplace fun heq ↦ hq (congrArg (n :: ·) heq)
      · rw [if_neg hn]
        exact .inl rfl

def text? (t : FileTree) (place : List String) : Option String :=
  match t.get? place with
  | some (.file text) => some text
  | _ => none

theorem text?_of_isDirectory {t : FileTree} {place : List String} (h : isDirectory (t.get? place) = true) :
    t.text? place = none := by
  unfold text?
  split
  · next s hs =>
    rw [hs] at h
    cases h
  · rfl

section

variable {t : FileTree} {place : List String} {old : String} (h : t.get? place = some (.file old))
  (new : String)

include h

theorem text?_put {q : List String} (hq : q ≠ place) : (put (.file new) place t).text? q = t.text? q := by
  rcases get?_put_file h new hq with heq | ⟨hbefore, hafter⟩
  · rw [text?, text?, heq]
  · rw [text?_of_isDirectory hbefore, text?_of_isDirectory hafter]

theorem isDirectory_put (q : List String) :
    isDirectory ((put (.file new) place t).get? q) = isDirectory (t.get? q) := by
  by_cases hq : q = place
  · rw [hq, get?_put, h]
    rfl
  · rcases get?_put_file h new hq with heq | ⟨hbefore, hafter⟩
    · rw [heq]
    · rw [hbefore, hafter]

end

theorem remove_of_get?_eq_none {t : FileTree} {path : List String} (h : t.get? path = none) :
    remove path t = t := by
  induction path generalizing t with
  | nil => rfl
  | cons name path ih =>
    cases t with
    | file text => cases path <;> rfl
    | directory entries =>
      rw [get?_directory_cons, Option.bind_eq_none_iff] at h
      cases path with
      | nil =>
        have hname : Entries.get? name entries = none := by
          refine Option.eq_none_iff_forall_ne_some.mpr fun inner hinner ↦ ?_
          cases h inner hinner
        rw [remove, Entries.erase_of_get?_eq_none hname]
      | cons n path =>
        rw [remove]
        · cases hname : Entries.get? name entries with
          | none => rfl
          | some inner =>
            dsimp only
            rw [ih (h inner hname), Entries.put_of_get? hname]
        · exact List.cons_ne_nil n path

/-- A file can have the name: it does not lead to another place. -/
def IsName (name : String) : Prop := name ≠ "" ∧ '/' ∉ name.toList ∧ name ≠ "." ∧ name ≠ ".."

instance (name : String) : Decidable (IsName name) := inferInstanceAs (Decidable (_ ∧ _))

inductive WellFormed : FileTree → Prop
  | file (text : String) : WellFormed (.file text)
  | directory {entries : List (String × FileTree)} : Entries.Distinct entries →
      (∀ e ∈ entries, IsName e.1) → (∀ e ∈ entries, WellFormed e.2) → WellFormed (.directory entries)

theorem WellFormed.get? {t found : FileTree} (h : t.WellFormed) {path : List String}
    (hfound : t.get? path = some found) : found.WellFormed := by
  induction path generalizing t with
  | nil =>
    cases hfound
    exact h
  | cons name path ih =>
    obtain ⟨entries, inner, rfl, hinner, hpath⟩ := exists_of_get?_cons hfound
    cases h with
    | directory _ _ hinside =>
      obtain ⟨e, he, rfl⟩ := Entries.mem_of_get? hinner
      exact ih (hinside e he) hpath

end TemplatedForms.FileTree
