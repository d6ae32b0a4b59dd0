import Mathlib.Data.List.Nodup
import TemplatedForms.Proofs.Entries
import TemplatedForms.Proofs.Store.Path
import TemplatedForms.Store.Memory

namespace TemplatedForms.MemoryStore

open TemplatedForms.Path

theorem documents_addChild (m : MemoryStore) (folder : String) (child : Child) :
    (m.addChild folder child).documents = m.documents := by
  unfold addChild
  split
  · rfl
  · split <;> rfl

def withChild (child : Child) (children : List Child) : List Child :=
  if children.any (·.name == child.name) then children else children ++ [child]

theorem get?_addChild (m : MemoryStore) (folder : String) (child : Child) (k : String) :
    (m.addChild folder child).folders.get? k =
      if k = folder then (m.folders.get? folder).map (withChild child) else m.folders.get? k := by
  cases hfolder : m.folders.get? folder with
  | none =>
    simp only [addChild, hfolder, Option.map_none]
    split
    · next hk => rw [hk, hfolder]
    · rfl
  | some children =>
    simp only [addChild, hfolder, Option.map_some, withChild]
    split
    · split
      · next hk => rw [hk, hfolder]
      · rfl
    · exact Entries.get?_put k folder _ m.folders

theorem contains_addChild (m : MemoryStore) (folder : String) (child : Child) (k : String) :
    (m.addChild folder child).folders.contains k = m.folders.contains k := by
  rw [Entries.contains_eq_isSome, Entries.contains_eq_isSome, get?_addChild]
  split
  · next hk => rw [hk, Option.isSome_map]
  · rfl

theorem contains_addFolder (m : MemoryStore) (path k : String) :
    (m.addFolder path).folders.contains k = (decide (k = path) || m.folders.contains k) :=
  Entries.contains_put k path [] m.folders

def listings (name : String) (children : List Child) : Nat := children.countP (·.name == name)

theorem listings_le_one {children : List Child} (h : (children.map (·.name)).Nodup) (name : String) :
    listings name children ≤ 1 := by
  have hcount := List.nodup_iff_count_le_one.mp h name
  rwa [List.count, List.countP_map] at hcount

theorem listings_withChild_of_ne (child : Child) {name : String} (h : name ≠ child.name)
    (children : List Child) : listings name (withChild child children) = listings name children := by
  unfold withChild
  split
  · rfl
  · simp [listings, Ne.symm h]

theorem listings_withChild_self (child : Child) {children : List Child}
    (h : (children.map (·.name)).Nodup) : listings child.name (withChild child children) = 1 := by
  unfold withChild
  split
  · next hany =>
    have hpos : 0 < listings child.name children := by
      rw [listings, List.countP_pos_iff]
      exact List.any_eq_true.mp hany
    have hle := listings_le_one h child.name
    omega
  · next hnone =>
    have hzero : listings child.name children = 0 := by
      rw [listings, List.countP_eq_zero]
      exact fun c hc hname ↦ hnone (List.any_eq_true.mpr ⟨c, hc, hname⟩)
    rw [listings, List.countP_append, ← listings, hzero]
    simp

theorem listings_withChild {child : Child} {name : String} {children : List Child}
    (h : listings name children = 1) : listings name (withChild child children) = 1 := by
  by_cases hname : name = child.name
  · subst hname
    have hany : children.any (·.name == child.name) = true := by
      rw [List.any_eq_true]
      exact List.countP_pos_iff.mp (by rw [← listings, h]; exact Nat.one_pos)
    rw [withChild, if_pos hany, h]
  · rw [listings_withChild_of_ne child hname, h]

theorem nodup_withChild {child : Child} {children : List Child} (h : (children.map (·.name)).Nodup) :
    ((withChild child children).map (·.name)).Nodup := by
  unfold withChild
  split
  · exact h
  · next hnone =>
    rw [List.map_append, List.nodup_append]
    refine ⟨h, List.nodup_singleton _, ?_⟩
    rintro _ hname _ hchild rfl
    obtain ⟨c, hc, hcname⟩ := List.mem_map.mp hname
    rw [List.map_singleton, List.mem_singleton] at hchild
    exact hnone (List.any_eq_true.mpr ⟨c, hc, beq_iff_eq.mpr (hcname.trans hchild)⟩)

/-- The root is there, no folder lists two entries of one name, and the paths of folders do not start with
a separator. -/
structure Sound (m : MemoryStore) : Prop where
  root : m.folders.contains "" = true
  names : ∀ path children, m.folders.get? path = some children → (children.map (·.name)).Nodup
  relative : ∀ path, m.folders.contains path = true → Relative path

variable {m m' : MemoryStore}

theorem sound_empty : empty.Sound := by
  refine ⟨rfl, fun path children h ↦ ?_, fun path h ↦ ?_⟩
  · rw [empty, Entries.get?_cons] at h
    split at h
    · cases h
      exact List.nodup_nil
    · cases h
  · obtain rfl : "" = path := by simpa [empty, Entries.contains] using h
    decide

theorem Sound.addChild (h : m.Sound) (folder : String) (child : Child) : (m.addChild folder child).Sound := by
  refine ⟨?_, fun path children hget ↦ ?_, fun path hpath ↦ ?_⟩
  · rw [contains_addChild]
    exact h.root
  · rw [get?_addChild] at hget
    split at hget
    · obtain ⟨children, hchildren, rfl⟩ := Option.map_eq_some_iff.mp hget
      exact nodup_withChild (h.names folder children hchildren)
    · exact h.names path children hget
  · rw [contains_addChild] at hpath
    exact h.relative path hpath

theorem Sound.addFolder (h : m.Sound) {path : String} (hpath : Relative path) : (m.addFolder path).Sound := by
  refine ⟨?_, fun k children hget ↦ ?_, fun k hk ↦ ?_⟩
  · rw [contains_addFolder, h.root, Bool.or_true]
  · rw [MemoryStore.addFolder, Entries.get?_put] at hget
    split at hget
    · cases hget
      exact List.nodup_nil
    · exact h.names k children hget
  · rw [contains_addFolder, Bool.or_eq_true, decide_eq_true_eq] at hk
    rcases hk with rfl | hk
    · exact hpath
    · exact h.relative k hk

/-- The folder of a path is in the store and lists it once. -/
def Hangs (m : MemoryStore) (path : String) : Prop :=
  ∃ children, m.folders.get? (parent path) = some children ∧ listings (name path) children = 1

theorem Hangs.contains {path : String} (h : m.Hangs path) : m.folders.contains (parent path) = true := by
  obtain ⟨children, hchildren, -⟩ := h
  rw [Entries.contains_eq_isSome, hchildren, Option.isSome_some]

theorem Hangs.addChild {path : String} (h : m.Hangs path) (folder : String) (child : Child) :
    (m.addChild folder child).Hangs path := by
  obtain ⟨children, hchildren, hlisted⟩ := h
  rw [Hangs, get?_addChild]
  split
  · next hfolder =>
    rw [← hfolder, hchildren]
    exact ⟨_, rfl, listings_withChild hlisted⟩
  · exact ⟨children, hchildren, hlisted⟩

theorem hangs_of_addChild {path other : String} (base : Option String) (hpath : Relative path)
    (hother : Relative other) (hne : path ≠ other)
    (h : (m.addChild (parent other) ⟨name other, base⟩).Hangs path) : m.Hangs path := by
  obtain ⟨children, hchildren, hlisted⟩ := h
  rw [get?_addChild] at hchildren
  split at hchildren
  · next hparent =>
    obtain ⟨children, hget, rfl⟩ := Option.map_eq_some_iff.mp hchildren
    have hname : name path ≠ name other :=
      fun hname ↦ hne (eq_of_parent_of_name hpath hother hparent hname)
    rw [listings_withChild_of_ne ⟨name other, base⟩ hname] at hlisted
    exact ⟨children, hparent ▸ hget, hlisted⟩
  · exact ⟨children, hchildren, hlisted⟩

theorem hangs_addChild_iff (h : m.Sound) {path : String} {base : Option String} :
    (m.addChild (parent path) ⟨name path, base⟩).Hangs path ↔ m.folders.contains (parent path) = true := by
  constructor
  · intro hhangs
    rw [← contains_addChild m (parent path) ⟨name path, base⟩]
    exact hhangs.contains
  · intro hcontains
    rw [Entries.contains_eq_isSome, Option.isSome_iff_exists] at hcontains
    obtain ⟨children, hchildren⟩ := hcontains
    rw [Hangs, get?_addChild, if_pos rfl, hchildren]
    exact ⟨_, rfl, listings_withChild_self ⟨name path, base⟩ (h.names _ _ hchildren)⟩

theorem hangs_addFolder_iff {folder path : String} (h : m.folders.contains folder = false) :
    (m.addFolder folder).Hangs path ↔ m.Hangs path := by
  rw [Hangs, Hangs, MemoryStore.addFolder, Entries.get?_put]
  split
  · -- an empty folder lists nothing, and one that is not there does neither
    next hfolder =>
    have hnone : m.folders.get? folder = none := by
      rwa [Entries.contains_eq_isSome, Option.isSome_eq_false_iff, Option.isNone_iff_eq_none] at h
    rw [hfolder, hnone]
    simp [listings]
  · rfl

/-- All documents and all folders but the root hang in the tree. -/
structure IsTree (m : MemoryStore) : Prop where
  documents : ∀ path, m.documents.contains path = true → m.Hangs path
  folders : ∀ path, path ≠ "" → m.folders.contains path = true → m.Hangs path

theorem isTree_empty : empty.IsTree := by
  refine ⟨nofun, fun path hne h ↦ ?_⟩
  have hroot : "" = path := by simpa [empty, Entries.contains] using h
  exact absurd hroot.symm hne

theorem isTree_addFolder_iff {folder : String} (hne : folder ≠ "") (h : m.folders.contains folder = false) :
    (m.addFolder folder).IsTree ↔ m.IsTree ∧ m.Hangs folder := by
  constructor
  · intro ht
    refine ⟨⟨fun path hpath ↦ ?_, fun path hpath hcontains ↦ ?_⟩, ?_⟩
    · exact (hangs_addFolder_iff h).mp (ht.documents path hpath)
    · refine (hangs_addFolder_iff h).mp (ht.folders path hpath ?_)
      rw [contains_addFolder, hcontains, Bool.or_true]
    · refine (hangs_addFolder_iff h).mp (ht.folders folder hne ?_)
      rw [contains_addFolder, decide_eq_true rfl, Bool.true_or]
  · rintro ⟨ht, hfolder⟩
    refine ⟨fun path hpath ↦ ?_, fun path hpath hcontains ↦ ?_⟩
    · exact (hangs_addFolder_iff h).mpr (ht.documents path hpath)
    · rw [contains_addFolder, Bool.or_eq_true, decide_eq_true_eq] at hcontains
      rcases hcontains with rfl | hcontains
      · exact (hangs_addFolder_iff h).mpr hfolder
      · exact (hangs_addFolder_iff h).mpr (ht.folders path hpath hcontains)

theorem isTree_addDocument_iff (path : String) (data : Entries Json) :
    (m.addDocument path data).IsTree ↔ m.IsTree ∧ m.Hangs path := by
  have hcontains (k : String) : (m.addDocument path data).documents.contains k =
      (decide (k = path) || m.documents.contains k) := Entries.contains_put k path data m.documents
  constructor
  · intro ht
    refine ⟨⟨fun k hk ↦ ht.documents k ?_, ht.folders⟩, ht.documents path ?_⟩
    · rw [hcontains, hk, Bool.or_true]
    · rw [hcontains, decide_eq_true rfl, Bool.true_or]
  · rintro ⟨ht, hpath⟩
    refine ⟨fun k hk ↦ ?_, ht.folders⟩
    rw [hcontains, Bool.or_eq_true, decide_eq_true_eq] at hk
    rcases hk with rfl | hk
    · exact hpath
    · exact ht.documents k hk

theorem insertFolderWithin_eq (m : MemoryStore) {path : String} {n n' : Nat} (h : path.length < n)
    (h' : path.length < n') : insertFolderWithin n m path = insertFolderWithin n' m path := by
  induction n generalizing n' path with
  | zero => omega
  | succ n ih =>
    cases n' with
    | zero => omega
    | succ n' =>
      rw [insertFolderWithin, insertFolderWithin]
      by_cases hempty : ofFolder path = ""
      · simp [hempty]
      · have hparent := length_parent_lt hempty
        have hlength := length_ofFolder_le path
        have hsame : insertFolderWithin n m (parent (ofFolder path)) =
            insertFolderWithin n' m (parent (ofFolder path)) := ih (by omega) (by omega)
        rw [hsame]

theorem insertFolder_new (m : MemoryStore) {path : String} (hne : ofFolder path ≠ "")
    (h : m.folders.contains (ofFolder path) = false) :
    m.insertFolder path =
      ((m.insertFolder (parent (ofFolder path))).addChild (parent (ofFolder path))
        ⟨name (ofFolder path), none⟩).addFolder (ofFolder path) := by
  have hparent := length_parent_lt hne
  have hlength := length_ofFolder_le path
  have hsame : insertFolderWithin path.length m (parent (ofFolder path)) =
      m.insertFolder (parent (ofFolder path)) := insertFolderWithin_eq m (by omega) (by omega)
  rw [insertFolder, insertFolderWithin]
  simp only [h, Bool.false_eq_true, if_false, String.isEmpty_iff, hne, hsame]

theorem insertFolder_stored {path : String} (h : m.folders.contains (ofFolder path) = true) :
    m.insertFolder path = m := by
  rw [insertFolder, insertFolderWithin]
  simp only [h, if_true]

theorem insertFolder_induction (hroot : m.folders.contains "" = true) {P : String → MemoryStore → Prop}
    (stored : ∀ path, m.folders.contains (ofFolder path) = true → P path m)
    (new : ∀ path, ofFolder path ≠ "" → m.folders.contains (ofFolder path) = false →
      P (parent (ofFolder path)) (m.insertFolder (parent (ofFolder path))) →
      P path (((m.insertFolder (parent (ofFolder path))).addChild (parent (ofFolder path))
        ⟨name (ofFolder path), none⟩).addFolder (ofFolder path)))
    (path : String) : P path (m.insertFolder path) := by
  induction hn : path.length using Nat.strongRecOn generalizing path with
  | _ n ih =>
    cases hstored : m.folders.contains (ofFolder path) with
    | true =>
      rw [insertFolder_stored hstored]
      exact stored path hstored
    | false =>
      have hne : ofFolder path ≠ "" := by
        intro hempty
        rw [hempty, hroot] at hstored
        cases hstored
      have hparent := length_parent_lt hne
      have hlength := length_ofFolder_le path
      rw [insertFolder_new m hne hstored]
      exact new path hne hstored (ih _ (by omega) _ rfl)

structure Grown (m : MemoryStore) (path : String) (m' : MemoryStore) : Prop where
  sound : m'.Sound
  documents : m'.documents = m.documents
  hangs : ∀ p, m.Hangs p → m'.Hangs p
  kept : ∀ k, m.folders.contains k = true → m'.folders.contains k = true
  stored : m'.folders.contains (ofFolder path) = true
  only : ∀ k, path.length ≤ k.length → m'.folders.contains k = true →
    m.folders.contains k = true ∨ k = ofFolder path

theorem Grown.not_contains {path : String} (h : m.Grown (parent path) m') (hne : path ≠ "")
    (hnew : m.folders.contains path = false) : m'.folders.contains path = false := by
  have hlt := length_parent_lt hne
  refine Bool.eq_false_iff.mpr fun hcontains ↦ ?_
  rcases h.only path (Nat.le_of_lt hlt) hcontains with hold | heq
  · rw [hnew] at hold
    cases hold
  · have hle := length_ofFolder_le (parent path)
    rw [← heq] at hle
    omega

theorem grown_insertFolder (h : m.Sound) (path : String) : m.Grown path (m.insertFolder path) := by
  refine insertFolder_induction h.root (fun path hstored ↦ ?_) (fun path hne hnew ih ↦ ?_) path
  · exact ⟨h, rfl, fun _ hp ↦ hp, fun _ hk ↦ hk, hstored, fun _ _ hk ↦ .inl hk⟩
  · have hparent := length_parent_lt hne
    have hlength := length_ofFolder_le path
    have hfresh := ih.not_contains hne hnew
    refine ⟨(ih.sound.addChild _ _).addFolder (relative_ofFolder path), ?_, fun p hp ↦ ?_, fun k hk ↦ ?_, ?_,
      fun k hk hcontains ↦ ?_⟩
    · exact (documents_addChild _ _ _).trans ih.documents
    · rw [hangs_addFolder_iff (by rw [contains_addChild]; exact hfresh)]
      exact (ih.hangs p hp).addChild _ _
    · rw [contains_addFolder, contains_addChild, ih.kept k hk, Bool.or_true]
    · rw [contains_addFolder, decide_eq_true rfl, Bool.true_or]
    · rw [contains_addFolder, contains_addChild, Bool.or_eq_true, decide_eq_true_eq] at hcontains
      rcases hcontains with heq | hcontains
      · exact .inr heq
      · rcases ih.only k (by omega) hcontains with hold | heq
        · exact .inl hold
        · have hle := length_ofFolder_le (parent (ofFolder path))
          rw [← heq] at hle
          omega

end TemplatedForms.MemoryStore
