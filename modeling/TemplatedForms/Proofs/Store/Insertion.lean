import TemplatedForms.Proofs.Store.Memory

namespace TemplatedForms.MemoryStore

open TemplatedForms.Path

variable {m : MemoryStore}

/-- A folder can be put into the tree: it is in the store, or the folder that it lies in can be put there,
and that one is in the store or written as it is kept. -/
inductive Admits (m : MemoryStore) : String → Prop
  | stored {path : String} : m.folders.contains (ofFolder path) = true → Admits m path
  | new {path : String} :
      m.folders.contains (parent (ofFolder path)) = true ∨
        ofFolder (parent (ofFolder path)) = parent (ofFolder path) →
      Admits m (parent (ofFolder path)) → Admits m path

def Fits (m : MemoryStore) (path : String) : Prop :=
  (m.folders.contains (parent path) = true ∨ ofFolder (parent path) = parent path) ∧ m.Admits (parent path)

theorem admits_iff (m : MemoryStore) (path : String) :
    m.Admits path ↔ m.folders.contains (ofFolder path) = true ∨ m.Fits (ofFolder path) := by
  constructor
  · rintro (hstored | ⟨hfolder, hrest⟩)
    · exact .inl hstored
    · exact .inr ⟨hfolder, hrest⟩
  · rintro (hstored | ⟨hfolder, hrest⟩)
    · exact .stored hstored
    · exact .new hfolder hrest

theorem Grown.contains_iff {m' : MemoryStore} {folder : String} (h : m.Grown folder m') :
    m'.folders.contains folder = true ↔ m.folders.contains folder = true ∨ ofFolder folder = folder := by
  constructor
  · intro hcontains
    exact (h.only folder (Nat.le_refl _) hcontains).imp_right Eq.symm
  · rintro (hcontains | heq)
    · exact h.kept folder hcontains
    · rw [← heq]
      exact h.stored

theorem isTree_addChild_iff (ht : m.IsTree) {m' : MemoryStore} {path : String}
    (hgrown : m.Grown (parent path) m') (hpath : Relative path) (hne : path ≠ "") (base : Option String) :
    (m'.addChild (parent path) ⟨name path, base⟩).IsTree ↔ m'.IsTree := by
  constructor
  · intro htree
    refine ⟨fun p hp ↦ ?_, fun p hpne hp ↦ ?_⟩
    · rw [hgrown.documents] at hp
      exact hgrown.hangs p (ht.documents p hp)
    · cases hold : m.folders.contains p with
      | true => exact hgrown.hangs p (ht.folders p hpne hold)
      | false =>
        have hother : p ≠ path := by
          rintro rfl
          rw [hgrown.not_contains hne hold] at hp
          cases hp
        refine hangs_of_addChild base (hgrown.sound.relative p hp) hpath hother ?_
        refine htree.folders p hpne ?_
        rwa [contains_addChild]
  · intro htree
    refine ⟨fun p hp ↦ ?_, fun p hpne hp ↦ ?_⟩
    · rw [documents_addChild] at hp
      exact (htree.documents p hp).addChild _ _
    · rw [contains_addChild] at hp
      exact (htree.folders p hpne hp).addChild _ _

theorem isTree_insertFolder_iff (h : m.Sound) (ht : m.IsTree) (path : String) :
    (m.insertFolder path).IsTree ↔ m.Admits path := by
  refine insertFolder_induction (P := fun path m' ↦ m'.IsTree ↔ m.Admits path) h.root
    (fun path hstored ↦ ?_) (fun path hne hnew ih ↦ ?_) path
  · exact ⟨fun _ ↦ .stored hstored, fun _ ↦ ht⟩
  · have hgrown := grown_insertFolder h (parent (ofFolder path))
    have hfresh := hgrown.not_contains hne hnew
    rw [← contains_addChild _ (parent (ofFolder path)) ⟨name (ofFolder path), none⟩] at hfresh
    rw [isTree_addFolder_iff hne hfresh, isTree_addChild_iff ht hgrown (relative_ofFolder path) hne,
      hangs_addChild_iff hgrown.sound, hgrown.contains_iff, ih, admits_iff m path, hnew, Fits]
    simp [and_comm]

theorem relative_documentPath (path : String) : Relative (documentPath path) := by
  unfold documentPath
  split
  · next kept h => exact relative_of_ofDocument h
  · exact relative_trimSeparatorsStart path

theorem documentPath_ne_empty (path : String) : documentPath path ≠ "" := by
  unfold documentPath
  split
  · next kept h =>
    rintro rfl
    exact ofDocument_ne_empty h
  · next error h =>
    intro hempty
    rw [ofDocument_of_separators hempty] at h
    cases h

theorem Sound.insertDocument (h : m.Sound) (path : String) (data : Json) : (m.insertDocument path data).Sound := by
  have hsound := (grown_insertFolder h (parent (documentPath path))).sound.addChild (parent (documentPath path))
    ⟨name (documentPath path), some (baseName (documentPath path))⟩
  -- the documents have no part in it
  exact ⟨hsound.root, hsound.names, hsound.relative⟩

theorem isTree_insertDocument_iff (h : m.Sound) (ht : m.IsTree) (path : String) (data : Json) :
    (m.insertDocument path data).IsTree ↔ m.Fits (documentPath path) := by
  have hgrown := grown_insertFolder h (parent (documentPath path))
  unfold insertDocument
  rw [isTree_addDocument_iff, hangs_addChild_iff hgrown.sound, hgrown.contains_iff, Fits, and_comm,
    isTree_addChild_iff ht hgrown (relative_documentPath path) (documentPath_ne_empty path),
    isTree_insertFolder_iff h ht]

inductive Insertion
  | document (path : String) (data : Json)
  | folder (path : String)

def insert (m : MemoryStore) : Insertion → MemoryStore
  | .document path data => m.insertDocument path data
  | .folder path => m.insertFolder path

def ofInsertions (is : List Insertion) : MemoryStore := is.foldl insert empty

namespace Insertion

def path : Insertion → String
  | .document path _ => documentPath path
  | .folder path => ofFolder path

/-- The path can be put into the tree, or it is that of a folder in the store. -/
def FitsIn (m : MemoryStore) : Insertion → Prop
  | .document path _ => m.Fits (documentPath path)
  | .folder path => m.Admits path

end Insertion

def AllFit : MemoryStore → List Insertion → Prop
  | _, [] => True
  | m, i :: is => i.FitsIn m ∧ AllFit (m.insert i) is

theorem Sound.insert (h : m.Sound) (i : Insertion) : (m.insert i).Sound := by
  cases i with
  | document path data => exact h.insertDocument path data
  | folder path => exact (grown_insertFolder h path).sound

theorem isTree_insert_iff (h : m.Sound) (ht : m.IsTree) (i : Insertion) :
    (m.insert i).IsTree ↔ i.FitsIn m := by
  cases i with
  | document path data => exact isTree_insertDocument_iff h ht path data
  | folder path => exact isTree_insertFolder_iff h ht path

theorem Sound.foldl_insert (h : m.Sound) (is : List Insertion) : (is.foldl MemoryStore.insert m).Sound := by
  induction is generalizing m with
  | nil => exact h
  | cons i is ih => exact ih (h.insert i)

theorem isTree_foldl_insert_iff (h : m.Sound) (ht : m.IsTree) (is : List Insertion) :
    (∀ n, ((is.take n).foldl insert m).IsTree) ↔ m.AllFit is := by
  induction is generalizing m with
  | nil => exact ⟨fun _ ↦ trivial, fun _ n ↦ by rwa [List.take_nil]⟩
  | cons i is ih =>
    constructor
    · intro hall
      have hfirst := hall 1
      have hfits := (isTree_insert_iff h ht i).mp hfirst
      exact ⟨hfits, (ih (h.insert i) hfirst).mp fun n ↦ hall (n + 1)⟩
    · rintro ⟨hfits, hrest⟩ n
      have hfirst := (isTree_insert_iff h ht i).mpr hfits
      cases n with
      | zero => exact ht
      | succ n => exact (ih (h.insert i) hfirst).mpr hrest n

/-- The folders on the way to a path are written as they are kept. -/
def Plain (path : String) : Prop := ∀ folder last, path = folder ++ "/" ++ last → ofFolder folder = folder

theorem fits_of_plain (h : m.Sound) {path : String} (hpath : Plain path) : m.Fits path := by
  induction hn : path.length using Nat.strongRecOn generalizing path with
  | _ n ih =>
    rcases cases_last path with hname | ⟨folder, last, rfl, hlast⟩
    · rw [Fits, parent_of_notMem hname]
      exact ⟨.inl h.root, .stored h.root⟩
    · have hfolder := hpath folder last rfl
      have hfits : m.Fits folder := by
        refine ih folder.length ?_ ?_ rfl
        · rw [← hn, String.length_append, String.length_append]
          have hseparator : "/".length = 1 := rfl
          omega
        · rintro outer inner rfl
          refine hpath outer (inner ++ "/" ++ last) ?_
          simp only [String.append_assoc]
      rw [Fits, parent_join folder hlast, admits_iff, hfolder]
      exact ⟨.inr rfl, .inr hfits⟩

theorem allFit_of_plain (h : m.Sound) {is : List Insertion} (his : ∀ i ∈ is, Plain i.path) :
    m.AllFit is := by
  induction is generalizing m with
  | nil => trivial
  | cons i is ih =>
    obtain ⟨hi, his⟩ := List.forall_mem_cons.mp his
    refine ⟨?_, ih (h.insert i) his⟩
    have hfits := fits_of_plain h hi
    cases i with
    | document path data => exact hfits
    | folder path => exact (admits_iff m path).mpr (.inr hfits)

theorem document_eq_ok_iff {path : String} {d : Document} :
    m.toStore.document path = .ok d ↔
      ofDocument path = .ok d.path ∧ m.documents.contains d.path = true :=
  findDocument_eq_ok_iff (m.documents.contains ·)

theorem folder_eq_ok_iff {path : String} {f : Folder} :
    m.toStore.folder path = .ok f ↔ f.path = ofFolder path ∧ m.folders.contains f.path = true :=
  findFolder_eq_ok_iff (m.folders.contains ·)

theorem children_eq_ok_iff {f : Folder} {children : List Child} :
    m.toStore.children f = .ok children ↔ m.folders.get? f.path = some children := by
  unfold toStore
  dsimp only
  cases m.folders.get? f.path <;> simp

/-- The store is a tree after each step of a run of insertions, exactly when each insertion fits when its turn
comes; all insertions do if the folders on the way to each path are written as they are kept. In a tree a
document that is found is listed by its folder, and no folder ever lists two entries of one name. -/
theorem insertions_build_tree_iff (is : List Insertion) :
    ((∀ n, (ofInsertions (is.take n)).IsTree) ↔ empty.AllFit is) ∧
    ((∀ i ∈ is, Plain i.path) → empty.AllFit is) ∧
    ((ofInsertions is).IsTree → ∀ path d, (ofInsertions is).toStore.document path = .ok d →
      ∃ children, (ofInsertions is).toStore.children ⟨parent d.path⟩ = .ok children ∧
        listings (name d.path) children = 1) ∧
    ∀ f children, (ofInsertions is).toStore.children f = .ok children → (children.map (·.name)).Nodup := by
  refine ⟨isTree_foldl_insert_iff sound_empty isTree_empty is, allFit_of_plain sound_empty,
    fun ht path d hd ↦ ?_, fun f children hchildren ↦ ?_⟩
  · obtain ⟨-, hstored⟩ := document_eq_ok_iff.mp hd
    obtain ⟨children, hchildren, hlisted⟩ := ht.documents d.path hstored
    exact ⟨children, children_eq_ok_iff.mpr hchildren, hlisted⟩
  · have hsound : (ofInsertions is).Sound := sound_empty.foldl_insert is
    exact hsound.names f.path children (children_eq_ok_iff.mp hchildren)

/-- The document is found, but its folder is kept as `a` and looked for as `a/`. -/
theorem doubled_separator_hides_document :
    (empty.insertDocument "a//b.md" (.object [])).toStore.document "a//b.md" = .ok ⟨"a//b.md"⟩ ∧
      (empty.insertDocument "a//b.md" (.object [])).folders = [("", [⟨"a", none⟩]), ("a", [])] ∧
      ¬ (empty.insertDocument "a//b.md" (.object [])).IsTree := by
  refine ⟨rfl, rfl, fun ht ↦ ?_⟩
  obtain ⟨children, hchildren, -⟩ := ht.documents "a//b.md" rfl
  cases hchildren

end TemplatedForms.MemoryStore
