import TemplatedForms.Proofs.Resolution.WholeReference
import TemplatedForms.Proofs.Store.FileTree
import TemplatedForms.Proofs.Store.Insertion
import TemplatedForms.Store.Vault

namespace TemplatedForms

open TemplatedForms.Path

namespace Folder

def reference (f : Folder) : String := "%%" ++ f.path ++ "/%%"

def referenceBy (f : Folder) (className : String) : String := "%%" ++ f.path ++ "/$$." ++ className ++ "%%"

theorem reference_eq (f : Folder) : f.reference = (Segment.document (f.path ++ "/")).text := by
  have hslash : "/%%" = "/" ++ Segment.marker := rfl
  simp only [reference, Segment.text, hslash, String.append_assoc]
  rfl

theorem referenceBy_eq (f : Folder) (className : String) :
    f.referenceBy className = (Segment.document (f.path ++ "/" ++ (Part.mark ++ className))).text := by
  have hslash : "/$$." = "/" ++ Part.mark := rfl
  simp only [referenceBy, Segment.text, hslash, String.append_assoc]
  rfl

/-- The path of a folder is read as it is written: it holds no marker and no reference to a field. -/
structure Writable (f : Folder) : Prop where
  no_marker : ¬Segment.Marked f.path
  plain : Part.Plain f.path

end Folder

namespace Store

/-- The name that is shown for an entry of a folder leads to the entry. -/
def FindsShown (store : Store) (f : Folder) (c : Child) : Prop :=
  store.document (f.path ++ "/" ++ c.displayName) = .ok ⟨f.path ++ "/" ++ c.name⟩

/-- A reference to a folder is replaced by the names that are shown in it, without a notice. With one of these
as the value of a field, a reference by the field is replaced by the data of the entry, without a notice,
exactly when no percent sign of the name makes a marker, in it or together with the one behind it. -/
structure ResolvesShown (store : Store) (f : Folder) (children : List Child) (c : Child) : Prop where
  names : resolveDocuments store f.reference =
    ⟨(Json.array (children.map fun c ↦ .string c.displayName)).compact, []⟩
  data : ∀ className values data, Part.IsName className.toList [] →
    values.get? className = some (.string c.displayName) →
    store.structuredData ⟨f.path ++ "/" ++ c.name⟩ = .ok data →
    (resolveDocuments store (resolveFields values (f.referenceBy className)) = ⟨(Json.object data).compact, []⟩ ↔
      ¬Segment.Marked c.displayName ∧ c.displayName.toList.getLast? ≠ some '%')

theorem lookup_folder {store : Store} {f : Folder} {children : List Child} {path : String}
    (hf : store.folder (path ++ "/") = .ok f) (hchildren : store.children f = .ok children) :
    store.lookup (path ++ "/") =
      (some (Json.array (children.map fun c ↦ .string c.displayName)).compact, none) := by
  have hfolder : ((path ++ "/").toList.getLast? == some '/') = true := by simp
  rw [lookup, if_pos hfolder, folderText, hf]
  simp only [bind, Except.bind, hchildren]
  rfl

theorem lookup_document {store : Store} {folder name : String} {d : Document} {data : Entries Json}
    (hslash : '/' ∉ name.toList) (hne : name ≠ "") (hd : store.document (folder ++ "/" ++ name) = .ok d)
    (hdata : store.structuredData d = .ok data) :
    store.lookup (folder ++ "/" ++ name) = (some (Json.object data).compact, none) := by
  have hdocument : ((folder ++ "/" ++ name).toList.getLast? == some '/') = false := by
    rw [String.toList_append, List.getLast?_append_of_ne_nil, beq_eq_false_iff_ne]
    · exact fun hlast ↦ hslash (List.mem_of_getLast? hlast)
    · exact fun hnil ↦ hne (String.toList_inj.mp hnil)
  rw [lookup, hdocument, if_neg Bool.false_ne_true, hd]
  simp only [hdata]

theorem FindsShown.resolves {store : Store} {f : Folder} {children : List Child} {c : Child}
    (h : store.FindsShown f c) (hslash : '/' ∉ c.displayName.toList) (hne : c.displayName ≠ "")
    (hf : store.folder (f.path ++ "/") = .ok f) (hchildren : store.children f = .ok children)
    (hwritable : f.Writable) : store.ResolvesShown f children c where
  names := by
    have hclear : Segment.Clear (f.path ++ "/" ++ "") :=
      Segment.clear_join_iff.mpr ⟨hwritable.no_marker, Segment.clear_empty⟩
    rw [String.append_empty] at hclear
    rw [f.reference_eq, Segment.resolveDocuments_document hclear, Segment.resolve, lookup_folder hf hchildren]
    rfl
  data className values data hname hvalue hdata := by
    have htext : fieldText values className = c.displayName := by
      rw [fieldText, hvalue]
      rfl
    rw [f.referenceBy_eq]
    exact resolveDocuments_resolveFields_iff hwritable.no_marker hwritable.plain hname htext
      (lookup_document hslash hne h hdata)

end Store

/-- The name of an entry is a last segment, and the short name, if there is one, is made from it. -/
def Child.Proper (c : Child) : Prop :=
  '/' ∉ c.name.toList ∧ (c.baseName = none ∨ c.baseName = some (Path.baseName c.name))

theorem proper_name (path : String) : Child.Proper ⟨name path, none⟩ := ⟨notMem_name path, .inl rfl⟩

theorem proper_baseName (path : String) : Child.Proper ⟨name path, some (baseName path)⟩ :=
  ⟨notMem_name path, .inr (congrArg some (baseName_name path).symm)⟩

theorem Child.Proper.shown {c : Child} (h : c.Proper) (hmd : extension? c.name = some "md") :
    '/' ∉ c.displayName.toList ∧ c.displayName ≠ "" := by
  obtain ⟨hname, hnone | hsome⟩ := h
  · rw [displayName, hnone, Option.getD_none]
    refine ⟨hname, fun hempty ↦ ?_⟩
    rw [hempty] at hmd
    exact absurd hmd (by decide)
  · rw [displayName, hsome, Option.getD_some]
    obtain ⟨hfile, hne⟩ := eq_baseName_append hname hmd
    rw [hfile, String.toList_append, List.mem_append, not_or] at hname
    exact ⟨hname.1, hne⟩

namespace MemoryStore

/-- Documents are kept under the paths that lead to them, and entries are shown by their names. -/
structure Normal (m : MemoryStore) : Prop where
  documents : ∀ path, m.documents.contains path = true → ofDocument path = .ok path
  children : ∀ path children, m.folders.get? path = some children → ∀ c ∈ children, c.Proper

variable {m : MemoryStore}

theorem normal_empty : empty.Normal := by
  refine ⟨nofun, fun path children h c hc ↦ ?_⟩
  rw [empty, Entries.get?_cons] at h
  split at h
  · cases h
    cases hc
  · cases h

theorem Normal.addChild (h : m.Normal) (folder : String) {child : Child} (hchild : child.Proper) :
    (m.addChild folder child).Normal := by
  refine ⟨fun path hpath ↦ ?_, fun path children hget c hc ↦ ?_⟩
  · rw [documents_addChild] at hpath
    exact h.documents path hpath
  · rw [get?_addChild] at hget
    split at hget
    · obtain ⟨children, hchildren, rfl⟩ := Option.map_eq_some_iff.mp hget
      unfold withChild at hc
      split at hc
      · exact h.children folder children hchildren c hc
      · rcases List.mem_append.mp hc with hc | hc
        · exact h.children folder children hchildren c hc
        · rwa [List.mem_singleton.mp hc]
    · exact h.children path children hget c hc

theorem Normal.addFolder (h : m.Normal) (path : String) : (m.addFolder path).Normal := by
  refine ⟨h.documents, fun k children hget c hc ↦ ?_⟩
  rw [MemoryStore.addFolder, Entries.get?_put] at hget
  split at hget
  · cases hget
    cases hc
  · exact h.children k children hget c hc

theorem Normal.insertFolder (h : m.Normal) (hs : m.Sound) (path : String) : (m.insertFolder path).Normal := by
  refine insertFolder_induction (P := fun _ m' ↦ m'.Normal) hs.root (fun path _ ↦ h) (fun path _ _ ih ↦ ?_) path
  exact (ih.addChild _ (proper_name _)).addFolder _

theorem Normal.insertDocument (h : m.Normal) (hs : m.Sound) {path : String} (hpath : ofDocument path = .ok path)
    (data : Json) : (m.insertDocument path data).Normal := by
  have hkept : documentPath path = path := by
    unfold documentPath
    simp only [hpath]
  have hlisted := (h.insertFolder hs (parent path)).addChild (parent path) (proper_baseName path)
  unfold MemoryStore.insertDocument
  rw [hkept]
  refine ⟨fun k hk ↦ ?_, hlisted.children⟩
  rw [addDocument, Entries.contains_put, Bool.or_eq_true, decide_eq_true_eq] at hk
  rcases hk with rfl | hk
  · exact hpath
  · exact hlisted.documents k hk

/-- The paths of the documents have an extension, and nothing can be trimmed from them. -/
def Normalized (is : List Insertion) : Prop :=
  ∀ path data, .document path data ∈ is → ofDocument path = .ok path

theorem Normal.foldl_insert (h : m.Normal) (hs : m.Sound) {is : List Insertion} (his : Normalized is) :
    (is.foldl insert m).Normal := by
  induction is generalizing m with
  | nil => exact h
  | cons i is ih =>
    refine ih ?_ (hs.insert i) fun path data hi ↦ his path data (List.mem_cons_of_mem i hi)
    cases i with
    | document path data => exact h.insertDocument hs (his path data List.mem_cons_self) data
    | folder path => exact h.insertFolder hs path

theorem Normal.findsShown_iff (h : m.Normal) {path : String} {f : Folder} {children : List Child} {c : Child}
    (hf : m.toStore.folder path = .ok f) (hroot : f.path ≠ "") (hchildren : m.toStore.children f = .ok children)
    (hc : c ∈ children) (hstored : m.documents.contains (f.path ++ "/" ++ c.name) = true) :
    (m.toStore.FindsShown f c ↔ c.displayName = c.name ∨ Bare c.displayName) ∧
      (m.toStore.FindsShown f c → f.Writable → m.toStore.ResolvesShown f children c) := by
  have hproper := h.children f.path children (children_eq_ok_iff.mp hchildren) c hc
  have hkept := h.documents _ hstored
  obtain ⟨htrimmed, hmd⟩ := ofDocument_eq_self_iff.mp hkept
  obtain ⟨-, hstart, -⟩ := trimmed_eq_self_iff.mp htrimmed
  rw [extension?_join f.path hproper.1] at hmd
  rw [String.append_assoc, Text.trimStart_append_iff hroot] at hstart
  obtain ⟨hslash, hne⟩ := hproper.shown hmd
  obtain ⟨hpath, hcontains⟩ := folder_eq_ok_iff.mp hf
  have hrelative : Relative f.path := by
    rw [hpath]
    exact relative_ofFolder path
  refine ⟨?_, fun hfinds hwritable ↦ ?_⟩
  case refine_2 =>
    have hfolder : m.toStore.folder (f.path ++ "/") = .ok f := by
      rw [folder_eq_ok_iff, hpath, ofFolder_append_separator (hpath ▸ hroot) (hpath ▸ hstart), ← hpath]
      exact ⟨rfl, hcontains⟩
    exact hfinds.resolves hslash hne hfolder hchildren hwritable
  have hlookup : m.toStore.FindsShown f c ↔
      ofDocument (f.path ++ "/" ++ c.displayName) = .ok (f.path ++ "/" ++ c.name) := by
    rw [Store.FindsShown, document_eq_ok_iff, and_iff_left hstored]
  rw [hlookup]
  -- an entry without a short name has been made for a folder of the same path
  rcases hproper.2 with hnone | hsome
  · have hshown : c.displayName = c.name := by rw [Child.displayName, hnone, Option.getD_none]
    rw [hshown]
    exact ⟨fun _ ↦ .inl rfl, fun _ ↦ hkept⟩
  · have hshown : c.displayName = baseName c.name := by rw [Child.displayName, hsome, Option.getD_some]
    have hfull : c.displayName ≠ c.name := by
      rw [hshown]
      exact baseName_ne hproper.1 hmd
    rw [hshown, ofDocument_baseName_iff hrelative hroot hproper.1 hmd, and_iff_right hstart,
      ← hshown, or_iff_right hfull]

end MemoryStore

namespace FileTree

variable {t : FileTree}

theorem inside?_join {folder file : String} {place : List String} (h : inside? folder = some place)
    (hname : IsName file) : inside? (folder ++ "/" ++ file) = some (place ++ [file]) := by
  obtain ⟨hne, hslash, hdot, hdots⟩ := hname
  unfold inside? at h ⊢
  rw [segments_join folder hslash hne]
  dsimp only at h ⊢
  split at h
  · cases h
  · next hinside =>
    cases h
    rw [List.any_append, Bool.eq_false_iff.mpr hinside, if_neg]
    simp [hdot, hdots]

theorem document_eq_ok_iff {path : String} {d : Document} :
    t.toStore.document path = .ok d ↔ ofDocument path = .ok d.path ∧ isFile (t.at? d.path) = true :=
  findDocument_eq_ok_iff fun path ↦ isFile (t.at? path)

theorem folder_eq_ok_iff {path : String} {f : Folder} :
    t.toStore.folder path = .ok f ↔ f.path = ofFolder path ∧ isDirectory (t.at? f.path) = true := by
  simp only [toStore, findFolder_eq_ok_iff fun path ↦ isDirectory (t.at? path)]

theorem exists_of_mem_children {f : Folder} {children : List Child} {c : Child}
    (h : t.toStore.children f = .ok children) (hc : c ∈ children) :
    ∃ place entries, inside? f.path = some place ∧ t.get? place = some (.directory entries) ∧
      ∃ e ∈ entries, c = child e.1 e.2 := by
  unfold toStore at h
  dsimp only at h
  split at h
  · cases h
  · next place hplace =>
    split at h
    · next entries hentries =>
      cases h
      rw [List.mem_mergeSort, List.mem_map] at hc
      obtain ⟨e, he, rfl⟩ := hc
      exact ⟨place, entries, hplace, hentries, e, List.mem_of_mem_filter he, rfl⟩
    · cases h

theorem displayName_of_file (ht : t.WellFormed) {f : Folder} {children : List Child} {c : Child}
    (h : t.toStore.children f = .ok children) (hc : c ∈ children)
    (hfile : isFile (t.at? (f.path ++ "/" ++ c.name)) = true) :
    '/' ∉ c.name.toList ∧ c.baseName = some (Path.baseName c.name) := by
  obtain ⟨place, entries, hplace, hentries, ⟨file, inner⟩, he, rfl⟩ := exists_of_mem_children h hc
  have hname : (child file inner).name = file := by cases inner <;> rfl
  rw [hname] at hfile ⊢
  cases ht.get? hentries with
  | directory hdistinct hnames _ =>
    have hlies : t.at? (f.path ++ "/" ++ file) = some inner := by
      rw [at?, inside?_join hplace (hnames _ he), Option.bind_some, get?_append, hentries, Option.bind_some,
        get?_directory_cons, Entries.get?_of_mem hdistinct he, Option.bind_some, get?]
    rw [hlies] at hfile
    cases inner with
    | file text => exact ⟨(hnames _ he).2.1, rfl⟩
    | directory inner => cases hfile

theorem findsShown_iff (ht : t.WellFormed) {path : String} {f : Folder} {children : List Child} {c : Child}
    (hf : t.toStore.folder path = .ok f) (hroot : f.path ≠ "") (hchildren : t.toStore.children f = .ok children)
    (hc : c ∈ children) (hmd : extension? c.name = some "md")
    (hfile : isFile (t.at? (f.path ++ "/" ++ c.name)) = true) :
    (t.toStore.FindsShown f c ↔ Text.trimStart f.path = f.path ∧ Bare c.displayName) ∧
      (t.toStore.FindsShown f c → f.Writable → t.toStore.ResolvesShown f children c) := by
  obtain ⟨hname, hbase⟩ := displayName_of_file ht hchildren hc hfile
  have hproper : c.Proper := ⟨hname, .inr hbase⟩
  obtain ⟨hslash, hne⟩ := hproper.shown hmd
  have hshown : c.displayName = Path.baseName c.name := by rw [Child.displayName, hbase, Option.getD_some]
  obtain ⟨hpath, hdirectory⟩ := folder_eq_ok_iff.mp hf
  have hrelative : Relative f.path := by
    rw [hpath]
    exact relative_ofFolder path
  have hfinds : t.toStore.FindsShown f c ↔ Text.trimStart f.path = f.path ∧ Bare c.displayName := by
    rw [Store.FindsShown, document_eq_ok_iff, and_iff_left hfile, hshown]
    exact ofDocument_baseName_iff hrelative hroot hname hmd
  refine ⟨hfinds, fun h hwritable ↦ ?_⟩
  have hstart := (hfinds.mp h).1
  have hfolder : t.toStore.folder (f.path ++ "/") = .ok f := by
    rw [folder_eq_ok_iff, hpath, ofFolder_append_separator (hpath ▸ hroot) (hpath ▸ hstart), ← hpath]
    exact ⟨rfl, hdirectory⟩
  exact h.resolves hslash hne hfolder hchildren hwritable

end FileTree

/-- A Markdown document that is listed in a folder other than the root is found by the name that is shown for
it, exactly when this name has no extension of its own and no blank behind it. Among documents that have been
inserted with normalized paths, one that is shown by its full name is found too; among files, none is found in
a folder whose path starts with a blank. A name that finds its document is among those that a reference to the
folder gives, and by this name a reference gives the data of the document, if the markers let it. -/
theorem listed_documents_are_found_iff :
    (∀ is, MemoryStore.Normalized is →
      let m := MemoryStore.ofInsertions is
      ∀ path f children c, m.toStore.folder path = .ok f → f.path ≠ "" → m.toStore.children f = .ok children →
        c ∈ children → m.documents.contains (f.path ++ "/" ++ c.name) = true →
        (m.toStore.FindsShown f c ↔ c.displayName = c.name ∨ Bare c.displayName) ∧
          (m.toStore.FindsShown f c → f.Writable → m.toStore.ResolvesShown f children c)) ∧
    ∀ t : FileTree, t.WellFormed → ∀ path f children c, t.toStore.folder path = .ok f → f.path ≠ "" →
      t.toStore.children f = .ok children → c ∈ children → extension? c.name = some "md" →
      FileTree.isFile (t.at? (f.path ++ "/" ++ c.name)) = true →
      (t.toStore.FindsShown f c ↔ Text.trimStart f.path = f.path ∧ Bare c.displayName) ∧
        (t.toStore.FindsShown f c → f.Writable → t.toStore.ResolvesShown f children c) := by
  constructor
  · intro is his m path f children c hf hroot hchildren hc hstored
    have hnormal : m.Normal := MemoryStore.normal_empty.foldl_insert MemoryStore.sound_empty his
    exact hnormal.findsShown_iff hf hroot hchildren hc hstored
  · intro t ht path f children c hf hroot hchildren hc hmd hfile
    exact FileTree.findsShown_iff ht hf hroot hchildren hc hmd hfile

theorem listed_documents_are_found_iff_bare :
    let m := MemoryStore.ofInsertions [.document "notes/x.md" (.object []), .folder "notes/y"]
    let t := FileTree.directory [("notes", .directory [("x.md", .file "")])]
    let body := resolveFields [("class", .string "x")] "%%notes/$$.class%%"
    m.toStore.FindsShown ⟨"notes"⟩ ⟨"x.md", some "x"⟩ ∧ t.toStore.FindsShown ⟨"notes"⟩ ⟨"x.md", some "x"⟩ ∧
      resolveDocuments m.toStore "%%notes/%%" = ⟨"[\"x\",\"y\"]", []⟩ ∧
      resolveDocuments m.toStore body = ⟨"\x7b\x7d", []⟩ ∧ resolveDocuments t.toStore body = ⟨"\x7b\x7d", []⟩ := by
  intro m t body
  have hbare : Bare "x" := by decide +kernel
  have hwritable : (Folder.mk "notes").Writable := ⟨by decide, Part.plain_of_no_dollar (by decide)⟩
  have hnormalized : MemoryStore.Normalized [.document "notes/x.md" (.object []), .folder "notes/y"] := by
    intro path data h
    rcases List.mem_cons.mp h with h | h
    · rw [(MemoryStore.Insertion.document.inj h).1]
      decide +kernel
    · cases List.mem_singleton.mp h
  have hwellFormed : t.WellFormed := by
    refine .directory (List.nodup_singleton _) (by decide) (List.forall_mem_singleton.mpr ?_)
    exact .directory (List.nodup_singleton _) (by decide) (List.forall_mem_singleton.mpr (.file ""))
  obtain ⟨hm, hm'⟩ := listed_documents_are_found_iff.1 _ hnormalized "notes" ⟨"notes"⟩
    [⟨"x.md", some "x"⟩, ⟨"y", none⟩] ⟨"x.md", some "x"⟩ (by decide +kernel) (by decide)
    (by decide +kernel) List.mem_cons_self (by decide +kernel)
  obtain ⟨ht, ht'⟩ := listed_documents_are_found_iff.2 _ hwellFormed "notes" ⟨"notes"⟩ [⟨"x.md", some "x"⟩]
    ⟨"x.md", some "x"⟩ (by decide +kernel) (by decide) (by decide +kernel) List.mem_cons_self
    (by decide +kernel) (by decide +kernel)
  have hfound := hm.mpr (.inr hbare)
  have hfound' := ht.mpr ⟨by decide +kernel, hbare⟩
  have hname : Part.IsName "class".toList [] := ⟨by decide, List.all_eq_true.mp (by decide), by simp⟩
  have hshown : ¬Segment.Marked "x" ∧ "x".toList.getLast? ≠ some '%' := by decide +kernel
  have hempty : m.toStore.structuredData ⟨"notes/x.md"⟩ = .ok [] := by
    have hlength : (m.toStore.structuredData ⟨"notes/x.md"⟩).toOption.map List.length = some 0 := by decide +kernel
    cases hdata : m.toStore.structuredData ⟨"notes/x.md"⟩ with
    | error e =>
      rw [hdata] at hlength
      cases hlength
    | ok data =>
      rw [hdata] at hlength
      rw [List.length_eq_zero_iff.mp (Option.some.inj hlength)]
  obtain ⟨hnames, hdata⟩ := hm' hfound hwritable
  obtain ⟨-, hfile⟩ := ht' hfound' hwritable
  exact ⟨hfound, hfound', hnames, (hdata "class" _ [] hname rfl hempty).mpr hshown,
    (hfile "class" _ [] hname rfl rfl).mpr hshown⟩

/-- A dot in the name that is shown begins an extension, blanks around the path are trimmed, and a percent sign
at the end of the name makes a marker with the one behind it. A folder that has a marker in its path is cut
there, and a reference to a field in its path is replaced. -/
theorem shown_names_that_are_not_found :
    (let m := MemoryStore.ofInsertions
        [.document "notes/2024.01.md" (.object []), .document "notes/x .md" (.object [])];
      m.toStore.children ⟨"notes"⟩ = .ok [⟨"2024.01.md", some "2024.01"⟩, ⟨"x .md", some "x "⟩] ∧
        m.toStore.document "notes/2024.01" = .error (.unsupportedFormat "notes/2024.01" "01") ∧
        m.toStore.document "notes/x " = .error (.documentNotFound "notes/x.md")) ∧
    (let t := FileTree.directory [(" a", .directory [("b.md", .file "")])];
      t.toStore.folder "/ a" = .ok ⟨" a"⟩ ∧ t.toStore.children ⟨" a"⟩ = .ok [⟨"b.md", some "b"⟩] ∧
        t.toStore.document " a/b" = .error (.documentNotFound "a/b.md")) ∧
    (let m := MemoryStore.ofInsertions [.document "shop/sale 5%.md" (.object [])];
      m.toStore.children ⟨"shop"⟩ = .ok [⟨"sale 5%.md", some "sale 5%"⟩] ∧
        m.toStore.document "shop/sale 5%" = .ok ⟨"shop/sale 5%.md"⟩ ∧
        let r := resolveDocuments m.toStore (resolveFields [("class", .string "sale 5%")] "%%shop/$$.class%%")
        (r.value, r.notices) = ("%%shop/sale 5%%%", [.documentNotFound "shop/sale 5.md"])) ∧
    (let m := MemoryStore.ofInsertions [.document "a%%b/x.md" (.object []), .document "$$.q/x.md" (.object [])];
      m.toStore.document "a%%b/x" = .ok ⟨"a%%b/x.md"⟩ ∧ m.toStore.document "$$.q/x" = .ok ⟨"$$.q/x.md"⟩ ∧
        let notices (body : String) :=
          (resolveDocuments m.toStore (resolveFields [("class", .string "x")] body)).notices
        notices "%%a%%b/$$.class%%" = [.documentNotFound "a.md"] ∧
          notices "%%$$.q/$$.class%%" = [.documentNotFound "x.md"]) :=
  by decide +kernel

end TemplatedForms
