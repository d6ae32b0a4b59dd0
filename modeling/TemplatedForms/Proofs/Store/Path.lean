import Mathlib.Data.List.DropRight
import Mathlib.Data.List.TakeWhile
import TemplatedForms.Proofs.Text.Blank
import TemplatedForms.Store.Basic

namespace TemplatedForms.Path

section

variable {c : Char} {cs front last : List Char}

theorem bne_of_notMem (h : c ∉ cs) : ∀ x ∈ cs.reverse, (x != c) = true := by
  intro x hx
  exact bne_iff_ne.mpr fun heq ↦ h (heq ▸ List.mem_reverse.mp hx)

theorem last_of_notMem (h : c ∉ cs) : (cs.reverse.takeWhile (· != c)).reverse = cs := by
  rw [List.takeWhile_eq_self_iff.mpr (bne_of_notMem h), List.reverse_reverse]

theorem last_append (h : c ∉ last) : ((front ++ c :: last).reverse.takeWhile (· != c)).reverse = last := by
  rw [List.reverse_append, List.reverse_cons, List.append_assoc,
    List.takeWhile_append_of_pos (bne_of_notMem h)]
  simp

theorem take_append_last : (front ++ c :: last).take ((front ++ c :: last).length - last.length - 1) = front := by
  have hlength : (front ++ c :: last).length - last.length - 1 = front.length := by
    rw [List.length_append, List.length_cons]
    omega
  rw [hlength, List.take_left']
  rfl

theorem notMem_or_append (c : Char) (cs : List Char) :
    c ∉ cs ∨ ∃ front last, cs = front ++ c :: last ∧ c ∉ last := by
  by_cases h : c ∈ cs
  · -- the first one from behind is the last one
    obtain ⟨last, front, hcs, hlast⟩ := List.eq_append_cons_of_mem (List.mem_reverse.mpr h)
    refine .inr ⟨front.reverse, last.reverse, ?_, by rwa [List.mem_reverse]⟩
    rw [← List.reverse_reverse cs, hcs]
    simp
  · exact .inl h

end

theorem cutLast?_of_notMem {cs : List Char} (h : '/' ∉ cs) : cutLast? cs = none := by
  rw [cutLast?, last_of_notMem h, if_pos rfl]

theorem cutLast?_append (folder : List Char) {name : List Char} (h : '/' ∉ name) :
    cutLast? (folder ++ '/' :: name) = some (folder, name) := by
  rw [cutLast?, last_append h, take_append_last, if_neg]
  rw [List.length_append, List.length_cons]
  omega

theorem cutLast?_join (folder : String) {last : String} (h : '/' ∉ last.toList) :
    cutLast? (folder ++ "/" ++ last).toList = some (folder.toList, last.toList) := by
  have hjoin : (folder ++ "/" ++ last).toList = folder.toList ++ '/' :: last.toList := by simp
  rw [hjoin, cutLast?_append folder.toList h]

theorem parent_join (folder : String) {last : String} (h : '/' ∉ last.toList) :
    parent (folder ++ "/" ++ last) = folder := by
  rw [parent, cutLast?_join folder h]
  exact String.ofList_toList

theorem name_join (folder : String) {last : String} (h : '/' ∉ last.toList) :
    name (folder ++ "/" ++ last) = last := by
  rw [name, cutLast?_join folder h]
  exact String.ofList_toList

theorem parent_of_notMem {path : String} (h : '/' ∉ path.toList) : parent path = "" := by
  rw [parent, cutLast?_of_notMem h, Option.elim_none]

theorem name_of_notMem {path : String} (h : '/' ∉ path.toList) : name path = path := by
  rw [name, cutLast?_of_notMem h, Option.elim_none]

theorem cases_last (path : String) :
    '/' ∉ path.toList ∨ ∃ folder last, path = folder ++ "/" ++ last ∧ '/' ∉ last.toList := by
  refine (notMem_or_append '/' path.toList).imp_right fun ⟨folder, last, hpath, hlast⟩ ↦ ?_
  refine ⟨String.ofList folder, String.ofList last, ?_, by rwa [String.toList_ofList]⟩
  apply String.toList_inj.mp
  rw [hpath]
  simp

theorem notMem_name (path : String) : '/' ∉ (name path).toList := by
  rcases cases_last path with hpath | ⟨folder, last, rfl, hlast⟩
  · rwa [name_of_notMem hpath]
  · rwa [name_join folder hlast]

theorem length_parent_lt {path : String} (h : path ≠ "") : (parent path).length < path.length := by
  rcases cases_last path with hpath | ⟨folder, last, rfl, hlast⟩
  · rw [parent_of_notMem hpath]
    exact Nat.pos_of_ne_zero fun h0 ↦ h (String.length_eq_zero_iff.mp h0)
  · rw [parent_join folder hlast, String.length_append, String.length_append]
    have hseparator : "/".length = 1 := rfl
    omega

def Relative (path : String) : Prop := path.toList.head? ≠ some '/'

instance (path : String) : Decidable (Relative path) := inferInstanceAs (Decidable (_ ≠ _))

theorem eq_of_parent_of_name {path path' : String} (h : Relative path) (h' : Relative path')
    (hparent : parent path = parent path') (hname : name path = name path') : path = path' := by
  rcases cases_last path with hpath | ⟨folder, last, rfl, hlast⟩
  · rcases cases_last path' with hpath' | ⟨folder', last', rfl, hlast'⟩
    · rwa [name_of_notMem hpath, name_of_notMem hpath'] at hname
    · rw [parent_of_notMem hpath, parent_join folder' hlast'] at hparent
      exact absurd (by simp [← hparent]) h'
  · rcases cases_last path' with hpath' | ⟨folder', last', rfl, hlast'⟩
    · rw [parent_of_notMem hpath', parent_join folder hlast] at hparent
      exact absurd (by simp [hparent]) h
    · rw [parent_join folder hlast, parent_join folder' hlast'] at hparent
      rw [name_join folder hlast, name_join folder' hlast'] at hname
      rw [hparent, hname]

theorem relative_trimSeparatorsStart (path : String) : Relative (trimSeparatorsStart path) := by
  intro h
  rw [trimSeparatorsStart, String.toList_ofList] at h
  have hfirst := List.head?_dropWhile_not (· == '/') path.toList
  rw [h] at hfirst
  simp at hfirst

theorem relative_append_iff {path : String} (h : path ≠ "") (rest : String) :
    Relative (path ++ rest) ↔ Relative path := by
  rw [Relative, Relative, String.toList_append, List.head?_append_of_ne_nil]
  exact fun hnil ↦ h (String.toList_inj.mp hnil)

theorem trimSeparatorsStart_sublist (path : String) :
    (trimSeparatorsStart path).toList.Sublist path.toList := by
  rw [trimSeparatorsStart, String.toList_ofList]
  exact List.dropWhile_sublist _

theorem trimSeparatorsStart_eq_self_iff {path : String} : trimSeparatorsStart path = path ↔ Relative path := by
  constructor
  · intro h
    rw [← h]
    exact relative_trimSeparatorsStart path
  · intro h
    rw [trimSeparatorsStart, ← String.toList_inj, String.toList_ofList]
    rw [Relative] at h
    cases hpath : path.toList with
    | nil => rfl
    | cons c cs =>
      rw [hpath] at h
      simpa using h

theorem trimmed_eq_self_iff {path : String} :
    trimSeparatorsStart (Text.trim path) = path ↔
      Relative path ∧ Text.trimStart path = path ∧ Text.trimEnd path = path := by
  constructor
  · intro h
    have hstart : Text.trimStart path = path := by
      apply String.toList_inj.mp
      refine (Text.trimStart_sublist path).antisymm ?_
      have hsub := (trimSeparatorsStart_sublist _).trans (Text.trimEnd_sublist (Text.trimStart path))
      rwa [← Text.trim, h] at hsub
    have hend : Text.trimEnd path = path := by
      apply String.toList_inj.mp
      refine (Text.trimEnd_sublist path).antisymm ?_
      have hsub := trimSeparatorsStart_sublist (Text.trim path)
      rwa [h, Text.trim, hstart] at hsub
    rw [Text.trim, hstart, hend, trimSeparatorsStart_eq_self_iff] at h
    exact ⟨h, hstart, hend⟩
  · rintro ⟨hrelative, hstart, hend⟩
    rw [Text.trim, hstart, hend, trimSeparatorsStart_eq_self_iff]
    exact hrelative

theorem ofFolder_front (path : String) :
    (ofFolder path).toList <+: (trimSeparatorsStart (Text.trim path)).toList := by
  rw [ofFolder, String.toList_ofList, ← List.reverse_suffix, List.reverse_reverse]
  exact List.dropWhile_suffix _

theorem relative_ofFolder (path : String) : Relative (ofFolder path) := by
  intro h
  obtain ⟨rest, hrest⟩ := ofFolder_front path
  have hhead := relative_trimSeparatorsStart (Text.trim path)
  rw [Relative, ← hrest, List.head?_append, h] at hhead
  exact hhead rfl

theorem ofFolder_append_separator {path : String} (hne : ofFolder path ≠ "")
    (hstart : Text.trimStart (ofFolder path) = ofFolder path) : ofFolder (ofFolder path ++ "/") = ofFolder path := by
  have htrim : Text.trim (ofFolder path ++ "/") = ofFolder path ++ "/" := by
    rw [Text.trim_eq_self_iff, Text.trimStart_append_iff hne, Text.trimEnd_append_iff _ (by decide)]
    exact ⟨hstart, by decide⟩
  have hrelative : trimSeparatorsStart (ofFolder path ++ "/") = ofFolder path ++ "/" := by
    rw [trimSeparatorsStart_eq_self_iff, relative_append_iff hne]
    exact relative_ofFolder path
  have hreverse : (ofFolder path).toList.reverse =
      (trimSeparatorsStart (Text.trim path)).toList.reverse.dropWhile (· == '/') := by
    rw [ofFolder, String.toList_ofList, List.reverse_reverse]
  have hseparator : (ofFolder path ++ "/").toList.reverse = '/' :: (ofFolder path).toList.reverse := by simp
  conv_lhs => rw [ofFolder, htrim, hrelative]
  rw [hseparator, List.dropWhile_cons_of_pos (by decide), hreverse, List.dropWhile_idempotent, ← hreverse,
    List.reverse_reverse, String.ofList_toList]

theorem length_ofFolder_le (path : String) : (ofFolder path).length ≤ path.length := by
  have hprefix := (ofFolder_front path).length_le
  have hstart := (trimSeparatorsStart_sublist (Text.trim path)).length_le
  have htrim := (Text.trim_sublist path).length_le
  simp only [String.length_toList] at hprefix hstart htrim
  omega

theorem segments_join (folder : String) {last : String} (h : '/' ∉ last.toList) (hne : last ≠ "") :
    segments (folder ++ "/" ++ last) = segments folder ++ [last] := by
  have hjoin : (folder ++ "/" ++ last).toList = folder.toList ++ '/' :: last.toList := by simp
  have hlast : last.toList ≠ [] := fun hnil ↦ hne (String.toList_inj.mp hnil)
  rw [segments, hjoin, List.splitOn_append_cons_self, List.splitOn_eq_singleton h, List.filterMap_append,
    segments]
  simp [hlast]

theorem cutExtension?_of_notMem {file : String} (h : '.' ∉ file.toList) : cutExtension? file = none := by
  rw [cutExtension?, last_of_notMem h, String.length_toList]
  simp

theorem cutExtension?_append {file : String} {front last : List Char}
    (hfile : file.toList = front ++ '.' :: last) (h : '.' ∉ last) :
    cutExtension? file = if front = [] then none else some (String.ofList front, String.ofList last) := by
  have hlength : file.length = (front ++ '.' :: last).length := by rw [← hfile, String.length_toList]
  have hmore : last.length ≠ (front ++ '.' :: last).length := by
    rw [List.length_append, List.length_cons]
    omega
  rw [cutExtension?, hfile, last_append h, hlength]
  simp only [take_append_last, hmore, decide_false, Bool.false_or, List.isEmpty_iff]

theorem eq_of_cutExtension? {file stem extension : String} (h : cutExtension? file = some (stem, extension)) :
    file = stem ++ "." ++ extension ∧ stem ≠ "" := by
  rcases notMem_or_append '.' file.toList with hnone | ⟨front, last, hfile, hlast⟩
  · rw [cutExtension?_of_notMem hnone] at h
    cases h
  · rw [cutExtension?_append hfile hlast] at h
    split at h
    · cases h
    · next hfront =>
      cases h
      constructor
      · rw [← String.toList_inj, hfile]
        simp
      · rw [ne_eq, ← String.toList_inj, String.toList_ofList]
        exact hfront

theorem extension?_join (folder : String) {last : String} (h : '/' ∉ last.toList) :
    extension? (folder ++ "/" ++ last) = extension? last := by
  rw [extension?, extension?, name_join folder h, name_of_notMem h]

theorem baseName_name (path : String) : baseName (name path) = baseName path := by
  rw [baseName, baseName, name_of_notMem (notMem_name path)]

theorem eq_baseName_append {file : String} (h : '/' ∉ file.toList) (hmd : extension? file = some "md") :
    file = baseName file ++ ".md" ∧ baseName file ≠ "" := by
  rw [extension?, name_of_notMem h] at hmd
  obtain ⟨⟨stem, extension⟩, hcut, rfl⟩ := Option.map_eq_some_iff.mp hmd
  obtain ⟨hfile, hstem⟩ := eq_of_cutExtension? hcut
  have hbase : baseName file = stem := by
    rw [baseName, name_of_notMem h, hcut]
    rfl
  rw [hbase]
  refine ⟨hfile.trans ?_, hstem⟩
  rw [String.append_assoc]
  rfl

theorem baseName_ne {file : String} (h : '/' ∉ file.toList) (hmd : extension? file = some "md") :
    baseName file ≠ file := by
  intro heq
  have hlength := congrArg String.length (eq_baseName_append h hmd).1
  have hadded : ".md".length = 3 := rfl
  rw [String.length_append, heq] at hlength
  omega

theorem ofDocument_eq_ok_iff {path kept : String} :
    ofDocument path = .ok kept ↔
      extension? (trimSeparatorsStart (Text.trim path)) = none ∧
          kept = trimSeparatorsStart (Text.trim path) ++ ".md" ∨
        extension? (trimSeparatorsStart (Text.trim path)) = some "md" ∧
          kept = trimSeparatorsStart (Text.trim path) := by
  unfold ofDocument
  dsimp only
  generalize trimSeparatorsStart (Text.trim path) = start
  cases extension? start with
  | none => simp [@eq_comm _ kept]
  | some extension => by_cases hmd : extension = "md" <;> simp [hmd, @eq_comm _ kept]

theorem relative_of_ofDocument {path kept : String} (h : ofDocument path = .ok kept) : Relative kept := by
  have hstart := relative_trimSeparatorsStart (Text.trim path)
  rcases ofDocument_eq_ok_iff.mp h with ⟨-, rfl⟩ | ⟨-, rfl⟩
  · by_cases hempty : trimSeparatorsStart (Text.trim path) = ""
    · rw [hempty]
      decide
    · exact (relative_append_iff hempty ".md").mpr hstart
  · exact hstart

theorem ofDocument_ne_empty {path : String} : ofDocument path ≠ .ok "" := by
  intro h
  rcases ofDocument_eq_ok_iff.mp h with ⟨-, hkept⟩ | ⟨hextension, hkept⟩
  · have hlength := congrArg String.length hkept
    have hmd : ".md".length = 3 := rfl
    have hempty : "".length = 0 := rfl
    rw [String.length_append] at hlength
    omega
  · rw [← hkept] at hextension
    exact absurd hextension (by decide)

theorem ofDocument_of_separators {path : String} (h : trimSeparatorsStart path = "") :
    ofDocument path = .ok ".md" := by
  have hall : ∀ c ∈ path.toList, (c == '/') = true := by
    rw [← List.dropWhile_eq_nil_iff, ← String.toList_ofList (l := path.toList.dropWhile _)]
    exact congrArg String.toList h
  have hstart : trimSeparatorsStart (Text.trim path) = "" := by
    have hnone := List.dropWhile_eq_nil_iff.mpr
      fun c hc ↦ hall c ((Text.trim_sublist path).subset hc)
    rw [trimSeparatorsStart, hnone, String.ofList_nil]
  refine ofDocument_eq_ok_iff.mpr (.inl ?_)
  rw [hstart]
  exact ⟨rfl, rfl⟩

theorem count_trimmed {c : Char} (hseparator : c ≠ '/') (hblank : Text.isBlank c = false) (path : String) :
    (trimSeparatorsStart (Text.trim path)).toList.count c = path.toList.count c := by
  have hdrop (p : Char → Bool) (hp : p c = false) (cs : List Char) :
      (cs.dropWhile p).count c = cs.count c := by
    induction cs with
    | nil => rfl
    | cons x cs ih =>
      rw [List.dropWhile_cons]
      split
      · next hx =>
        have hne : x ≠ c := by
          rintro rfl
          rw [hp] at hx
          cases hx
        rw [ih, List.count_cons_of_ne hne]
      · rfl
  rw [trimSeparatorsStart, Text.trim, Text.trimEnd, Text.trimStart]
  simp only [String.toList_ofList]
  rw [hdrop (· == '/') (beq_eq_false_iff_ne.mpr hseparator), List.count_reverse, hdrop _ hblank,
    List.count_reverse, hdrop _ hblank]

theorem ofDocument_eq_append_iff {path : String} :
    ofDocument path = .ok (path ++ ".md") ↔
      trimSeparatorsStart (Text.trim path) = path ∧ extension? path = none := by
  rw [ofDocument_eq_ok_iff]
  constructor
  · rintro (⟨hnone, hpath⟩ | ⟨-, hpath⟩)
    · have hsame := (String.append_left_inj ".md").mp hpath
      rw [← hsame] at hnone
      exact ⟨hsame.symm, hnone⟩
    · -- trimming does not take away the letters of the extension
      have hcount := count_trimmed (c := 'd') (by decide) rfl path
      rw [← hpath, String.toList_append, List.count_append] at hcount
      have hmd : ".md".toList.count 'd' = 1 := rfl
      omega
  · rintro ⟨hsame, hnone⟩
    rw [hsame]
    exact .inl ⟨hnone, rfl⟩

theorem ofDocument_eq_self_iff {path : String} :
    ofDocument path = .ok path ↔
      trimSeparatorsStart (Text.trim path) = path ∧ extension? path = some "md" := by
  rw [ofDocument_eq_ok_iff]
  constructor
  · rintro (⟨-, hpath⟩ | ⟨hmd, hpath⟩)
    · have hcount := count_trimmed (c := 'd') (by decide) rfl path
      have happend := congrArg (·.toList.count 'd') hpath
      simp only [String.toList_append, List.count_append] at happend
      have hmd : ".md".toList.count 'd' = 1 := rfl
      omega
    · rw [← hpath] at hmd
      exact ⟨hpath.symm, hmd⟩
  · rintro ⟨hsame, hmd⟩
    rw [hsame]
    exact .inr ⟨hmd, rfl⟩

/-- The short name of a document: nothing in it is taken for an extension, and no blank is behind it. -/
def Bare (stem : String) : Prop := extension? stem = none ∧ Text.trimEnd stem = stem

instance (stem : String) : Decidable (Bare stem) := inferInstanceAs (Decidable (_ ∧ _))

theorem ofDocument_join_iff {folder stem : String} (hfolder : Relative folder) (hne : folder ≠ "")
    (hslash : '/' ∉ stem.toList) (hstem : stem ≠ "") :
    ofDocument (folder ++ "/" ++ stem) = .ok (folder ++ "/" ++ (stem ++ ".md")) ↔
      Text.trimStart folder = folder ∧ Bare stem := by
  have hrelative : Relative (folder ++ "/" ++ stem) := by
    rw [String.append_assoc, relative_append_iff hne]
    exact hfolder
  have hstart : Text.trimStart (folder ++ "/" ++ stem) = folder ++ "/" ++ stem ↔
      Text.trimStart folder = folder := by
    rw [String.append_assoc, Text.trimStart_append_iff hne]
  rw [← String.append_assoc, ofDocument_eq_append_iff, trimmed_eq_self_iff, extension?_join folder hslash,
    hstart, Text.trimEnd_append_iff _ hstem, Bare]
  simp only [hrelative, true_and, and_assoc, and_comm]

theorem ofDocument_baseName_iff {folder file : String} (hfolder : Relative folder) (hne : folder ≠ "")
    (hslash : '/' ∉ file.toList) (hmd : extension? file = some "md") :
    ofDocument (folder ++ "/" ++ baseName file) = .ok (folder ++ "/" ++ file) ↔
      Text.trimStart folder = folder ∧ Bare (baseName file) := by
  obtain ⟨hfile, hstem⟩ := eq_baseName_append hslash hmd
  have hstemslash : '/' ∉ (baseName file).toList := by
    intro hmem
    rw [hfile, String.toList_append] at hslash
    exact hslash (List.mem_append_left _ hmem)
  have hjoin := ofDocument_join_iff hfolder hne hstemslash hstem
  rwa [← hfile] at hjoin

theorem findDocument_eq_ok_iff (stored : String → Bool) {path : String} {d : Document} :
    (do
      let path ← ofDocument path
      if stored path then return ⟨path⟩ else throw (StoreError.documentNotFound path)) = Except.ok d ↔
      ofDocument path = .ok d.path ∧ stored d.path = true := by
  obtain ⟨found⟩ := d
  cases ofDocument path with
  | error e =>
    constructor
    · intro h
      cases h
    · intro h
      cases h.1
  | ok kept =>
    change (if stored kept then Except.ok (Document.mk kept)
      else Except.error (StoreError.documentNotFound kept)) = .ok _ ↔ _
    split
    · next hstored =>
      constructor
      · intro h
        cases h
        exact ⟨rfl, hstored⟩
      · rintro ⟨hkept, -⟩
        cases hkept
        rfl
    · next hnone =>
      constructor
      · intro h
        cases h
      · rintro ⟨hkept, hstored⟩
        rw [← Except.ok.inj hkept] at hstored
        exact absurd hstored hnone

theorem findFolder_eq_ok_iff (stored : String → Bool) {path : String} {f : Folder} :
    (if stored (ofFolder path) then Except.ok ⟨ofFolder path⟩
      else .error (StoreError.folderNotFound (ofFolder path))) = .ok f ↔
      f.path = ofFolder path ∧ stored f.path = true := by
  generalize ofFolder path = kept
  split
  · next hstored =>
    constructor
    · intro h
      cases h
      exact ⟨rfl, hstored⟩
    · rintro ⟨rfl, -⟩
      rfl
  · next hnone =>
    constructor
    · intro h
      cases h
    · rintro ⟨rfl, hstored⟩
      exact absurd hstored hnone

end TemplatedForms.Path
