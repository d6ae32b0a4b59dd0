import TemplatedForms.Proofs.Json.Delimiting
import TemplatedForms.Proofs.Resolution.Documents
import TemplatedForms.Proofs.Resolution.Places
import TemplatedForms.Proofs.Resolution.SingleReference

namespace TemplatedForms

theorem Json.head?_compact_object (ms : Entries Json) : (Json.object ms).compact.toList.head? = some '\x7b' := by
  simp [compact]

theorem Json.head?_compact_array (js : List Json) : (Json.array js).compact.toList.head? = some '[' := by
  simp [compact]

theorem ne_empty_of_head? {text : String} {c : Char} (h : text.toList.head? = some c) : text ≠ "" := by
  rintro rfl
  cases h

namespace Segment

theorem clear_iff {text : String} : Clear text ↔ ¬Marked text ∧ text.toList.getLast? ≠ some '%' := by
  have hlast : marker.toList <:+ text.toList ++ ['%'] ↔ text.toList.getLast? = some '%' := by
    rw [← List.singleton_suffix_iff_getLast?_eq_some, show marker.toList = ['%'] ++ ['%'] from rfl,
      List.suffix_append_inj_of_length_eq rfl, and_iff_left rfl]
  rw [Clear, Text.Clear, Marked, ← not_or, or_comm, ← hlast]
  exact not_congr List.infix_concat_iff

theorem clear_join_iff {folder name : String} : Clear (folder ++ "/" ++ name) ↔ ¬Marked folder ∧ Clear name := by
  have htext : (folder ++ "/" ++ name).toList = folder.toList ++ '/' :: name.toList := by simp
  rw [Clear, htext, Text.clear_append_cons marker_ne_nil (not_mem_marker (by decide))]
  rfl

theorem clear_mark {className : String} (h : ∀ c ∈ className.toList, Part.isClassNameChar c = true) :
    Clear (Part.mark ++ className) :=
  clear_iff.mpr ⟨no_marker_of_mark h, fun hlast ↦ percent_notMem_mark h (List.mem_of_getLast? hlast)⟩

theorem clear_empty : Clear "" := fun h ↦ absurd h.length_le (by decide)

theorem text_document (path : String) : (Segment.document path).text = "" ++ (marker ++ (path ++ (marker ++ ""))) := by
  simp [Segment.text, String.append_assoc]

theorem Clear.not_paired {text : String} (h : Clear text) : ¬Paired text := by
  rintro ⟨before, path, after, rfl⟩
  rw [clear_iff, Marked, String.toList_append, String.toList_append] at h
  exact h.1 (List.infix_append' _ _ _)

/-- A path that is not clear is cut by its own marker, or by the one behind it, before it ends. -/
theorem exists_front {path : String} (h : ¬Clear path) :
    ∃ front rest : String, path ++ marker = front ++ (marker ++ rest) ∧ Clear front ∧ rest ≠ "" := by
  cases hcut : Text.cut? marker.toList (path ++ marker).toList with
  | none =>
    have hno := (Text.cut?_eq_none marker_ne_nil).mp hcut
    rw [String.toList_append] at hno
    exact absurd (List.suffix_append _ _).isInfix hno
  | some found =>
    obtain ⟨front, rest⟩ := found
    obtain ⟨htext, hclear⟩ := (Text.cut?_eq_some marker_ne_nil).mp hcut
    refine ⟨String.ofList front, String.ofList rest, ?_, by rwa [Clear, String.toList_ofList], ?_⟩
    · apply String.toList_inj.mp
      simp [htext]
    · intro hempty
      have hrest : rest = [] := by simpa using congrArg String.toList hempty
      rw [hrest, List.append_nil, String.toList_append] at htext
      have hfront : path.toList = front := List.append_cancel_right htext
      exact h (by rwa [Clear, hfront])

section

variable {store : Store}

theorem resolveDocuments_of_clear {text path rest : String} (ht : Clear text) (hp : Clear path) :
    resolveDocuments store (text ++ (marker ++ (path ++ (marker ++ rest)))) =
      ⟨text ++ (((Segment.document path).resolve store).value ++ (resolveDocuments store rest).value),
        ((Segment.document path).resolve store).notices ++ (resolveDocuments store rest).notices⟩ := by
  rw [resolveDocuments, ofBody_of_clear ht hp]
  rfl

theorem resolveDocuments_document {path : String} (h : Clear path) :
    resolveDocuments store (Segment.document path).text = (Segment.document path).resolve store := by
  have hrest : resolveDocuments store "" = ⟨"", []⟩ := resolveDocuments_of_not_paired clear_empty.not_paired store
  rw [text_document, resolveDocuments_of_clear clear_empty h, hrest, String.empty_append, String.append_empty,
    List.append_nil]

theorem resolve_document_cases {path : String} (h : ((Segment.document path).resolve store).notices = []) :
    ((Segment.document path).resolve store).value = (Segment.document path).text ∨
      (∃ js, ((Segment.document path).resolve store).value = (Json.array js).compact) ∨
      ∃ ms, ((Segment.document path).resolve store).value = (Json.object ms).compact := by
  let r : DocumentReference := ⟨path, ⟨0, 0⟩⟩
  have hanswered := r.answered store
  have hvalue : ((Segment.document path).resolve store).value =
      (r.replacement? store).getD (Segment.document path).text := rfl
  have hnotices : ((Segment.document path).resolve store).notices = (r.notice? store).toList := rfl
  rw [hvalue]
  rw [hnotices] at h
  generalize r.replacement? store = replacement at hanswered ⊢
  generalize r.notice? store = notice at hanswered h
  cases hanswered with
  | folder => exact .inr (.inl ⟨_, rfl⟩)
  | document => exact .inr (.inr ⟨_, rfl⟩)
  | invalid | unreadable => exact .inl rfl
  | unsupported | noFolder | noDocument | unsupportedInside => cases h

theorem head?_text_document (path : String) : (Segment.document path).text.toList.head? = some '%' := by
  simp [Segment.text, marker]

theorem value_ne_empty {body : String} (hne : body ≠ "") (h : (resolveDocuments store body).notices = []) :
    (resolveDocuments store body).value ≠ "" := by
  rcases ofBody_cases body with ⟨-, hpaired⟩ | ⟨text, path, rest, rfl, htext, hpath⟩
  · rw [resolveDocuments_of_not_paired hpaired]
    exact hne
  · rw [resolveDocuments_of_clear htext hpath] at h ⊢
    have hnotices := (List.append_eq_nil_iff.mp h).1
    have hreplaced : ((Segment.document path).resolve store).value ≠ "" := by
      rcases resolve_document_cases hnotices with hvalue | ⟨js, hvalue⟩ | ⟨ms, hvalue⟩
      · rw [hvalue]
        exact ne_empty_of_head? (head?_text_document path)
      · rw [hvalue]
        exact ne_empty_of_head? (Json.head?_compact_array js)
      · rw [hvalue]
        exact ne_empty_of_head? (Json.head?_compact_object ms)
    simp [hreplaced]

theorem resolveDocuments_document_iff {path : String} {data : Entries Json}
    (h : store.lookup path = (some (Json.object data).compact, none)) :
    resolveDocuments store (Segment.document path).text = ⟨(Json.object data).compact, []⟩ ↔ Clear path := by
  constructor
  · intro hresult
    by_contra hclear
    obtain ⟨front, rest, hsplit, hfront, hrest⟩ := exists_front hclear
    have hbody : (Segment.document path).text = "" ++ (marker ++ (front ++ (marker ++ rest))) := by
      rw [String.empty_append, ← hsplit, Segment.text, String.append_assoc]
    rw [hbody, resolveDocuments_of_clear clear_empty hfront] at hresult
    obtain ⟨hvalue, hnotices⟩ := Noticed.mk.inj hresult
    obtain ⟨hfirst, hbehind⟩ := List.append_eq_nil_iff.mp hnotices
    rw [String.empty_append] at hvalue
    -- what the first reference is replaced by starts the whole text, so it is an object as well
    have hhead := Json.head?_compact_object data
    rw [← hvalue, String.toList_append, List.head?_append] at hhead
    rcases resolve_document_cases hfirst with hkept | ⟨js, harray⟩ | ⟨ms, hobject⟩
    · rw [hkept, head?_text_document] at hhead
      cases hhead
    · rw [harray, Json.head?_compact_array] at hhead
      cases hhead
    · rw [hobject] at hvalue
      exact value_ne_empty hrest hbehind (Json.eq_empty_of_compact_append hvalue)
  · intro hclear
    rw [resolveDocuments_document hclear, resolve, h]
    rfl

end

end Segment

namespace Part

/-- No reference to a field stands in a text. -/
def Plain (text : String) : Prop :=
  ∀ before c rest, text.toList = before ++ '$' :: '$' :: '.' :: c :: rest → isClassNameChar c = false

theorem plain_of_no_dollar {text : String} (h : '$' ∉ text.toList) : Plain text := by
  intro before c rest htext
  rw [htext] at h
  simp at h

theorem Plain.not_occurs {text : String} (h : Plain text) {offset : Nat} {name : List Char} {span : Span} :
    ¬Occurs offset text.toList name span := by
  intro hoccurs
  obtain ⟨before, rest, htext, hname, -⟩ := occurs_iff.mp hoccurs
  obtain ⟨c, name, rfl⟩ := List.exists_cons_of_ne_nil hname.nonempty
  have hc := hname.isClassNameChar c List.mem_cons_self
  rw [h before c (name ++ rest) htext] at hc
  cases hc

variable {front className : String} (h : Plain front) (hname : IsName className.toList [])

include h hname

theorem occurs_behind_iff {name : List Char} {span : Span} :
    Occurs 0 (front ++ "/" ++ (mark ++ className)).toList name span ↔
      name = className.toList ∧ span = ⟨0 + (front ++ "/").utf8ByteSize,
        0 + (front ++ "/").utf8ByteSize + (mark ++ className).utf8ByteSize⟩ := by
  have htext : (front ++ "/" ++ (mark ++ className)).toList =
      front.toList ++ '/' :: '$' :: '$' :: '.' :: className.toList := by
    simp [mark]
  have htake : className.toList.takeWhile isClassNameChar = className.toList := by
    simpa using hname.takeWhile
  have hdrop : className.toList.dropWhile isClassNameChar = [] :=
    List.dropWhile_eq_nil_iff.mpr hname.isClassNameChar
  have hstart : 0 + String.utf8Len front.toList + '/'.utf8Size = 0 + (front ++ "/").utf8ByteSize := by
    rw [String.utf8Len_toList, String.utf8ByteSize_append, Nat.add_assoc]
    rfl
  rw [htext, occurs_append_cons_iff (by decide), or_iff_right h.not_occurs, occurs_mark_iff, htake, hdrop,
    or_iff_left not_occurs_nil, hstart, String.utf8ByteSize_append (s := mark), Nat.add_assoc _ mark.utf8ByteSize]
  constructor
  · rintro ⟨-, rfl, rfl⟩
    rw [String.utf8Len_toList]
    exact ⟨rfl, rfl⟩
  · rintro ⟨rfl, rfl⟩
    rw [String.utf8Len_toList]
    exact ⟨hname.nonempty, rfl, rfl⟩

theorem references_behind :
    partReferencesFrom true 0 (ofText (front ++ "/" ++ (mark ++ className))) =
      [⟨className, ⟨0 + (front ++ "/").utf8ByteSize,
        0 + (front ++ "/").utf8ByteSize + (mark ++ className).utf8ByteSize⟩, true⟩] := by
  have hmem (r : FieldReference) := mem_ofText true 0 (front ++ "/" ++ (mark ++ className)) r
  have horder := pairwise_partReferences true 0 (ofText (front ++ "/" ++ (mark ++ className)))
  have hnodup : (partReferencesFrom true 0 (ofText (front ++ "/" ++ (mark ++ className)))).Nodup := by
    refine horder.imp_of_mem fun {r r'} hr _ hle heq ↦ ?_
    obtain ⟨-, hlt, -⟩ := ((hmem r).mp hr).1.bounds
    rw [← heq] at hle
    omega
  refine List.perm_singleton.mp ((List.perm_ext_iff_of_nodup hnodup (List.nodup_singleton _)).mpr fun r ↦ ?_)
  obtain ⟨name, span, inPath⟩ := r
  rw [hmem, occurs_behind_iff h hname, String.toList_inj, List.mem_singleton, FieldReference.mk.injEq, and_assoc]

theorem fill_behind (values : Entries Value) :
    fill id values (front ++ "/" ++ (mark ++ className)) = front ++ "/" ++ fieldText values className := by
  have htext (r : FieldReference) (hr : r.inPath = true) :
      r.replacement values = id (fieldText values r.className) := by
    simp [FieldReference.replacement, hr]
  have hfilled := replaced_text values id htext 0 (front ++ "/" ++ (mark ++ className))
  rw [references_behind h hname] at hfilled
  exact (Replaced.keep (front ++ "/") (.one _ _ _)).unique rfl hfilled |>.symm

end Part

theorem Segment.resolveFields_document {path : String} (h : Clear path) (values : Entries Value) :
    resolveFields values (Segment.document path).text = (Segment.document (Part.fill id values path)).text := by
  rw [resolveFields, text_document, ofBody_of_clear clear_empty h, ofBody_of_not_paired clear_empty.not_paired]
  simp [String.join_cons, fill, Part.fill, Part.ofText, Part.readFrom, Part.filled]

/-- A reference to a document of a folder, by a name that is the value of a field, is replaced by the data of
the document, unless the name breaks the reference. -/
theorem resolveDocuments_resolveFields_iff {store : Store} {folder name className : String} {values : Entries Value}
    {data : Entries Json} (hmarker : ¬Segment.Marked folder) (hplain : Part.Plain folder)
    (hname : Part.IsName className.toList []) (hvalue : fieldText values className = name)
    (h : store.lookup (folder ++ "/" ++ name) = (some (Json.object data).compact, none)) :
    resolveDocuments store
        (resolveFields values (Segment.document (folder ++ "/" ++ (Part.mark ++ className))).text) =
        ⟨(Json.object data).compact, []⟩ ↔
      ¬Segment.Marked name ∧ name.toList.getLast? ≠ some '%' := by
  have hclear : Segment.Clear (folder ++ "/" ++ (Part.mark ++ className)) :=
    Segment.clear_join_iff.mpr ⟨hmarker, Segment.clear_mark hname.isClassNameChar⟩
  rw [Segment.resolveFields_document hclear, Part.fill_behind hplain hname, hvalue,
    Segment.resolveDocuments_document_iff h, Segment.clear_join_iff, and_iff_right hmarker, Segment.clear_iff]

end TemplatedForms
