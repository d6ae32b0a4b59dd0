import TemplatedForms.Proofs.Reference.Occurrences

namespace TemplatedForms

theorem Part.ofText_mark {className : String} (h : IsName className.toList []) :
    ofText (mark ++ className) = [.text "", .field className, .text ""] := by
  have htake : className.toList.takeWhile isClassNameChar = className.toList := by
    simpa using h.takeWhile
  have hdrop : className.toList.dropWhile isClassNameChar = [] :=
    List.dropWhile_eq_nil_iff.mpr h.isClassNameChar
  have hmark : (mark ++ className).toList = '$' :: '$' :: '.' :: className.toList := String.toList_append
  rw [ofText, hmark, List.length_cons, readFrom, htake, hdrop, if_neg (by simpa using h.nonempty),
    String.ofList_toList]
  rfl

namespace Segment

variable {className : String} (h : ∀ c ∈ className.toList, Part.isClassNameChar c = true)

include h

theorem percent_notMem_mark : '%' ∉ (Part.mark ++ className).toList := by
  intro hpercent
  rw [String.toList_append, List.mem_append] at hpercent
  rcases hpercent with hmark | hname
  · revert hmark
    decide
  · have hchar := h _ hname
    revert hchar
    decide

theorem no_marker_of_mark : ¬marker.toList <:+: (Part.mark ++ className).toList := fun hmarker ↦
  percent_notMem_mark h (hmarker.subset (by simp [marker]))

end Segment

namespace FieldReference

variable {className : String}

theorem references_of_mark (hne : className ≠ "") (h : ∀ c ∈ className.toList, Part.isClassNameChar c = true) :
    fieldReferences (Part.mark ++ className) = [⟨className, ⟨0, (Part.mark ++ className).utf8ByteSize⟩, false⟩] := by
  have hname : Part.IsName className.toList [] := ⟨by simpa using hne, h, by simp⟩
  rw [fieldReferences, Segment.ofBody_of_no_marker (Segment.no_marker_of_mark h),
    Segment.fieldReferencesFrom_literal, Part.ofText_mark hname]
  simp [partReferencesFrom, Part.source]

theorem isClassNameChar_of_mem {body : String} {r : FieldReference} (h : r ∈ fieldReferences body) :
    ∀ c ∈ r.className.toList, Part.isClassNameChar c = true := by
  obtain ⟨⟨before, after, -, hname, -⟩, -⟩ := (mem_iff_standsIn body r).mp h
  exact hname.isClassNameChar

theorem references_of_mark_iff (hne : className ≠ "") :
    (fieldReferences (Part.mark ++ className)).map (·.className) = [className] ↔
      ∀ c ∈ className.toList, Part.isClassNameChar c = true := by
  constructor
  · intro h
    have hmem : className ∈ (fieldReferences (Part.mark ++ className)).map (·.className) := by
      rw [h]
      exact List.mem_cons_self
    obtain ⟨r, hr, rfl⟩ := List.mem_map.mp hmem
    exact isClassNameChar_of_mem hr
  · intro h
    rw [references_of_mark hne h]
    rfl

/-- The longest start of a class name that a reference can have. -/
def key (className : String) : String := String.ofList (className.toList.takeWhile Part.isClassNameChar)

theorem key_mem (h : key className ≠ "") :
    ⟨key className, ⟨0, (Part.mark ++ key className).utf8ByteSize⟩, false⟩ ∈
      fieldReferences (Part.mark ++ className) := by
  have hsplit : className = key className ++ String.ofList (className.toList.dropWhile Part.isClassNameChar) := by
    rw [key, ← String.ofList_append, List.takeWhile_append_dropWhile, String.ofList_toList]
  have hname : Part.IsName (key className).toList
      (String.ofList (className.toList.dropWhile Part.isClassNameChar)).toList := by
    rw [key, String.toList_ofList, String.toList_ofList]
    exact Part.isName_takeWhile fun hnil ↦ h (by rw [key, hnil])
  refine (mem_iff_standsIn _ _).mpr ⟨⟨"", _, ?_, hname, by simp⟩, by simp⟩
  rw [String.empty_append, ← hsplit]

theorem key_eq_self_iff : key className = className ↔ ∀ c ∈ className.toList, Part.isClassNameChar c = true := by
  rw [key, ← String.toList_inj, String.toList_ofList, List.takeWhile_eq_self_iff]

end FieldReference

end TemplatedForms
