import TemplatedForms.Proofs.Reference.Markers
import TemplatedForms.Proofs.Text.Run

namespace TemplatedForms

namespace Part

/-- The class name at the start of a text that has some text behind it: it is not empty, and it does not
go on. -/
structure IsName (name rest : List Char) : Prop where
  nonempty : name ≠ []
  isClassNameChar : ∀ c ∈ name, isClassNameChar c = true
  ends : ∀ c ∈ rest.head?, Part.isClassNameChar c = false

theorem IsName.takeWhile {name rest : List Char} (h : IsName name rest) :
    (name ++ rest).takeWhile Part.isClassNameChar = name :=
  takeWhile_run h.isClassNameChar h.ends

theorem IsName.append_cons {name rest : List Char} (h : IsName name rest) {c : Char}
    (hc : Part.isClassNameChar c = false) (tail : List Char) : IsName name (rest ++ c :: tail) where
  nonempty := h.nonempty
  isClassNameChar := h.isClassNameChar
  ends := by
    cases rest with
    | nil =>
      rintro d ⟨⟩
      exact hc
    | cons d rest => exact h.ends

theorem IsName.of_append {name rest tail : List Char} (h : IsName name (rest ++ tail)) : IsName name rest where
  nonempty := h.nonempty
  isClassNameChar := h.isClassNameChar
  ends c hc := by
    cases rest with
    | nil => cases hc
    | cons => exact h.ends c hc

theorem isName_takeWhile {cs : List Char} (h : cs.takeWhile isClassNameChar ≠ []) :
    IsName (cs.takeWhile isClassNameChar) (cs.dropWhile isClassNameChar) where
  nonempty := h
  isClassNameChar _ hc := List.mem_takeWhile_imp hc
  ends := head?_dropWhile Part.isClassNameChar cs

/-- The references to fields that stand in a text which starts at an offset, with their class names and
their spans. -/
inductive Occurs : (offset : Nat) → List Char → (name : List Char) → Span → Prop
  | here (offset : Nat) {name rest : List Char} : IsName name rest →
      Occurs offset ('$' :: '$' :: '.' :: (name ++ rest)) name
        ⟨offset, offset + mark.utf8ByteSize + String.utf8Len name⟩
  | later {offset : Nat} (c : Char) {cs name : List Char} {span : Span} :
      Occurs (offset + c.utf8Size) cs name span → Occurs offset (c :: cs) name span

section

variable {offset : Nat} {cs rest name : List Char} {span : Span}

theorem occurs_cons_iff {c : Char} (hc : ∀ rest, c :: cs ≠ '$' :: '$' :: '.' :: rest) :
    Occurs offset (c :: cs) name span ↔ Occurs (offset + c.utf8Size) cs name span := by
  refine ⟨fun h ↦ ?_, .later c⟩
  cases h with
  | here => exact absurd rfl (hc _)
  | later _ h => exact h

theorem occurs_cons_of_ne {c : Char} (hc : c ≠ '$') :
    Occurs offset (c :: cs) name span ↔ Occurs (offset + c.utf8Size) cs name span :=
  occurs_cons_iff fun _ h ↦ hc (List.cons.inj h).1

theorem occurs_append_iff {front : List Char} (hfront : '$' ∉ front) :
    Occurs offset (front ++ rest) name span ↔ Occurs (offset + String.utf8Len front) rest name span := by
  induction front generalizing offset with
  | nil => rfl
  | cons c front ih =>
    obtain ⟨hc, hfront⟩ := not_or.mp (List.mem_cons.not.mp hfront)
    rw [List.cons_append, occurs_cons_of_ne (Ne.symm hc), ih hfront, offset_cons]

theorem not_occurs_nil : ¬Occurs offset [] name span := by
  rintro ⟨⟩

theorem occurs_mark_iff : Occurs offset ('$' :: '$' :: '.' :: cs) name span ↔
    (name ≠ [] ∧ name = cs.takeWhile isClassNameChar ∧
      span = ⟨offset, offset + mark.utf8ByteSize + String.utf8Len name⟩) ∨
    Occurs (offset + mark.utf8ByteSize + String.utf8Len (cs.takeWhile isClassNameChar))
      (cs.dropWhile isClassNameChar) name span := by
  have hdollar : '$' ∉ cs.takeWhile isClassNameChar := fun hm ↦ by
    have hname := List.mem_takeWhile_imp hm
    revert hname
    decide
  have hbehind : Occurs (offset + '$'.utf8Size) ('$' :: '.' :: cs) name span ↔
      Occurs (offset + mark.utf8ByteSize + String.utf8Len (cs.takeWhile isClassNameChar))
        (cs.dropWhile isClassNameChar) name span := by
    rw [occurs_cons_iff (by simp), occurs_cons_of_ne (by decide), ← occurs_append_iff hdollar,
      List.takeWhile_append_dropWhile]
    rfl
  rw [← hbehind]
  constructor
  · intro h
    cases h with
    | here _ hname => exact .inl ⟨hname.nonempty, hname.takeWhile.symm, rfl⟩
    | later _ h => exact .inr h
  · rintro (⟨hne, rfl, rfl⟩ | h)
    · have h := Occurs.here offset (isName_takeWhile hne)
      rwa [List.takeWhile_append_dropWhile] at h
    · exact .later _ h

theorem occurs_append_cons_iff {c : Char} (hc : c ≠ '$' ∧ c ≠ '.' ∧ isClassNameChar c = false) :
    Occurs offset (cs ++ c :: rest) name span ↔
      Occurs offset cs name span ∨ Occurs (offset + String.utf8Len cs + c.utf8Size) rest name span := by
  constructor
  · intro h
    induction cs generalizing offset with
    | nil => exact .inr ((occurs_cons_of_ne hc.1).mp h)
    | cons d cs ih =>
      generalize htext : d :: cs ++ c :: rest = text at h
      cases h with
      | @here _ _ after hname =>
        have hmem : c ∉ '$' :: '$' :: '.' :: name := by
          have hname' : c ∉ name := fun hm ↦ by
            have hc' := hname.isClassNameChar c hm
            rw [hc.2.2] at hc'
            cases hc'
          simp [hc.1, hc.2.1, hname']
        have hsplit : '$' :: '$' :: '.' :: name ++ after = d :: cs ++ c :: rest := htext.symm
        rcases List.append_eq_append_iff.mp hsplit with ⟨x, hx, rfl⟩ | ⟨x, hx, hrest⟩
        · -- the whole reference is in front of the character
          have hhere := Occurs.here offset hname.of_append
          exact .inl (hx ▸ hhere)
        · cases x with
          | nil =>
            have hname' : IsName name [] := hname.of_append
            have hhere := Occurs.here offset hname'
            rw [List.append_nil] at hhere hx
            exact .inl (hx ▸ hhere)
          | cons e x =>
            obtain ⟨rfl, -⟩ := List.cons.inj hrest
            rw [hx] at hmem
            simp at hmem
      | later _ h =>
        obtain ⟨rfl, rfl⟩ := List.cons.inj htext
        rw [offset_cons]
        exact (ih h).imp_left (.later d)
  · rintro (h | h)
    · induction h with
      | here offset hname =>
        have h := Occurs.here offset (hname.append_cons hc.2.2 rest)
        simpa only [List.cons_append, List.append_assoc] using h
      | later d _ ih => exact ih.later d
    · induction cs generalizing offset with
      | nil => exact h.later c
      | cons d cs ih =>
        rw [offset_cons] at h
        exact .later d (ih h)

end

theorem mem_readFrom {fuel : Nat} {before cs : List Char} (hf : cs.length < fuel) (inPath : Bool)
    (offset : Nat) (r : FieldReference) :
    r ∈ partReferencesFrom inPath offset (readFrom fuel before cs) ↔
      Occurs (offset + String.utf8Len before) cs r.className.toList r.span ∧ r.inPath = inPath := by
  have hmark : mark.utf8ByteSize = 3 ∧ '$'.utf8Size = 1 ∧ '.'.utf8Size = 1 := by decide
  fun_induction readFrom fuel before cs generalizing offset with
  | case1 => omega
  | case2 fuel before rest name hname ih =>
    simp only [List.length_cons] at hf
    have hnil : rest.takeWhile isClassNameChar = [] := List.isEmpty_iff.mp hname
    have hrest : rest.dropWhile isClassNameChar = rest := by
      have happend := List.takeWhile_append_dropWhile (p := isClassNameChar) (l := rest)
      rwa [hnil] at happend
    have hoffset : offset + String.utf8Len before + mark.utf8ByteSize + String.utf8Len [] =
        offset + String.utf8Len ('.' :: '$' :: '$' :: before) := by
      simp only [String.utf8Len_cons, String.utf8Len_nil]
      omega
    refine (ih (by omega) offset).trans ?_
    rw [occurs_mark_iff, hnil, hrest, hoffset, or_iff_right fun h ↦ h.1 h.2.1]
  | case3 fuel before rest name hname ih =>
    have hlength := List.length_dropWhile_le isClassNameChar rest
    simp only [List.length_cons] at hf
    obtain ⟨className, span, inPath'⟩ := r
    have hnonempty : name ≠ [] := List.isEmpty_iff.not.mp (by simpa using hname)
    have hhead : className = String.ofList name ↔ className.toList = name := by
      rw [← String.toList_inj, String.toList_ofList]
    have hbehind := ih (by omega) (offset + String.utf8Len before + mark.utf8ByteSize + String.utf8Len name)
    rw [String.utf8Len_nil, Nat.add_zero] at hbehind
    simp only [partReferencesFrom, source, String.utf8ByteSize_append, String.utf8ByteSize_ofList,
      String.utf8Len_reverse, List.mem_cons, ← Nat.add_assoc, hbehind, FieldReference.mk.injEq, hhead,
      occurs_mark_iff]
    constructor
    · rintro (⟨hclass, hspan, hflag⟩ | ⟨h, hflag⟩)
      · exact ⟨.inl ⟨hclass ▸ hnonempty, hclass, hclass ▸ hspan⟩, hflag⟩
      · exact ⟨.inr h, hflag⟩
    · rintro ⟨⟨-, hclass, hspan⟩ | h, hflag⟩
      · rw [hclass] at hspan
        exact .inl ⟨hclass, hspan, hflag⟩
      · exact .inr ⟨h, hflag⟩
  | case4 fuel before c rest hmark ih =>
    have hc : ∀ rest', c :: rest ≠ '$' :: '$' :: '.' :: rest' := fun rest' h ↦ by
      obtain ⟨rfl, rfl⟩ := List.cons.inj h
      exact hmark rest' rfl rfl
    refine (ih (Nat.lt_of_succ_lt_succ hf) offset).trans ?_
    rw [occurs_cons_iff hc, String.utf8Len_cons, Nat.add_assoc]
  | case5 fuel before =>
    simp only [partReferencesFrom, List.not_mem_nil, false_iff, not_and]
    intro h
    cases h

theorem mem_ofText (inPath : Bool) (offset : Nat) (text : String) (r : FieldReference) :
    r ∈ partReferencesFrom inPath offset (ofText text) ↔
      Occurs offset text.toList r.className.toList r.span ∧ r.inPath = inPath :=
  mem_readFrom (Nat.lt_succ_self _) inPath offset r

theorem occurs_iff {offset : Nat} {cs name : List Char} {span : Span} :
    Occurs offset cs name span ↔ ∃ before rest, cs = before ++ (mark.toList ++ (name ++ rest)) ∧
      IsName name rest ∧ span = ⟨offset + String.utf8Len before,
        offset + String.utf8Len before + mark.utf8ByteSize + String.utf8Len name⟩ := by
  constructor
  · intro h
    induction h with
    | here offset hname => exact ⟨[], _, rfl, hname, rfl⟩
    | later c _ ih =>
      obtain ⟨before, rest, rfl, hname, rfl⟩ := ih
      exact ⟨c :: before, rest, rfl, hname, by rw [offset_cons]⟩
  · rintro ⟨before, rest, rfl, hname, rfl⟩
    induction before generalizing offset with
    | nil => exact .here offset hname
    | cons c before ih =>
      rw [offset_cons]
      exact ih.later c

theorem Occurs.bounds {offset : Nat} {cs name : List Char} {span : Span} (h : Occurs offset cs name span) :
    offset ≤ span.start ∧ span.start < span.stop ∧ span.stop ≤ offset + String.utf8Len cs := by
  have hmark : mark.utf8ByteSize = 3 ∧ '$'.utf8Size = 1 ∧ '.'.utf8Size = 1 := by decide
  induction h with
  | here offset hname =>
    simp only [String.utf8Len_cons, String.utf8Len_append]
    omega
  | later c _ ih =>
    simp only [String.utf8Len_cons]
    omega

theorem source_bounds {inPath : Bool} {offset : Nat} {parts : List Part} {r : FieldReference}
    (h : r ∈ partReferencesFrom inPath offset parts) : offset ≤ r.span.start := by
  induction parts generalizing offset with
  | nil => cases h
  | cons p parts ih =>
    have hlater : r ∈ partReferencesFrom inPath (offset + p.source.utf8ByteSize) parts →
      offset ≤ r.span.start := fun hr ↦ (Nat.le_add_right _ _).trans (ih hr)
    cases p with
    | text s => exact hlater h
    | field className =>
      rcases List.mem_cons.mp h with rfl | hr
      · exact Nat.le_refl _
      · exact hlater hr

theorem pairwise_partReferences (inPath : Bool) (offset : Nat) (parts : List Part) :
    (partReferencesFrom inPath offset parts).Pairwise fun r r' ↦ r.span.stop ≤ r'.span.start := by
  induction parts generalizing offset with
  | nil => exact .nil
  | cons p parts ih =>
    cases p with
    | text s => exact ih _
    | field className => exact .cons (fun r hr ↦ source_bounds hr) (ih _)

end Part

namespace Segment

variable {offset : Nat}

section

variable (offset : Nat) (text path : String) (rest : List Segment)

theorem occurs_source_cons {name : List Char} {span : Span} :
    Part.Occurs offset (source (.literal text :: .document path :: rest)).toList name span ↔
      Part.Occurs offset text.toList name span ∨
      Part.Occurs (offset + text.utf8ByteSize + marker.utf8ByteSize) path.toList name span ∨
      Part.Occurs (offset + text.utf8ByteSize + (Segment.document path).text.utf8ByteSize)
        (source rest).toList name span := by
  have hsource : (source (.literal text :: .document path :: rest)).toList =
      text.toList ++ '%' :: '%' :: (path.toList ++ '%' :: '%' :: (source rest).toList) := by
    simp [Segment.text, marker]
  have hpercent : '%' ≠ '$' ∧ '%' ≠ '.' ∧ Part.isClassNameChar '%' = false := by decide
  have hone : '%'.utf8Size = 1 ∧ marker.utf8ByteSize = 2 := by decide
  have hdocument : offset + text.utf8ByteSize + (Segment.document path).text.utf8ByteSize =
      offset + text.utf8ByteSize + marker.utf8ByteSize + path.utf8ByteSize + '%'.utf8Size + '%'.utf8Size := by
    simp only [Segment.text, String.utf8ByteSize_append]
    omega
  rw [hsource, Part.occurs_append_cons_iff hpercent, Part.occurs_cons_of_ne hpercent.1,
    Part.occurs_append_cons_iff hpercent, Part.occurs_cons_of_ne hpercent.1, String.utf8Len_toList,
    String.utf8Len_toList, hdocument]
  rfl

theorem fieldReferencesFrom_cons :
    fieldReferencesFrom offset (.literal text :: .document path :: rest) =
      partReferencesFrom false offset (Part.ofText text) ++
        (partReferencesFrom true (offset + text.utf8ByteSize + marker.utf8ByteSize) (Part.ofText path) ++
          fieldReferencesFrom (offset + text.utf8ByteSize + (Segment.document path).text.utf8ByteSize) rest) :=
  rfl

end

theorem fieldReferencesFrom_literal (text : String) :
    fieldReferencesFrom offset [.literal text] = partReferencesFrom false offset (Part.ofText text) :=
  List.append_nil _

variable {segments : List Segment}

theorem mem_fieldReferencesFrom (h : Alternating segments) {className : String} {span : Span} :
    (∃ inPath, ⟨className, span, inPath⟩ ∈ fieldReferencesFrom offset segments) ↔
      Part.Occurs offset (source segments).toList className.toList span := by
  induction h generalizing offset with
  | last text =>
    simp [fieldReferencesFrom_literal, Part.mem_ofText, Segment.text]
  | next text path _ ih =>
    rw [occurs_source_cons, ← ih, fieldReferencesFrom_cons]
    simp [Part.mem_ofText, exists_or]

theorem offset_le_of_mem (h : Alternating segments) {r : FieldReference}
    (hr : r ∈ fieldReferencesFrom offset segments) : offset ≤ r.span.start :=
  ((mem_fieldReferencesFrom h).mp ⟨r.inPath, hr⟩).bounds.1

theorem inPath_iff_between (h : Alternating segments) {r : FieldReference}
    (hr : r ∈ fieldReferencesFrom offset segments) :
    r.inPath = true ↔ ∃ d ∈ documentReferencesFrom offset segments,
      d.span.start < r.span.start ∧ r.span.start + marker.utf8ByteSize < d.span.stop := by
  induction h generalizing offset with
  | last text =>
    rw [fieldReferencesFrom_literal, Part.mem_ofText] at hr
    simp [documentReferencesFrom, hr.2]
  | @next text path rest hrest ih =>
    have hmarker : marker.utf8ByteSize = 2 := rfl
    have hdocument : (Segment.document path).text.utf8ByteSize = path.utf8ByteSize + 4 := by
      simp only [Segment.text, String.utf8ByteSize_append]
      omega
    have hlater : ∀ d ∈ documentReferencesFrom
        (offset + text.utf8ByteSize + (Segment.document path).text.utf8ByteSize) rest,
        offset + text.utf8ByteSize + (Segment.document path).text.utf8ByteSize ≤ d.span.start := by
      intro d hd
      obtain ⟨before, after, -, hspan⟩ := DocumentReference.standsIn_of_mem hd
      rw [hspan]
      exact Nat.le_add_right _ _
    have hreferences : documentReferencesFrom offset (.literal text :: .document path :: rest) =
        ⟨path, ⟨offset + text.utf8ByteSize,
          offset + text.utf8ByteSize + (Segment.document path).text.utf8ByteSize⟩⟩ ::
        documentReferencesFrom
          (offset + text.utf8ByteSize + (Segment.document path).text.utf8ByteSize) rest := rfl
    rw [fieldReferencesFrom_cons, List.mem_append, List.mem_append, Part.mem_ofText, Part.mem_ofText] at hr
    rw [hreferences, List.exists_mem_cons_iff]
    rcases hr with ⟨hoccurs, hflag⟩ | ⟨hoccurs, hflag⟩ | hr
    · -- in front of the first marker
      have hbounds := hoccurs.bounds
      rw [String.utf8Len_toList] at hbounds
      simp only [hflag, Bool.false_eq_true, false_iff, not_or, not_exists, not_and]
      refine ⟨by omega, fun d hd hstart ↦ ?_⟩
      have hle := hlater d hd
      omega
    · have hbounds := hoccurs.bounds
      rw [String.utf8Len_toList] at hbounds
      refine iff_of_true hflag (.inl ⟨?_, ?_⟩)
      · dsimp only
        omega
      · dsimp only
        omega
    · have hle := offset_le_of_mem hrest hr
      rw [ih hr, or_iff_right]
      dsimp only
      omega

end Segment

/-- A reference as it stands in a body: a mark with the longest class name behind it, and whether that is
between the markers of a pair. -/
structure FieldReference.StandsIn (body : String) (r : FieldReference) : Prop where
  occurs : ∃ before after : String, body = before ++ (Part.mark ++ (r.className ++ after)) ∧
    Part.IsName r.className.toList after.toList ∧
    r.span = ⟨before.utf8ByteSize, before.utf8ByteSize + (Part.mark ++ r.className).utf8ByteSize⟩
  inPath_iff : r.inPath = true ↔
    ∃ pair ∈ Segment.markerPairs body, pair.1 < r.span.start ∧ r.span.start < pair.2

namespace FieldReference

theorem occurs_iff_standsIn {body className : String} {span : Span} :
    Part.Occurs 0 body.toList className.toList span ↔
      ∃ before after : String, body = before ++ (Part.mark ++ (className ++ after)) ∧
        Part.IsName className.toList after.toList ∧
        span = ⟨before.utf8ByteSize, before.utf8ByteSize + (Part.mark ++ className).utf8ByteSize⟩ := by
  rw [Part.occurs_iff]
  constructor
  · rintro ⟨before, rest, hbody, hname, rfl⟩
    refine ⟨String.ofList before, String.ofList rest, ?_, ?_, ?_⟩
    · apply String.toList_inj.mp
      simp [hbody]
    · rwa [String.toList_ofList]
    · simp [String.utf8ByteSize_append, String.utf8ByteSize_ofList, Nat.add_assoc]
  · rintro ⟨before, after, rfl, hname, rfl⟩
    refine ⟨before.toList, after.toList, ?_, hname, ?_⟩
    · simp only [String.toList_append]
    · simp [String.utf8ByteSize_append, Nat.add_assoc]

theorem mem_iff_standsIn (body : String) (r : FieldReference) :
    r ∈ fieldReferences body ↔ r.StandsIn body := by
  obtain ⟨hcut, hsource⟩ := Segment.wellCut_ofBody body
  have hoccurs (className : String) (span : Span) :
      (∃ inPath, ⟨className, span, inPath⟩ ∈ fieldReferencesFrom 0 (Segment.ofBody body)) ↔ _ :=
    Segment.mem_fieldReferencesFrom hcut.alternating
  rw [hsource] at hoccurs
  have hpairs (start : Nat) :
      (∃ d ∈ documentReferences body, d.span.start < start ∧ start + Segment.marker.utf8ByteSize < d.span.stop) ↔
        ∃ pair ∈ Segment.markerPairs body, pair.1 < start ∧ start < pair.2 := by
    have hspans : (∃ span ∈ (documentReferences body).map (·.span),
          span.start < start ∧ start + Segment.marker.utf8ByteSize < span.stop) ↔
        ∃ span ∈ (Segment.markerPairs body).map Segment.between,
          span.start < start ∧ start + Segment.marker.utf8ByteSize < span.stop := by
      rw [(documentReferences_between body).1]
    simpa [Segment.between] using hspans
  have hflag {r : FieldReference} (hr : r ∈ fieldReferences body) :
      r.inPath = true ↔ ∃ pair ∈ Segment.markerPairs body, pair.1 < r.span.start ∧ r.span.start < pair.2 :=
    (Segment.inPath_iff_between hcut.alternating hr).trans (hpairs r.span.start)
  constructor
  · intro hr
    exact ⟨occurs_iff_standsIn.mp ((hoccurs _ _).mp ⟨r.inPath, hr⟩), hflag hr⟩
  · rintro ⟨hstands, hinPath⟩
    obtain ⟨inPath, hr⟩ := (hoccurs _ _).mpr (occurs_iff_standsIn.mpr hstands)
    have heq : inPath = r.inPath := Bool.eq_iff_iff.mpr ((hflag hr).trans hinPath.symm)
    rwa [heq] at hr

end FieldReference

end TemplatedForms
