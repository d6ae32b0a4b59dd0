import TemplatedForms.Proofs.Reference
import TemplatedForms.Resolution

namespace TemplatedForms

namespace Segment

variable (values : Entries Value)

def filled : Segment → Segment
  | .literal text => .literal (Part.fill quoteLiteral values text)
  | .document path => .document (Part.fill id values path)

theorem text_filled (s : Segment) : (s.filled values).text = s.fill values := by
  cases s <;> rfl

def ofFilled (body : String) : List Segment := (ofBody body).map (filled values)

theorem source_ofFilled (body : String) : source (ofFilled values body) = resolveFields values body := by
  rw [source, ofFilled, resolveFields, List.map_map]
  exact congrArg String.join (List.map_congr_left fun s _ ↦ text_filled values s)

theorem paths_filled (offset offset' : Nat) (segments : List Segment) :
    (documentReferencesFrom offset (segments.map (filled values))).map (·.path) =
      (documentReferencesFrom offset' segments).map fun r ↦ Part.fill id values r.path := by
  induction segments generalizing offset offset' with
  | nil => rfl
  | cons s segments ih =>
    cases s with
    | literal text => exact ih _ _
    | document path => exact congrArg (_ :: ·) (ih _ _)

theorem Alternating.filled (values : Entries Value) {segments : List Segment} (h : Alternating segments) :
    Alternating (segments.map (Segment.filled values)) := by
  induction h with
  | last _ => exact .last _
  | next _ _ _ ih => exact .next _ _ ih

end Segment

theorem literalChar_cases (c : Char) :
    literalChar c = [c] ∨ ∃ d, literalChar c = ['\\', d] ∧ c ≠ '%' ∧ d ≠ '%' := by
  unfold literalChar
  split
  · exact .inr ⟨_, rfl, by decide, by decide⟩
  · exact .inr ⟨_, rfl, by decide, by decide⟩
  · exact .inr ⟨_, rfl, by decide, by decide⟩
  · exact .inr ⟨_, rfl, by decide, by decide⟩
  · exact .inl rfl

namespace Segment

theorem not_mem_marker {c : Char} (h : c ≠ '%') : c ∉ marker.toList := by
  have hmarker : marker.toList = ['%', '%'] := rfl
  simp [hmarker, h]

theorem infix_literal (front text : List Char) :
    marker.toList <:+: front ++ text.flatMap literalChar ↔ marker.toList <:+: front ++ text := by
  induction text generalizing front with
  | nil => rfl
  | cons c text ih =>
    rw [List.flatMap_cons]
    rcases literalChar_cases c with hc | ⟨d, hc, hne, hd⟩
    · have hfront := ih (front ++ [c])
      rw [hc]
      simpa using hfront
    · have hslash : '\\' ∉ marker.toList := not_mem_marker (by decide)
      have hescape : marker.toList <:+: [] ++ d :: text.flatMap literalChar ↔ _ :=
        Text.infix_append_cons marker_ne_nil (not_mem_marker hd)
      have htext := ih []
      simp only [List.nil_append, List.infix_nil, marker_ne_nil, false_or] at hescape htext
      rw [hc, List.cons_append, List.cons_append, List.nil_append,
        Text.infix_append_cons marker_ne_nil hslash, hescape, htext,
        Text.infix_append_cons marker_ne_nil (not_mem_marker hne)]

def Marked (text : String) : Prop := marker.toList <:+: text.toList

instance (text : String) : Decidable (Marked text) := inferInstanceAs (Decidable (_ <:+: _))

theorem clear_filled (values : Entries Value) {parts : List Part} (h : Part.Alternating parts)
    (hclear : Clear (String.join (parts.map Part.source))) :
    Clear (String.join (parts.map (Part.filled quoteLiteral values))) ↔
      ∀ className, .field className ∈ parts → ¬Marked (fieldText values className) := by
  induction h with
  | last s => simpa [String.join_cons, Part.filled, Part.source] using hclear
  | @next s className parts _ ih =>
    have hsource : (String.join ((Part.text s :: .field className :: parts).map Part.source)).toList =
        s.toList ++ '$' :: ('$' :: '.' :: className.toList ++
          (String.join (parts.map Part.source)).toList) := by
      simp [String.join_cons, Part.source, Part.mark]
    have hfilled : (String.join ((Part.text s :: .field className :: parts).map
        (Part.filled quoteLiteral values))).toList =
        s.toList ++ '\'' :: ((fieldText values className).toList.flatMap literalChar ++ '\'' ::
          (String.join (parts.map (Part.filled quoteLiteral values))).toList) := by
      simp [String.join_cons, Part.filled, quoteLiteral]
    have hquote : '\'' ∉ marker.toList := not_mem_marker (by decide)
    rw [Clear, hsource, Text.clear_append_cons marker_ne_nil (not_mem_marker (by decide))] at hclear
    have hvalue := infix_literal [] (fieldText values className).toList
    rw [List.nil_append, List.nil_append] at hvalue
    rw [Clear, hfilled, Text.clear_append_cons marker_ne_nil hquote,
      Text.clear_append_cons marker_ne_nil hquote, ← Clear, ih hclear.2.suffix, hvalue]
    simp [hclear.1, Marked]

theorem clear_fill_quoteLiteral (values : Entries Value) {text : String} (h : Clear text) :
    Clear (Part.fill quoteLiteral values text) ↔
      ∀ className, .field className ∈ Part.ofText text → ¬Marked (fieldText values className) :=
  clear_filled values (Part.alternating_ofText text) (by rwa [Part.source_ofText])

/-- What keeps the documents of a body when its fields are filled in: no value that is quoted in front of
one holds a marker, no path holds one or ends in a percent sign with its values, and the text behind them
does not hold two. -/
inductive Undisturbed (values : Entries Value) : List Segment → Prop
  | last {text : String} :
      ¬Paired (Part.fill quoteLiteral values text) → Undisturbed values [.literal text]
  | next {text path : String} {rest : List Segment} :
      (∀ className, .field className ∈ Part.ofText text → ¬Marked (fieldText values className)) →
      Clear (Part.fill id values path) → Undisturbed values rest →
      Undisturbed values (.literal text :: .document path :: rest)

theorem wellCut_filled_iff (values : Entries Value) {segments : List Segment} (h : WellCut segments) :
    WellCut (segments.map (filled values)) ↔ Undisturbed values segments := by
  induction h with
  | @last text _ =>
    constructor
    · rintro (⟨h⟩ | _)
      exact .last h
    · rintro (⟨h⟩ | _)
      exact .last h
  | @next text path rest ht _ _ ih =>
    constructor
    · rintro (_ | ⟨htext, hpath, hrest⟩)
      exact .next ((clear_fill_quoteLiteral values ht).mp htext) hpath (ih.mp hrest)
    · rintro (_ | ⟨htext, hpath, hrest⟩)
      exact .next ((clear_fill_quoteLiteral values ht).mpr htext) hpath (ih.mpr hrest)

end Segment

/-- The document references of a body, each with its path filled in, are those of the filled body, in
their places, exactly when no value disturbs them. -/
theorem document_references_kept_iff (values : Entries Value) (body : String) :
    (documentReferencesFrom 0 (Segment.ofFilled values body)).map (·.path) =
        (documentReferences body).map (fun r ↦ Part.fill id values r.path) ∧
    (documentReferences (resolveFields values body) =
        documentReferencesFrom 0 (Segment.ofFilled values body) ↔
      Segment.Undisturbed values (Segment.ofBody body)) := by
  refine ⟨Segment.paths_filled values 0 0 _, ?_⟩
  have hsource := Segment.source_ofFilled values body
  obtain ⟨hbody, -⟩ := Segment.wellCut_ofBody body
  rw [← Segment.wellCut_filled_iff values hbody, ← Segment.ofBody_source_iff, ← Segment.ofFilled,
    hsource, documentReferences]
  refine ⟨fun h ↦ ?_, congrArg _⟩
  obtain ⟨hcut, hjoin⟩ := Segment.wellCut_ofBody (resolveFields values body)
  exact hcut.alternating.eq_of_references (hbody.alternating.filled values)
    (hjoin.trans hsource.symm) h

/-- A value with markers is a document reference to the next pass, though it is in quotes. -/
theorem quoted_value_is_document_reference :
    (documentReferences (resolveFields [("a", .string "%%x.md%%")] "$$.a")).map (·.path) ≠
      (documentReferences "$$.a").map fun r ↦ Part.fill id [("a", .string "%%x.md%%")] r.path := by
  have hafter : documentReferences (resolveFields [("a", .string "%%x.md%%")] "$$.a") =
    [⟨"x.md", ⟨1, 9⟩⟩] := rfl
  have hbefore : documentReferences "$$.a" = [] := rfl
  rw [hafter, hbefore]
  exact List.cons_ne_nil _ _

end TemplatedForms
