import Mathlib.Data.String.Basic
import TemplatedForms.Proofs.Reference

namespace TemplatedForms

theorem offset_cons (offset : Nat) (c : Char) (cs : List Char) :
    offset + String.utf8Len (c :: cs) = offset + c.utf8Size + String.utf8Len cs := by
  rw [String.utf8Len_cons, Nat.add_assoc, Nat.add_comm c.utf8Size]

namespace Segment

/-- Where the markers of a text start that starts at an offset, from left to right and without overlaps. -/
def markersFrom (offset : Nat) : List Char → List Nat
  | '%' :: '%' :: cs => offset :: markersFrom (offset + 2) cs
  | c :: cs => markersFrom (offset + c.utf8Size) cs
  | [] => []

/-- The first with the second, the third with the fourth, and so on; a last one on its own is left out. -/
def inPairs : List Nat → List (Nat × Nat)
  | m :: n :: rest => (m, n) :: inPairs rest
  | _ => []

def markerPairs (body : String) : List (Nat × Nat) := inPairs (markersFrom 0 body.toList)

def between (pair : Nat × Nat) : Span := ⟨pair.1, pair.2 + marker.utf8ByteSize⟩

theorem markersFrom_cons {c : Char} {cs : List Char} (h : ¬marker.toList <+: c :: cs) (offset : Nat) :
    markersFrom offset (c :: cs) = markersFrom (offset + c.utf8Size) cs := by
  rw [markersFrom]
  rintro cs' rfl rfl
  exact h (List.prefix_append _ _)

theorem markersFrom_of_no_marker {cs : List Char} (h : ¬marker.toList <:+: cs) (offset : Nat) :
    markersFrom offset cs = [] := by
  induction cs generalizing offset with
  | nil => rfl
  | cons c cs ih =>
    rw [markersFrom_cons fun hc ↦ h hc.isInfix]
    exact ih (fun hcs ↦ h (hcs.trans (List.suffix_cons c cs).isInfix)) _

theorem markersFrom_of_clear {front : List Char} (h : Text.Clear marker.toList front) (offset : Nat)
    (rest : List Char) :
    markersFrom offset (front ++ (marker.toList ++ rest)) =
      (offset + String.utf8Len front) :: markersFrom (offset + String.utf8Len front + 2) rest := by
  induction front generalizing offset with
  | nil => rfl
  | cons c front ih =>
    have hprefix := h.not_prefix rest
    rw [List.cons_append] at hprefix ⊢
    rw [markersFrom_cons hprefix, ih h.tail, offset_cons]

theorem inPairs_of_not_paired {text : String} (h : ¬Paired text) (offset : Nat) :
    inPairs (markersFrom offset text.toList) = [] := by
  cases hcut : Text.cut? marker.toList text.toList with
  | none =>
    rw [markersFrom_of_no_marker ((Text.cut?_eq_none marker_ne_nil).mp hcut)]
    rfl
  | some r =>
    obtain ⟨front, rest⟩ := r
    obtain ⟨htext, hfront⟩ := (Text.cut?_eq_some marker_ne_nil).mp hcut
    have hrest : ¬marker.toList <:+: rest := by
      rintro ⟨path, after, hrest⟩
      refine h ⟨String.ofList front, String.ofList path, String.ofList after, ?_⟩
      apply String.toList_inj.mp
      simp [htext, ← hrest]
    rw [htext, markersFrom_of_clear hfront, markersFrom_of_no_marker hrest]
    rfl

theorem spans_of_wellCut {segments : List Segment} (h : WellCut segments) (offset : Nat) :
    (documentReferencesFrom offset segments).map (·.span) =
      (inPairs (markersFrom offset (source segments).toList)).map between := by
  induction h generalizing offset with
  | @last text h =>
    rw [source_cons, source_nil, String.append_empty, Segment.text, inPairs_of_not_paired h]
    rfl
  | @next text path rest ht hp _ ih =>
    have hsource : (source (.literal text :: .document path :: rest)).toList =
        text.toList ++ (marker.toList ++ (path.toList ++ (marker.toList ++ (source rest).toList))) := by
      simp only [source_cons, Segment.text, String.toList_append, List.append_assoc]
    rw [hsource, markersFrom_of_clear ht, markersFrom_of_clear hp, inPairs, List.map_cons,
      String.utf8Len_toList, String.utf8Len_toList]
    simp only [documentReferencesFrom, List.map_cons, ih, between, Segment.text, String.utf8ByteSize_append]
    simp only [← Nat.add_assoc]
    rfl

end Segment

namespace DocumentReference

/-- A reference as it stands in a text that starts at an offset: its span is that of its path with the
markers around it. -/
def StandsIn (offset : Nat) (text : String) (r : DocumentReference) : Prop :=
  ∃ before after : String, text = before ++ ((Segment.document r.path).text ++ after) ∧
    r.span = ⟨offset + before.utf8ByteSize,
      offset + before.utf8ByteSize + (Segment.document r.path).text.utf8ByteSize⟩

theorem StandsIn.behind {front text : String} {offset : Nat} {r : DocumentReference}
    (h : r.StandsIn (offset + front.utf8ByteSize) text) : r.StandsIn offset (front ++ text) := by
  obtain ⟨before, after, rfl, hspan⟩ := h
  refine ⟨front ++ before, after, by rw [String.append_assoc], ?_⟩
  rw [hspan, String.utf8ByteSize_append, Nat.add_assoc offset]

theorem standsIn_of_mem {offset : Nat} {segments : List Segment} {r : DocumentReference}
    (h : r ∈ documentReferencesFrom offset segments) : r.StandsIn offset (Segment.source segments) := by
  induction segments generalizing offset with
  | nil => cases h
  | cons s segments ih =>
    rw [Segment.source_cons]
    cases s with
    | literal text => exact (ih h).behind
    | document path =>
      rcases List.mem_cons.mp h with rfl | hr
      · exact ⟨"", Segment.source segments, by simp, by simp⟩
      · exact (ih hr).behind

end DocumentReference

theorem documentReferences_between (body : String) :
    (documentReferences body).map (·.span) = (Segment.markerPairs body).map Segment.between ∧
      ∀ r ∈ documentReferences body, r.StandsIn 0 body := by
  obtain ⟨hcut, hsource⟩ := Segment.wellCut_ofBody body
  constructor
  · rw [documentReferences, Segment.spans_of_wellCut hcut, hsource]
    rfl
  · intro r hr
    rw [← hsource]
    exact DocumentReference.standsIn_of_mem hr

end TemplatedForms
