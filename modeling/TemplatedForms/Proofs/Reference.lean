import TemplatedForms.Proofs.Text.Search
import TemplatedForms.Reference

namespace TemplatedForms

theorem append_eq_of_size {s s' t t' : String} (h : s ++ t = s' ++ t')
    (hsize : s.utf8ByteSize = s'.utf8ByteSize) : s = s' ∧ t = t' := by
  have hbytes := congrArg String.toByteArray h
  rw [String.toByteArray_append, String.toByteArray_append] at hbytes
  obtain rfl := String.toByteArray_inj.mp (ByteArray.append_inj_left hbytes hsize)
  exact ⟨rfl, (String.append_right_inj s).mp h⟩

namespace Segment

theorem marker_ne_nil : marker.toList ≠ [] := by decide

/-- No marker starts inside of a text when a marker follows it: it holds none, and no percent sign ends
it. -/
def Clear (text : String) : Prop := Text.Clear marker.toList text.toList

def Paired (text : String) : Prop :=
  ∃ before path after : String, text = before ++ (marker ++ (path ++ (marker ++ after)))

/-- Literal texts and documents take turns, and all markers of the whole text are those around the
documents; but for one without a partner, behind them. -/
inductive WellCut : List Segment → Prop
  | last {text : String} : ¬Paired text → WellCut [.literal text]
  | next {text path : String} {rest : List Segment} :
      Clear text → Clear path → WellCut rest → WellCut (.literal text :: .document path :: rest)

def source (segments : List Segment) : String := String.join (segments.map text)

@[simp] theorem source_cons (s : Segment) (segments : List Segment) :
    source (s :: segments) = s.text ++ source segments := String.join_cons

@[simp] theorem source_nil : source [] = "" := String.join_nil

theorem cut?_of_clear {text rest : String} (h : Clear text) :
    Text.cut? marker.toList (text ++ (marker ++ rest)).toList = some (text.toList, rest.toList) :=
  (Text.cut?_eq_some marker_ne_nil).mpr ⟨by simp only [String.toList_append], h⟩

theorem ofBody_of_clear {text path rest : String} (ht : Clear text) (hp : Clear path) :
    ofBody (text ++ (marker ++ (path ++ (marker ++ rest)))) =
      .literal text :: .document path :: ofBody rest := by
  have hpieces : ∃ p ps, Text.pieces marker.toList rest.toList = p :: ps := by
    cases hcut : Text.cut? marker.toList rest.toList with
    | none => exact ⟨_, _, Text.pieces_of_none marker_ne_nil hcut⟩
    | some r => exact ⟨_, _, Text.pieces_of_some marker_ne_nil hcut⟩
  obtain ⟨p, ps, hps⟩ := hpieces
  rw [ofBody, ofBody, Text.pieces_of_some marker_ne_nil (cut?_of_clear ht),
    Text.pieces_of_some marker_ne_nil (cut?_of_clear hp), hps]
  simp [ofPieces]

theorem ofBody_cases (body : String) :
    ofBody body = [.literal body] ∧ ¬Paired body ∨
      ∃ text path rest : String, body = text ++ (marker ++ (path ++ (marker ++ rest))) ∧
        Clear text ∧ Clear path := by
  cases hcut : Text.cut? marker.toList body.toList with
  | none =>
    refine .inl ⟨by simp [ofBody, Text.pieces_of_none marker_ne_nil hcut, ofPieces], ?_⟩
    rintro ⟨before, path, after, rfl⟩
    have hno := (Text.cut?_eq_none marker_ne_nil).mp hcut
    simp only [String.toList_append] at hno
    exact hno (List.infix_append' _ _ _)
  | some r =>
    obtain ⟨front, rest⟩ := r
    obtain ⟨hbody, hfront⟩ := (Text.cut?_eq_some marker_ne_nil).mp hcut
    cases hcut' : Text.cut? marker.toList rest with
    | none =>
      have hpieces := Text.pieces_of_some marker_ne_nil hcut
      rw [Text.pieces_of_none marker_ne_nil hcut'] at hpieces
      have hno := (Text.cut?_eq_none marker_ne_nil).mp hcut'
      refine .inl ⟨?_, ?_⟩
      · have htext : String.ofList front ++ marker ++ String.ofList rest = body := by
          apply String.toList_inj.mp
          simp [hbody]
        simp only [ofBody, hpieces, List.map_cons, List.map_nil, ofPieces, htext]
      · rintro ⟨before, path, after, rfl⟩
        simp only [String.toList_append] at hcut
        have hsuffix := Text.suffix_of_cut? marker_ne_nil hcut
        exact hno ((List.infix_append' _ _ _).trans hsuffix.isInfix)
    | some r' =>
      obtain ⟨path, rest'⟩ := r'
      obtain ⟨rfl, hpath⟩ := (Text.cut?_eq_some marker_ne_nil).mp hcut'
      refine .inr ⟨String.ofList front, String.ofList path, String.ofList rest', ?_, ?_, ?_⟩
      · apply String.toList_inj.mp
        simp [hbody]
      · rwa [Clear, String.toList_ofList]
      · rwa [Clear, String.toList_ofList]

theorem ofBody_of_not_paired {body : String} (h : ¬Paired body) : ofBody body = [.literal body] := by
  rcases ofBody_cases body with ⟨hbody, -⟩ | ⟨text, path, rest, rfl, -⟩
  · exact hbody
  · exact absurd ⟨text, path, rest, rfl⟩ h

theorem ofBody_of_no_marker {body : String} (h : ¬marker.toList <:+: body.toList) :
    ofBody body = [.literal body] := by
  refine ofBody_of_not_paired ?_
  rintro ⟨before, path, after, rfl⟩
  simp only [String.toList_append] at h
  exact h (List.infix_append' _ _ _)

theorem ofBody_source {segments : List Segment} (h : WellCut segments) :
    ofBody (source segments) = segments := by
  induction h with
  | @last text h =>
    rw [source_cons, source_nil, String.append_empty]
    exact ofBody_of_not_paired h
  | @next text path rest ht hp _ ih =>
    have hsource : source (.literal text :: .document path :: rest) =
        text ++ (marker ++ (path ++ (marker ++ source rest))) := by
      simp only [source_cons, Segment.text, String.append_assoc]
    rw [hsource, ofBody_of_clear ht hp, ih]

theorem wellCut_ofBody (body : String) : WellCut (ofBody body) ∧ source (ofBody body) = body := by
  induction hn : body.length using Nat.strongRecOn generalizing body with
  | _ n ih =>
    rcases ofBody_cases body with ⟨hbody, hpaired⟩ | ⟨text, path, rest, rfl, ht, hp⟩
    · rw [hbody]
      exact ⟨.last hpaired, by simp [Segment.text]⟩
    · have hlt : rest.length < n := by
        rw [← hn]
        simp only [String.length_append, show marker.length = 2 from rfl]
        omega
      obtain ⟨hcut, hsource⟩ := ih _ hlt rest rfl
      rw [ofBody_of_clear ht hp]
      refine ⟨.next ht hp hcut, ?_⟩
      simp only [source_cons, Segment.text, hsource, String.append_assoc]

theorem ofBody_source_iff {segments : List Segment} :
    ofBody (source segments) = segments ↔ WellCut segments := by
  refine ⟨fun h ↦ ?_, ofBody_source⟩
  rw [← h]
  exact (wellCut_ofBody _).1

/-- Literal texts and documents take turns, with literal texts at both ends. -/
inductive Alternating : List Segment → Prop
  | last (text : String) : Alternating [.literal text]
  | next (text path : String) {rest : List Segment} :
      Alternating rest → Alternating (.literal text :: .document path :: rest)

theorem WellCut.alternating {segments : List Segment} (h : WellCut segments) : Alternating segments := by
  induction h with
  | last _ => exact .last _
  | next _ _ _ ih => exact .next _ _ ih

/-- Where the documents of a text are determines how it is cut. -/
theorem Alternating.eq_of_references {segments segments' : List Segment} (h : Alternating segments)
    (h' : Alternating segments') (hsource : source segments = source segments') {offset : Nat}
    (hrefs : documentReferencesFrom offset segments = documentReferencesFrom offset segments') :
    segments = segments' := by
  induction h generalizing segments' offset with
  | last text =>
    cases h' with
    | last text' => simpa [Segment.text] using hsource
    | next text' path' _ => cases hrefs
  | next text path _ ih =>
    cases h' with
    | last text' => cases hrefs
    | next text' path' h' =>
      obtain ⟨hhead, htail⟩ := List.cons.inj hrefs
      obtain ⟨rfl, hspan⟩ := DocumentReference.mk.inj hhead
      obtain ⟨hstart, -⟩ := Span.mk.inj hspan
      -- the literal text in front of both ends where the first reference starts
      simp only [source_cons] at hsource
      have htext : text = text' := (append_eq_of_size hsource (Nat.add_left_cancel hstart)).1
      subst htext
      have hbehind := (String.append_right_inj _).mp hsource
      have hrest := (String.append_right_inj _).mp hbehind
      rw [ih h' hrest htail]

end Segment

namespace Part

inductive Alternating : List Part → Prop
  | last (s : String) : Alternating [.text s]
  | next (s className : String) {parts : List Part} :
      Alternating parts → Alternating (.text s :: .field className :: parts)

theorem alternating_readFrom (fuel : Nat) (before cs : List Char) :
    Alternating (readFrom fuel before cs) := by
  fun_induction readFrom fuel before cs with
  | case1 => exact .last _
  | case2 _ _ _ _ _ ih => exact ih
  | case3 _ _ _ _ _ ih => exact .next _ _ ih
  | case4 _ _ _ _ _ ih => exact ih
  | case5 => exact .last _

theorem alternating_ofText (text : String) : Alternating (ofText text) :=
  alternating_readFrom _ _ _

theorem source_readFrom (fuel : Nat) (before cs : List Char) :
    String.join ((readFrom fuel before cs).map source) = String.ofList (before.reverse ++ cs) := by
  fun_induction readFrom fuel before cs with
  | case1 before cs => simp [source, String.join_cons]
  | case2 fuel before rest name _ ih => simpa using ih
  | case3 fuel before rest name _ ih =>
    have hrest : name ++ rest.dropWhile isClassNameChar = rest := List.takeWhile_append_dropWhile
    apply String.toList_inj.mp
    simp only [List.map_cons, String.join_cons, ih, source, String.toList_append, String.toList_ofList,
      List.reverse_nil, List.nil_append, List.append_assoc, hrest]
    rfl
  | case4 fuel before c rest _ ih => simpa using ih
  | case5 fuel before => simp [source, String.join_cons]

theorem source_ofText (text : String) : String.join ((ofText text).map source) = text := by
  rw [ofText, source_readFrom]
  exact String.ofList_toList

end Part

end TemplatedForms
