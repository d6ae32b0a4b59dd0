import TemplatedForms.Evaluation.Globals
import TemplatedForms.Proofs.Text.Length

namespace TemplatedForms

variable {φ : Type}

theorem displayItems_texts (parts : List String) :
    Value.displayItems (parts.map .string) = parts := by
  induction parts with
  | nil => rfl
  | cons s parts ih => exact congrArg (s :: ·) ih

theorem checkLength_of_le {bytes : Nat} (h : bytes ≤ maxStringLength) : checkLength bytes = .ok () := if_pos h

namespace ListMethod

theorem join_texts (separator : String) (parts : List String) :
    join separator (parts.map .string) = do
      checkLength (separator.intercalate parts).utf8ByteSize
      return separator.intercalate parts := by
  rw [join, displayItems_texts, utf8ByteSize_intercalate]

end ListMethod

namespace TextMethod

theorem intercalate_singletons (cs : List Char) :
    ([] : List Char).intercalate (cs.map fun c ↦ [c]) = cs := by
  induction cs with
  | nil => rfl
  | cons c cs ih =>
    rcases eq_or_ne cs [] with rfl | hne
    · exact List.intercalate_singleton
    · rw [List.map_cons, List.intercalate_cons_of_ne_nil (by simpa using hne), ih]
      rfl

theorem split_of_ne {separator : String} (h : separator ≠ "") (s : String) :
    split s separator = (Text.pieces separator.toList s.toList).map String.ofList := by
  rw [split, if_neg (by simpa using h)]

theorem split_ne_nil {separator : String} (h : separator ≠ "") (s : String) : split s separator ≠ [] := by
  rw [split_of_ne h]
  simpa using Text.pieces_ne_nil (by simpa using h) s.toList

theorem not_infix_of_mem_split {separator : String} (h : separator ≠ "") {s : String} :
    ∀ part ∈ split s separator, ¬separator.toList <:+: part.toList := by
  rw [split_of_ne h]
  intro part hpart
  obtain ⟨piece, hpiece, rfl⟩ := List.mem_map.mp hpart
  rw [String.toList_ofList]
  exact (Text.pieces_spec (by simpa using h) s.toList).2 piece hpiece

theorem intercalate_split (s separator : String) : separator.intercalate (split s separator) = s := by
  rw [← String.toList_inj, String.toList_intercalate]
  by_cases h : separator = ""
  · subst h
    have hsplit : split s "" = s.toList.map String.singleton := if_pos rfl
    rw [hsplit, List.map_map]
    simpa [Function.comp_def] using intercalate_singletons s.toList
  · rw [split_of_ne h, List.map_map]
    simpa [Function.comp_def] using (Text.pieces_spec (by simpa using h) s.toList).1

theorem joinOnto_of_le {replacement out : String} {pieces : List (List Char)}
    (h : (replacement.intercalate (out :: pieces.map String.ofList)).utf8ByteSize ≤ maxStringLength) :
    joinOnto replacement out pieces = .ok (replacement.intercalate (out :: pieces.map String.ofList)) := by
  induction pieces generalizing out with
  | nil => rw [joinOnto, List.map_nil, String.intercalate_singleton]
  | cons piece pieces ih =>
    rw [List.map_cons] at h ⊢
    have hcons : replacement.intercalate
        ((out ++ replacement ++ String.ofList piece) :: pieces.map String.ofList) =
        replacement.intercalate (out :: String.ofList piece :: pieces.map String.ofList) := by
      rw [String.intercalate_cons_append, String.intercalate_cons_cons]
    have hle : out.utf8ByteSize + replacement.utf8ByteSize ≤ maxStringLength := by
      rw [String.intercalate_cons_cons, String.utf8ByteSize_append, String.utf8ByteSize_append] at h
      omega
    rw [joinOnto, checkLength_of_le hle]
    rw [← hcons] at h ⊢
    exact ih h

end TextMethod

open TextMethod ListMethod

theorem callMethod_split (s : String) (p : Value) :
    callMethod (φ := φ) (.string s) "split" [.value p] =
      .done (.array ((if p.isUndefined then [s] else split s p.display).map .string)) := rfl

theorem callMethod_join_texts (parts : List String) (p : Value) :
    callMethod (φ := φ) (.array (parts.map .string)) "join" [.value p] =
      let joined := (if p.isUndefined then "," else p.display).intercalate parts
      if joined.utf8ByteSize ≤ maxStringLength then .done (.string joined)
      else .fail (.stringTooLong maxStringLength) := by
  have hcall : callMethod (φ := φ) (.array (parts.map .string)) "join" [.value p] =
      .ofExcept (join (if p.isUndefined then "," else p.display) (parts.map .string) >>= fun s ↦
        pure (.string s)) := rfl
  rw [hcall, join_texts, checkLength]
  generalize (if p.isUndefined then "," else p.display) = separator
  dsimp only
  split <;> rfl

theorem callMethod_join_string (parts : List String) (r : String) :
    callMethod (φ := φ) (.array (parts.map .string)) "join" [.value (.string r)] =
      if (r.intercalate parts).utf8ByteSize ≤ maxStringLength then .done (.string (r.intercalate parts))
      else .fail (.stringTooLong maxStringLength) := callMethod_join_texts parts (.string r)

theorem map_replace {all : Bool} {s p r : String} {first : List Char} {others : List (List Char)}
    (hpieces : replacedPieces all p s = first :: others) (name : String) :
    Value.string <$> replace (φ := φ) all s ⟨name, [.value (.string p), .value (.string r)]⟩ =
      .ofExcept (Value.string <$> joinOnto r (String.ofList first) others) := by
  let args : Args φ := ⟨name, [.value (.string p), .value (.string r)]⟩
  have htext : args.text 0 = .ok p := rfl
  have hok (k : String → Routine φ String) :
      ((liftM (Except.ok p : Except EvalError String) : Routine φ String) >>= k) = k p := rfl
  rw [replace, htext, hok, hpieces]
  change Value.string <$> Routine.ofExcept (joinOnto r (String.ofList first) others) = _
  cases joinOnto r (String.ofList first) others <;> rfl

section

variable {s p r : String} (hp : p ≠ "")

include hp

theorem callMethod_replaceAll (h : (r.intercalate (split s p)).utf8ByteSize ≤ maxStringLength) :
    callMethod (φ := φ) (.string s) "replaceAll" [.value (.string p), .value (.string r)] =
      .done (.string (r.intercalate (split s p))) := by
  obtain ⟨first, others, hpieces⟩ :=
    List.exists_cons_of_ne_nil (Text.pieces_ne_nil (p := p.toList) (by simpa using hp) s.toList)
  have hreplaced : replacedPieces true p s = first :: others := hpieces
  rw [split_of_ne hp, hpieces] at h ⊢
  refine (map_replace hreplaced "replaceAll").trans ?_
  rw [joinOnto_of_le h]
  rfl

theorem callMethod_replace {first : String} {others : List String} (hsplit : split s p = first :: others) :
    callMethod (φ := φ) (.string s) "replace" [.value (.string p), .value (.string r)] =
      if others = [] ∨ first.utf8ByteSize + r.utf8ByteSize ≤ maxStringLength then
        .done (.string (if p.toList <:+: s.toList then first ++ r ++ p.intercalate others else s))
      else .fail (.stringTooLong maxStringLength) := by
  have hp' : p.toList ≠ [] := by simpa using hp
  cases hcut : Text.cut? p.toList s.toList with
  | none =>
    have hreplaced : replacedPieces false p s = [s.toList] := by rw [replacedPieces, hcut]; rfl
    have hothers : others = [] := by
      rw [split_of_ne hp, Text.pieces_of_none hp' hcut] at hsplit
      exact (List.cons.inj hsplit).2.symm
    rw [if_pos (.inl hothers), if_neg ((Text.cut?_eq_none hp').mp hcut)]
    refine (map_replace hreplaced "replace").trans ?_
    rw [joinOnto, String.ofList_toList]
    rfl
  | some found =>
    obtain ⟨before, after⟩ := found
    have hreplaced : replacedPieces false p s = [before, after] := by rw [replacedPieces, hcut]; rfl
    have hinfix : p.toList <:+: s.toList := by
      by_contra hnot
      rw [(Text.cut?_eq_none hp').mpr hnot] at hcut
      cases hcut
    -- the other parts are those of what is behind the first occurrence
    have hafter : first = String.ofList before ∧ others = split (String.ofList after) p := by
      rw [split_of_ne hp, Text.pieces_of_some hp' hcut, List.map_cons] at hsplit
      rw [split_of_ne hp, String.toList_ofList]
      exact (List.cons.inj hsplit).imp Eq.symm Eq.symm
    obtain ⟨rfl, rfl⟩ := hafter
    refine (map_replace hreplaced "replace").trans ?_
    rw [if_pos hinfix, intercalate_split, joinOnto, checkLength]
    by_cases hle : (String.ofList before).utf8ByteSize + r.utf8ByteSize ≤ maxStringLength
    · rw [if_pos hle, if_pos (.inr hle)]
      rfl
    · rw [if_neg hle, if_neg (not_or.mpr ⟨split_ne_nil hp _, hle⟩)]
      rfl

end

/-- The parts of a text between the occurrences of a separator, joined by the separator, are the text. They
do not hold the separator; joined by another text, if that is not too long, they are the text with all
occurrences replaced. Replacing the first occurrence changes nothing behind it. -/
theorem split_parts_fit_together (s : String) (hs : s.utf8ByteSize ≤ maxStringLength) :
    (∀ p : Value, ∃ items, callMethod (φ := φ) (.string s) "split" [.value p] = .done (.array items) ∧
      callMethod (φ := φ) (.array items) "join" [.value p] = .done (.string s)) ∧
    ∀ p : String, p ≠ "" → ∃ first others,
      callMethod (φ := φ) (.string s) "split" [.value (.string p)] =
        .done (.array ((first :: others).map .string)) ∧
      (∀ part ∈ first :: others, ¬p.toList <:+: part.toList) ∧
      ∀ r : String,
        let joined := callMethod (φ := φ) (.array ((first :: others).map .string)) "join" [.value (.string r)]
        let allReplaced :=
          callMethod (φ := φ) (.string s) "replaceAll" [.value (.string p), .value (.string r)]
        let replaced := callMethod (φ := φ) (.string s) "replace" [.value (.string p), .value (.string r)]
        (∀ v, joined = .done v → allReplaced = .done v ∧ ∃ w, replaced = .done w) ∧
        ∀ v, replaced = .done v →
          v = .string (if p.toList <:+: s.toList then first ++ r ++ p.intercalate others else s) := by
  constructor
  · intro p
    refine ⟨_, callMethod_split s p, ?_⟩
    have hjoined : (if p.isUndefined then "," else p.display).intercalate
        (if p.isUndefined then [s] else split s p.display) = s := by
      split
      · exact String.intercalate_singleton
      · exact intercalate_split s p.display
    rw [callMethod_join_texts]
    dsimp only
    rw [hjoined, if_pos hs]
  · intro p hp
    obtain ⟨first, others, hsplit⟩ := List.exists_cons_of_ne_nil (split_ne_nil hp s)
    have hparts : callMethod (φ := φ) (.string s) "split" [.value (.string p)] =
        .done (.array ((first :: others).map .string)) := by
      rw [callMethod_split, ← hsplit]
      rfl
    refine ⟨first, others, hparts, hsplit ▸ not_infix_of_mem_split hp, fun r ↦ ⟨?_, ?_⟩⟩
    · intro v hv
      rw [callMethod_join_string] at hv
      split at hv
      · next hle =>
        obtain rfl := Routine.done.inj hv
        have hshort : others = [] ∨ first.utf8ByteSize + r.utf8ByteSize ≤ maxStringLength := by
          refine or_iff_not_imp_left.mpr fun hothers ↦ ?_
          rw [String.intercalate_cons_of_ne_nil hothers, String.utf8ByteSize_append,
            String.utf8ByteSize_append] at hle
          omega
        exact ⟨hsplit ▸ callMethod_replaceAll hp (hsplit.symm ▸ hle), _,
          (callMethod_replace hp hsplit).trans (if_pos hshort)⟩
      · cases hv
    · intro v hv
      rw [callMethod_replace hp hsplit] at hv
      split at hv
      · exact (Routine.done.inj hv).symm
      · cases hv

theorem split_parts_fit_together_overlapping :
    "aaa".utf8ByteSize ≤ maxStringLength ∧
      callMethod (φ := Empty) (.string "aaa") "replaceAll" [.value (.string "aa"), .value (.string "é")] =
        .done (.string "éa") := by
  have hs : "aaa".utf8ByteSize ≤ maxStringLength := by decide
  have hparts : callMethod (φ := Empty) (.string "aaa") "split" [.value (.string "aa")] =
      .done (.array (["", "a"].map .string)) := by
    have hsplit : split "aaa" "aa" = ["", "a"] := by decide +kernel
    rw [← hsplit]
    rfl
  have hjoin : callMethod (φ := Empty) (.array (["", "a"].map .string)) "join" [.value (.string "é")] =
      .done (.string "éa") := by
    have hjoined : "é".intercalate ["", "a"] = "éa" := by decide +kernel
    rw [callMethod_join_string, hjoined, if_pos (by decide)]
  obtain ⟨first, others, hsplit, -, hreplace⟩ :=
    (split_parts_fit_together (φ := Empty) "aaa" hs).2 "aa" (by decide)
  rw [← Value.array.inj (Routine.done.inj (hsplit.symm.trans hparts))] at hjoin
  exact ⟨hs, ((hreplace "é").1 _ hjoin).1⟩

end TemplatedForms
