import TemplatedForms.Proofs.Expression.Lexing
import TemplatedForms.Proofs.Reference
import TemplatedForms.Resolution

namespace TemplatedForms

open Token

theorem quoted_literal (text rest : List Char) :
    Quoted '\'' text (text.flatMap literalChar ++ '\'' :: rest) rest := by
  induction text with
  | nil => exact .close rest
  | cons c text ih =>
    rw [List.flatMap_cons, List.append_assoc]
    unfold literalChar
    split
    · exact .escape rfl ih
    · exact .escape rfl ih
    · exact .escape rfl ih
    · exact .escape rfl ih
    · next hslash hquote hline _ =>
      refine .plain ?_ ih
      rw [List.mem_cons, List.mem_cons, List.mem_singleton]
      exact fun h ↦ h.elim hquote fun h ↦ h.elim hslash hline

theorem quoteLiteral_toList (text : String) :
    (quoteLiteral text).toList = '\'' :: (text.toList.flatMap literalChar ++ ['\'']) := by
  simp [quoteLiteral]

theorem reads_literal (text : String) (rest : List Char) :
    Reads '\'' (text.toList.flatMap literalChar ++ '\'' :: rest) (.string text) rest := by
  have hread := Reads.string (.inl rfl) (quoted_literal text.toList rest)
  rwa [String.ofList_toList] at hread

theorem lexes_quoteLiteral (text : String) {rest : List Char} {ts : List Token} (h : Lexes rest ts) :
    Lexes ((quoteLiteral text).toList ++ rest) (.string text :: ts) := by
  have hlexes := Lexes.token (List.forall_mem_nil _) (by decide) (reads_literal text rest) h
  rw [quoteLiteral_toList]
  simpa using hlexes

namespace Part

/-- The tokens that a part of an expression stands for: those of a text on its own, and a string for a
reference to a field. -/
def tokens (values : Entries Value) : Part → List Token
  | .text s => (tokenize s).toOption.elim [] TemplatedForms.tokens
  | .field className => [.string (fieldText values className)]

variable (values : Entries Value)

theorem lexes_text {s : String} (h : ∃ ps, tokenize s = .ok ps) :
    Lexes s.toList (tokens values (.text s)) := by
  obtain ⟨ps, hps⟩ := h
  refine tokenize_iff.mp ⟨ps, hps, ?_⟩
  rw [tokens, hps]
  rfl

theorem Alternating.lexes {parts : List Part} (h : Alternating parts)
    (ht : ∀ s, .text s ∈ parts → ∃ ps, tokenize s = .ok ps) :
    Lexes (String.join (parts.map (filled quoteLiteral values))).toList
      (parts.flatMap (tokens values)) := by
  induction h with
  | last s =>
    have hs := lexes_text values (ht s List.mem_cons_self)
    simpa [String.join_cons, filled] using hs
  | @next s className parts _ ih =>
    have hs := lexes_text values (ht s List.mem_cons_self)
    have hparts := ih fun s h ↦ ht s (List.mem_cons_of_mem _ (List.mem_cons_of_mem _ h))
    have hvalue := lexes_quoteLiteral (fieldText values className) hparts
    have hquote : AtQuote ((quoteLiteral (fieldText values className)).toList ++
        (String.join (parts.map (filled quoteLiteral values))).toList) := by
      rw [quoteLiteral_toList]
      exact .inr ⟨_, rfl⟩
    have happend := hs.append hquote hvalue
    simpa [String.join_cons, filled, tokens, String.toList_append] using happend

end Part

section

variable {body : String} (h : ¬Segment.marker.toList <:+: body.toList)

include h

theorem fieldReferences_of_no_marker :
    fieldReferences body = partReferencesFrom false 0 (Part.ofText body) := by
  rw [fieldReferences, Segment.ofBody_of_no_marker h]
  exact List.append_nil _

theorem resolveFields_of_no_marker (values : Entries Value) :
    resolveFields values body = Part.fill quoteLiteral values body := by
  rw [resolveFields, Segment.ofBody_of_no_marker h]
  simp [String.join_cons, Segment.fill]

end

theorem tokenize_quoteLiteral (text : String) :
    tokenize (quoteLiteral text) = .ok [⟨.string text, 1⟩] :=
  tokenize_of_reads (quoteLiteral_toList text) (by decide) (reads_literal text [])

/-- A body without markers is cut at its references into texts and fields. If the texts can be split into
tokens on their own, the values of the fields are string tokens among the tokens of the texts. A text
written as a literal is a single token. -/
theorem values_are_string_tokens :
    (∀ (values : Entries Value) (body : String), ¬Segment.marker.toList <:+: body.toList →
      (∀ s, .text s ∈ Part.ofText body → ∃ ps, tokenize s = .ok ps) →
      String.join ((Part.ofText body).map Part.source) = body ∧
      fieldReferences body = partReferencesFrom false 0 (Part.ofText body) ∧
      ∃ ps, tokenize (resolveFields values body) = .ok ps ∧
        tokens ps = (Part.ofText body).flatMap (Part.tokens values)) ∧
    ∀ text, tokenize (quoteLiteral text) = .ok [⟨.string text, 1⟩] := by
  refine ⟨fun values body hm ht ↦ ?_, tokenize_quoteLiteral⟩
  refine ⟨Part.source_ofText body, fieldReferences_of_no_marker hm, ?_⟩
  rw [resolveFields_of_no_marker hm values]
  exact tokenize_iff.mpr (Part.Alternating.lexes values (Part.alternating_ofText body) ht)

theorem values_are_string_tokens_in_a_sum :
    ∃ ps, tokenize (resolveFields [("a", .string "it's"), ("b", .string "' + c")] "$$.a + $$.b") = .ok ps ∧
      tokens ps = [.string "it's", .mark .plus, .string "' + c"] := by
  have hmarker : ¬Segment.marker.toList <:+: "$$.a + $$.b".toList :=
    (Text.cut?_eq_none Segment.marker_ne_nil).mp rfl
  have hparts : Part.ofText "$$.a + $$.b" = [.text "", .field "a", .text " + ", .field "b", .text ""] := rfl
  have htexts : ∀ s, .text s ∈ Part.ofText "$$.a + $$.b" → ∃ ps, tokenize s = .ok ps := by
    intro s hs
    rw [hparts] at hs
    simp only [List.mem_cons, Part.text.injEq, reduceCtorEq, List.not_mem_nil, or_false, false_or] at hs
    rcases hs with rfl | rfl | rfl
    · exact ⟨[], rfl⟩
    · exact ⟨[⟨.mark .plus, 2⟩], rfl⟩
    · exact ⟨[], rfl⟩
  obtain ⟨-, -, ps, hps, htokens⟩ := values_are_string_tokens.1
    [("a", .string "it's"), ("b", .string "' + c")] "$$.a + $$.b" hmarker htexts
  exact ⟨ps, hps, htokens⟩

end TemplatedForms
