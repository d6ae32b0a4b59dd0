import TemplatedForms.Proofs.Json.Number

namespace TemplatedForms.Json

/-- What is left behind the bracket that closes the last of `depth + 1` open ones. Brackets in strings do not
count. -/
def behind? : (depth : Nat) → (inString : Bool) → List Char → Option (List Char)
  | _, _, [] => none
  | depth, true, '\\' :: _ :: cs => behind? depth true cs
  | depth, true, c :: cs => behind? depth (c != '"') cs
  | depth, false, c :: cs =>
    if c = '"' then behind? depth true cs
    else if c ∈ ['[', '\x7b'] then behind? (depth + 1) false cs
    else if c ∈ [']', '\x7d'] then if depth = 0 then some cs else behind? (depth - 1) false cs
    else behind? depth false cs

/-- All brackets that are opened in a text are closed in it, and so are all strings. -/
def Closed (cs : List Char) : Prop :=
  ∀ depth rest, behind? depth false (cs ++ rest) = behind? depth false rest

theorem closed_nil : Closed [] := fun _ _ ↦ rfl

theorem Closed.append {cs cs' : List Char} (h : Closed cs) (h' : Closed cs') : Closed (cs ++ cs') := by
  intro depth rest
  rw [List.append_assoc, h, h']

theorem Closed.cons {c : Char} {cs : List Char} (hc : c ∉ ['"', '[', '\x7b', ']', '\x7d']) (h : Closed cs) :
    Closed (c :: cs) := by
  intro depth rest
  simp only [List.mem_cons, List.not_mem_nil, or_false, not_or] at hc
  obtain ⟨hquote, hsquare, hcurly, hsquare', hcurly'⟩ := hc
  rw [List.cons_append, behind?, if_neg hquote, if_neg (by simp [hsquare, hcurly]),
    if_neg (by simp [hsquare', hcurly']), h]

theorem closed_of_plain {cs : List Char} (h : ∀ c ∈ cs, c ∉ ['"', '[', '\x7b', ']', '\x7d']) : Closed cs := by
  induction cs with
  | nil => exact closed_nil
  | cons c cs ih =>
    obtain ⟨hc, hcs⟩ := List.forall_mem_cons.mp h
    exact (ih hcs).cons hc

theorem Closed.bracketed {o c : Char} {cs : List Char} (h : Closed cs) (ho : o ∈ ['[', '\x7b'])
    (hc : c ∈ [']', '\x7d']) : Closed (o :: cs ++ [c]) := by
  intro depth rest
  have hopening : o ≠ '"' := by rintro rfl; revert ho; decide
  have hclosing : c ≠ '"' ∧ c ∉ ['[', '\x7b'] := by
    simp only [List.mem_cons, List.not_mem_nil, or_false] at hc
    obtain rfl | rfl := hc <;> decide
  rw [List.append_assoc, List.cons_append, behind?, if_neg hopening, if_pos ho, h, List.singleton_append, behind?,
    if_neg hclosing.1, if_neg hclosing.2, if_pos hc, if_neg (Nat.succ_ne_zero depth), Nat.add_sub_cancel]

theorem behind?_inString {c : Char} (hquote : c ≠ '"') (hslash : c ≠ '\\') (depth : Nat) (rest : List Char) :
    behind? depth true (c :: rest) = behind? depth true rest := by
  rw [behind?, bne_iff_ne.mpr hquote]
  rintro _ _ rfl
  exact absurd rfl hslash

theorem behind?_escapedChar (c : Char) (depth : Nat) (rest : List Char) :
    behind? depth true (escapedChar c ++ rest) = behind? depth true rest := by
  have hdigit : ∀ n : Fin 16, Nat.digitChar n ≠ '"' ∧ Nat.digitChar n ≠ '\\' := by decide
  unfold escapedChar
  split
  case h_8 hquote hslash _ _ _ _ _ =>
    split
    · next hcontrol =>
      obtain ⟨hquote₁, hslash₁⟩ := hdigit ⟨c.toNat / 16, by omega⟩
      obtain ⟨hquote₂, hslash₂⟩ := hdigit ⟨c.toNat % 16, by omega⟩
      simp only [List.cons_append, List.nil_append]
      rw [behind?, behind?_inString (by decide) (by decide), behind?_inString (by decide) (by decide),
        behind?_inString hquote₁ hslash₁, behind?_inString hquote₂ hslash₂]
    · exact behind?_inString hquote hslash depth rest
  all_goals rfl

theorem closed_quoted (s : String) : Closed (quoted s).toList := by
  intro depth rest
  have htext : ∀ text : List Char,
      behind? depth true (text.flatMap escapedChar ++ '"' :: rest) = behind? depth false rest := by
    intro text
    induction text with
    | nil => rfl
    | cons c text ih => rw [List.flatMap_cons, List.append_assoc, behind?_escapedChar, ih]
  rw [quoted, String.toList_ofList, List.append_assoc, List.singleton_append, List.cons_append]
  exact htext s.toList

theorem closed_number (n : JsonNumber) : Closed n.text.toList := by
  refine closed_of_plain fun c hc ↦ ?_
  by_cases hn : n.IsFinite
  · obtain ⟨m, hm, -, htext⟩ := n.exists_numeral hn
    rw [htext, List.mem_append] at hc
    obtain hsign | hc := hc
    · split at hsign
      · rw [List.mem_singleton.mp hsign]
        decide
      · cases hsign
    · obtain hdigit | hother := hm.legible.mem_text hc
      · intro hmem
        have hall : ['"', '[', '\x7b', ']', '\x7d'].all (!·.isDigit) = true := by decide
        have hnot := List.all_eq_true.mp hall c hmem
        rw [hdigit] at hnot
        cases hnot
      · simp only [List.mem_cons, List.not_mem_nil, or_false] at hother
        obtain rfl | rfl | rfl | rfl | rfl := hother <;> decide
  · cases n with
    | int i => exact absurd trivial hn
    | float x =>
      have htext : (JsonNumber.float x).text = "null" := by
        rw [JsonNumber.text, Number.binary?_eq_none_iff.mpr (Bool.eq_false_iff.mpr hn)]
      rw [htext] at hc
      simp only [String.reduceToList, List.mem_cons, List.not_mem_nil, or_false] at hc
      obtain rfl | rfl | rfl | rfl := hc <;> decide

theorem closed_separated {texts : List String} (h : ∀ text ∈ texts, Closed text.toList) :
    Closed (",".intercalate texts).toList := by
  induction texts with
  | nil => exact closed_nil
  | cons text texts ih =>
    obtain ⟨htext, htexts⟩ := List.forall_mem_cons.mp h
    cases texts with
    | nil => simpa using htext
    | cons text' texts =>
      rw [String.intercalate_cons_cons, String.toList_append, String.toList_append]
      exact (htext.append (closed_nil.cons (by decide))).append (ih htexts)

mutual

theorem closed_compact : (j : Json) → Closed j.compact.toList
  | .null => closed_of_plain (by simp [compact])
  | .bool true => closed_of_plain (by simp [compact])
  | .bool false => closed_of_plain (by simp [compact])
  | .number n => closed_number n
  | .string s => closed_quoted s
  | .array items => by
    have hitems := closed_separated (closed_items items)
    simpa [compact] using hitems.bracketed (o := '[') (c := ']') (by decide) (by decide)
  | .object members => by
    have hmembers := closed_separated (closed_members members)
    simpa [compact] using hmembers.bracketed (o := '\x7b') (c := '\x7d') (by decide) (by decide)

theorem closed_items : (js : List Json) → ∀ text ∈ compactItems js, Closed text.toList
  | [] => List.forall_mem_nil _
  | j :: js => List.forall_mem_cons.mpr ⟨closed_compact j, closed_items js⟩

theorem closed_members : (ms : List (String × Json)) → ∀ text ∈ compactMembers ms, Closed text.toList
  | [] => List.forall_mem_nil _
  | (key, j) :: ms => by
    refine List.forall_mem_cons.mpr ⟨?_, closed_members ms⟩
    rw [String.toList_append, String.toList_append]
    exact ((closed_quoted key).append (closed_nil.cons (by decide))).append (closed_compact j)

end

theorem toList_compact_object (ms : Entries Json) :
    ∃ inner, (Json.object ms).compact.toList = '\x7b' :: inner ++ ['\x7d'] ∧ Closed inner := by
  refine ⟨_, ?_, closed_separated (closed_members ms)⟩
  simp [compact]

/-- The text of an object ends with it: no other text of an object goes on behind it. -/
theorem eq_empty_of_compact_append {ms ms' : Entries Json} {rest : String}
    (h : (Json.object ms).compact ++ rest = (Json.object ms').compact) : rest = "" := by
  obtain ⟨inner, htext, hinner⟩ := toList_compact_object ms
  obtain ⟨inner', htext', hinner'⟩ := toList_compact_object ms'
  have hlists := congrArg String.toList h
  rw [String.toList_append, htext, htext'] at hlists
  simp only [List.cons_append, List.append_assoc, List.cons.injEq, true_and] at hlists
  have hbehind := congrArg (behind? 0 false) hlists
  rw [hinner, hinner'] at hbehind
  exact String.toList_inj.mp (Option.some.inj hbehind)

end TemplatedForms.Json
