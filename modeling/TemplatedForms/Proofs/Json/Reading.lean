import TemplatedForms.Json.Reader
import TemplatedForms.Proofs.Json.Lexing

namespace TemplatedForms

open Number (Numeral)

namespace JsonNumber

/-- The text of a number is read as this number again. Digits that a double does not need to be told from
others may still round it to another one. -/
def ReadsBack (n : JsonNumber) : Prop := Json.readNumber? n.text.toList = some (n, [])

theorem ReadsBack.isFinite {n : JsonNumber} (h : n.ReadsBack) : n.IsFinite := by
  cases n with
  | int i => trivial
  | float x =>
    change x.toModel.unpack.isFinite = true
    cases hx : x.toModel.unpack with
    | zero | finite => rfl
    | infinity | notANumber =>
      have hnull : Json.readNumber? "null".toList = none := rfl
      rw [ReadsBack, text, Number.binary?, hx] at h
      exact absurd (hnull.symm.trans h) (by simp)

theorem readNumber?_numeral {m : Numeral} (hm : m.WellFormed) (negative : Bool) {tail : List Char}
    (ht : Numeral.Ends tail) :
    Json.readNumber? ((if negative then ['-'] else []) ++ (m.text ++ tail)) =
      (Json.readNumber? ((if negative then ['-'] else []) ++ m.text)).map fun (n, _) ↦ (n, tail) := by
  have hread := Numeral.read?_text hm ht
  have hread' := Numeral.read?_text hm (show Numeral.Ends [] by simp [Numeral.Ends])
  rw [List.append_nil] at hread'
  obtain ⟨c, cs, hcs⟩ := List.exists_cons_of_ne_nil hm.whole.nonempty
  have hsign : c ≠ '-' := by
    rintro rfl
    cases hm.whole.isDigit '-' (hcs ▸ List.mem_cons_self)
  cases negative with
  | true =>
    simp only [if_true, List.singleton_append, Json.readNumber?, hread, hread', Option.bind_eq_bind,
      Option.bind_some, apply_ite (Option.map _), Option.map_none, Option.map_some, Option.map_bind,
      Function.comp_def]
  | false =>
    rw [Numeral.text, hcs] at hread hread' ⊢
    simp only [List.cons_append, List.append_assoc] at hread hread' ⊢
    simp [Json.readNumber?, hsign, hread, hread', apply_ite (Option.map _), Option.map_bind]

theorem ReadsBack.append {n : JsonNumber} (h : n.ReadsBack) {tail : List Char} (ht : Numeral.Ends tail) :
    Json.readNumber? (n.text.toList ++ tail) = some (n, tail) := by
  obtain ⟨m, hm, -, htext⟩ := n.exists_numeral h.isFinite
  rw [ReadsBack, htext] at h
  rw [htext, List.append_assoc, readNumber?_numeral hm _ ht, h, Option.map_some]

end JsonNumber

namespace Json

theorem readChars?_escapedChar (c : Char) (fuel : Nat) (read cs : List Char) :
    readChars? (fuel + 1) read (escapedChar c ++ cs) = readChars? fuel (c :: read) cs := by
  unfold escapedChar
  split
  -- the character has no short escape
  case h_8 hquote hslash _ _ _ _ _ =>
    split
    · next hcontrol =>
      have hpoint := Token.readCodePoint?_control hcontrol cs
      simp only [List.cons_append, List.nil_append, readChars?, hpoint]
    · next hplain =>
      rw [List.singleton_append, readChars?]
      · rw [if_neg (by simpa [hplain] using hslash)]
      all_goals simp_all
  all_goals rfl

theorem readChars?_text (text : List Char) {fuel : Nat} (h : text.length < fuel) (read rest : List Char) :
    readChars? fuel read (text.flatMap escapedChar ++ '"' :: rest) =
      some (String.ofList (read.reverse ++ text), rest) := by
  induction text generalizing fuel read with
  | nil =>
    obtain ⟨fuel, rfl⟩ : ∃ n, fuel = n + 1 := ⟨fuel - 1, by omega⟩
    simp [readChars?]
  | cons c text ih =>
    obtain ⟨fuel, rfl⟩ : ∃ n, fuel = n + 1 := ⟨fuel - 1, by omega⟩
    rw [List.flatMap_cons, List.append_assoc, readChars?_escapedChar, ih (by simpa using h)]
    simp

theorem length_le_escaped (text : List Char) : text.length ≤ (text.flatMap escapedChar).length := by
  induction text with
  | nil => exact Nat.le_refl 0
  | cons c text ih =>
    have hpos : 0 < (escapedChar c).length := by
      unfold escapedChar
      split
      all_goals first | split | skip
      all_goals simp
    rw [List.flatMap_cons, List.length_append, List.length_cons]
    omega

theorem readString?_quoted (s : String) (rest : List Char) :
    readString? ((quoted s).toList ++ rest) = some (s, rest) := by
  have hlength := length_le_escaped s.toList
  rw [quoted, String.toList_ofList, List.cons_append, List.cons_append, List.append_assoc, readString?,
    List.singleton_append, readChars?_text _ (by rw [List.length_append]; omega)]
  simp

def Margin (cs : List Char) : Prop := ∀ c ∈ cs, isSpace c = true

theorem Margin.cons {c : Char} {cs : List Char} (h : Margin cs) (hc : isSpace c = true) : Margin (c :: cs) :=
  List.forall_mem_cons.mpr ⟨hc, h⟩

theorem Margin.append {s s' : String} (h : Margin s.toList) (h' : Margin s'.toList) :
    Margin (s ++ s').toList := by
  rw [String.toList_append]
  exact List.forall_mem_append.mpr ⟨h, h'⟩

theorem skipSpace_append {margin : List Char} (hm : Margin margin) {c : Char} (hc : isSpace c = false)
    (cs : List Char) : skipSpace (margin ++ c :: cs) = c :: cs := by
  rw [skipSpace, List.dropWhile_append_of_pos hm, List.dropWhile_cons_of_neg (by simp [hc])]

section

variable {α : Type} {p : List Char → Option (α × List Char)}

/-- A text is read as a value, in front of whatever cannot be part of it. It neither starts with white space
nor closes a bracket. -/
structure ReadAs (p : List Char → Option (α × List Char)) (s : String) (x : α) : Prop where
  starts : ∃ c cs, s.toList = c :: cs ∧ isSpace c = false ∧ c ≠ ']' ∧ c ≠ '\x7d'
  read : ∀ tail, Numeral.Ends tail → p (s.toList ++ tail) = some (x, tail)

theorem ends_cons {c : Char} (h : c ∈ [',', '\n']) (cs : List Char) : Numeral.Ends (c :: cs) := by
  rintro d ⟨⟩
  simp only [List.mem_cons, List.not_mem_nil, or_false] at h
  rcases h with rfl | rfl <;> decide

def Closes (c : Char) : Prop := c = ']' ∨ c = '\x7d'

theorem Closes.isSpace {c : Char} (h : Closes c) : isSpace c = false := by
  rcases h with rfl | rfl <;> rfl

def following (inner : List Char) (lines : List String) : List Char :=
  lines.flatMap fun line ↦ ',' :: '\n' :: (inner ++ line.toList)

theorem following_cons (inner : List Char) (line : String) (lines : List String) :
    following inner (line :: lines) = ',' :: '\n' :: (inner ++ (line.toList ++ following inner lines)) := by
  simp [following]

theorem length_le_following (inner : List Char) (lines : List String) :
    lines.length ≤ (following inner lines).length := by
  induction lines with
  | nil => exact Nat.le_refl 0
  | cons line lines ih =>
    rw [following_cons]
    simp only [List.length_append, List.length_cons]
    omega

theorem toList_lines (inner line : String) (lines : List String) :
    (",\n".intercalate ((line :: lines).map fun l ↦ inner ++ l)).toList =
      inner.toList ++ (line.toList ++ following inner.toList lines) := by
  induction lines generalizing line with
  | nil => simp [following]
  | cons line' lines ih =>
    have hrest := ih line'
    rw [List.map_cons] at hrest
    rw [List.map_cons, List.map_cons, String.intercalate_cons_cons, String.toList_append, hrest, following_cons]
    simp

theorem readElements?_following {closing : Char} (hc : Closes closing) {inner margin : List Char}
    (hi : Margin inner) (hm : Margin margin) {lines : List String} {xs : List α}
    (h : List.Forall₂ (ReadAs p) lines xs) {line : String} {x : α} (hx : ReadAs p line x) {fuel : Nat}
    (hf : lines.length < fuel) (read : List α) (tail : List Char) :
    readElements? p closing fuel read
        (line.toList ++ (following inner lines ++ '\n' :: (margin ++ closing :: tail))) =
      some (read.reverse ++ x :: xs, tail) := by
  obtain ⟨fuel, rfl⟩ : ∃ n, fuel = n + 1 := ⟨fuel - 1, by omega⟩
  induction h generalizing line x fuel read with
  | nil =>
    have hclose : skipSpace ('\n' :: (margin ++ closing :: tail)) = closing :: tail :=
      skipSpace_append (hm.cons rfl) hc.isSpace tail
    rw [readElements?, following, List.flatMap_nil, List.nil_append, hx.read _ (ends_cons (by simp) _)]
    rcases hc with rfl | rfl <;> simp [hclose]
  | @cons line' x' lines xs hx' _ ih =>
    obtain ⟨fuel, rfl⟩ : ∃ n, fuel = n + 1 := ⟨fuel - 1, by simp at hf; omega⟩
    obtain ⟨c, cs, hcs, hspace, -⟩ := hx'.starts
    have hskip (rest : List Char) :
        skipSpace ('\n' :: (inner ++ (line'.toList ++ rest))) = line'.toList ++ rest := by
      rw [hcs]
      exact skipSpace_append (hi.cons rfl) hspace _
    have hcomma (rest : List Char) : skipSpace (',' :: rest) = ',' :: rest := rfl
    rw [readElements?, following_cons]
    simp only [List.cons_append, List.append_assoc, hx.read _ (ends_cons List.mem_cons_self _), hcomma, hskip]
    rw [ih hx' (x :: read) fuel (by simpa using hf)]
    simp

theorem readSequence?_nil {closing : Char} (hc : Closes closing) (tail : List Char) :
    readSequence? p closing (closing :: tail) = some ([], tail) := by
  rw [readSequence?, skipSpace, List.dropWhile_cons_of_neg (by simp [hc.isSpace])]
  simp

theorem readSequence?_block {closing : Char} (hc : Closes closing) (opening margin indent : String)
    (hm : Margin margin.toList) (hi : Margin indent.toList) {lines : List String} {xs : List α}
    (h : List.Forall₂ (ReadAs p) lines xs) :
    ∃ body, (block opening (String.singleton closing) margin indent lines).toList = opening.toList ++ body ∧
      ∀ tail, readSequence? p closing (body ++ tail) = some (xs, tail) := by
  have hinner := Margin.append hm hi
  cases h with
  | nil => exact ⟨[closing], by simp [block], readSequence?_nil hc⟩
  | @cons line x lines xs hx hxs =>
    refine ⟨'\n' :: ((margin ++ indent).toList ++ (line.toList ++ (following (margin ++ indent).toList lines ++
      '\n' :: (margin.toList ++ [closing])))), ?_, fun tail ↦ ?_⟩
    · rw [block, if_neg (by simp)]
      simp only [String.toList_append, toList_lines]
      simp
    · obtain ⟨c, cs, hcs, hspace, hbracket⟩ := hx.starts
      have hclosing : (c == closing) = false := by
        rcases hc with rfl | rfl
        · simpa using hbracket.1
        · simpa using hbracket.2
      let rest := cs ++ (following (margin ++ indent).toList lines ++ '\n' :: (margin.toList ++ closing :: tail))
      have hfuel : lines.length < rest.length + 1 := by
        have hlines := length_le_following (margin ++ indent).toList lines
        simp only [rest, List.length_append]
        omega
      have hskip : skipSpace ('\n' :: ((margin ++ indent).toList ++ c :: rest)) = c :: rest :=
        skipSpace_append (hinner.cons rfl) hspace rest
      have hread := readElements?_following hc hinner hm hxs hx hfuel [] tail
      rw [hcs] at hread ⊢
      simp only [List.cons_append, List.append_assoc, List.nil_append] at hread ⊢
      rw [readSequence?, hskip]
      simp only [hclosing]
      exact hread

end

mutual

def numbers : Json → List JsonNumber
  | .null | .bool _ | .string _ => []
  | .number n => [n]
  | .array items => itemsNumbers items
  | .object members => membersNumbers members

def itemsNumbers : List Json → List JsonNumber
  | [] => []
  | j :: js => numbers j ++ itemsNumbers js

def membersNumbers : List (String × Json) → List JsonNumber
  | [] => []
  | (_, j) :: ms => numbers j ++ membersNumbers ms

end

def StartsNumber (c : Char) : Prop := c = '-' ∨ c.isDigit = true

theorem StartsNumber.ne {c : Char} (h : StartsNumber c) {d : Char} (hd : d ≠ '-' ∧ d.isDigit = false) :
    c ≠ d := by
  rintro rfl
  rcases h with h | h
  · exact hd.1 h
  · exact absurd h (by simp [hd.2])

theorem readValue?_number {c : Char} (hc : StartsNumber c) (depth : Nat) (cs : List Char) :
    readValue? depth (c :: cs) = (readNumber? (c :: cs)).map fun (n, rest) ↦ (.number n, rest) := by
  have hnull : c ≠ 'n' := hc.ne (by decide)
  have htrue : c ≠ 't' := hc.ne (by decide)
  have hfalse : c ≠ 'f' := hc.ne (by decide)
  have hquote : c ≠ '"' := hc.ne (by decide)
  have hbracket : c ≠ '[' := hc.ne (by decide)
  have hbrace : c ≠ '\x7b' := hc.ne (by decide)
  rw [readValue?]
  all_goals
    intros
    simp_all

theorem toList_quoted (s : String) : ∃ cs, (quoted s).toList = '"' :: cs :=
  ⟨_, by rw [quoted, String.toList_ofList, List.cons_append]⟩

theorem readAs_null (depth : Nat) : ReadAs (readValue? depth) "null" .null := by
  refine ⟨⟨'n', "ull".toList, rfl, by decide⟩, fun tail _ ↦ ?_⟩
  change readValue? depth ('n' :: 'u' :: 'l' :: 'l' :: tail) = _
  rw [readValue?]

theorem readAs_bool (b : Bool) (depth : Nat) :
    ReadAs (readValue? depth) (if b then "true" else "false") (.bool b) := by
  cases b with
  | true =>
    refine ⟨⟨'t', "rue".toList, rfl, by decide⟩, fun tail _ ↦ ?_⟩
    change readValue? depth ('t' :: 'r' :: 'u' :: 'e' :: tail) = _
    rw [readValue?]
  | false =>
    refine ⟨⟨'f', "alse".toList, rfl, by decide⟩, fun tail _ ↦ ?_⟩
    change readValue? depth ('f' :: 'a' :: 'l' :: 's' :: 'e' :: tail) = _
    rw [readValue?]

theorem readAs_number {n : JsonNumber} (h : n.ReadsBack) (depth : Nat) :
    ReadAs (readValue? depth) n.text (.number n) := by
  obtain ⟨m, hm, -, htext⟩ := n.exists_numeral h.isFinite
  obtain ⟨c, cs, hcs, hc⟩ : ∃ c cs, n.text.toList = c :: cs ∧ StartsNumber c := by
    rw [htext]
    cases n.isNegative with
    | true => exact ⟨'-', m.text, rfl, .inl rfl⟩
    | false =>
      obtain ⟨c, cs, hcs⟩ := List.exists_cons_of_ne_nil hm.whole.nonempty
      exact ⟨c, _, by rw [Numeral.text, hcs]; rfl, .inr (hm.whole.isDigit c (hcs ▸ List.mem_cons_self))⟩
  refine ⟨⟨c, cs, hcs, ?_, hc.ne (by decide), hc.ne (by decide)⟩, fun tail ht ↦ ?_⟩
  · have hblank : c ≠ ' ' := hc.ne (by decide)
    have hline : c ≠ '\n' := hc.ne (by decide)
    have htab : c ≠ '\t' := hc.ne (by decide)
    have hreturn : c ≠ '\r' := hc.ne (by decide)
    simp [isSpace, hblank, hline, htab, hreturn]
  · have hread := h.append ht
    rw [hcs] at hread ⊢
    rw [List.cons_append] at hread ⊢
    rw [readValue?_number hc, hread, Option.map_some]

theorem readAs_string (s : String) (depth : Nat) : ReadAs (readValue? depth) (quoted s) (.string s) := by
  obtain ⟨cs, hcs⟩ := toList_quoted s
  refine ⟨⟨'"', cs, hcs, by decide⟩, fun tail _ ↦ ?_⟩
  have hread := readString?_quoted s tail
  rw [hcs] at hread ⊢
  rw [List.cons_append] at hread ⊢
  rw [readValue?, hread, Option.map_some]

theorem readAs_member (key : String) {value : List Char → Option (Json × List Char)} {s : String} {j : Json}
    (h : ReadAs value s j) : ReadAs (readMember? value) (quoted key ++ ": " ++ s) (key, j) := by
  obtain ⟨cs, hcs⟩ := toList_quoted key
  obtain ⟨c, text, htext, hspace, -⟩ := h.starts
  refine ⟨⟨'"', cs ++ (": ".toList ++ s.toList), ?_, by decide⟩, fun tail ht ↦ ?_⟩
  · rw [String.toList_append, String.toList_append, hcs, List.append_assoc, List.cons_append]
  · have hskip : skipSpace (' ' :: (s.toList ++ tail)) = s.toList ++ tail := by
      rw [htext, List.cons_append]
      exact skipSpace_append (show Margin [' '] by simp [Margin, isSpace]) hspace _
    have hcolon (rest : List Char) : skipSpace (':' :: rest) = ':' :: rest := rfl
    have htoList : ": ".toList = [':', ' '] := rfl
    rw [String.toList_append, String.toList_append, List.append_assoc, List.append_assoc, htoList, readMember?,
      readString?_quoted]
    simp only [Option.bind_eq_bind, Option.bind_some, List.cons_append, List.nil_append, hcolon, hskip,
      h.read tail ht]

mutual

theorem readAs_prettyAt {indent : String} (hi : Margin indent.toList) : (j : Json) → {margin : String} →
    {depth : Nat} → Margin margin.toList → (∀ n ∈ j.numbers, n.ReadsBack) → j.depth ≤ depth →
    ReadAs (readValue? depth) (j.prettyAt indent margin) j
  | .null, _, _, _, _, _ => readAs_null _
  | .bool b, _, _, _, _, _ => readAs_bool b _
  | .number n, _, _, _, h, _ => readAs_number (h n (by simp [numbers])) _
  | .string s, _, _, _, _, _ => readAs_string s _
  | .array items, margin, depth, hm, h, hd => by
    obtain ⟨depth, rfl⟩ : ∃ d, depth = d + 1 := ⟨depth - 1, by rw [Json.depth] at hd; omega⟩
    have hitems := readAs_prettyItems hi items (Margin.append hm hi) h (Nat.le_of_succ_le_succ hd)
    obtain ⟨body, hbody, hread⟩ := readSequence?_block (.inl rfl) "[" margin indent hm hi hitems
    refine ⟨⟨'[', body, hbody, by decide⟩, fun tail _ ↦ ?_⟩
    have htext : ((array items).prettyAt indent margin).toList = '[' :: body := hbody
    rw [htext, List.cons_append, readValue?, hread, Option.bind_eq_bind, Option.bind_some]
  | .object members, margin, depth, hm, h, hd => by
    obtain ⟨depth, rfl⟩ : ∃ d, depth = d + 1 := ⟨depth - 1, by rw [Json.depth] at hd; omega⟩
    have hmembers := readAs_prettyMembers hi members (Margin.append hm hi) h (Nat.le_of_succ_le_succ hd)
    obtain ⟨body, hbody, hread⟩ := readSequence?_block (.inr rfl) "\x7b" margin indent hm hi hmembers
    refine ⟨⟨'\x7b', body, hbody, by decide⟩, fun tail _ ↦ ?_⟩
    have htext : ((object members).prettyAt indent margin).toList = '\x7b' :: body := hbody
    rw [htext, List.cons_append, readValue?, hread, Option.bind_eq_bind, Option.bind_some]

theorem readAs_prettyItems {indent : String} (hi : Margin indent.toList) : (js : List Json) → {margin : String} →
    {depth : Nat} → Margin margin.toList → (∀ n ∈ itemsNumbers js, n.ReadsBack) → itemsDepth js ≤ depth →
    List.Forall₂ (ReadAs (readValue? depth)) (prettyItems indent margin js) js
  | [], _, _, _, _, _ => .nil
  | j :: js, margin, depth, hm, h, hd => by
    rw [itemsNumbers, List.forall_mem_append] at h
    rw [itemsDepth, Nat.max_le] at hd
    exact .cons (readAs_prettyAt hi j hm h.1 hd.1) (readAs_prettyItems hi js hm h.2 hd.2)

theorem readAs_prettyMembers {indent : String} (hi : Margin indent.toList) : (ms : List (String × Json)) →
    {margin : String} → {depth : Nat} → Margin margin.toList → (∀ n ∈ membersNumbers ms, n.ReadsBack) →
    membersDepth ms ≤ depth →
    List.Forall₂ (ReadAs (readMember? (readValue? depth))) (prettyMembers indent margin ms) ms
  | [], _, _, _, _, _ => .nil
  | (key, j) :: ms, margin, depth, hm, h, hd => by
    rw [membersNumbers, List.forall_mem_append] at h
    rw [membersDepth, Nat.max_le] at hd
    exact .cons (readAs_member key (readAs_prettyAt hi j hm h.1 hd.1)) (readAs_prettyMembers hi ms hm h.2 hd.2)

end

theorem parse?_document {j : Json} (h : ∀ n ∈ j.numbers, n.ReadsBack) (hd : j.depth ≤ nestingLimit) :
    parse? j.document = some j := by
  have hindent : Margin "  ".toList := by
    simp [Margin, isSpace]
  have hread := readAs_prettyAt hindent j (show Margin "".toList by simp [Margin]) h hd
  obtain ⟨c, cs, hcs, hspace, -⟩ := hread.starts
  have htext := hread.read [] (by simp [Numeral.Ends])
  have hskip : skipSpace (c :: cs) = c :: cs := skipSpace_append (show Margin [] by simp [Margin]) hspace cs
  rw [List.append_nil, hcs] at htext
  rw [parse?, document, pretty, hcs, hskip, htext]
  rfl

end Json

end TemplatedForms
