import TemplatedForms.Proofs.Expression.Grammar
import TemplatedForms.Proofs.Json.Number

namespace TemplatedForms

open Grammar

namespace Grammar

theorem deepest_cons {α : Type} (x : Phrase α) (xs : List (Phrase α)) :
    deepest (x :: xs) = max x.nesting (deepest xs) := rfl

def separated (closing : Mark) : List (List Token) → List Token
  | [] => [.mark closing]
  | [ts] => ts ++ [.mark closing]
  | ts :: parts => ts ++ .mark .comma :: separated closing parts

theorem listed_separated (closing : Mark) (parts : List (List Token)) :
    Listed closing parts (separated closing parts) := by
  fun_induction separated closing parts with
  | case1 => exact .none
  | case2 ts => exact .last ts
  | case3 ts parts _ ih => exact .next ts ih

theorem Derives.of_unary {ts : List Token} {n : Nat} {e : Expr} (h : Derives .unary 0 n ts e) :
    Derives .expression 0 (n + 1) ts e :=
  .plain (h.operand.loosen (by decide))

theorem Derives.of_primary {ts : List Token} {n : Nat} {e : Expr} (h : Derives .primary 0 n ts e) :
    Derives .expression 0 (n + 1) ts e :=
  h.alone.bare.of_unary

end Grammar

def Literal.phrase (t : Token) (l : Literal) : Phrase Expr := ⟨1, [t], .literal l⟩

def JsonNumber.phrase (n : JsonNumber) : Phrase Expr :=
  if n.isNegative then
    ⟨2, [.mark .minus, .number n.magnitude], .unary .neg (.literal (.number n.magnitude))⟩
  else Literal.phrase (.number n.magnitude) (.number n.magnitude)

namespace Json

mutual

/-- What a JSON value is: its numbers are finite, and no object has a key twice. -/
def Valid : Json → Prop
  | .null | .bool _ | .string _ => True
  | .number n => n.IsFinite
  | .array items => ValidItems items
  | .object members => Entries.Distinct members ∧ ValidMembers members

def ValidItems : List Json → Prop
  | [] => True
  | j :: js => Valid j ∧ ValidItems js

def ValidMembers : List (String × Json) → Prop
  | [] => True
  | (_, j) :: ms => Valid j ∧ ValidMembers ms

end

mutual

def depth : Json → Nat
  | .null | .bool _ | .number _ | .string _ => 0
  | .array items => itemsDepth items + 1
  | .object members => membersDepth members + 1

def itemsDepth : List Json → Nat
  | [] => 0
  | j :: js => max (depth j) (itemsDepth js)

def membersDepth : List (String × Json) → Nat
  | [] => 0
  | (_, j) :: ms => max (depth j) (membersDepth ms)

end

mutual

def count : Json → Nat
  | .null | .bool _ | .number _ | .string _ => 1
  | .array items => itemsCount items + 1
  | .object members => membersCount members + 1

def itemsCount : List Json → Nat
  | [] => 0
  | j :: js => count j + itemsCount js

def membersCount : List (String × Json) → Nat
  | [] => 0
  | (_, j) :: ms => count j + membersCount ms

end

mutual

def phrase : Json → Phrase Expr
  | .null => Literal.phrase (.name "null") .null
  | .bool b => Literal.phrase (.name (if b then "true" else "false")) (.bool b)
  | .number n => n.phrase
  | .string s => Literal.phrase (.string s) (.string s)
  | .array items =>
    let xs := phrases items
    ⟨deepest xs + 1, .mark .leftBracket :: separated .rightBracket (xs.map (·.tokens)),
      .array (xs.map (·.tree))⟩
  | .object members =>
    let es := entries members
    ⟨deepest (es.map (·.phrase)) + 1, .mark .leftBrace :: separated .rightBrace (es.map (·.phrase.tokens)),
      .object (es.map (·.phrase.tree))⟩

def phrases : List Json → List (Phrase Expr)
  | [] => []
  | j :: js => phrase j :: phrases js

def entries : List (String × Json) → List Entry
  | [] => []
  | (key, j) :: ms => ⟨.string key, key, phrase j⟩ :: entries ms

end

theorem derives_literal {t : Token} {l : Literal} (h : Atom t (.literal l)) :
    Derives .expression 0 (Literal.phrase t l).nesting (Literal.phrase t l).tokens (Literal.phrase t l).tree :=
  (Derives.atom h).of_primary

theorem derives_number (n : JsonNumber) :
    Derives .expression 0 n.phrase.nesting n.phrase.tokens n.phrase.tree := by
  have h : Derives .primary 0 0 [.number n.magnitude] (.literal (.number n.magnitude)) := .atom (.number _)
  rw [JsonNumber.phrase]
  split
  · exact (h.alone.bare.lead .neg).of_unary
  · exact h.of_primary

mutual

theorem derives_phrase : (j : Json) → Derives .expression 0 j.phrase.nesting j.phrase.tokens j.phrase.tree
  | .null => derives_literal .null
  | .bool true => derives_literal .true
  | .bool false => derives_literal .false
  | .number n => derives_number n
  | .string s => derives_literal (.string s)
  | .array items => (Derives.array (derives_phrases items) (listed_separated _ _)).of_primary
  | .object members =>
    (Derives.object (fun m hm ↦ (derives_entries members m hm).1)
      (fun m hm ↦ (derives_entries members m hm).2) (listed_separated _ _)).of_primary

theorem derives_phrases : (js : List Json) → ∀ x ∈ phrases js, Derives .expression 0 x.nesting x.tokens x.tree
  | [] => by simp [phrases]
  | j :: js => by
    rw [phrases]
    exact List.forall_mem_cons.mpr ⟨derives_phrase j, derives_phrases js⟩

theorem derives_entries : (ms : List (String × Json)) → ∀ m ∈ entries ms,
    Key m.key m.name ∧ Derives .expression 0 m.value.nesting m.value.tokens m.value.tree
  | [] => by simp [entries]
  | (key, j) :: ms => by
    rw [entries]
    exact List.forall_mem_cons.mpr ⟨⟨.string key, derives_phrase j⟩, derives_entries ms⟩

end

theorem nesting_number (n : JsonNumber) : n.phrase.nesting ≤ 2 := by
  rw [JsonNumber.phrase]
  split <;> simp [Literal.phrase]

mutual

/-- Each array or object takes a level of nesting, and a number with its sign takes two more. -/
theorem nesting_phrase : (j : Json) → j.phrase.nesting ≤ j.depth + 2
  | .null | .bool _ | .string _ => by simp [phrase, Literal.phrase]
  | .number n => nesting_number n
  | .array items => Nat.succ_le_succ (nesting_phrases items)
  | .object members => Nat.succ_le_succ (nesting_entries members)

theorem nesting_phrases : (js : List Json) → deepest (phrases js) ≤ itemsDepth js + 2
  | [] => by simp [phrases, deepest]
  | j :: js => by
    have hj := nesting_phrase j
    have hjs := nesting_phrases js
    rw [phrases, itemsDepth, deepest_cons]
    omega

theorem nesting_entries : (ms : List (String × Json)) →
    deepest ((entries ms).map (·.phrase)) ≤ membersDepth ms + 2
  | [] => by simp [entries, deepest]
  | (key, j) :: ms => by
    have hj := nesting_phrase j
    have hms := nesting_entries ms
    have hm : (Entry.phrase ⟨.string key, key, phrase j⟩).nesting = j.phrase.nesting := rfl
    rw [entries, membersDepth, List.map_cons, deepest_cons, hm]
    omega

end

theorem head?_phrase (j : Json) : j.phrase.tokens.head? ≠ some (.name "return") := by
  cases j with
  | bool b => cases b <;> simp [phrase, Literal.phrase]
  | number n =>
    rw [phrase, JsonNumber.phrase]
    split <;> simp [Literal.phrase]
  | _ => simp [phrase, Literal.phrase]

end Json

end TemplatedForms
