import TemplatedForms.Proofs.Entries
import TemplatedForms.Proofs.Evaluation.Steps
import TemplatedForms.Proofs.Expression.Exactness
import TemplatedForms.Proofs.Json.Lexing
import TemplatedForms.Value.Json

namespace TemplatedForms

open Evaluation

variable {scopes : List (Entries Value)}

theorem takes_neg {e : Expr} {n : Nat} {x : Float} (h : Takes (eval e) scopes n (.ok (.number x))) :
    Takes (eval (.unary .neg e)) scopes (n + 1) (.ok (.number (-x))) := by
  rw [eval]
  exact (h.bind_pure UnaryOp.neg.apply).after_tick

namespace Json

theorem takes_number {n : JsonNumber} (h : n.IsFinite) :
    ∃ k ≤ 2, Takes (eval n.phrase.tree) scopes k (.ok (.number n.toFloat)) := by
  have hmagnitude : Takes (eval (.literal (.number n.magnitude))) scopes 1 (.ok (.number n.magnitude)) :=
    takes_literal (.number n.magnitude)
  have hnegative : Takes (eval (.unary .neg (.literal (.number n.magnitude)))) scopes 2
      (.ok (.number (-n.magnitude))) := takes_neg hmagnitude
  rw [JsonNumber.toFloat_eq h, JsonNumber.phrase]
  by_cases hn : n.isNegative = true
  · rw [if_pos hn, if_pos hn]
    exact ⟨2, Nat.le_refl 2, hnegative⟩
  · rw [if_neg hn, if_neg hn]
    exact ⟨1, by decide, hmagnitude⟩

theorem keys_membersOfJson (ms : List (String × Json)) :
    Entries.keys (Value.membersOfJson ms) = Entries.keys ms := by
  induction ms with
  | nil => rfl
  | cons m ms ih => exact congrArg (m.1 :: ·) ih

mutual

/-- The tree of a value evaluates to the value, in at most two steps for each value in it. -/
theorem takes_phrase : (j : Json) → j.Valid →
    ∃ n ≤ 2 * j.count, Takes (eval j.phrase.tree) scopes n (.ok (.ofJson j))
  | .null, _ => ⟨1, by simp [count], takes_literal .null⟩
  | .bool b, _ => ⟨1, by simp [count], takes_literal (.bool b)⟩
  | .number _, h => takes_number h
  | .string s, _ => ⟨1, by simp [count], takes_literal (.string s)⟩
  | .array items, h => by
    obtain ⟨n, hn, htakes⟩ := takes_phrases items h
    refine ⟨n + 1, by rw [count]; omega, ?_⟩
    rw [phrase, eval]
    exact (htakes.bind_pure Value.array).after_tick
  | .object members, h => by
    obtain ⟨n, hn, htakes⟩ := takes_entries members h.2
    refine ⟨n + 1, by rw [count]; omega, ?_⟩
    have hdistinct : Entries.Distinct (Value.membersOfJson members) := by
      rw [Entries.Distinct, keys_membersOfJson]
      exact h.1
    rw [phrase, eval, Value.ofJson, ← Entries.ofPairs_of_distinct hdistinct]
    exact (htakes.bind_pure fun ms ↦ Value.object (Entries.ofPairs ms)).after_tick

theorem takes_phrases : (js : List Json) → ValidItems js →
    ∃ n ≤ 2 * itemsCount js, Takes (evalAll ((phrases js).map (·.tree))) scopes n (.ok (Value.itemsOfJson js))
  | [], _ => ⟨0, Nat.zero_le _, takes_pure _ scopes⟩
  | j :: js, h => by
    obtain ⟨n, hn, hj⟩ := takes_phrase j h.1
    obtain ⟨k, hk, hjs⟩ := takes_phrases js h.2
    refine ⟨n + k, by rw [itemsCount]; omega, ?_⟩
    rw [phrases, List.map_cons]
    exact takes_evalAll_cons hj hjs

theorem takes_entries : (ms : List (String × Json)) → ValidMembers ms →
    ∃ n ≤ 2 * membersCount ms,
      Takes (evalMembers ((entries ms).map (·.phrase.tree))) scopes n (.ok (Value.membersOfJson ms))
  | [], _ => ⟨0, Nat.zero_le _, takes_pure _ scopes⟩
  | (key, j) :: ms, h => by
    obtain ⟨n, hn, hj⟩ := takes_phrase j h.1
    obtain ⟨k, hk, hms⟩ := takes_entries ms h.2
    refine ⟨n + k, by rw [membersCount]; omega, ?_⟩
    rw [entries, List.map_cons]
    change Takes (evalMembers ((key, j.phrase.tree) :: _)) _ _ _
    rw [evalMembers]
    exact hj.bind (hms.bind_pure ((key, Value.ofJson j) :: ·))

end

theorem parse_compact {j : Json} (hv : j.Valid) (hd : j.depth ≤ 250) :
    parse j.compact = .ok ⟨j.phrase.tree, false⟩ := by
  have hlexes := spells_compact j hv [] [] (by simp [AtDelimiter]) (.done (by simp))
  have hderives := Grammar.DerivesProgram.plain (derives_phrase j) (head?_phrase j) (.inl rfl)
  rw [List.append_nil, List.append_nil] at hlexes
  rw [List.append_nil] at hderives
  exact parse_of_lexes hlexes hderives ((nesting_phrase j).trans (by rw [TokenParser.nestingLimit]; omega))

/-- A compact text of JSON, executed as an expression, has the value that it is a text of: the same
strings and numbers, and the same keys in the same order. A value that nests at most 250 deep is read
completely, and two steps for each value in it are enough. -/
theorem execute_compact {j : Json} (hv : j.Valid) (hd : j.depth ≤ 250) {stepLimit : Nat}
    (hs : 2 * j.count ≤ stepLimit) : execute stepLimit j.compact = .ok (.ofJson j) := by
  obtain ⟨n, hn, htakes⟩ : ∃ n ≤ 2 * j.count, Takes (eval j.phrase.tree) [] n (.ok (.ofJson j)) :=
    takes_phrase j hv
  have hrun := htakes stepLimit 0 (Nat.zero_le _)
  rw [if_pos (by omega)] at hrun
  rw [execute, parse_compact hv hd]
  dsimp only
  rw [Interpreter.run, Interpreter.new, hrun]

theorem execute_compact_nested :
    let j : Json := .object [
      ("it\"s\n", .array [.number (.float (-1.5)), .number (.float 1e21), .array [], .object []]),
      ("", .array [.bool true, .null, .number (.int (-7))])]
    j.Valid ∧ j.depth ≤ 250 ∧ 2 * j.count ≤ 20 ∧
      execute 20 "\x7b\"it\\\"s\\n\":[-1.5,1e+21,[],\x7b\x7d],\"\":[true,null,-7]\x7d" = .ok (.ofJson j) := by
  intro j
  have hfinite : (-1.5 : Float).isFinite = true ∧ (1e21 : Float).isFinite = true := by decide +kernel
  have hkeys : ["it\"s\n", ""].Nodup := by decide
  have hv : j.Valid :=
    ⟨hkeys, ⟨hfinite.1, hfinite.2, trivial, ⟨List.nodup_nil, trivial⟩, trivial⟩,
      ⟨trivial, trivial, trivial, trivial⟩, trivial⟩
  have hd : j.depth ≤ 250 := by decide
  have hs : 2 * j.count ≤ 20 := by decide
  have hcompact : j.compact = "\x7b\"it\\\"s\\n\":[-1.5,1e+21,[],\x7b\x7d],\"\":[true,null,-7]\x7d" := by
    decide +kernel
  rw [← hcompact]
  exact ⟨hv, hd, hs, execute_compact hv hd hs⟩

end Json

end TemplatedForms
