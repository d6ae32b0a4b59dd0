import TemplatedForms.Proofs.Evaluation.Methods

namespace TemplatedForms

open Evaluation

namespace ListMethod

variable {f : Function} {i j : Interpreter} {v w : Value} {vs : List Value} {k : Nat}

theorem filterOnto_cons (h : f [v, .ofNat k] i = (.ok w, j)) (kept : List Value) :
    ofRoutine (filterOnto f kept k (v :: vs)) i =
      ofRoutine (filterOnto f (if w.isTruthy then v :: kept else kept) (k + 1) vs) j := by
  change ofRoutine (.call f [v, .ofNat k] fun w ↦
    filterOnto f (if w.isTruthy then v :: kept else kept) (k + 1) vs) i = _
  rw [ofRoutine_call, bind_apply, h]

theorem exists_of_filterOnto_cons {kept chosen : List Value}
    (h : (ofRoutine (filterOnto f kept k (v :: vs)) i).1 = .ok chosen) :
    ∃ w j, f [v, .ofNat k] i = (.ok w, j) := by
  change (ofRoutine (.call f [v, .ofNat k] _) i).1 = .ok chosen at h
  rw [ofRoutine_call, bind_apply] at h
  rcases hcall : f [v, .ofNat k] i with ⟨_ | w, j⟩
  · rw [hcall] at h
    cases h
  · exact ⟨w, j, rfl⟩

theorem search_cons (h : f [v, .ofNat k] i = (.ok w, j)) (wanted : Bool) :
    ofRoutine (search f wanted k (v :: vs)) i =
      if w.isTruthy = wanted then (.ok (some v), j) else ofRoutine (search f wanted (k + 1) vs) j := by
  change ofRoutine (.call f [v, .ofNat k] fun w ↦
    if w.isTruthy = wanted then pure (some v) else search f wanted (k + 1) vs) i = _
  rw [ofRoutine_call, bind_apply, h]
  dsimp only
  split <;> rfl

theorem search_of_filterOnto {kept result : List Value}
    (h : (ofRoutine (filterOnto f kept k vs) i).1 = .ok result) :
    ∃ chosen, result = kept.reverse ++ chosen ∧ chosen.Sublist vs ∧
      (ofRoutine (search f true k vs) i).1 = .ok chosen.head? ∧
      ∃ missed, (ofRoutine (search f false k vs) i).1 = .ok missed ∧
        missed.isNone = decide (chosen.length = vs.length) := by
  induction vs generalizing kept k i with
  | nil =>
    cases h
    exact ⟨[], (List.append_nil _).symm, .slnil, rfl, none, rfl, rfl⟩
  | cons v vs ih =>
    obtain ⟨w, j, hcall⟩ := exists_of_filterOnto_cons h
    rw [filterOnto_cons hcall] at h
    obtain ⟨chosen, hresult, hsub, hfirst, missed, hmissed, hnone⟩ := ih h
    rw [search_cons hcall, search_cons hcall]
    cases hw : w.isTruthy with
    | true =>
      rw [hw, if_pos rfl, List.reverse_cons, List.append_assoc, List.singleton_append] at hresult
      refine ⟨v :: chosen, hresult, hsub.cons_cons v, by simp, missed, by simpa using hmissed, ?_⟩
      simpa using hnone
    | false =>
      rw [hw, if_neg Bool.false_ne_true] at hresult
      refine ⟨chosen, hresult, hsub.cons v, by simpa using hfirst, some v, by simp, ?_⟩
      have hlength : chosen.length ≠ vs.length + 1 := by
        have hle := hsub.length_le
        omega
      simp [hlength]

end ListMethod

open ListMethod

/-- When the filter of an array by a function succeeds, the searches with this function succeed from the same
state: `find` with the first item that the filter keeps, or undefined, `some` with whether there is one, and
`every` with whether the filter keeps them all. -/
theorem filter_settles_searches (items : List Value) (f : Function) (rest : List (Arg Function))
    (i : Interpreter) {v : Value}
    (h : (ofRoutine (callMethod (.array items) "filter" (.function f :: rest)) i).1 = .ok v) :
    ∃ kept, v = .array kept ∧ kept.Sublist items ∧
      (ofRoutine (callMethod (.array items) "find" (.function f :: rest)) i).1 =
        .ok (kept.head?.getD .undefined) ∧
      (ofRoutine (callMethod (.array items) "some" (.function f :: rest)) i).1 = .ok (.bool !kept.isEmpty) ∧
      (ofRoutine (callMethod (.array items) "every" (.function f :: rest)) i).1 =
        .ok (.bool (kept.length == items.length)) := by
  have hfilter : callMethod (.array items) "filter" (.function f :: rest) =
      Value.array <$> filterOnto f [] 0 items := rfl
  have hfind : callMethod (.array items) "find" (.function f :: rest) =
      (Option.getD · .undefined) <$> search f true 0 items := rfl
  have hsome : callMethod (.array items) "some" (.function f :: rest) =
      (fun r ↦ .bool r.isSome) <$> search f true 0 items := rfl
  have hevery : callMethod (.array items) "every" (.function f :: rest) =
      (fun r ↦ .bool r.isNone) <$> search f false 0 items := rfl
  rw [hfilter, ofRoutine_map] at h
  rw [hfind, hsome, hevery, ofRoutine_map, ofRoutine_map, ofRoutine_map]
  obtain ⟨kept, hkept, hv⟩ :
      ∃ kept, (ofRoutine (filterOnto f [] 0 items) i).1 = .ok kept ∧ .array kept = v := by
    cases hrun : (ofRoutine (filterOnto f [] 0 items) i).1 with
    | error e => rw [hrun] at h; cases h
    | ok kept => rw [hrun] at h; exact ⟨kept, rfl, Except.ok.inj h⟩
  obtain ⟨chosen, hchosen, hsub, hfirst, missed, hmissed, hnone⟩ := search_of_filterOnto hkept
  obtain rfl : kept = chosen := hchosen
  rw [hfirst, hmissed]
  refine ⟨kept, hv.symm, hsub, rfl, ?_, ?_⟩
  · cases kept <;> rfl
  · exact congrArg (fun b ↦ Except.ok (Value.bool b)) hnone

/-- The second of two letters is looked for. -/
theorem filter_settles_searches_second_item :
    let items : List Value := [.string "a", .string "b"]
    let f := invoke ["x"] (eval (.binary .strictEq (.name "x") (.literal (.string "b"))))
    let call (name : String) := (ofRoutine (callMethod (.array items) name [.function f]) (Interpreter.new 9)).1
    call "filter" = .ok (.array [.string "b"]) ∧ call "find" = .ok (.string "b") ∧
      call "some" = .ok (.bool true) ∧ call "every" = .ok (.bool false) := by
  intro items f call
  have ha : f [.string "a", .ofNat 0] (Interpreter.new 9) = (.ok (.bool false), ⟨9, 4, []⟩) := rfl
  have hb : f [.string "b", .ofNat 1] ⟨9, 4, []⟩ = (.ok (.bool true), ⟨9, 8, []⟩) := rfl
  have hrun : ofRoutine (filterOnto f [] 0 items) (Interpreter.new 9) = (.ok [.string "b"], ⟨9, 8, []⟩) :=
    (filterOnto_cons ha []).trans (filterOnto_cons hb _)
  have hfilter : call "filter" = .ok (.array [.string "b"]) := by
    change (ofRoutine (Value.array <$> filterOnto f [] 0 items) (Interpreter.new 9)).1 = _
    rw [ofRoutine_map, hrun]
    rfl
  obtain ⟨kept, hkept, -, hfind, hsome, hevery⟩ :=
    filter_settles_searches items f [] (Interpreter.new 9) hfilter
  cases hkept
  exact ⟨hfilter, hfind, hsome, hevery⟩

end TemplatedForms
