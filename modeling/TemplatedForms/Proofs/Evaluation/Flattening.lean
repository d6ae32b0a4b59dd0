import TemplatedForms.Proofs.Evaluation.Positions

namespace TemplatedForms

open Number

variable {φ : Type}

namespace ListMethod

@[elab_as_elim]
theorem nestedInduction {motive : List Value → Prop} (nil : motive [])
    (array : ∀ inner rest, motive inner → motive rest → motive (.array inner :: rest))
    (leaf : ∀ v rest, v.asArray? = none → motive rest → motive (v :: rest)) (items : List Value) :
    motive items :=
  match items with
  | [] => nil
  | .array inner :: rest =>
    array inner rest (nestedInduction nil array leaf inner) (nestedInduction nil array leaf rest)
  | .undefined :: rest | .null :: rest | .bool _ :: rest | .number _ :: rest | .string _ :: rest
  | .object _ :: rest => leaf _ rest rfl (nestedInduction nil array leaf rest)

variable {v : Value}

theorem flatten_nil (depth : Nat) : flatten depth [] = [] := by
  cases depth <;> rfl

theorem flatten_array (depth : Nat) (inner rest : List Value) :
    flatten (depth + 1) (.array inner :: rest) = flatten depth inner ++ flatten (depth + 1) rest := rfl

theorem flatten_leaf (hv : v.asArray? = none) (depth : Nat) (rest : List Value) :
    flatten depth (v :: rest) = v :: flatten depth rest := by
  cases depth with
  | zero => rfl
  | succ depth =>
    cases v with
    | array inner => cases hv
    | _ => rfl

theorem flatten_append (depth : Nat) (us vs : List Value) :
    flatten depth (us ++ vs) = flatten depth us ++ flatten depth vs := by
  cases depth with
  | zero => rfl
  | succ depth => exact List.flatMap_append

theorem flatten_flatten (m n : Nat) (items : List Value) :
    flatten n (flatten m items) = flatten (m + n) items := by
  induction items using nestedInduction generalizing m with
  | nil => rw [flatten_nil, flatten_nil, flatten_nil]
  | array inner rest ihinner ihrest =>
    cases m with
    | zero => rw [Nat.zero_add, flatten]
    | succ m => rw [flatten_array, flatten_append, ihinner, ihrest, Nat.add_right_comm, flatten_array]
  | leaf v rest hv ih => rw [flatten_leaf hv, flatten_leaf hv, flatten_leaf hv, ih]

theorem leaves_array (inner rest : List Value) : leaves (.array inner :: rest) = leaves inner ++ leaves rest :=
  rfl

theorem leaves_leaf (hv : v.asArray? = none) (rest : List Value) : leaves (v :: rest) = v :: leaves rest := by
  cases v with
  | array inner => cases hv
  | _ => rfl

theorem leaves_append (us vs : List Value) : leaves (us ++ vs) = leaves us ++ leaves vs := by
  induction us with
  | nil => rfl
  | cons u us ih => rw [List.cons_append, leaves, leaves, ih, List.append_assoc]

theorem leaves_flatten (depth : Nat) (items : List Value) : leaves (flatten depth items) = leaves items := by
  induction items using nestedInduction generalizing depth with
  | nil => rw [flatten_nil]
  | array inner rest ihinner ihrest =>
    cases depth with
    | zero => rw [flatten]
    | succ depth => rw [flatten_array, leaves_append, ihinner, ihrest, leaves_array]
  | leaf v rest hv ih => rw [flatten_leaf hv, leaves_leaf hv, leaves_leaf hv, ih]

theorem exists_flatten_eq_leaves (items : List Value) :
    ∃ depth, ∀ more, depth ≤ more → flatten more items = leaves items := by
  induction items using nestedInduction with
  | nil => exact ⟨0, fun more _ ↦ flatten_nil more⟩
  | array inner rest ihinner ihrest =>
    obtain ⟨m, hm⟩ := ihinner
    obtain ⟨n, hn⟩ := ihrest
    refine ⟨max (m + 1) n, fun more hmore ↦ ?_⟩
    obtain ⟨hmore, hrest⟩ := max_le_iff.mp hmore
    obtain ⟨more, rfl⟩ : ∃ k, more = k + 1 := ⟨more - 1, by omega⟩
    rw [flatten_array, hm more (by omega), hn _ hrest, leaves_array]
  | leaf v rest hv ih =>
    obtain ⟨n, hn⟩ := ih
    exact ⟨n, fun more hmore ↦ by rw [flatten_leaf hv, hn more hmore, leaves_leaf hv]⟩

end ListMethod

namespace Value

/-- What is found in a value along a path: positions in arrays, the outermost first. -/
def within? : Value → List Nat → Option Value
  | v, [] => some v
  | v, i :: path => (v.asArray?.bind (·[i]?)).bind (·.within? path)

/-- The paths in a value to what is not an array, from left to right, and what is found along them. -/
structure LeafPaths (v : Value) (paths : List (List Nat)) (leaves : List Value) : Prop where
  ascending : paths.Pairwise (· < ·)
  mem_iff : ∀ path, path ∈ paths ↔ ∃ w, v.within? path = some w ∧ w.asArray? = none
  found : paths.map v.within? = leaves.map some

def moved : List Nat → List Nat
  | [] => []
  | i :: path => (i + 1) :: path

theorem moved_lt_moved {p q : List Nat} (h : p < q) : moved p < moved q := by
  cases p with
  | nil =>
    cases q with
    | nil => exact absurd h (List.lt_irrefl [])
    | cons j q => exact List.nil_lt_cons _ q
  | cons i p =>
    cases q with
    | nil => exact absurd h (List.not_lt_nil _)
    | cons j q =>
      rcases List.cons_lt_cons_iff.mp h with hlt | ⟨rfl, hlt⟩
      · exact List.cons_lt_cons_iff.mpr (.inl (Nat.succ_lt_succ hlt))
      · exact List.cons_lt_cons_self.mpr hlt

variable {v : Value} {rest us vs : List Value} {paths front back : List (List Nat)}

theorem LeafPaths.nil_notMem (h : LeafPaths (.array rest) paths vs) : [] ∉ paths := by
  rw [h.mem_iff]
  rintro ⟨w, hw, hleaf⟩
  cases hw
  cases hleaf

theorem leafPaths_leaf (hv : v.asArray? = none) : LeafPaths v [[]] [v] where
  ascending := List.pairwise_singleton _ _
  mem_iff path := by
    cases path with
    | nil => exact iff_of_true List.mem_cons_self ⟨v, rfl, hv⟩
    | cons i path => simp [within?, hv]
  found := rfl

theorem leafPaths_nil : LeafPaths (.array []) [] [] where
  ascending := .nil
  mem_iff path := by
    refine iff_of_false List.not_mem_nil ?_
    rintro ⟨w, hw, hleaf⟩
    cases path with
    | nil =>
      cases hw
      cases hleaf
    | cons i path => cases hw
  found := rfl

theorem LeafPaths.cons (hv : LeafPaths v front us) (hrest : LeafPaths (.array rest) back vs) :
    LeafPaths (.array (v :: rest)) (front.map (0 :: ·) ++ back.map moved) (us ++ vs) where
  ascending := by
    refine List.pairwise_append.mpr ⟨?_, ?_, ?_⟩
    · exact hv.ascending.map _ fun p q h ↦ List.cons_lt_cons_self.mpr h
    · exact hrest.ascending.map _ fun p q h ↦ moved_lt_moved h
    · intro p hp r hr
      obtain ⟨p, -, rfl⟩ := List.mem_map.mp hp
      obtain ⟨q, hq, rfl⟩ := List.mem_map.mp hr
      cases q with
      | nil => exact absurd hq hrest.nil_notMem
      | cons i q => exact List.cons_lt_cons_iff.mpr (.inl (Nat.succ_pos i))
  mem_iff path := by
    rw [List.mem_append, List.mem_map, List.mem_map]
    match path with
    | [] =>
      refine iff_of_false ?_ ?_
      · rintro (⟨p, -, hp⟩ | ⟨q, hq, hmoved⟩)
        · cases hp
        · cases q with
          | nil => exact hrest.nil_notMem hq
          | cons i q => cases hmoved
      · rintro ⟨w, hw, hleaf⟩
        cases hw
        cases hleaf
    | 0 :: path =>
      refine Iff.trans ⟨?_, fun h ↦ .inl ⟨path, h, rfl⟩⟩ (hv.mem_iff path)
      rintro (⟨p, hp, heq⟩ | ⟨q, -, hmoved⟩)
      · cases heq
        exact hp
      · cases q <;> cases hmoved
    | (i + 1) :: path =>
      refine Iff.trans ⟨?_, fun h ↦ .inr ⟨i :: path, h, rfl⟩⟩ (hrest.mem_iff (i :: path))
      rintro (⟨p, -, heq⟩ | ⟨q, hq, hmoved⟩)
      · cases heq
      · cases q with
        | nil => cases hmoved
        | cons j q =>
          cases hmoved
          exact hq
  found := by
    have hback : ∀ q ∈ back, (array (v :: rest)).within? (moved q) = (array rest).within? q := by
      intro q hq
      cases q with
      | nil => exact absurd hq hrest.nil_notMem
      | cons i q => rfl
    rw [List.map_append, List.map_append, List.map_map, List.map_map, ← hv.found, ← hrest.found,
      List.map_congr_left (f := _ ∘ moved) hback]
    rfl

theorem exists_leafPaths (items : List Value) :
    ∃ paths, LeafPaths (.array items) paths (ListMethod.leaves items) := by
  induction items using ListMethod.nestedInduction with
  | nil => exact ⟨[], leafPaths_nil⟩
  | array inner rest ihinner ihrest =>
    obtain ⟨front, hfront⟩ := ihinner
    obtain ⟨back, hback⟩ := ihrest
    exact ⟨_, hfront.cons hback⟩
  | leaf v rest hv ih =>
    obtain ⟨back, hback⟩ := ih
    rw [ListMethod.leaves_leaf hv]
    exact ⟨_, (leafPaths_leaf hv).cons hback⟩

theorem LeafPaths.leaf_of_mem (h : LeafPaths v paths vs) : ∀ w ∈ vs, w.asArray? = none := by
  intro w hw
  have hfound : some w ∈ paths.map v.within? := h.found ▸ List.mem_map_of_mem hw
  obtain ⟨path, hpath, hwithin⟩ := List.mem_map.mp hfound
  obtain ⟨w', hw', hleaf⟩ := (h.mem_iff path).mp hpath
  rw [hwithin] at hw'
  cases hw'
  exact hleaf

end Value

theorem callMethod_flat (items : List Value) (depth : Value) (rest : List (Arg φ)) :
    callMethod (.array items) "flat" (.value depth :: rest) =
      .done (.array (ListMethod.flat items (depth.toWhole (.int 1)))) := by
  let args : Args φ := ⟨"flat", .value depth :: rest⟩
  have hcall : callMethod (.array items) "flat" (.value depth :: rest) =
      .ofExcept (args.whole 0 (.int 1) >>= fun depth ↦ pure (.array (ListMethod.flat items depth))) := rfl
  rw [hcall, args.whole_of_value (v := depth) rfl]
  rfl

theorem callMethod_flat_ofNat (items : List Value) {depth : Nat} (h : depth < 2 ^ 53) (rest : List (Arg φ)) :
    callMethod (.array items) "flat" (.value (.ofNat depth) :: rest) =
      .done (.array (ListMethod.flatten depth items)) := by
  have hdepth : (Value.ofNat depth).toWhole (.int 1) = .int depth := whole_ofNat h
  rw [callMethod_flat, hdepth]
  rfl

theorem callMethod_flat_infinity (items : List Value) (rest : List (Arg φ)) :
    callMethod (.array items) "flat" (.value (.number positiveInfinity) :: rest) =
      .done (.array (ListMethod.leaves items)) := by
  have hdepth : (Value.number positiveInfinity).toWhole (.int 1) = .infinity := by decide
  rw [callMethod_flat, hdepth]
  rfl

/-- Flattening an array by some levels and the result by others is flattening it by all of them. Without a limit
the result holds no array: it is what is found in the array along all the paths that end at something else, from
left to right. Flattening to any depth before that changes nothing about it, and some depth is as good as no
limit. -/
theorem flattening_composes (items : List Value) (rest : List (Arg φ)) :
    let flat (items : List Value) (depth : Value) : Routine φ Value :=
      callMethod (.array items) "flat" (.value depth :: rest)
    (∀ m n, m + n < 2 ^ 53 → ∃ once twice, flat items (.ofNat m) = .done (.array once) ∧
      flat once (.ofNat n) = .done (.array twice) ∧ flat items (.ofNat (m + n)) = .done (.array twice)) ∧
    ∃ leaves paths, flat items (.number positiveInfinity) = .done (.array leaves) ∧
      (∀ v ∈ leaves, v.asArray? = none) ∧ (Value.array items).LeafPaths paths leaves ∧
      (∀ m < 2 ^ 53, ∃ once, flat items (.ofNat m) = .done (.array once) ∧
        flat once (.number positiveInfinity) = .done (.array leaves)) ∧
      ∃ depth, ∀ more, depth ≤ more → ListMethod.flatten more items = leaves := by
  intro flat
  refine ⟨fun m n h ↦ ?_, ?_⟩
  · have hm : m < 2 ^ 53 := by omega
    have hn : n < 2 ^ 53 := by omega
    refine ⟨_, _, callMethod_flat_ofNat items hm rest, callMethod_flat_ofNat _ hn rest, ?_⟩
    rw [ListMethod.flatten_flatten]
    exact callMethod_flat_ofNat items h rest
  · obtain ⟨paths, hpaths⟩ := Value.exists_leafPaths items
    refine ⟨_, paths, callMethod_flat_infinity items rest, hpaths.leaf_of_mem, hpaths, fun m hm ↦ ?_,
      ListMethod.exists_flatten_eq_leaves items⟩
    refine ⟨_, callMethod_flat_ofNat items hm rest, ?_⟩
    rw [← ListMethod.leaves_flatten m items]
    exact callMethod_flat_infinity _ rest

/-- Letters at three depths, and an empty array beside the last one. -/
theorem flattening_composes_three_levels :
    let items : List Value := [.string "a", .array [.string "b", .array [.array [], .string "c"]]]
    let flat (items : List Value) (depth : Value) : Routine Empty Value :=
      callMethod (.array items) "flat" [.value depth]
    1 + 1 < 2 ^ 53 ∧ ∃ once, flat items (.ofNat 1) = .done (.array once) ∧
      flat once (.ofNat 1) = flat items (.ofNat 2) ∧
      flat items (.ofNat 2) = .done (.array [.string "a", .string "b", .array [], .string "c"]) := by
  intro items flat
  have hsmall : 1 + 1 < 2 ^ 53 := by decide
  obtain ⟨hcompose, -⟩ := flattening_composes (φ := Empty) items []
  obtain ⟨once, twice, honce, htwice, hboth⟩ := hcompose 1 1 hsmall
  exact ⟨hsmall, once, honce, htwice.trans hboth.symm, callMethod_flat_ofNat items hsmall []⟩

end TemplatedForms
