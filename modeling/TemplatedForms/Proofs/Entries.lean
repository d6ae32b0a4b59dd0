import TemplatedForms.Entries

namespace TemplatedForms.Entries

variable {α : Type}

theorem get?_cons (k : String) (e : String × α) (es : Entries α) :
    get? k (e :: es) = if k = e.1 then some e.2 else get? k es := by
  rw [get?, List.lookup_cons]
  by_cases h : k = e.1
  · simp [h]
  · rw [beq_false_of_ne h, if_neg h]

theorem get?_append (k : String) (es es' : Entries α) :
    get? k (es ++ es') = (es.get? k).or (es'.get? k) := List.lookup_append

theorem contains_eq_isSome (k : String) (es : Entries α) : es.contains k = (es.get? k).isSome := by
  induction es with
  | nil => rfl
  | cons e es ih =>
    rw [get?_cons, contains, List.any_cons, ← contains, ih]
    by_cases h : k = e.1
    · simp [h]
    · simp [h, Ne.symm h]

theorem contains_iff {k : String} {es : Entries α} : es.contains k = true ↔ k ∈ es.keys := by
  simp [contains, keys]

theorem get?_put (k key : String) (v : α) (es : Entries α) :
    (es.put key v).get? k = if k = key then some v else es.get? k := by
  induction es with
  | nil => rw [put, get?_cons]
  | cons e es ih =>
    rw [put]
    by_cases he : e.1 = key
    · rw [if_pos (by simpa using he), get?_cons, get?_cons, he]
      split <;> rfl
    · rw [if_neg (by simpa using he), get?_cons, get?_cons, ih]
      by_cases hk : k = e.1
      · rw [if_pos hk, if_pos hk, if_neg fun h ↦ he (hk.symm.trans h)]
      · rw [if_neg hk, if_neg hk]

theorem contains_put (k key : String) (v : α) (es : Entries α) :
    (es.put key v).contains k = (decide (k = key) || es.contains k) := by
  rw [contains_eq_isSome, contains_eq_isSome, get?_put]
  by_cases h : k = key <;> simp [h]

theorem get?_put_of_ne {k key : String} (h : k ≠ key) (v : α) (es : Entries α) :
    (es.put key v).get? k = es.get? k := by
  rw [get?_put, if_neg h]

theorem pair_mem_of_get? {key : String} {es : Entries α} {a : α} (h : es.get? key = some a) :
    (key, a) ∈ es := by
  induction es with
  | nil => cases h
  | cons e es ih =>
    rw [get?_cons] at h
    split at h
    · next hkey =>
      cases h
      exact hkey ▸ List.mem_cons_self
    · exact List.mem_cons_of_mem e (ih h)

theorem get?_eq_none_iff {key : String} {es : Entries α} : es.get? key = none ↔ key ∉ es.keys := by
  rw [← contains_iff, contains_eq_isSome, Option.not_isSome_iff_eq_none]

theorem mem_of_get? {key : String} {es : Entries α} {a : α} (h : es.get? key = some a) :
    ∃ e ∈ es, e.2 = a :=
  ⟨(key, a), pair_mem_of_get? h, rfl⟩

theorem mem_put {key : String} {a : α} {es : Entries α} {e : String × α} (h : e ∈ es.put key a) :
    e = (key, a) ∨ e ∈ es := by
  induction es with
  | nil => exact .inl (List.mem_singleton.mp h)
  | cons e' es ih =>
    rw [put] at h
    split at h
    · exact (List.mem_cons.mp h).imp_right (List.mem_cons_of_mem e')
    · rcases List.mem_cons.mp h with rfl | h
      · exact .inr List.mem_cons_self
      · exact (ih h).imp_right (List.mem_cons_of_mem e')

theorem get?_of_mem {es : Entries α} (h : es.Distinct) {e : String × α} (he : e ∈ es) :
    es.get? e.1 = some e.2 := by
  induction es with
  | nil => cases he
  | cons e' es ih =>
    obtain ⟨hnew, hrest⟩ := List.nodup_cons.mp h
    rw [get?_cons]
    rcases List.mem_cons.mp he with rfl | he
    · exact if_pos rfl
    · rw [if_neg, ih hrest he]
      intro heq
      exact hnew (List.mem_map.mpr ⟨e, he, heq⟩)

theorem put_of_get? {key : String} {v : α} {es : Entries α} (h : es.get? key = some v) :
    es.put key v = es := by
  induction es with
  | nil => cases h
  | cons e es ih =>
    obtain ⟨k, w⟩ := e
    rw [get?_cons] at h
    rw [put]
    by_cases hk : key = k
    · subst hk
      rw [if_pos rfl] at h
      cases h
      exact if_pos (beq_self_eq_true key)
    · rw [if_neg hk] at h
      rw [if_neg (by simpa using Ne.symm hk), ih h]

theorem erase_of_get?_eq_none {key : String} {es : Entries α} (h : es.get? key = none) :
    es.erase key = es := by
  induction es with
  | nil => rfl
  | cons e es ih =>
    rw [get?_cons] at h
    by_cases hk : key = e.1
    · rw [if_pos hk] at h
      cases h
    · rw [if_neg hk] at h
      rw [erase, if_neg (by simpa using Ne.symm hk), ih h]

theorem put_of_notMem {key : String} {es : Entries α} (h : key ∉ es.keys) (v : α) :
    es.put key v = es ++ [(key, v)] := by
  induction es with
  | nil => rfl
  | cons e es ih =>
    rw [keys, List.map_cons, List.mem_cons, not_or] at h
    rw [put, if_neg (by simpa using Ne.symm h.1), ih h.2, List.cons_append]

theorem ofPairs_of_distinct {es : Entries α} (h : es.Distinct) : ofPairs es = es := by
  have hfoldl (front es : Entries α) (h : Distinct (front ++ es)) :
      es.foldl (fun es e ↦ es.put e.1 e.2) front = front ++ es := by
    induction es generalizing front with
    | nil => simp
    | cons e es ih =>
      have hfresh : e.1 ∉ front.keys := by
        rw [Distinct, keys, List.map_append, List.map_cons] at h
        exact fun hm ↦ (List.nodup_append.mp h).2.2 _ hm _ List.mem_cons_self rfl
      rw [List.foldl_cons, put_of_notMem hfresh, ih _ (by simpa using h), List.append_assoc,
        List.singleton_append]
  exact hfoldl [] es h

theorem mem_foldl_put {pairs : List (String × α)} {es : Entries α} {e : String × α}
    (h : e ∈ pairs.foldl (fun es e ↦ es.put e.1 e.2) es) : e ∈ es ∨ e ∈ pairs := by
  induction pairs generalizing es with
  | nil => exact .inl h
  | cons p pairs ih =>
    rcases ih h with h | h
    · rcases mem_put h with rfl | h
      · exact .inr List.mem_cons_self
      · exact .inl h
    · exact .inr (List.mem_cons_of_mem p h)

theorem mem_ofPairs {pairs : List (String × α)} {e : String × α} (h : e ∈ ofPairs pairs) : e ∈ pairs :=
  (mem_foldl_put h).resolve_left List.not_mem_nil

theorem get?_ofPairs (key : String) (pairs : List (String × α)) :
    (ofPairs pairs).get? key = get? key pairs.reverse := by
  have hfoldl (es : Entries α) :
      (pairs.foldl (fun es e ↦ es.put e.1 e.2) es).get? key = (get? key pairs.reverse).or (es.get? key) := by
    induction pairs generalizing es with
    | nil => rfl
    | cons e pairs ih =>
      rw [List.foldl_cons, ih, get?_put, List.reverse_cons, get?_append, Option.or_assoc, get?_cons]
      split <;> rfl
  exact (hfoldl []).trans Option.or_none

/-- Two lists of entries have the same values for some keys. -/
def AgreeOn (keys : List String) (es es' : Entries α) : Prop := ∀ k ∈ keys, es.get? k = es'.get? k

namespace AgreeOn

variable {keys keys' : List String} {es es' es'' : Entries α}

theorem symm (h : AgreeOn keys es es') : AgreeOn keys es' es := fun k hk ↦ (h k hk).symm

theorem trans (h : AgreeOn keys es es') (h' : AgreeOn keys es' es'') : AgreeOn keys es es'' :=
  fun k hk ↦ (h k hk).trans (h' k hk)

theorem mono (h : AgreeOn keys es es') (hk : keys' ⊆ keys) : AgreeOn keys' es es' :=
  fun k hk' ↦ h k (hk hk')

theorem put (h : AgreeOn keys es es') (key : String) (v : α) :
    AgreeOn keys (es.put key v) (es'.put key v) := by
  intro k hk
  rw [get?_put, get?_put, h k hk]

end AgreeOn

theorem agreeOn_put {keys : List String} {key : String} (h : key ∉ keys) (v : α) (es : Entries α) :
    AgreeOn keys (es.put key v) es := by
  intro k hk
  refine get?_put_of_ne ?_ v es
  rintro rfl
  exact h hk

end TemplatedForms.Entries
