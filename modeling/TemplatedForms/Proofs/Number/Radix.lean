import TemplatedForms.Number.Radix

namespace TemplatedForms.Number

def digitValue (c : Char) : Nat := if c.toNat < 58 then c.toNat - 48 else c.toNat - 87

/-- The number that digits spell in a base, read on from a number that is in front of them. -/
def readOnto (radix n : Nat) (cs : List Char) : Nat :=
  cs.foldl (fun n c ↦ radix * n + digitValue c) n

theorem digitValue_digit {n : Nat} (h : n < 36) : digitValue (digit n) = n := by
  have hall : ∀ n : Fin 36, digitValue (digit n) = n := by decide
  exact hall ⟨n, h⟩

theorem readOnto_digitsOnto {radix : Nat} (h : 2 ≤ radix) (h' : radix ≤ 36) (n : Nat) (found : List Char) :
    readOnto radix 0 (digitsOnto radix n found) = readOnto radix n found := by
  induction n, found using digitsOnto.induct radix with
  | case1 n found hn =>
    rw [digitsOnto, if_pos hn, readOnto, List.foldl_cons, digitValue_digit (by omega), Nat.mul_zero,
      Nat.zero_add, readOnto]
  | case2 n found hn ih =>
    have hmod : n % radix < radix := Nat.mod_lt n (by omega)
    rw [digitsOnto, if_neg hn, ih, readOnto, List.foldl_cons, digitValue_digit (by omega),
      Nat.div_add_mod, readOnto]

theorem readOnto_inRadix {radix : Nat} (h : 2 ≤ radix) (h' : radix ≤ 36) (n : Nat) :
    readOnto radix 0 (inRadix radix n).toList = n := by
  rw [inRadix, String.toList_ofList, readOnto_digitsOnto h h']
  rfl

theorem inRadix_injective {radix : Nat} (h : 2 ≤ radix) (h' : radix ≤ 36) {m n : Nat}
    (heq : inRadix radix m = inRadix radix n) : m = n := by
  rw [← readOnto_inRadix h h' m, heq, readOnto_inRadix h h']

def digits : List Char := "0123456789abcdefghijklmnopqrstuvwxyz".toList

/-- A natural number as it is written in a base: in digits below the base, with a zero in front only if it is
the only digit. -/
structure Writes (radix n : Nat) (cs : List Char) : Prop where
  ne_nil : cs ≠ []
  below : ∀ c ∈ cs, c ∈ digits.take radix
  leading : cs.head? = some '0' → cs = ['0']
  value : readOnto radix 0 cs = n

theorem digit_mem {d radix : Nat} (h : d < radix) (h' : radix ≤ 36) : digit d ∈ digits.take radix := by
  have hall : ∀ d : Fin 36, digits[d]? = some (digit d) := by decide
  refine List.mem_of_getElem? (i := d) ?_
  rw [List.getElem?_take, if_pos h]
  exact hall ⟨d, by omega⟩

theorem mem_digitsOnto {radix : Nat} (h : 2 ≤ radix) (h' : radix ≤ 36) (n : Nat) (found : List Char) :
    ∀ c ∈ digitsOnto radix n found, c ∈ digits.take radix ∨ c ∈ found := by
  induction n, found using digitsOnto.induct radix with
  | case1 n found hn =>
    rw [digitsOnto, if_pos hn, List.forall_mem_cons]
    exact ⟨.inl (digit_mem (by omega) h'), fun c hc ↦ .inr hc⟩
  | case2 n found hn ih =>
    rw [digitsOnto, if_neg hn]
    intro c hc
    rcases ih c hc with hc | hc
    · exact .inl hc
    · rcases List.mem_cons.mp hc with rfl | hc
      · exact .inl (digit_mem (Nat.mod_lt n (by omega)) h')
      · exact .inr hc

theorem exists_digitsOnto {radix : Nat} (h : 2 ≤ radix) {n : Nat} (hpos : 0 < n) (found : List Char) :
    ∃ d rest, 0 < d ∧ d < radix ∧ digitsOnto radix n found = digit d :: rest := by
  induction n, found using digitsOnto.induct radix with
  | case1 n found hn =>
    rw [digitsOnto, if_pos hn]
    exact ⟨n, found, hpos, by omega, rfl⟩
  | case2 n found hn ih =>
    rw [digitsOnto, if_neg hn]
    exact ih (Nat.div_pos (by omega) (by omega))

theorem inRadix_writes {radix : Nat} (h : 2 ≤ radix) (h' : radix ≤ 36) (n : Nat) :
    Writes radix n (inRadix radix n).toList := by
  have hvalue := readOnto_inRadix h h' n
  have hmem := mem_digitsOnto h h' n []
  rw [inRadix, String.toList_ofList] at hvalue ⊢
  simp only [List.not_mem_nil, or_false] at hmem
  rcases Nat.eq_zero_or_pos n with rfl | hpos
  · have hzero : digitsOnto radix 0 [] = ['0'] := by
      rw [digitsOnto, if_pos (by omega)]
      rfl
    exact ⟨by simp [hzero], hmem, fun _ ↦ hzero, hvalue⟩
  · obtain ⟨d, rest, hd, hlt, heq⟩ := exists_digitsOnto h hpos []
    refine ⟨by simp [heq], hmem, fun hhead ↦ ?_, hvalue⟩
    rw [heq, List.head?_cons] at hhead
    have hcount := digitValue_digit (n := d) (by omega)
    rw [Option.some.inj hhead] at hcount
    exact absurd hcount (by change 0 ≠ d; omega)

end TemplatedForms.Number
