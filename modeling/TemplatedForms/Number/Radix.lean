namespace TemplatedForms.Number

def digit (n : Nat) : Char := Char.ofNat (if n < 10 then n + 48 else n + 87)

def digitsOnto (radix n : Nat) (found : List Char) : List Char :=
  if n < radix ∨ radix < 2 then digit n :: found
  else digitsOnto radix (n / radix) (digit (n % radix) :: found)
termination_by n
decreasing_by exact Nat.div_lt_self (by omega) (by omega)

def inRadix (radix n : Nat) : String := String.ofList (digitsOnto radix n [])

end TemplatedForms.Number
