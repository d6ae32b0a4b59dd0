namespace TemplatedForms.Text

/-- A set of code points as the increasing sequence of the points where membership changes. -/
structure Ranges where
  boundaries : Array Nat

namespace Ranges

/-- How many boundaries between the indices `low` and `high` are at most `n`, plus `low`. -/
def rank (r : Ranges) (n low high : Nat) : Nat :=
  if h : low < high then
    let middle := (low + high) / 2
    if r.boundaries.getD middle 0 ≤ n then r.rank n (middle + 1) high else r.rank n low middle
  else low
termination_by high - low

def contains (r : Ranges) (c : Char) : Bool :=
  r.rank c.toNat 0 r.boundaries.size % 2 == 1

end Ranges

end TemplatedForms.Text
