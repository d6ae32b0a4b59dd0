import TemplatedForms.Evaluation.Globals
import TemplatedForms.Proofs.Number.Integer
import TemplatedForms.Proofs.Text.Search

namespace TemplatedForms

open Number

variable {φ : Type}

namespace Number.Whole

variable {len i : Nat}

end Number.Whole

def Value.toWhole (v : Value) (default : Whole) : Whole :=
  if v.isUndefined then default else Whole.ofFloat v.toNumber

namespace TextMethod

variable {s t : String}

end TextMethod

open TextMethod

theorem Args.whole_of_value (args : Args φ) {i : Nat} {v : Value} (h : args.items[i]? = some (.value v))
    (default : Whole) : args.whole i default = .ok (v.toWhole default) := by
  have hvalue : args.value i = .ok v := by rw [Args.value, h]
  rw [Args.whole, hvalue, Value.toWhole]
  change (if v.isUndefined then Except.ok default else .ok (Whole.ofFloat v.toNumber)) = _
  split <;> rfl

section

variable (s t : String) (p : Value) (args rest : List (Arg φ))

end

end TemplatedForms
