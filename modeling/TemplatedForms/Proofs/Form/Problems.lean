import Mathlib.Data.List.Count
import TemplatedForms.Proofs.Form.Cycles
import TemplatedForms.Proofs.Form.Validation

namespace TemplatedForms

open Relation (TransGen)

namespace Form

variable {form : Form} {f : Field} {i : Nat} {n r : String}

end Form

end TemplatedForms
