import TemplatedForms.Entries
import TemplatedForms.Form.References

namespace TemplatedForms

inductive FormProblem
  | duplicateClassName (className : String)
  | unknownField (field reference : String)
  | selfReference (field : String)
  | forwardReference (field reference : String)
  | circularReference (cycle : List String)
deriving DecidableEq

def FormProblem.message : FormProblem → String
  | .duplicateClassName className => "Duplicate class name: " ++ className
  | .unknownField field reference => "Field " ++ field ++ " references unknown field " ++ reference
  | .selfReference field => "Field " ++ field ++ " references itself"
  | .forwardReference field reference =>
    "Field " ++ field ++ " references " ++ reference ++ ", which is defined later in the form"
  | .circularReference cycle => "Circular field reference: " ++ " -> ".intercalate cycle

abbrev Graph := Entries (List String)

namespace Graph

def next (g : Graph) (node : String) : List String := (g.get? node).getD []

def addEdges (g : Graph) (node : String) (targets : List String) : Graph := g.put node (g.next node ++ targets)

def links (g : Graph) (node : String) : List String := (g.next node).filter fun n ↦ g.contains n

structure Search where
  finished : List String
  cycles : List (List String)

def cycleOf (node : String) (path : List String) : List String :=
  node :: (path.takeWhile (· != node)).reverse ++ [node]

/-- Follows all edges from the end of a path. No node comes twice on a path, so its length is bounded. -/
def visit (g : Graph) : Nat → List String → String → Search → Search
  | 0, _, _, s => s
  | depth + 1, path, node, s =>
    if s.finished.contains node then s
    else if path.contains node then { s with cycles := s.cycles ++ [cycleOf node path] }
    else
      let s := (g.links node).foldl (fun s n ↦ visit g depth (node :: path) n s) s
      { s with finished := node :: s.finished }

def cycles (g : Graph) : List (List String) :=
  (g.keys.foldl (fun s n ↦ visit g (g.length + 2) [] n s) ⟨[], []⟩).cycles

end Graph

namespace Form

/-- The names that come more than once among the names after `before`, each at its second place. -/
def secondPlaces (before : List String) : List String → List String
  | [] => []
  | n :: ns => if before.count n = 1 then n :: secondPlaces (n :: before) ns else secondPlaces (n :: before) ns

def referenceProblem? (form : Form) (index : Nat) (field : Field) (reference : String) : Option FormProblem :=
  if reference = field.className then some (.selfReference field.className)
  else
    match form.position? reference with
    | none => some (.unknownField field.className reference)
    | some target => if index < target then some (.forwardReference field.className reference) else none

def fieldProblems (form : Form) (field : Field) (index : Nat) : List FormProblem :=
  field.references.filterMap (form.referenceProblem? index field)

def edges (form : Form) (field : Field) : List String :=
  field.references.filter fun r ↦ r != field.className && (form.position? r).isSome

/-- Fields of the same name are one node. -/
def graph (form : Form) : Graph :=
  form.fields.foldl (fun g f ↦ Graph.addEdges g f.className (form.edges f)) []

/-- Everything that is wrong: repeated class names, then bad references field by field, then cycles. -/
def problems (form : Form) : List FormProblem :=
  (secondPlaces [] (form.fields.map (·.className))).map .duplicateClassName ++
    (form.fields.zipIdx.flatMap fun (f, i) ↦ form.fieldProblems f i) ++
    form.graph.cycles.map .circularReference

end Form

end TemplatedForms
