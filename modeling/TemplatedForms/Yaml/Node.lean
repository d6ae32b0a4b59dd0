import TemplatedForms.Entries
import TemplatedForms.Yaml.Layout

namespace TemplatedForms.Yaml

/-- A node with the number of its anchor and its tag, if it has them. An alias has the number of the
anchor that it refers to. -/
inductive Node
  | alias (id : Nat)
  | scalar (anchor : Option Nat) (tag : Option String) (s : Scalar)
  | sequence (anchor : Option Nat) (tag : Option String) (items : List Node)
  | mapping (anchor : Option Nat) (tag : Option String) (members : List (Node × Node))

namespace Node

instance : Inhabited Node := ⟨.alias 0⟩

def empty : Node := .scalar none none ⟨true, []⟩

def anchor? : Node → Option Nat
  | .alias _ => none
  | .scalar a _ _ | .sequence a _ _ | .mapping a _ _ => a

mutual

def all : Node → List Node
  | .alias id => [.alias id]
  | .scalar a t s => [.scalar a t s]
  | .sequence a t items => .sequence a t items :: allItems items
  | .mapping a t members => .mapping a t members :: allMembers members

def allItems : List Node → List Node
  | [] => []
  | n :: ns => all n ++ allItems ns

def allMembers : List (Node × Node) → List Node
  | [] => []
  | (k, n) :: ms => all k ++ all n ++ allMembers ms

end

mutual

/-- The number of steps in which a node is read: one for each end of a collection, one for anything
else. -/
def size : Node → Nat
  | .alias _ | .scalar _ _ _ => 1
  | .sequence _ _ items => sizeItems items + 2
  | .mapping _ _ members => sizeMembers members + 2

def sizeItems : List Node → Nat
  | [] => 0
  | n :: ns => size n + sizeItems ns

def sizeMembers : List (Node × Node) → Nat
  | [] => 0
  | (k, n) :: ms => size k + size n + sizeMembers ms

end

end Node

structure Composer where
  tokens : List Token
  anchors : Entries Nat
  handles : Entries String

abbrev Compose := StateT Composer Option

namespace Compose

def peek : Compose (Option Token) := return (← get).tokens.head?

def skip : Compose Unit := modify fun c ↦ { c with tokens := c.tokens.tail }

def accept (t : Token) : Compose Bool := do
  if (← peek) == some t then
    skip
    return true
  else return false

/-- An anchor takes the number of names that there were before it. -/
def anchor (name : String) : Compose Nat := do
  let id := (← get).anchors.length
  modify fun c ↦ { c with anchors := c.anchors.put name id }
  return id

def tag (name : TagName) : Compose (Option String) := do
  if name.handle.isEmpty then return if name.suffix = "!" then none else some name.suffix
  else
    match (← get).handles.get? name.handle with
    | some meaning => return some (meaning ++ name.suffix)
    | none => failure

def properties : Compose (Bool × Option String × Option TagName) := do
  match ← peek with
  | some (.anchor a) =>
    skip
    match ← peek with
    | some (.tag t) =>
      skip
      return (true, some a, some t)
    | _ => return (true, some a, none)
  | some (.tag t) =>
    skip
    match ← peek with
    | some (.anchor a) =>
      skip
      return (true, some a, some t)
    | _ => return (true, none, some t)
  | _ => return (false, none, none)

def endsBlockNode (t : Option Token) : Bool :=
  t == some .key || t == some .value || t == some .blockEnd

def endsFlowNode (kind : Bracket) (t : Option Token) : Bool :=
  t == some .flowEntry || t == some (.flowEnd kind)

mutual

/-- A node. Blocks are read where `block` holds, sequences without indentation where `flush` holds. -/
def node (block flush : Bool) : Nat → Compose Node
  | 0 => failure
  | fuel + 1 => do
    if let some (.alias name) ← peek then
      skip
      match (← get).anchors.get? name with
      | some id => return .alias id
      | none => failure
    let (found, anchorName, tagName) ← properties
    let tag ← match tagName with
      | some name => tag name
      | none => pure none
    let anchor ← anchorName.mapM anchor
    match ← peek with
    | some (.scalar s) =>
      skip
      return .scalar anchor tag s
    | some (.flowStart .sequence) =>
      skip
      return .sequence anchor tag (← flowItems true fuel)
    | some (.flowStart .mapping) =>
      skip
      return .mapping anchor tag (← flowMembers true fuel)
    | some (.blockStart .sequence) =>
      if !block then failure
      skip
      return .sequence anchor tag (← blockItems fuel)
    | some (.blockStart .mapping) =>
      if !block then failure
      skip
      return .mapping anchor tag (← blockMembers fuel)
    | t =>
      if flush && t == some .blockEntry then return .sequence anchor tag (← flushItems fuel)
      else if found then return .scalar anchor tag ⟨true, []⟩
      else failure

def blockItems : Nat → Compose (List Node)
  | 0 => failure
  | fuel + 1 => do
    if ← accept .blockEntry then
      let t ← peek
      let item ← if t == some .blockEntry || t == some .blockEnd then pure .empty else node true false fuel
      return item :: (← blockItems fuel)
    else if ← accept .blockEnd then return []
    else failure

def flushItems : Nat → Compose (List Node)
  | 0 => failure
  | fuel + 1 => do
    if ← accept .blockEntry then
      let t ← peek
      let item ← if t == some .blockEntry || endsBlockNode t then pure .empty else node true false fuel
      return item :: (← flushItems fuel)
    else return []

def blockMembers : Nat → Compose (List (Node × Node))
  | 0 => failure
  | fuel + 1 => do
    if ← accept .key then
      let key ← if endsBlockNode (← peek) then pure .empty else node true true fuel
      let value ←
        if ← accept .value then
          if endsBlockNode (← peek) then pure .empty else node true true fuel
        else pure .empty
      return (key, value) :: (← blockMembers fuel)
    else if ← accept .blockEnd then return []
    else failure

/-- The items of a sequence in brackets. An item with a colon is a mapping of one member. -/
def flowItems (first : Bool) : Nat → Compose (List Node)
  | 0 => failure
  | fuel + 1 => do
    if ← accept (.flowEnd .sequence) then return []
    if !first then
      if !(← accept .flowEntry) then failure
    if ← accept .key then
      let t ← peek
      let key ←
        if t == some .value || endsFlowNode .sequence t then
          skip
          pure .empty
        else node false false fuel
      let value ← flowValue .sequence fuel
      return .mapping none none [(key, value)] :: (← flowItems false fuel)
    else if ← accept (.flowEnd .sequence) then return []
    else
      let item ← node false false fuel
      return item :: (← flowItems false fuel)

def flowMembers (first : Bool) : Nat → Compose (List (Node × Node))
  | 0 => failure
  | fuel + 1 => do
    if ← accept (.flowEnd .mapping) then return []
    if !first then
      if !(← accept .flowEntry) then failure
    if ← accept .key then
      let t ← peek
      let key ←
        if t == some .value || endsFlowNode .mapping t then pure .empty else node false false fuel
      let value ← flowValue .mapping fuel
      return (key, value) :: (← flowMembers false fuel)
    else if ← accept (.flowEnd .mapping) then return []
    else
      let key ← node false false fuel
      return (key, .empty) :: (← flowMembers false fuel)

def flowValue (kind : Bracket) : Nat → Compose Node
  | 0 => failure
  | fuel + 1 => do
    if ← accept .value then
      if endsFlowNode kind (← peek) then return .empty else node false false fuel
    else return .empty

end

def directives (versioned : Bool) (handles : Entries String) : List Token → Option (Entries String × List Token)
  | .version major minor :: rest =>
    if versioned || major != 1 || (minor != 1 && minor != 2) then none
    else directives true handles rest
  | .tagHandle handle meaning :: rest =>
    if handles.contains handle then none else directives versioned (handles.put handle meaning) rest
  | rest => some (handles, rest)

def standardHandles : Entries String := [("!", "!"), ("!!", "tag:yaml.org,2002:")]

def document? (tokens : List Token) : Option Node := do
  if tokens.isEmpty then some .empty
  else
    let (handles, rest) ← directives false [] tokens
    let explicit := rest.head? == some .documentStart
    if !explicit && rest.length != tokens.length then none
    let rest := if explicit then rest.tail else rest
    let missing := explicit && (match rest with
      | [] | .documentStart :: _ | .documentEnd :: _ | .version _ _ :: _ | .tagHandle _ _ :: _ => true
      | _ => false)
    let (root, c) ←
      if missing then some (.empty, ⟨rest, [], []⟩)
      else (node true false (2 * rest.length + 2)).run ⟨rest, [], handles ++ standardHandles⟩
    if c.tokens.all (· == .documentEnd) then some root else none

end Compose

end TemplatedForms.Yaml
