import TemplatedForms.Yaml.Token

namespace TemplatedForms.Yaml

/-- A place where a key may have started: the number of tokens before it, and its position. A key is
`required` where nothing else can stand. -/
structure Candidate where
  tokens : Nat
  line : Nat
  column : Nat
  offset : Nat
  required : Bool

/-- A key goes on for one line and at most 1024 characters. -/
def Candidate.reaches (k : Candidate) (c : Cursor) : Bool :=
  c.line ≤ k.line && c.offset ≤ k.offset + 1024

structure Layout where
  cursor : Cursor
  tokens : List Token
  count : Nat
  /-- For each open block, the innermost one first, the column that its content lies to the right of. -/
  margins : List Nat
  /-- The possible key inside the innermost bracket, or outside of brackets. -/
  candidate : Option Candidate
  brackets : List (Option Candidate)
  keyAllowed : Bool

namespace Layout

def start (text : List Char) : Layout := ⟨.start text, [], 0, [], none, [], true⟩

def inFlow (l : Layout) : Bool := !l.brackets.isEmpty

def margin (l : Layout) : Nat := l.margins.headD 0

def emit (t : Token) (l : Layout) : Layout := { l with tokens := t :: l.tokens, count := l.count + 1 }

def insertAt (n : Nat) (t : Token) (l : Layout) : Layout :=
  let later := l.count - n
  { l with tokens := l.tokens.take later ++ t :: l.tokens.drop later, count := l.count + 1 }

def moveTo (c : Cursor) (l : Layout) : Layout := { l with cursor := c }

def advance (n : Nat) (l : Layout) : Layout := l.moveTo (l.cursor.advance n)

def allowKey (allowed : Bool) (l : Layout) : Layout := { l with keyAllowed := allowed }

def dropCandidate? (l : Layout) : Option Layout :=
  if l.candidate.any (·.required) then none else some { l with candidate := none }

def expire? (c : Cursor) (k : Option Candidate) : Option (Option Candidate) :=
  if k.all (·.reaches c) then some k
  else if k.any (·.required) then none
  else some none

def expireAll? (l : Layout) : Option Layout := do
  let candidate ← expire? l.cursor l.candidate
  let brackets ← l.brackets.mapM (expire? l.cursor)
  some { l with candidate, brackets }

def saveCandidate? (l : Layout) : Option Layout := do
  if !l.keyAllowed then some l
  else
    let c := l.cursor
    let l ← l.dropCandidate?
    let required := !l.inFlow && l.margin == c.column + 1
    some { l with candidate := some ⟨l.count, c.line, c.column, c.offset, required⟩ }

/-- Opens a block whose marks or keys stand in a column, if that lies to the right of those of the
innermost block. -/
def openBlock (kind : Bracket) (column position : Nat) (l : Layout) : Layout :=
  if !l.inFlow && l.margin ≤ column then
    { l with margins := (column + 1) :: l.margins }.insertAt position (.blockStart kind)
  else l

def closeBlocks (limit : Nat) (l : Layout) : Layout :=
  if l.inFlow then l
  else
    let closed := (l.margins.takeWhile (limit < ·)).length
    { l with
      tokens := List.replicate closed .blockEnd ++ l.tokens
      count := l.count + closed
      margins := l.margins.drop closed }

/-- Skips blanks, comments and empty lines. Tabs do not count where a block may start. Outside of
brackets a key may start on each new line. -/
def skipSpace : Nat → Layout → Layout
  | 0, l => l
  | fuel + 1, l =>
    let c := l.cursor
    let c := if c.column == 0 && c.rest.head? == some '\ufeff' then c.advance 1 else c
    let tabs := l.inFlow || !l.keyAllowed
    let c := (c.skipWhile fun ch ↦ ch == ' ' || (tabs && ch == '\t')).skipComment
    match c.break? with
    | some (_, c) => skipSpace fuel { l with cursor := c, keyAllowed := l.keyAllowed || !l.inFlow }
    | none => l.moveTo c

def documentMark? (read : Cursor → Option (Token × Cursor)) (l : Layout) : Option Layout := do
  let l ← (l.closeBlocks 0).dropCandidate?
  let (t, c) ← read l.cursor
  some (((l.allowKey false).moveTo c).emit t)

def openBracket? (kind : Bracket) (l : Layout) : Option Layout := do
  let l ← l.saveCandidate?
  let l := { l with candidate := none, brackets := l.candidate :: l.brackets, keyAllowed := true }
  some ((l.advance 1).emit (.flowStart kind))

def closeBracket? (kind : Bracket) (l : Layout) : Option Layout := do
  let l ← l.dropCandidate?
  let l := { l with candidate := l.brackets.head?.join, brackets := l.brackets.tail, keyAllowed := false }
  some ((l.advance 1).emit (.flowEnd kind))

def comma? (l : Layout) : Option Layout := do
  let l ← l.dropCandidate?
  some (((l.allowKey true).advance 1).emit .flowEntry)

def blockMark? (kind : Bracket) (keyAllowed : Bool) (t : Token) (l : Layout) : Option Layout := do
  if !l.inFlow && !l.keyAllowed then none
  else
    let l ← (l.openBlock kind l.cursor.column l.count).dropCandidate?
    some (((l.allowKey keyAllowed).advance 1).emit t)

def colon? (l : Layout) : Option Layout :=
  match l.candidate with
  | some k =>
    let l := (l.insertAt k.tokens .key).openBlock .mapping k.column k.tokens
    some ((({ l with candidate := none }.allowKey false).advance 1).emit .value)
  | none =>
    if !l.inFlow && !l.keyAllowed then none
    else
      let l := l.openBlock .mapping l.cursor.column l.count
      some (((l.allowKey !l.inFlow).advance 1).emit .value)

def node? (read : Cursor → Option (Token × Cursor)) (l : Layout) : Option Layout := do
  let l ← l.saveCandidate?
  let (t, c) ← read l.cursor
  some (((l.allowKey false).moveTo c).emit t)

def block? (folded : Bool) (l : Layout) : Option Layout := do
  let l ← l.dropCandidate?
  let (s, c) ← (l.cursor.advance 1).block? folded l.margin
  some (((l.allowKey true).moveTo c).emit (.scalar s))

def plain? (l : Layout) : Option Layout := do
  let l ← l.saveCandidate?
  let (s, c, followed) ← l.cursor.plain? l.inFlow l.margin
  some (((l.allowKey followed).moveTo c).emit (.scalar s))

def isMark (c : Char) : Bool := "-?:,[]\x7b\x7d#&*!|>'\"%@\x60".toList.contains c

def token? (ch : Char) (l : Layout) : Option Layout :=
  let c := l.cursor
  let wordEnds := c.endsWordAt 1
  if c.column == 0 && ch == '%' then l.documentMark? fun c ↦ (c.advance 1).directive?
  else if c.atDocumentStart then l.documentMark? fun c ↦ some (.documentStart, c.advance 3)
  else if c.atDocumentEnd then l.documentMark? fun c ↦ some (.documentEnd, c.advance 3)
  else if ch == '[' then l.openBracket? .sequence
  else if ch == '\x7b' then l.openBracket? .mapping
  else if ch == ']' then l.closeBracket? .sequence
  else if ch == '\x7d' then l.closeBracket? .mapping
  else if ch == ',' then l.comma?
  else if ch == '-' && wordEnds then l.blockMark? .sequence true .blockEntry
  else if ch == '?' && wordEnds then l.blockMark? .mapping (!l.inFlow) .key
  else if ch == ':' && (l.inFlow || wordEnds) then l.colon?
  else if ch == '*' then l.node? fun c ↦ ((c.advance 1).anchorName?).map fun (n, c) ↦ (.alias n, c)
  else if ch == '&' then l.node? fun c ↦ ((c.advance 1).anchorName?).map fun (n, c) ↦ (.anchor n, c)
  else if ch == '!' then l.node? fun c ↦ (c.tagName? l.inFlow).map fun (n, c) ↦ (.tag n, c)
  else if !l.inFlow && (ch == '|' || ch == '>') then l.block? (ch == '>')
  else if ch == '\'' || ch == '"' then l.node? fun c ↦ (c.quoted?).map fun (s, c) ↦ (.scalar s, c)
  else if !(isBlank ch || isMark ch) || ((ch == '-' || ch == '?' || ch == ':') && !wordEnds) then l.plain?
  else none

def run? : Nat → Layout → Option (List Token)
  | 0, _ => none
  | fuel + 1, l => do
    let l := l.skipSpace (l.cursor.rest.length + 1)
    let l ← l.expireAll?
    let l := l.closeBlocks (l.cursor.column + 1)
    match l.cursor.rest with
    | [] => do
      let l ← (l.closeBlocks 0).dropCandidate?
      some l.tokens.reverse
    | ch :: _ =>
      let l ← l.token? ch
      run? fuel l

end Layout

def tokenize? (text : String) : Option (List Token) :=
  let cs := match text.toList with
    | '\ufeff' :: cs => cs
    | cs => cs
  if cs.all isAllowed then (Layout.start cs).run? (cs.length + 1) else none

end TemplatedForms.Yaml
