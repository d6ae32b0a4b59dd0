import TemplatedForms.Text.CodePoint
import TemplatedForms.Yaml.Gap

namespace TemplatedForms.Yaml

structure Scalar where
  plain : Bool
  text : List Char
deriving DecidableEq

namespace Cursor

def readHex? (digits : Nat) (c : Cursor) : Option (Char × Cursor) := do
  let ds := c.rest.take digits
  if ds.length < digits then none
  let values ← ds.mapM Text.hexValue?
  let n := values.foldl (fun n d ↦ 16 * n + d) 0
  if n.isValidChar then some (Char.ofNat n, c.advance digits) else none

def escape? (c : Cursor) : Option (Char × Cursor) :=
  match c.rest with
  | [] => none
  | ch :: _ =>
    let c := c.advance 1
    match ch with
    | '0' => some ('\x00', c)
    | 'a' => some ('\x07', c)
    | 'b' => some ('\x08', c)
    | 't' | '\t' => some ('\t', c)
    | 'n' => some ('\n', c)
    | 'v' => some ('\x0b', c)
    | 'f' => some ('\x0c', c)
    | 'r' => some ('\r', c)
    | 'e' => some ('\x1b', c)
    | 'N' => some ('\x85', c)
    | '_' => some ('\xa0', c)
    | 'L' => some ('\u2028', c)
    | 'P' => some ('\u2029', c)
    | ' ' | '"' | '/' | '\\' => some (ch, c)
    | 'x' => c.readHex? 2
    | 'u' => c.readHex? 4
    | 'U' => c.readHex? 8
    | _ => none

def singleQuoted? : Nat → List Char → Cursor → Option (List Char × Cursor)
  | 0, _, _ => none
  | fuel + 1, text, c =>
    if c.atDocumentMark then none
    else
      match c.rest with
      | [] => none
      | '\'' :: '\'' :: _ => singleQuoted? fuel ('\'' :: text) (c.advance 2)
      | '\'' :: _ => some (text.reverse, c.advance 1)
      | ch :: _ =>
        if isBlank ch || isBreak ch then
          match c.gap? 0 with
          | some (g, c) => singleQuoted? fuel (g.text.reverse ++ text) c
          | none => none
        else singleQuoted? fuel (ch :: text) (c.advance 1)

def doubleQuoted? : Nat → List Char → Cursor → Option (List Char × Cursor)
  | 0, _, _ => none
  | fuel + 1, text, c =>
    if c.atDocumentMark then none
    else
      match c.rest with
      | [] => none
      | '"' :: _ => some (text.reverse, c.advance 1)
      | '\\' :: _ =>
        match (c.advance 1).break? with
        | some (_, c) =>
          match c.breaks? 0 (c.rest.length + 1) [] with
          | some (more, c) => doubleQuoted? fuel (more.reverse ++ text) c
          | none => none
        | none =>
          match (c.advance 1).escape? with
          | some (ch, c) => doubleQuoted? fuel (ch :: text) c
          | none => none
      | ch :: _ =>
        if isBlank ch || isBreak ch then
          match c.gap? 0 with
          | some (g, c) => doubleQuoted? fuel (g.text.reverse ++ text) c
          | none => none
        else doubleQuoted? fuel (ch :: text) (c.advance 1)

def quoted? (c : Cursor) : Option (Scalar × Cursor) :=
  (match c.rest with
  | '\'' :: rest => singleQuoted? (rest.length + 1) [] (c.advance 1)
  | '"' :: rest => doubleQuoted? (rest.length + 1) [] (c.advance 1)
  | _ => none).map fun (text, c) ↦ (⟨false, text⟩, c)

def isFlowMark (c : Char) : Bool := c == ',' || c == '[' || c == ']' || c == '\x7b' || c == '\x7d'

/-- Where a plain scalar ends: before a colon with a blank behind it, inside brackets also before a
bracket or comma. -/
def endsPlain (inFlow : Bool) (c : Cursor) : Bool :=
  match c.rest with
  | [] => true
  | ':' :: rest => endsWord rest
  | ch :: _ => inFlow && isFlowMark ch

def strayColon (inFlow : Bool) (c : Cursor) : Bool :=
  match c.rest with
  | ':' :: ch :: _ => inFlow && (isFlowMark ch || ch == '?')
  | _ => false

/-- The rest of a plain scalar with its text so far reversed; `gap` lies in front of the cursor. The
last answer says whether a break follows the scalar. -/
def plainFrom? (inFlow : Bool) (margin : Nat) :
    Nat → List Char → Option Gap → Cursor → Option (List Char × Cursor × Bool)
  | 0, _, _, _ => none
  | fuel + 1, text, gap, c =>
    let done := some (text.reverse, c, gap.any Gap.isBreak)
    match c.rest with
    | [] => done
    | ch :: _ =>
      if isBlank ch || isBreak ch then
        match c.gap? margin with
        | none => none
        | some (g, c) =>
          if !inFlow && c.column < margin then some (text.reverse, c, g.isBreak)
          else plainFrom? inFlow margin fuel text (some g) c
      else if gap.isSome && (c.atDocumentMark || ch == '#') then done
      else if c.strayColon inFlow then none
      else if c.endsPlain inFlow then done
      else plainFrom? inFlow margin fuel (ch :: (gap.elim [] Gap.text).reverse ++ text) none (c.advance 1)

def plain? (inFlow : Bool) (margin : Nat) (c : Cursor) : Option (Scalar × Cursor × Bool) :=
  (c.plainFrom? inFlow margin (c.rest.length + 1) [] none).map fun (text, c, followed) ↦
    (⟨true, text⟩, c, followed)

inductive Chomping
  | strip
  | clip
  | keep
deriving DecidableEq

def chomping? : List Char → Option Chomping
  | '+' :: _ => some .keep
  | '-' :: _ => some .strip
  | _ => none

def indentDigit? (c : Cursor) : Option (Option Nat × Cursor) :=
  match c.rest with
  | ch :: _ =>
    if !ch.isDigit then some (none, c)
    else if ch == '0' then none
    else some (some (ch.toNat - '0'.toNat), c.advance 1)
  | [] => some (none, c)

def blockHeader? (c : Cursor) : Option (Chomping × Option Nat × Cursor) := do
  match chomping? c.rest with
  | some chomping =>
    let (indent, c) ← (c.advance 1).indentDigit?
    some (chomping, indent, ← c.lineEnd?)
  | none =>
    let (indent, c) ← c.indentDigit?
    match indent, chomping? c.rest with
    | some _, some chomping => some (chomping, indent, ← (c.advance 1).lineEnd?)
    | _, _ => some (.clip, indent, ← c.lineEnd?)

/-- Empty lines of a block, and the widest indentation among them and the next line. Lines are indented
by blanks up to `indent`, by any number of them if that is not known. -/
def emptyLines? (indent : Option Nat) : Nat → List Char → Nat → Cursor → Option (List Char × Nat × Cursor)
  | 0, _, _, _ => none
  | fuel + 1, found, widest, c =>
    let blanks := (c.takeWhile (· == ' ')).length
    let c := c.advance (indent.elim blanks fun n ↦ min blanks (n - c.column))
    if c.rest.head? == some '\t' && indent.all (c.column < ·) then none
    else
      let widest := max widest c.column
      match c.break? with
      | some (b, c) => emptyLines? indent fuel (found ++ b) widest c
      | none => some (found, widest, c)

/-- The rest of a block with its text so far reversed. `ending` is the break of the last line, `more` the
breaks of the empty lines after it; `indented` says that the last line starts with a blank. In a folded block
a break between two lines that do not becomes a blank, or goes if empty lines follow. -/
def blockLines? (folded : Bool) (chomping : Chomping) (indent : Nat) :
    Nat → List Char → (ending more : List Char) → Bool → Cursor → Option (List Char × Cursor)
  | 0, _, _, _, _, _ => none
  | fuel + 1, text, ending, more, indented, c =>
    if c.column == indent && !c.rest.isEmpty then
      let startsBlank := c.rest.head?.any isBlank
      let joint :=
        if folded && ending == ['\n'] && !indented && !startsBlank then if more.isEmpty then [' '] else more
        else ending ++ more
      let line := c.takeWhile fun ch ↦ !isBreak ch
      let c := c.advance line.length
      let (ending, c) := (c.break?).getD ([], c)
      match c.emptyLines? (some indent) (c.rest.length + 1) [] 0 with
      | some (more, _, c) =>
        blockLines? folded chomping indent fuel (line.reverse ++ joint.reverse ++ text) ending more startsBlank c
      | none => none
    else
      some (text.reverse ++ (match chomping with
        | .strip => []
        | .clip => ending
        | .keep => ending ++ more), c)

/-- A block of lines after its mark. Without an indentation in its header it is indented as far as its
first line, at least to the column `margin`. -/
def block? (folded : Bool) (margin : Nat) (c : Cursor) : Option (Scalar × Cursor) := do
  let (chomping, indent, c) ← c.blockHeader?
  let indent := indent.map fun n ↦ margin - 1 + n
  let (more, widest, c) ← c.emptyLines? indent (c.rest.length + 1) [] 0
  let indent := indent.getD (max widest (max margin 1))
  let (text, c) ← c.blockLines? folded chomping indent (c.rest.length + 1) [] [] more false
  some (⟨false, text⟩, c)

end Cursor

end TemplatedForms.Yaml
