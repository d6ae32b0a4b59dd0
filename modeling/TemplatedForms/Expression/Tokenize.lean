import TemplatedForms.Expression.ParseError
import TemplatedForms.Expression.Token
import TemplatedForms.Number.Decimal
import TemplatedForms.Text.Alphabetic
import TemplatedForms.Text.Blank
import TemplatedForms.Text.CodePoint

namespace TemplatedForms

def byteLength (cs : List Char) : Nat := cs.foldl (fun n c ↦ n + c.utf8Size) 0

namespace Token

/-- The character that an escape sequence stands for, after its backslash, with the length of what
spells it. -/
def readEscape? : List Char → Option (Char × Nat × List Char)
  | 'n' :: rest => some ('\n', 1, rest)
  | 't' :: rest => some ('\t', 1, rest)
  | 'r' :: rest => some ('\r', 1, rest)
  | 'b' :: rest => some ('\x08', 1, rest)
  | 'f' :: rest => some ('\x0c', 1, rest)
  | '0' :: rest => some ('\x00', 1, rest)
  | 'u' :: rest => (Text.readCodePoint? rest).map fun (c, n, rest) ↦ (c, n + 1, rest)
  | c :: rest =>
    if c = '\\' ∨ c = '\'' ∨ c = '"' ∨ c = '/' ∨ c = Char.ofNat 0x60 then some (c, 1, rest) else none
  | [] => none

/-- The rest of a string literal that starts at column `start`, from column `column` on. `text` is the
reversed text so far. -/
def readQuoted (quote : Char) (start : Nat) :
    Nat → (text : List Char) → (column : Nat) → List Char → Except ParseError (String × Nat × List Char)
  | 0, _, _, _ => .error (.unterminatedString start)
  | _ + 1, _, _, [] => .error (.unterminatedString start)
  | fuel + 1, text, column, c :: rest =>
    if c = quote then .ok (String.ofList text.reverse, column + 1, rest)
    else if c = '\\' then
      if rest.isEmpty then .error (.unterminatedString start)
      else
        match readEscape? rest with
        | some (d, n, rest) => readQuoted quote start fuel (d :: text) (column + 1 + n) rest
        | none => .error (.invalidEscape column)
    else if c = '\n' then .error (.unterminatedString start)
    else readQuoted quote start fuel (c :: text) (column + c.utf8Size) rest

def isNameStart (c : Char) : Bool := Text.isAlphabetic c || c == '_'

def isNamePart (c : Char) : Bool := Text.isAlphanumeric c || c == '_'

def read (column : Nat) (first : Char) (rest : List Char) :
    Except ParseError (Token × Nat × List Char) :=
  if first = '\'' ∨ first = '"' then
    (readQuoted first column (rest.length + 1) [] (column + 1) rest).map fun (s, after, rest) ↦
      (.string s, after, rest)
  else
    match Number.Numeral.read? (first :: rest) with
    | some (n, rest) => .ok (.number n.toFloat, column + n.text.length, rest)
    | none =>
      if isNameStart first then
        let cs := first :: rest.takeWhile isNamePart
        .ok (.name (String.ofList cs), column + byteLength cs, rest.dropWhile isNamePart)
      else
        match Mark.read? (first :: rest) with
        | some (m, n, rest) => .ok (.mark m, column + n, rest)
        | none => .error (.unexpectedChar first column)

/-- The tokens of a text that starts at a column; `read` are those before it, the last one first. -/
def readAll : Nat → (found : List Positioned) → (column : Nat) → List Char →
    Except ParseError (List Positioned)
  | 0, found, _, _ => .ok found.reverse
  | fuel + 1, found, column, cs =>
    let blanks := cs.takeWhile Text.isBlank
    match cs.dropWhile Text.isBlank with
    | [] => .ok found.reverse
    | c :: rest => do
      let column := column + byteLength blanks
      let (token, after, rest) ← read column c rest
      readAll fuel (⟨token, column⟩ :: found) after rest

end Token

def tokenize (text : String) : Except ParseError (List Positioned) :=
  Token.readAll (text.toList.length + 1) [] 1 text.toList

end TemplatedForms
