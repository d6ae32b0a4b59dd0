import TemplatedForms.Text.Quoted

namespace TemplatedForms

inductive ParseError
  | unexpectedToken (expected found : String) (column : Nat)
  | unexpectedChar (found : Char) (column : Nat)
  | unterminatedString (column : Nat)
  | invalidEscape (column : Nat)
  | invalidArrowParams (column : Nat)
  | nestingTooDeep (limit : Nat)
  | empty
  | unexpectedEnd
deriving DecidableEq

namespace ParseError

def message : ParseError → String
  | .unexpectedToken expected found column =>
    "Unexpected token at column " ++ toString column ++ ": expected " ++ expected ++ ", found " ++
      Text.quoteText found
  | .unexpectedChar found column =>
    "Unexpected character " ++ Text.quoteChar found ++ " at column " ++ toString column
  | .unterminatedString column => "Unterminated string starting at column " ++ toString column
  | .invalidEscape column => "Invalid escape sequence at column " ++ toString column
  | .invalidArrowParams _ => "Arrow function parameters must be identifiers"
  | .nestingTooDeep limit => "Expression nesting exceeds " ++ toString limit ++ " levels"
  | .empty => "Empty expression"
  | .unexpectedEnd => "Unexpected end of input"

def column? : ParseError → Option Nat
  | .unexpectedToken _ _ column | .unexpectedChar _ column | .unterminatedString column
  | .invalidEscape column | .invalidArrowParams column => some column
  | .nestingTooDeep _ | .empty | .unexpectedEnd => none

end ParseError

end TemplatedForms
