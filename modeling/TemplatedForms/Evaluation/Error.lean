namespace TemplatedForms

inductive EvalError
  | undefinedVariable (name : String)
  | propertyOfNothing (target property : String)
  | unknownMethod (owner method : String)
  | notCallable (callee : String)
  | invalidArgument (function reason : String)
  | unexpectedArrow
  | stepLimit (limit : Nat)
  | stringTooLong (limit : Nat)
deriving DecidableEq

namespace EvalError

def message : EvalError → String
  | .undefinedVariable name => name ++ " is not defined"
  | .propertyOfNothing target property =>
    "Cannot read properties of " ++ target ++ " (reading '" ++ property ++ "')"
  | .unknownMethod owner method => owner ++ "." ++ method ++ " is not a supported function"
  | .notCallable callee => callee ++ " is not a function"
  | .invalidArgument function reason => "Invalid argument for " ++ function ++ ": " ++ reason
  | .unexpectedArrow => "Arrow functions can only be passed as call arguments"
  | .stepLimit limit => "Evaluation exceeded " ++ toString limit ++ " steps"
  | .stringTooLong limit => "Invalid string length: longer than " ++ toString limit ++ " bytes"

end EvalError

/-- The length in bytes of the longest text that an expression may build. -/
def maxStringLength : Nat := 16 * 1024 * 1024

def checkLength (bytes : Nat) : Except EvalError Unit :=
  if bytes ≤ maxStringLength then .ok () else .error (.stringTooLong maxStringLength)

end TemplatedForms
