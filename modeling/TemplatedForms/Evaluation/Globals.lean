import TemplatedForms.Evaluation.ListMethods
import TemplatedForms.Evaluation.NumberMethods
import TemplatedForms.Evaluation.TextMethods
import TemplatedForms.Json.Printer
import TemplatedForms.Json.Reader
import TemplatedForms.Value.Json

namespace TemplatedForms

open Number

variable {φ : Type}

def isNamespace (name : String) : Bool :=
  name == "Object" || name == "JSON" || name == "Math" || name == "Array"

def isGlobalFunction (name : String) : Bool :=
  name == "String" || name == "Number" || name == "Boolean"

namespace GlobalFunction

def ownEntries? : Value → Option (List (String × Value))
  | .undefined | .null => none
  | .object members => some members
  | .array items => some ((List.range items.length).map toString |>.zip items)
  | .string s => some ((List.range s.length).map toString |>.zip (s.toList.map .ofChar))
  | .bool _ | .number _ => some []

def entries (part : String × Value → Value) (args : Args φ) : Except EvalError Value := do
  match ownEntries? (← args.value 0) with
  | some es => return .array (es.map part)
  | none => args.invalid "Cannot convert undefined or null to object"

/-- The text of one level of indentation: up to ten blanks or the start of a text. -/
def indentation : Value → String
  | .number x => Text.repeated " " ((Whole.ofFloat x).clamp 10)
  | .string s => TextMethod.substring s 0 10
  | _ => ""

def stringify (args : Args φ) : Except EvalError Value := do
  let v ← args.value 0
  if v.isUndefined then return .undefined
  let indent := indentation (← args.value 2)
  return .string (if indent.isEmpty then v.toJson.compact else v.toJson.pretty indent)

def malformedJson : String := "<json>"

def parseJson (args : Args φ) : Except EvalError Value := do
  match Json.read? (← args.text 0) with
  | some j => return .ofJson j
  | none => args.invalid malformedJson

def extreme (better : Float → Float → Bool) (start : Float) (args : Args φ) : Except EvalError Value := do
  let xs := (← args.values).map Value.toNumber
  if xs.any Float.isNaN then return .number notANumber
  return .number (xs.foldl (fun best x ↦ if better x best then x else best) start)

def onNumber (f : Float → Float) (args : Args φ) : Except EvalError Value := do
  return .number (f (← args.value 0).toNumber)

end GlobalFunction

open GlobalFunction

def callGlobal (space name : String) (items : List (Arg φ)) : Except EvalError Value :=
  let args : Args φ := ⟨space ++ "." ++ name, items⟩
  match space, name with
  | "Object", "keys" => entries (fun e ↦ .string e.1) args
  | "Object", "values" => entries (fun e ↦ e.2) args
  | "Object", "entries" => entries (fun e ↦ .array [.string e.1, e.2]) args
  | "JSON", "stringify" => stringify args
  | "JSON", "parse" => parseJson args
  | "Math", "min" => extreme (fun x y ↦ x < y) positiveInfinity args
  | "Math", "max" => extreme (fun x y ↦ y < x) negativeInfinity args
  | "Math", "round" => onNumber (fun x ↦ (x + 0.5).floor) args
  | "Math", "floor" => onNumber Float.floor args
  | "Math", "ceil" => onNumber Float.ceil args
  | "Math", "abs" => onNumber Float.abs args
  | "Array", "isArray" => return .bool (← args.value 0).asArray?.isSome
  | _, _ => .error (.unknownMethod space name)

def callGlobalFunction (name : String) (items : List (Arg φ)) : Except EvalError Value := do
  let args : Args φ := ⟨name, items⟩
  let v ← args.value 0
  match name with
  | "String" => return .string (if items.isEmpty then "" else v.display)
  | "Number" => return .number (if items.isEmpty then 0 else v.toNumber)
  | "Boolean" => return .bool v.isTruthy
  | _ => .error (.notCallable name)

def ownerName : Value → String
  | .string _ => "String"
  | .array _ => "Array"
  | .number _ => "Number"
  | .bool _ => "Boolean"
  | .object _ => "Object"
  | .undefined | .null => "undefined"

def callMethod (target : Value) (name : String) (items : List (Arg φ)) : Routine φ Value :=
  let method? : Option (Args φ → Routine φ Value) :=
    match target with
    | .undefined | .null => some fun _ ↦ .fail (.propertyOfNothing target.display name)
    | .string s => textMethod? s name
    | .array items => listMethod? items name
    | .number x => numberMethod? x name
    | .bool _ => if name = "toString" then some fun _ ↦ .done (.string target.display) else none
    | .object _ => none
  match method? with
  | some method => method ⟨name, items⟩
  | none => .fail (.unknownMethod (ownerName target) name)

end TemplatedForms
