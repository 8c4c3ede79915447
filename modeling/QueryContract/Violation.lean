import QueryContract.Role
import QueryContract.Shape

/-!
# `Violation` — why a method is rejected

Each cause is a constructor; its wording is in one function.

* `Malformed`  — the signature itself cannot be read as a query method;
* `Violation`  — a malformed signature, or one that breaks a rule between roles and result shape;
* `Rejection`  — a violation together with the method that it names.
-/

namespace QueryContract

/-- Why a signature is malformed. -/
inductive Malformed where
  /-- The role is played by the parameters at these positions. -/
  | duplicateRole (role : Role) (positions : List Nat)
  /-- The wrapper has no type argument, so nothing is inside it. -/
  | missingTypeArgument (wrapper : DeclaredType)
deriving DecidableEq

/-- Why a method is rejected. -/
inductive Violation where
  | malformed (reason : Malformed)
  /-- Both roles are played, and the first forbids the second. -/
  | conflictingParameters (present conflicting : Role)
  /-- The shape needs one of the roles, and none is played. -/
  | missingRequiredParameter (shape : Shape) (required : List Role)
  /-- The role is played, and belongs to other shapes only. -/
  | illegalParameter (role : Role) (shape : Shape) (allowed : List Shape)
  /-- The role is played, and the shape cannot honour it. -/
  | unsupportedShape (role : Role) (shape : Shape) (allowed : List Shape)
deriving DecidableEq

/-- A rejected method with the reason. -/
structure Rejection where
  method : Method
  violation : Violation
deriving DecidableEq

/-- Items with a comma and a space between them. -/
def listed (items : List String) : String := String.ofList (commaSeparated (items.map String.toList))

/-- The wording of a malformed signature. -/
def Malformed.message : Malformed → String
  | duplicateRole role positions =>
    "method must have only one " ++ role.text ++ " parameter, found " ++ toString positions.length ++
      " at positions [" ++ listed (positions.map toString) ++ "]"
  | missingTypeArgument wrapper =>
    "could not find component type of wrapper return type " ++ wrapper.text

/-- The wording of a violation, up to the method it names. -/
def Violation.message : Violation → String
  | malformed reason => "malformed signature: " ++ reason.message
  | conflictingParameters present conflicting =>
    "method using a " ++ present.text ++ " parameter must not declare a " ++ conflicting.text ++
      " parameter; express it through the " ++ present.text ++ " parameter instead"
  | missingRequiredParameter shape required =>
    shape.text ++ " query needs one of the following parameters: " ++ listed (required.map Role.text)
  | illegalParameter role shape allowed =>
    role.text ++ " parameter requires one of the following return shapes: " ++
      listed (allowed.map Shape.text) ++ ", found " ++ shape.text
  | unsupportedShape role shape allowed =>
    "method with a " ++ role.text ++ " parameter has to return one of the following shapes: " ++
      listed (allowed.map Shape.text) ++ ", found " ++ shape.text

/-- The full message: the violation and the offending method. -/
def Rejection.message (r : Rejection) : String :=
  r.violation.message ++ "; offending method: " ++ r.method.text

end QueryContract
