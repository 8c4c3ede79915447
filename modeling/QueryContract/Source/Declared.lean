import QueryContract.Method
import QueryContract.Source.Declaration
import QueryContract.Source.Fault

/-!
# `Source.Declared` — what written types and signatures declare

A written type declares the path that it names, with the type arguments of its last segment. References, parentheses
and some pointers count as what they hold; a type known by its bounds counts as its first trait.

* `TypeExpr.declared` — the type that is declared, or the first type in it that has no counterpart;
* `Signature.declared` — the method that is declared.
-/

namespace QueryContract.Source

/-! ## Types -/

/-- The names of the types that count as their first argument. -/
def transparent : List String := ["Box", "Arc", "Rc", "Pin", "Cow", "Result"]

/-- Refuses a type. -/
def unsupported {α : Type} (t : TypeExpr) : Except Fault α := .error (.unsupportedType t.text)

/-- The names of the segments with double colons between them. -/
def joined (segments : List Segment) : String := "::".intercalate (segments.map Segment.name)

/-- The type that a path with the given arguments declares; `whole` is what is refused if there is none. -/
def declaredPath (whole : TypeExpr) (segments : List Segment) (args : List DeclaredType) : Except Fault DeclaredType :=
  match segments.getLast? with
  | none => unsupported whole
  | some last =>
    if transparent.contains last.name then
      match args with
      | first :: _ => .ok first
      | [] => unsupported whole
    else .ok (.generic (joined segments) args)

mutual

/-- The type that a written type declares. -/
def TypeExpr.declared : TypeExpr → Except Fault DeclaredType
  | .path leading segments => do
    let whole := TypeExpr.path leading segments
    declaredPath whole segments (← lastDeclared whole segments)
  | .member self leading base rest => do
    let whole := TypeExpr.member self leading base rest
    let args ← match rest with
      | [] => lastDeclared whole base
      | s :: ss => lastDeclared whole (s :: ss)
    declaredPath whole (base ++ rest) args
  | .reference _ _ target => target.declared
  | .paren inner => inner.declared
  | .slice element => do pure (.array (← element.declared))
  | .array element _ => do pure (.array (← element.declared))
  | .tuple [] _ => pure .unit
  | .tuple (t :: ts) trailing => unsupported (.tuple (t :: ts) trailing)
  | .bounded keyword bounds trailing => boundsDeclared (.bounded keyword bounds trailing) bounds
  | .other written bare => unsupported (.other written bare)

/-- The type arguments of the last segment of a path. -/
def lastDeclared (whole : TypeExpr) : List Segment → Except Fault (List DeclaredType)
  | [] => pure []
  | [s] => s.declared whole
  | _ :: s :: ss => lastDeclared whole (s :: ss)

/-- The type arguments of a segment. -/
def Segment.declared (whole : TypeExpr) : Segment → Except Fault (List DeclaredType)
  | .mk _ arguments => arguments.declared whole

/-- The type arguments among what follows the name of a segment; argument types in parentheses are refused. -/
def Arguments.declared (whole : TypeExpr) : Arguments → Except Fault (List DeclaredType)
  | .none => pure []
  | .angle _ args _ => allDeclared args
  | .parenthesized _ _ => unsupported whole

/-- The types among generic arguments, associated types included. -/
def allDeclared : List Argument → Except Fault (List DeclaredType)
  | [] => pure []
  | .type t :: as => do
    let first ← t.declared
    pure (first :: (← allDeclared as))
  | .associated _ t :: as => do
    let first ← t.declared
    pure (first :: (← allDeclared as))
  | .lifetime _ :: as => allDeclared as
  | .other _ :: as => allDeclared as

/-- The type that the first trait among bounds declares. -/
def boundsDeclared (whole : TypeExpr) : List Bound → Except Fault DeclaredType
  | [] => unsupported whole
  | .trait _ _ _ segments :: _ => do declaredPath whole segments (← lastDeclared whole segments)
  | .lifetime _ :: bounds => boundsDeclared whole bounds
  | .capture _ :: bounds => boundsDeclared whole bounds
  | .constant _ :: bounds => boundsDeclared whole bounds

end

/-! ## Methods -/

/-- The parameter that is declared. The type is read before the name, so that of two faults that of the type counts. -/
def ParameterExpr.declared (method : String) (p : ParameterExpr) : Except Fault DeclaredParameter := do
  let t ← p.type.declared
  match p.name with
  | .name n => pure ⟨some n, t⟩
  | .unnamed => pure ⟨none, t⟩
  | .pattern => throw (.unsupportedPattern method)

/-- The result type that is declared; that of an asynchronous method is delivered in a `Future`. -/
def Signature.declaredResult (m : Signature) : Except Fault DeclaredType := do
  let t ← match m.result with
    | some t => t.declared
    | none => pure .unit
  pure (if m.isAsync then .generic "Future" [t] else t)

/-- The method that is declared. -/
def Signature.declared (m : Signature) : Except Fault Method := do
  let parameters ← m.parameters.mapM (ParameterExpr.declared m.name)
  let result ← m.declaredResult
  pure { name := m.name, parameters, result }

end QueryContract.Source
