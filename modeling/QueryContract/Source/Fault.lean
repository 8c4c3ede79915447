/-!
# `Source.Fault` — why a source text is not read

A text that is not a declaration at all, a type that has no counterpart among declared types, or a parameter whose
pattern gives it no name.
-/

namespace QueryContract.Source

/-- Why a source text is not read. -/
inductive Fault where
  /-- The text does not have the form of the declaration. -/
  | malformed
  /-- The type, written token by token, is of a form that no declared type has. -/
  | unsupportedType (written : String)
  /-- A parameter of the method has a pattern other than a name or `_`. -/
  | unsupportedPattern (method : String)
deriving DecidableEq

/-- The wording; of a malformed text nothing more is said. -/
def Fault.message? : Fault → Option String
  | malformed => none
  | unsupportedType written => some ("unsupported type \x60" ++ written ++ "\x60")
  | unsupportedPattern method => some ("unsupported parameter pattern in method \x60" ++ method ++ "\x60")

end QueryContract.Source
