import QueryContract.Source.TypeExpr

/-!
# `Source.Declaration` — methods and traits as they are written

What of a declaration is read on: generic parameters other than types, receivers, conditions, bodies, and trait items
other than methods leave no trace.
-/

namespace QueryContract.Source

/-- What a parameter is called. -/
inductive ParameterName where
  | name (n : String)
  /-- The low line, or no name at all. -/
  | unnamed
  /-- A pattern of any other kind. -/
  | pattern
deriving DecidableEq

/-- A parameter other than the receiver. -/
structure ParameterExpr where
  name : ParameterName
  type : TypeExpr

/-- The signature of a method; the result type may be left out. -/
structure Signature where
  name : String
  isAsync : Bool
  parameters : List ParameterExpr
  result : Option TypeExpr

/-- A trait: its name, the names of its type parameters, the bounds after its name, and its methods. -/
structure TraitExpr where
  name : String
  generics : List String
  bounds : List Bound
  methods : List Signature

end QueryContract.Source
