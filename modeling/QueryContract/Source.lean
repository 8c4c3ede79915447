import QueryContract.Source.Declared
import QueryContract.Source.Grammar

/-!
# `Source` — types, methods and repositories from Rust source

* `DeclaredType.ofSource`, `Method.ofSource`, `RepositoryDeclaration.ofSource` — a whole text of each kind;
* `RepositoryDeclaration.domain` — the type that a repository is for.
-/

namespace QueryContract

open Source

/-- A result, if there is one; else the text is malformed. -/
def orMalformed {α : Type} : Option α → Except Fault α
  | some a => .ok a
  | none => .error .malformed

/-- The type that a text declares. -/
def DeclaredType.ofSource (source : String) : Except Fault DeclaredType := do
  let t ← orMalformed (typeOf? source.toList)
  t.declared

/-! ## Methods -/

/-- A declaration without the blanks around it, and with a semicolon at its end unless that is a semicolon or a brace
    already. -/
def terminated (source : List Char) : List Char :=
  let s := Text.trim source
  if s.getLast? = some ';' ∨ s.getLast? = some '\x7d' then s else s ++ [';']

/-- The method that a text declares; the semicolon at its end may be left out. -/
def Method.ofSource (source : String) : Except Fault Method := do
  let m ← orMalformed (methodOf? (terminated source.toList))
  m.declared

/-! ## Repositories -/

/-- A repository as a trait declares it: its name, the names of its type parameters, the traits that it extends and
    its methods, each in order. -/
structure RepositoryDeclaration where
  name : String
  generics : List String
  supertraits : List DeclaredType
  methods : List Method
deriving DecidableEq

namespace RepositoryDeclaration

/-- The traits among the bounds of a trait, each as a type. -/
def supertraitTypes (bounds : List Bound) : List TypeExpr :=
  bounds.filterMap fun
    | .trait _ _ leading segments => some (.path leading segments)
    | _ => none

/-- The repository that a written trait declares. -/
def ofTrait (t : TraitExpr) : Except Fault RepositoryDeclaration := do
  let supertraits ← (supertraitTypes t.bounds).mapM TypeExpr.declared
  let methods ← t.methods.mapM Signature.declared
  pure { name := t.name, generics := t.generics, supertraits, methods := methods.map (·.declaredIn t.name) }

/-- The repository that a text declares. -/
def ofSource (source : String) : Except Fault RepositoryDeclaration := do
  let t ← orMalformed (traitOf? source.toList)
  ofTrait t

/-- Whether a trait is a repository by its name. -/
def isRepository (t : DeclaredType) : Bool := "Repository".toList.isSuffixOf t.simpleName.toList

/-- The type that the repository is for: the first argument of the first trait that is a repository by its name. -/
def domain (d : RepositoryDeclaration) : Option DeclaredType := (d.supertraits.find? isRepository).bind (·.firstArg?)

end RepositoryDeclaration

end QueryContract
