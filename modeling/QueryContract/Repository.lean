import QueryContract.DeclaredType.Binding
import QueryContract.Method

/-!
# `Repository` — what a method's surroundings say

Facts about a repository that the description of its methods takes from outside. They are functions, so that a source
of facts can say anything; `Repository.ofBindings` is the plain one, with a name, an entity type and bindings.
-/

namespace QueryContract

/-- The facts about a repository. Only the entity type has to be given. -/
structure Repository where
  /-- The entity type, if the repository declares one. -/
  domain : Option DeclaredType
  /-- The name, if it is known. -/
  name : Option String := none
  /-- A type with the generic parameters of the repository resolved. -/
  resolveType : DeclaredType → DeclaredType := id
  /-- The result type of a method with the generic parameters resolved. -/
  resultType : Method → DeclaredType := fun m => resolveType m.result
  /-- The element type of a method's result, where it is known beforehand. -/
  elementType : Method → Option DeclaredType := fun _ => none

namespace Repository

/-- The repository with a name, an entity type and bound generic parameters. Without bindings a type is not looked
    into. -/
def ofBindings (name : Option String) (domain : Option DeclaredType) (σ : Bindings) : Repository :=
  { domain, name, resolveType := fun t => if σ.isEmpty then t else t.substitute σ }

/-- Not looking into a type is the same as replacing nothing in it. -/
theorem resolveType_ofBindings (name : Option String) (domain : Option DeclaredType) (σ : Bindings)
    (t : DeclaredType) : (ofBindings name domain σ).resolveType t = t.substitute σ := by
  show (if σ.isEmpty then t else t.substitute σ) = t.substitute σ
  cases σ with
  | nil => exact (DeclaredType.substitute_nil t).symm
  | cons entry σ => rfl

end Repository

end QueryContract
