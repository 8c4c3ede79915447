import QueryContract.Parameters
import QueryContract.Repository
import QueryContract.Vocabulary

/-!
# `Description` — a described query method

What is known about a method that was accepted: its classified parameters and the meaning of its result type, beside
the vocabulary and the repository that they were decided with.
-/

namespace QueryContract

/-- An accepted method with all that was decided about it. -/
structure Description where
  method : Method
  repository : Repository
  vocabulary : Vocabulary
  parameters : Parameters
  resolution : Resolution

namespace Description

variable (d : Description)

/-- The kind of the result. -/
def shape : Shape := d.resolution.shape

/-- The shape with the type of its elements. -/
def result : ResultShape := d.resolution.result

/-- The entity type that the method works on. -/
def domain : DeclaredType := d.resolution.domain

/-- The type of the elements that the method returns. -/
def element : DeclaredType := d.resolution.element

/-- The simple name of the entity. -/
def entityName : String := d.domain.simpleName

/-- Whether the method returns a bulk of results. Pages, slices and windows are containers of their own kind and are
    never a bulk; streams and searches are one if their types say so. -/
def isCollectionLike : Bool :=
  match d.shape with
  | .page | .slice | .window | .single => false
  | .collection => true
  | .stream | .search =>
    d.vocabulary.isCollection d.resolution.declared d.resolution.unwrapped d.resolution.domain

/-- Whether the method returns entities rather than parts of them. -/
def isEntityResult : Bool := d.vocabulary.hierarchy.isTypeBelow d.element d.domain

/-- The name under which a query for the method is declared elsewhere: entity, dot, method. -/
def queryId : String := d.entityName ++ "." ++ d.method.name

/-- Whether the method changes data. Nothing in a signature says so. -/
def isModifying (_ : Description) : Bool := false

end Description

end QueryContract
