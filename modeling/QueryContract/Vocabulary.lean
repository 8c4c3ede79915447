import QueryContract.Wrapper

/-!
# `Vocabulary` — what a result type means

The known wrappers and the declared subtypes together decide what a declared result type means: which type is inside
its wrapper, what its elements are, which entity the method works on, and its shape.

* `elementType`     — wrappers and containers taken off until something else, or a layer without argument, is left;
* `effectiveDomain` — the element type, unless the repository has an entity type that the element type is not below;
* `classify`        — the shape, in fixed precedence: page, slice, window, search, stream, collection, single;
* `resolve`         — all of it at once.

At most one wrapper layer is taken off before a type is classified, so in a doubly wrapped type the inner wrapper is
classified as written.
-/

namespace QueryContract

/-- The known wrappers and the declared subtypes. -/
structure Vocabulary where
  wrappers : WrapperTable
  hierarchy : Hierarchy
deriving DecidableEq

/-- What a declared result type means. -/
structure Resolution where
  /-- The type as declared, generic parameters resolved. -/
  declared : DeclaredType
  /-- The declared type with at most one wrapper layer taken off. -/
  unwrapped : DeclaredType
  /-- The type of the elements. -/
  element : DeclaredType
  /-- The entity type that the method works on. -/
  domain : DeclaredType
  shape : Shape
deriving DecidableEq

/-- The shape with the type of its elements. -/
def Resolution.result (r : Resolution) : ResultShape := ⟨r.shape, r.element⟩

namespace Vocabulary

/-- The built-in wrappers and types. -/
def builtin : Vocabulary := ⟨.builtin, .builtin⟩

/-- The vocabulary that knows nothing. -/
def empty : Vocabulary := ⟨.empty, .empty⟩

variable (v : Vocabulary)

/-! ## Elements and entities -/

/-- Whether the type is a wrapper or a container, so that its first argument is what it holds. -/
def isLayer (t : DeclaredType) : Bool := v.wrappers.isWrapper t || v.hierarchy.isElementContainer t

/-- The first type on the chain of first arguments that is no layer or has no argument. -/
def elementType : DeclaredType → DeclaredType
  | .mk path [] => .mk path []
  | .mk path (first :: more) =>
    if v.isLayer (.mk path (first :: more)) then elementType first else .mk path (first :: more)

/-- The entity type of a method: its element type if the repository has no entity type or the element type is below
    that one, else the repository's. -/
def effectiveDomain (domain : Option DeclaredType) (element : DeclaredType) : DeclaredType :=
  match domain with
  | none => element
  | some entity => if v.hierarchy.isTypeBelow element entity then element else entity

/-! ## Shapes -/

/-- The type that has to be a search hit for the result to be a search: the element of a collection or stream, or what
    a multi-valued wrapper held. -/
def hit? (declared unwrapped : DeclaredType) : Option DeclaredType :=
  if v.hierarchy.isCollectionLike unwrapped || v.hierarchy.isBelow unwrapped.simpleName Marker.stream then
    unwrapped.firstArg?
  else if v.wrappers.isMultiValued declared then some unwrapped
  else none

/-- Whether the result is a search: a search container, or several search hits. -/
def isSearch (declared unwrapped : DeclaredType) : Bool :=
  v.hierarchy.isBelow unwrapped.simpleName Marker.searchResults ||
    (v.hit? declared unwrapped).any fun hit => v.hierarchy.isBelow hit.simpleName Marker.searchResult

/-- Whether the result is a bulk of values: what a multi-valued wrapper holds, or a container that is not itself,
    optional layers off, the entity. -/
def isCollection (declared unwrapped domain : DeclaredType) : Bool :=
  if v.wrappers.isMultiValued declared then true
  else if v.hierarchy.isTypeBelow (v.wrappers.peelOptional unwrapped) domain then false
  else if v.wrappers.isWrapper unwrapped then !v.wrappers.isSingleValued unwrapped
  else v.hierarchy.isCollectionLike unwrapped

/-- The shape of an unwrapped result type. -/
def classify (declared unwrapped domain : DeclaredType) : Shape :=
  if v.hierarchy.isBelow unwrapped.simpleName Marker.page then .page
  else if v.hierarchy.isBelow unwrapped.simpleName Marker.slice then .slice
  else if v.hierarchy.isBelow unwrapped.simpleName Marker.window then .window
  else if v.isSearch declared unwrapped then .search
  else if v.hierarchy.isBelow unwrapped.simpleName Marker.stream then .stream
  else if v.isCollection declared unwrapped domain then .collection
  else .single

/-- What a declared result type means. `domain` is the entity type of the repository, `override` the element type
    where it is known beforehand. -/
def resolve (declared : DeclaredType) (domain override : Option DeclaredType) :
    Except Malformed Resolution :=
  match v.wrappers.unwrap declared with
  | .error reason => .error reason
  | .ok unwrapped =>
    let element := override.getD (v.elementType unwrapped)
    let entity := v.effectiveDomain domain element
    .ok ⟨declared, unwrapped, element, entity, v.classify declared unwrapped entity⟩

end Vocabulary

end QueryContract
