import QueryContract.DeclaredType

/-!
# `Shape` — shapes of results

A query method returns a single result or one of six kinds of containers. A **result shape** is the kind with the
type of the elements.
-/

namespace QueryContract

/-- The kind of a result. -/
inductive Shape where
  | single
  | collection
  | stream
  | page
  | slice
  | window
  | search
deriving DecidableEq

namespace Shape

/-- The displayed name. -/
def text : Shape → String
  | single => "Single"
  | collection => "Collection"
  | stream => "Stream"
  | page => "Page"
  | slice => "Slice"
  | window => "Window"
  | search => "Search"

/-- All shapes. -/
def all : List Shape := [single, collection, stream, page, slice, window, search]

instance : ToString Shape := ⟨text⟩

end Shape

/-- A kind of result with the type of its elements. -/
structure ResultShape where
  shape : Shape
  element : DeclaredType
deriving DecidableEq

namespace ResultShape

/-- The displayed text, such as `Page<User>`. -/
def text (r : ResultShape) : String := r.shape.text ++ "<" ++ r.element.text ++ ">"

instance : ToString ResultShape := ⟨text⟩

end ResultShape

end QueryContract
