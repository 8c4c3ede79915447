import QueryContract.Hierarchy
import QueryContract.Method

/-!
# `Role` — reserved roles of parameters

A parameter binds a query value unless it plays one of four reserved roles. Which role it plays, if any, is decided
by a **classifier**, a function on declared parameters.

* `Role`, `Role.all` (the order in which roles are looked at), `Role.marker`;
* `Classifier.ofHierarchy` — the role whose marker type the parameter type is below;
* `Classifier.ofNames` — roles listed by parameter name and by type name.
-/

namespace QueryContract

/-- What a reserved parameter asks for. -/
inductive Role where
  | pagination
  | sort
  | limit
  | scrollCursor
deriving DecidableEq

namespace Role

/-- All roles, in the order in which they are looked at. -/
def all : List Role := [pagination, sort, limit, scrollCursor]

theorem mem_all (r : Role) : r ∈ all := by cases r <;> decide

/-- The type whose subtypes play the role. -/
def marker : Role → String
  | pagination => Marker.pageable
  | sort => Marker.sort
  | limit => Marker.limit
  | scrollCursor => Marker.scrollPosition

/-- The displayed name. -/
def text : Role → String
  | pagination => "Pagination"
  | sort => "Sort"
  | limit => "Limit"
  | scrollCursor => "ScrollCursor"

instance : ToString Role := ⟨text⟩

end Role

/-- Decides the role of a parameter; `none` for an ordinary one. -/
abbrev Classifier := DeclaredParameter → Option Role

namespace Classifier

/-- The first role whose marker type the parameter type is below. -/
def ofHierarchy (h : Hierarchy) : Classifier := fun p =>
  Role.all.find? fun r => h.isBelow p.type.simpleName r.marker

/-- The role listed for the name of the parameter, else the one listed for the simple name of its type. -/
def ofNames (byName byType : List (String × Role)) : Classifier := fun p =>
  (p.name.bind fun name => byName.lookup name) <|> byType.lookup p.type.simpleName

/-- With a hierarchy, nothing but the simple name of the type counts. -/
theorem ofHierarchy_congr (h : Hierarchy) {p q : DeclaredParameter}
    (same : p.type.simpleName = q.type.simpleName) : ofHierarchy h p = ofHierarchy h q := by
  simp [ofHierarchy, same]

end Classifier

end QueryContract
