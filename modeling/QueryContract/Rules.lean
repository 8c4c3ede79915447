import QueryContract.Parameters

/-!
# `Rules` — which roles go with which shapes

Three tables, looked at in this order: roles that exclude each other, roles that belong to certain shapes, shapes that
need a role. Duplicate roles are refused earlier, when parameters are classified.

* `conflicts`, `restrictions`, `requirements` — the tables;
* `conflict?`, `restriction?`, `requirement?` — the first broken rule of each table;
* `violation?` — the first broken rule of all.
-/

namespace QueryContract.Rules

/-! ## Tables -/

/-- Pairs of roles that are not to be played together; the first forbids the second. -/
def conflicts : List (Role × Role) := [(.pagination, .sort), (.pagination, .limit)]

/-- The shapes that can carry paging information. -/
def paginatable : List Shape := [.page, .slice, .window, .collection, .search]

/-- How a broken restriction is reported. -/
inductive Fault where
  /-- The parameter does not belong on the method. -/
  | illegalParameter
  /-- The shape cannot honour the parameter. -/
  | unsupportedShape
deriving DecidableEq

namespace Fault

/-- The displayed name. -/
def text : Fault → String
  | illegalParameter => "IllegalParameter"
  | unsupportedShape => "UnsupportedShape"

/-- The violation that a fault is reported as. -/
def violation : Fault → Role → Shape → List Shape → Violation
  | illegalParameter => .illegalParameter
  | unsupportedShape => .unsupportedShape

end Fault

/-- A role that goes with certain shapes only. -/
structure Restriction where
  role : Role
  allowed : List Shape
  /-- Shapes that the restriction does not speak of. -/
  exempt : List Shape
  fault : Fault
deriving DecidableEq

/-- The roles that go with certain shapes only. -/
def restrictions : List Restriction :=
  [⟨.scrollCursor, [.window], [], .illegalParameter⟩, ⟨.pagination, paginatable, [.stream], .unsupportedShape⟩]

/-- A shape that needs one of several roles. -/
structure Requirement where
  shape : Shape
  anyOf : List Role
deriving DecidableEq

/-- The shapes that need a role. -/
def requirements : List Requirement := [⟨.page, [.pagination]⟩, ⟨.window, [.scrollCursor, .pagination]⟩]

/-! ## Checks -/

/-- The first pair of conflicting roles that are both played. -/
def conflict? (ps : Parameters) : Option Violation :=
  conflicts.findSome? fun (present, conflicting) =>
    if ps.has present && ps.has conflicting then some (.conflictingParameters present conflicting) else none

/-- The first restricted role that is played with a shape it does not go with. -/
def restriction? (ps : Parameters) (shape : Shape) : Option Violation :=
  restrictions.findSome? fun r =>
    if ps.has r.role && !r.exempt.contains shape && !r.allowed.contains shape then
      some (r.fault.violation r.role shape r.allowed)
    else none

/-- The first requirement of the shape that no role meets. -/
def requirement? (ps : Parameters) (shape : Shape) : Option Violation :=
  requirements.findSome? fun r =>
    if r.shape = shape && !r.anyOf.any ps.has then some (.missingRequiredParameter shape r.anyOf) else none

/-- The first broken rule, if any. -/
def violation? (ps : Parameters) (shape : Shape) : Option Violation :=
  conflict? ps <|> restriction? ps shape <|> requirement? ps shape

end QueryContract.Rules
